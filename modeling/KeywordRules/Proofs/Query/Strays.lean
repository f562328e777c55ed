import KeywordRules.Proofs.Query.Outline

/-!
# Unmatched closing parentheses

An unmatched closing parenthesis is left out by the parser, but before that an `AND` is spliced between it and an
operand that follows.  So it does what an `AND` in its place would do before an operand, and elsewhere nothing
(`strayAnds`).  Mostly such an `AND` changes nothing either.  It does after a `NOT`, which loses its operand: that
case apart, a query means what it means without its unmatched parentheses (`parse_withoutStrays`).
-/

namespace KeywordRules

/-- How many parentheses are open after a token if `k` are open before it. -/
def opens (k : Nat) : Token → Nat
  | .opening => k + 1
  | .closing => k - 1
  | _ => k

/-- The tokens without unmatched closing parentheses, after `k` open ones. -/
def withoutStrays (k : Nat) : List Token → List Token
  | [] => []
  | t :: ts => if t = .closing ∧ k = 0 then withoutStrays k ts else t :: withoutStrays (opens k t) ts

/-- The same with an `AND` for each unmatched parenthesis that stands right before an operand. -/
def strayAnds (k : Nat) : List Token → List Token
  | [] => []
  | t :: ts =>
    if t = .closing ∧ k = 0 then
      if ts.head?.any Token.startsValue then .connective .and :: strayAnds k ts else strayAnds k ts
    else t :: strayAnds (opens k t) ts

/-- No negation stands right before an unmatched parenthesis and an operand after it. -/
def StraysApart (k : Nat) (ts : List Token) : Prop :=
  ∀ us n v vs, ts = us ++ .connective .not :: (List.replicate (n + 1) .closing ++ v :: vs) →
    v.startsValue = true → us.foldl opens k ≠ 0

theorem StraysApart.tail {k : Nat} {t : Token} {ts : List Token} (h : StraysApart k (t :: ts)) :
    StraysApart (opens k t) ts := by
  intro us n v vs hts hv
  exact h (t :: us) n v vs (by rw [hts, List.cons_append]) hv

/-! ### Parentheses and outlines -/

namespace Outline

/-- What holds of an outline after tokens with `k` open parentheses; `ended` says whether an operand may have ended
with the last of them. -/
structure Tracks (k : Nat) (σ : Outline) (ended : Bool) : Prop where
  depth : σ.groups.length + σ.dropped ≤ k
  ended_of_holding : σ.mode = .holding → ended = true
  groups_of_flat : σ.mode = .flat → σ.groups ≠ []

theorem tracks_start : Tracks 0 start false := ⟨Nat.le_refl 0, by simp [start], by simp [start]⟩

theorem Tracks.resume {k : Nat} {σ : Outline} {b : Bool} (h : σ.Tracks k b) :
    σ.resume.groups.length + σ.resume.dropped ≤ k := by
  have hdepth := h.depth
  unfold Outline.resume
  split
  · simp only [conclude, List.length_nil]
    omega
  · exact hdepth

private theorem Tracks.depth_step {k : Nat} {σ : Outline} {b : Bool} (h : σ.Tracks k b) (t : Token) :
    (σ.step t).groups.length + (σ.step t).dropped ≤ opens k t := by
  have hdepth := h.depth
  have hresume := h.resume
  rcases t with c | _ | _ | ⟨w, m⟩ | v
  · rcases c with _ | _ | _
    · exact hdepth
    · exact hdepth
    · rw [Outline.step]
      split
      · exact hdepth
      · simp only [negate, conclude, List.length_nil, opens]
        omega
  · simp only [Outline.step, enter, opens]
    split
    · simp only [List.length_cons]
      omega
    · simp only
      omega
  · obtain ⟨r, gs, s, m, d⟩ := σ
    simp only at hdepth
    rcases d with _ | d
    · rcases gs with _ | ⟨g, gs⟩
      · simp [Outline.step, close, opens]
      · simp only [Outline.step, close, opens]
        rw [List.length_cons] at hdepth
        omega
    · simp only [Outline.step, close, opens]
      omega
  · exact hresume
  · exact hresume

private theorem Tracks.flat_step {k : Nat} {σ : Outline} {b : Bool} (h : σ.Tracks k b) (t : Token)
    (hmode : (σ.step t).mode = .flat) : (σ.step t).groups ≠ [] := by
  rcases t with c | _ | _ | ⟨w, m⟩ | v
  · rcases c <;> cases hmode
  · rw [Outline.step, enter] at hmode ⊢
    split
    · simp
    · next hlt =>
      intro hnil
      simp only at hnil
      rw [hnil] at hlt
      simp [maxNesting] at hlt
  · have hflat := h.groups_of_flat
    obtain ⟨r, gs, s, m, d⟩ := σ
    rcases d with _ | d
    · rcases gs with _ | ⟨g, gs⟩
      · exact hflat hmode
      · cases hmode
    · exact hflat hmode
  · cases hmode
  · cases hmode

theorem Tracks.step {k : Nat} {σ : Outline} {b : Bool} (h : σ.Tracks k b) (t : Token) :
    (σ.step t).Tracks (opens k t) t.endsValue :=
  ⟨h.depth_step t, endsValue_of_holding, h.flat_step t⟩

theorem Tracks.feed {k : Nat} {σ : Outline} {b : Bool} (h : σ.Tracks k b) (t : Token) :
    (feed (σ, b) t).1.Tracks (opens k t) (feed (σ, b) t).2 := by
  rw [Outline.feed]
  split
  · exact (h.step (.connective .and)).step t
  · exact h.step t

/-- Outside groups an unmatched parenthesis only seems to end an operand. -/
theorem Tracks.feed_closing {σ : Outline} {b : Bool} (h : σ.Tracks 0 b) (c : Bool) :
    Outline.feed (σ, c) .closing = (σ, true) := by
  have hdepth := h.depth
  obtain ⟨r, gs, s, m, d⟩ := σ
  rcases d with _ | d
  · rcases gs with _ | ⟨g, gs⟩
    · simp [Outline.feed, Token.startsValue, Token.endsValue, Outline.step, close]
    · simp at hdepth
  · simp at hdepth

/-- An `AND` where an operand is awaited outside groups is forgotten unless negations wait for the operand. -/
theorem Tracks.step_and {σ : Outline} (h : σ.Tracks 0 false) (hn : σ.place.negations = 0) :
    σ.step (.connective .and) = σ := by
  obtain ⟨r, gs, s, m, d⟩ := σ
  have hdepth := h.depth
  rcases m
  · simp only at hn
    rw [Outline.step, ← hn]
  · -- a parenthesis is dropped only inside groups, and none is open here
    have hgs := h.groups_of_flat rfl
    rcases gs with _ | ⟨g, gs⟩
    · exact absurd rfl hgs
    · simp at hdepth
  · cases h.ended_of_holding rfl

/-- The next token makes the same of `x` and `y`. -/
def Agree (x y : Outline × Bool) : List Token → Prop
  | [] => x.1 = y.1
  | t :: _ => Outline.feed x t = Outline.feed y t

theorem Agree.refl (x : Outline × Bool) (ts : List Token) : Agree x x ts := by
  cases ts <;> rfl

/-- What ends an operand makes no difference before a token that begins none. -/
theorem agree_of_not_starts {σ : Outline} {b c : Bool} {ts : List Token}
    (h : ts.head?.any Token.startsValue = false) : Agree (σ, b) (σ, c) ts := by
  rcases ts with _ | ⟨t, ts⟩
  · rfl
  · have ht : t.startsValue = false := h
    simp [Agree, Outline.feed, ht]

/-- An unmatched parenthesis does what an `AND` in its place does. -/
theorem foldl_strayAnds {k : Nat} {x y : Outline × Bool} {ts : List Token} (hy : y.1.Tracks k y.2)
    (h : Agree x y ts) : (ts.foldl Outline.feed x).1 = ((strayAnds k ts).foldl Outline.feed y).1 := by
  induction ts generalizing k x y with
  | nil => exact h
  | cons t ts ih =>
    have hxy : Outline.feed x t = Outline.feed y t := h
    rw [List.foldl_cons, hxy, strayAnds]
    split
    · next hstray =>
      obtain ⟨rfl, rfl⟩ := hstray
      rw [hy.feed_closing]
      rcases hstarts : ts.head?.any Token.startsValue with _ | _
      · exact ih hy (agree_of_not_starts hstarts)
      · rw [if_pos rfl, List.foldl_cons]
        refine ih (hy.feed (.connective .and)) ?_
        rcases ts with _ | ⟨u, ts⟩
        · cases hstarts
        · exact feed_of_starts _ hstarts
    · exact ih (hy.feed t) (Agree.refl _ ts)

/-- An unmatched parenthesis does nothing unless negations wait for the operand after it. -/
theorem Tracks.agree_of_stray {y : Outline × Bool} {ts : List Token} (hy : y.1.Tracks 0 y.2)
    (hn : y.2 = false → ∀ t ∈ ts.head?, t.startsValue = true → y.1.place.negations = 0) :
    Agree (y.1, true) y ts := by
  obtain ⟨σ, b⟩ := y
  rcases ts with _ | ⟨t, ts⟩
  · rfl
  · rcases ht : t.startsValue with _ | _
    · exact agree_of_not_starts ht
    · rcases b with _ | _
      · have hand := Tracks.step_and hy (hn rfl t rfl ht)
        rw [Agree, Outline.feed, ht, Outline.feed]
        simp [hand]
      · exact Agree.refl _ _

/-- Only right after a `NOT` do negations wait, outside groups, where no operand has ended. -/
theorem eq_not_of_negations {k : Nat} {x : Outline × Bool} {t : Token} (hk : opens k t = 0)
    (hends : (feed x t).2 = false) (hn : (feed x t).1.place.negations ≠ 0) : t = .connective .not := by
  rcases t with c | _ | _ | _ | _
  · rcases c with _ | _ | _
    · exact absurd rfl hn
    · exact absurd rfl hn
    · rfl
  · cases hk
  · cases hends
  · cases hends
  · cases hends

/-- Unmatched parentheses apart from negations do nothing. -/
theorem foldl_withoutStrays {k : Nat} {x y : Outline × Bool} {ts : List Token} (hy : y.1.Tracks k y.2)
    (h : Agree x y ts) (hts : StraysApart k ts)
    (hn : y.2 = false → y.1.place.negations ≠ 0 → k = 0 → ∀ n v vs,
      ts = List.replicate n .closing ++ v :: vs → v.startsValue = true → n = 0) :
    (ts.foldl Outline.feed x).1 = ((withoutStrays k ts).foldl Outline.feed y).1 := by
  -- `y` has not read the unmatched parentheses; while negations wait in it, no operand may follow any of them
  induction ts generalizing k x y with
  | nil => exact h
  | cons t ts ih =>
    have hxy : Outline.feed x t = Outline.feed y t := h
    rw [List.foldl_cons, hxy, withoutStrays]
    split
    · next hstray =>
      obtain ⟨rfl, rfl⟩ := hstray
      rw [hy.feed_closing]
      refine ih hy ?_ hts.tail ?_
      · refine hy.agree_of_stray fun hended u hu hstarts => ?_
        by_contra hnn
        obtain ⟨us, rfl⟩ : ∃ us, ts = u :: us := List.head?_eq_some_iff.1 hu
        have hzero := hn hended hnn rfl 1 u us rfl hstarts
        omega
      · intro hf hnn hk n v vs hvs hv
        have hzero := hn hf hnn hk (n + 1) v vs (by rw [hvs, List.replicate_succ, List.cons_append]) hv
        omega
    · refine ih (hy.feed t) (Agree.refl _ ts) hts.tail ?_
      intro hf hnn hk n v vs hvs hv
      have ht := eq_not_of_negations hk hf hnn
      subst ht
      rcases n with _ | n
      · rfl
      · exact absurd hk (hts [] n v vs (by rw [hvs]; rfl) hv)

end Outline

/-- A query means what it means with an `AND` for each unmatched closing parenthesis right before an operand, and
without the others; and what it means without any of them, if none stands between a `NOT` and its operand. -/
theorem parse_withoutStrays (ts : List Token) :
    (parse (spliceAnds ts)).root? = (parse (spliceAnds (strayAnds 0 ts))).root? ∧
    (StraysApart 0 ts →
      (parse (spliceAnds ts)).root? = (parse (spliceAnds (withoutStrays 0 ts))).root?) := by
  have hagree : Outline.Agree (Outline.start, false) (Outline.start, false) ts := Outline.Agree.refl _ ts
  refine ⟨?_, fun h => ?_⟩
  · rw [root_spliceAnds, root_spliceAnds, Outline.foldl_strayAnds Outline.tracks_start hagree]
  · rw [root_spliceAnds, root_spliceAnds, Outline.foldl_withoutStrays Outline.tracks_start hagree h]
    intro _ hn
    exact absurd rfl hn

theorem parse_withoutStrays_not :
    StraysApart 0 [.term ['a'] false, .closing, .connective .not, .term ['b'] false, .closing] ∧
    (parse (spliceAnds [.term ['a'] false, .closing, .connective .not, .term ['b'] false, .closing])).root? =
      (parse (spliceAnds (withoutStrays 0
        [.term ['a'] false, .closing, .connective .not, .term ['b'] false, .closing]))).root? := by
  have h : StraysApart 0 [.term ['a'] false, .closing, .connective .not, .term ['b'] false, .closing] := by
    intro us n v vs hts
    rcases us with _ | ⟨_, _ | ⟨_, _ | ⟨_, _ | ⟨_, _ | ⟨_, us⟩⟩⟩⟩⟩ <;> simp [List.replicate_succ] at hts
  exact ⟨h, (parse_withoutStrays _).2 h⟩

/-- An unmatched closing parenthesis takes a `NOT` its operand. -/
theorem parse_ne_withoutStrays_not :
    (parse (spliceAnds [.connective .not, .closing, .term ['a'] false])).root? ≠
      (parse (spliceAnds (withoutStrays 0 [.connective .not, .closing, .term ['a'] false]))).root? := by
  rw [root_spliceAnds, root_spliceAnds]
  decide +kernel

end KeywordRules
