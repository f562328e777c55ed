import KeywordRules.Proofs.Query.Lexing
import KeywordRules.Proofs.Query.Outline
import KeywordRules.Query.Compile

/-!
# Queries in parentheses

A query with balanced parentheses that nest less deep than the limit means in parentheses what it means alone: its
tokens never look at what stands before the parenthesis (`Outline.foldl_inside`), so the group is read like one
operand (`Outline.foldl_group`).  Hence queries in parentheses compose (`compile_composes`).
-/

namespace KeywordRules

/-- Whether the parentheses are balanced and nest at most `limit` deep, `k` being open before. -/
def isBalanced (limit : Nat) : (k : Nat) → List Token → Bool
  | k, [] => k == 0
  | k, .opening :: ts => k < limit && isBalanced limit (k + 1) ts
  | 0, .closing :: _ => false
  | k + 1, .closing :: ts => isBalanced limit k ts
  | k, _ :: ts => isBalanced limit k ts

namespace Outline

/-- The outline of a group's inside, within the open groups of `τ`. -/
def within (τ σ : Outline) : Outline := ⟨τ.root?, σ.groups ++ τ.groups, σ.place, σ.mode, τ.dropped⟩

/-- The reading of a balanced list so far: `k` groups are open and nothing has been concluded or dropped. -/
structure Sheltered (k : Nat) (σ : Outline) : Prop where
  root : σ.root? = none
  depth : σ.groups.length = k
  dropped : σ.dropped = 0
  mode : σ.mode = .awaiting ∨ σ.mode = .holding

theorem sheltered_start : Sheltered 0 start := ⟨rfl, rfl, rfl, .inl rfl⟩

variable {limit k : Nat} {τ σ : Outline} {t : Token} {ts : List Token}

private theorem resume_within (h : σ.mode = .awaiting) : (within τ σ).resume = within τ σ ∧ σ.resume = σ := by
  constructor
  · exact resume_of_ne_holding (by simp [within, h])
  · exact resume_of_ne_holding (by simp [h])

/-- A token of a balanced list is read within other groups as it is read alone. -/
theorem Sheltered.step (h : Sheltered k σ) (hτ : τ.dropped = 0) (hlimit : limit + τ.groups.length ≤ maxNesting)
    (hb : isBalanced limit k (t :: ts) = true) (ht : t.startsValue = true → σ.mode = .awaiting) :
    (within τ σ).step t = within τ (σ.step t) ∧ ∃ k', isBalanced limit k' ts = true ∧ Sheltered k' (σ.step t) := by
  obtain ⟨hroot, hdepth, hdropped, -⟩ := h
  rcases t with c | _ | _ | ⟨w, m⟩ | v
  · rcases c with _ | _ | _
    · exact ⟨rfl, k, hb, hroot, hdepth, hdropped, .inl rfl⟩
    · exact ⟨rfl, k, hb, hroot, hdepth, hdropped, .inl rfl⟩
    · have hmode := ht rfl
      have hw : (within τ σ).mode = .awaiting := hmode
      rw [Outline.step, if_pos hw, Outline.step, if_pos hmode]
      exact ⟨rfl, k, hb, hroot, hdepth, hdropped, .inl rfl⟩
  · have hmode := ht rfl
    obtain ⟨hw, hs⟩ := resume_within (τ := τ) hmode
    rw [isBalanced, Bool.and_eq_true, decide_eq_true_iff] at hb
    have hlt : σ.groups.length < maxNesting := by omega
    have hwlt : (within τ σ).groups.length < maxNesting := by
      rw [within, List.length_append]
      omega
    -- the bound on the nesting leaves room for the groups around, so both open the group
    rw [Outline.step, hw, enter, if_pos hwlt, Outline.step, hs, enter, if_pos hlt]
    exact ⟨rfl, k + 1, hb.2, hroot, by simp [hdepth], hdropped, .inl rfl⟩
  · obtain ⟨r, gs, s, m, d⟩ := σ
    simp only at hroot hdepth hdropped
    subst hroot hdropped
    rcases gs with _ | ⟨g, gs⟩
    · rw [← hdepth] at hb
      cases hb
    · rw [List.length_cons] at hdepth
      rw [← hdepth] at hb
      have hw : (within τ ⟨none, g :: gs, s, m, 0⟩).close = within τ (close ⟨none, g :: gs, s, m, 0⟩) := by
        obtain ⟨r', gs', s', m', d'⟩ := τ
        simp only at hτ
        subst hτ
        rfl
      exact ⟨hw, gs.length, hb, rfl, rfl, rfl, .inr rfl⟩
  · obtain ⟨hw, hs⟩ := resume_within (τ := τ) (ht rfl)
    rw [Outline.step, hw, Outline.step, hs]
    exact ⟨rfl, k, hb, hroot, hdepth, hdropped, .inr rfl⟩
  · obtain ⟨hw, hs⟩ := resume_within (τ := τ) (ht rfl)
    rw [Outline.step, hw, Outline.step, hs]
    exact ⟨rfl, k, hb, hroot, hdepth, hdropped, .inr rfl⟩

theorem Sheltered.feed {b : Bool} (h : Sheltered k σ) (hσ : σ.mode = .holding → b = true) (hτ : τ.dropped = 0)
    (hlimit : limit + τ.groups.length ≤ maxNesting) (hb : isBalanced limit k (t :: ts) = true) :
    feed (within τ σ, b) t = (within τ (feed (σ, b) t).1, (feed (σ, b) t).2) ∧
    ∃ k', isBalanced limit k' ts = true ∧ Sheltered k' (feed (σ, b) t).1 := by
  rw [Outline.feed, Outline.feed]
  split
  · have hand : Sheltered k (σ.step (.connective .and)) := ⟨h.root, h.depth, h.dropped, .inl rfl⟩
    obtain ⟨hstep, hnext⟩ := hand.step hτ hlimit hb fun _ => rfl
    exact ⟨by rw [← hstep]; rfl, hnext⟩
  · next hn =>
    have hawait : t.startsValue = true → σ.mode = .awaiting := by
      intro ht
      rcases h.mode with hm | hm
      · exact hm
      · exact absurd (by simp [hσ hm, ht]) hn
    obtain ⟨hstep, hnext⟩ := h.step hτ hlimit hb hawait
    exact ⟨by rw [hstep], hnext⟩

/-- A balanced list is read within other groups as it is read alone. -/
theorem foldl_inside {b : Bool} (h : Sheltered k σ) (hσ : σ.mode = .holding → b = true) (hτ : τ.dropped = 0)
    (hlimit : limit + τ.groups.length ≤ maxNesting) (hb : isBalanced limit k ts = true) :
    ts.foldl feed (within τ σ, b) = (within τ (ts.foldl feed (σ, b)).1, (ts.foldl feed (σ, b)).2) ∧
    Sheltered 0 (ts.foldl feed (σ, b)).1 := by
  induction ts generalizing k σ b with
  | nil =>
    rw [isBalanced, beq_iff_eq] at hb
    rw [← hb]
    exact ⟨rfl, h⟩
  | cons t ts ih =>
    obtain ⟨hfeed, k', hb', h'⟩ := h.feed hσ hτ hlimit hb
    rw [List.foldl_cons, hfeed, List.foldl_cons]
    exact ih h' endsValue_of_holding hb'

/-- A balanced list in parentheses is read like one operand. -/
theorem foldl_group (hσ : σ.mode = .awaiting) (hd : σ.dropped = 0)
    (hlimit : limit + (σ.groups.length + 1) ≤ maxNesting) (hb : isBalanced limit 0 ts = true) (us : List Token) :
    (.opening :: (ts ++ .closing :: us)).foldl feed (σ, false) =
      us.foldl feed (σ.fill (parse (spliceAnds ts)).root?, true) := by
  have hlt : σ.groups.length < maxNesting := by omega
  have hopen : feed (σ, false) .opening = (within { σ with groups := σ.place :: σ.groups } start, false) := by
    have hs : σ.resume = σ := resume_of_ne_holding (by simp [hσ])
    have hstep : σ.step .opening = within { σ with groups := σ.place :: σ.groups } start := by
      rw [Outline.step, hs, enter, if_pos hlt]
      rfl
    rw [← hstep]
    rfl
  obtain ⟨hin, hs⟩ := foldl_inside (τ := { σ with groups := σ.place :: σ.groups }) (b := false) sheltered_start
    (by simp [start]) hd hlimit hb
  rw [List.foldl_cons, hopen, List.foldl_append, hin, root_spliceAnds, List.foldl_cons]
  rcases hx : ts.foldl feed (start, false) with ⟨⟨r, gs, s, m, d⟩, b⟩
  rw [hx] at hs
  have hroot : r = none := hs.root
  have hgroups : gs = [] := List.length_eq_zero_iff.1 hs.depth
  subst hroot hgroups
  congr 1
  simp [Outline.feed, Outline.step, close, within, hd, Token.startsValue, Token.endsValue, fill, value, leave]

end Outline

/-! ### Compositions -/

section Roots

variable {ts us : List Token} (hts : isBalanced (maxNesting - 1) 0 ts = true)
  (hus : isBalanced (maxNesting - 1) 0 us = true)

include hts in
theorem root_negation : (parse (spliceAnds (.connective .not :: .opening :: (ts ++ [.closing])))).root? =
    (parse (spliceAnds ts)).root?.map .not := by
  have hnot : Outline.feed (.start, false) (.connective .not) = (Outline.start.negate, false) := rfl
  rw [root_spliceAnds, List.foldl_cons, hnot, Outline.foldl_group rfl rfl (by decide) hts]
  rcases (parse (spliceAnds ts)).root? <;> rfl

include hts hus

/-- Two groups joined by a connective that leaves the first of them at the place `place`. -/
private theorem root_connected {c : Connective} {build : Expr → Expr → Expr} (place : Option Expr → Place)
    (hplace : ∀ l, Outline.feed (Outline.start.fill l, true) (.connective c) =
      (⟨none, [], place l, .awaiting, 0⟩, false))
    (hvalue : ∀ l r, ((place l).fill r).value = joinOperands build l r) :
    (parse (spliceAnds (.opening :: (ts ++ .closing :: .connective c :: .opening :: (us ++ [.closing]))))).root? =
      joinOperands build (parse (spliceAnds ts)).root? (parse (spliceAnds us)).root? := by
  rw [root_spliceAnds, Outline.foldl_group rfl rfl (by decide) hts, List.foldl_cons, hplace,
    Outline.foldl_group rfl rfl (by simp [maxNesting]) hus, ← hvalue]
  simp [Outline.value, Outline.fill, leave]

theorem root_conjunction :
    (parse (spliceAnds (.opening :: (ts ++ .closing :: .connective .and :: .opening :: (us ++ [.closing]))))).root? =
      joinOperands .and (parse (spliceAnds ts)).root? (parse (spliceAnds us)).root? := by
  refine root_connected hts hus (fun l => ⟨none, l, 0⟩) (fun l => ?_) (fun l r => ?_)
  · cases l <;> rfl
  · simp [Place.fill, Place.value, negate]

theorem root_disjunction :
    (parse (spliceAnds (.opening :: (ts ++ .closing :: .connective .or :: .opening :: (us ++ [.closing]))))).root? =
      joinOperands .or (parse (spliceAnds ts)).root? (parse (spliceAnds us)).root? := by
  refine root_connected hts hus (fun l => ⟨l, none, 0⟩) (fun l => ?_) (fun l r => ?_)
  · cases l <;> rfl
  · simp [Place.fill, Place.value, negate]

/-- Groups side by side are joined by `AND`. -/
theorem root_juxtaposition :
    (parse (spliceAnds (.opening :: (ts ++ .closing :: .opening :: (us ++ [.closing]))))).root? =
      joinOperands .and (parse (spliceAnds ts)).root? (parse (spliceAnds us)).root? := by
  rw [← root_conjunction hts hus, root_spliceAnds, root_spliceAnds, Outline.foldl_group rfl rfl (by decide) hts,
    Outline.foldl_group rfl rfl (by decide) hts, List.foldl_cons, List.foldl_cons, List.foldl_cons,
    Outline.feed_of_starts (_, true) rfl]

end Roots

theorem isMatch_of_root {q : Text} {e : Expr} (h : (Query.compile q).root? = some e) (d : Text) :
    isMatch d q = e.holds (Document.ofText d) := by
  rw [isMatch, Query.isMatch, Query.holds, h]

/-- Queries in parentheses compose: what is compiled from their conjunction, their disjunction and the negation of one
is the conjunction, disjunction and negation of what is compiled from each, and so are the matches. -/
theorem compile_composes {q₁ q₂ : Text} {r₁ r₂ : Expr} (hq₁ : Even (q₁.count '"')) (hq₂ : Even (q₂.count '"'))
    (hb₁ : isBalanced (maxNesting - 1) 0 (tokenise q₁) = true)
    (hb₂ : isBalanced (maxNesting - 1) 0 (tokenise q₂) = true)
    (hr₁ : (Query.compile q₁).root? = some r₁) (hr₂ : (Query.compile q₂).root? = some r₂) :
    ((Query.compile (connected .and q₁ q₂)).root? = some (.and r₁ r₂) ∧
      (Query.compile (juxtaposed q₁ q₂)).root? = some (.and r₁ r₂) ∧
      (Query.compile (connected .or q₁ q₂)).root? = some (.or r₁ r₂) ∧
      (Query.compile (negation q₁)).root? = some (.not r₁)) ∧
    ∀ d, isMatch d (connected .and q₁ q₂) = (isMatch d q₁ && isMatch d q₂) ∧
      isMatch d (juxtaposed q₁ q₂) = (isMatch d q₁ && isMatch d q₂) ∧
      isMatch d (connected .or q₁ q₂) = (isMatch d q₁ || isMatch d q₂) ∧
      isMatch d (negation q₁) = !isMatch d q₁ := by
  have hp₁ : (parse (spliceAnds (tokenise q₁))).root? = some r₁ := hr₁
  have hp₂ : (parse (spliceAnds (tokenise q₂))).root? = some r₂ := hr₂
  have hand : (Query.compile (connected .and q₁ q₂)).root? = some (.and r₁ r₂) := by
    rw [Query.compile, Query.tokens, tokenise_connected .and hq₁ hq₂, root_conjunction hb₁ hb₂, hp₁, hp₂]
    rfl
  have hside : (Query.compile (juxtaposed q₁ q₂)).root? = some (.and r₁ r₂) := by
    rw [Query.compile, Query.tokens, tokenise_juxtaposed hq₁ hq₂, root_juxtaposition hb₁ hb₂, hp₁, hp₂]
    rfl
  have hor : (Query.compile (connected .or q₁ q₂)).root? = some (.or r₁ r₂) := by
    rw [Query.compile, Query.tokens, tokenise_connected .or hq₁ hq₂, root_disjunction hb₁ hb₂, hp₁, hp₂]
    rfl
  have hnot : (Query.compile (negation q₁)).root? = some (.not r₁) := by
    rw [Query.compile, Query.tokens, tokenise_negation hq₁, root_negation hb₁, hp₁]
    rfl
  refine ⟨⟨hand, hside, hor, hnot⟩, fun d => ?_⟩
  rw [isMatch_of_root hand, isMatch_of_root hside, isMatch_of_root hor, isMatch_of_root hnot, isMatch_of_root hr₁,
    isMatch_of_root hr₂]
  exact ⟨rfl, rfl, rfl, rfl⟩

/-- A query whose last connective lacks an operand. -/
def danglingQuery : Text := "a or".toList

/-- A query with a group and a pair of quotes of its own. -/
def quotedQuery : Text := "not (\"b\")".toList

theorem compile_composes_dangling :
    (Even (danglingQuery.count '"') ∧ isBalanced (maxNesting - 1) 0 (tokenise danglingQuery) = true ∧
      (Query.compile danglingQuery).root? = some (.leaf (.word ['a']))) ∧
    (Even (quotedQuery.count '"') ∧ isBalanced (maxNesting - 1) 0 (tokenise quotedQuery) = true ∧
      (Query.compile quotedQuery).root? = some (.not (.leaf (.phrase ['b'])))) ∧
    (Query.compile (connected .and danglingQuery quotedQuery)).root? =
      some (.and (.leaf (.word ['a'])) (.not (.leaf (.phrase ['b'])))) ∧
    ∀ d, isMatch d (connected .and danglingQuery quotedQuery) =
      (isMatch d danglingQuery && isMatch d quotedQuery) := by
  have ht₁ : tokenise danglingQuery = [.term ['a'] false, .connective .or] := by decide +kernel
  have ht₂ : tokenise quotedQuery = [.connective .not, .opening, .phrase ['b'], .closing] := by decide +kernel
  have hr₁ : (Query.compile danglingQuery).root? = some (.leaf (.word ['a'])) := by
    rw [Query.compile, Query.tokens, ht₁, root_spliceAnds]
    decide +kernel
  have hr₂ : (Query.compile quotedQuery).root? = some (.not (.leaf (.phrase ['b']))) := by
    rw [Query.compile, Query.tokens, ht₂, root_spliceAnds]
    decide +kernel
  have hq₁ : Even (danglingQuery.count '"') := by decide
  have hq₂ : Even (quotedQuery.count '"') := by decide
  have hb₁ : isBalanced (maxNesting - 1) 0 (tokenise danglingQuery) = true := by
    rw [ht₁]
    decide
  have hb₂ : isBalanced (maxNesting - 1) 0 (tokenise quotedQuery) = true := by
    rw [ht₂]
    decide
  have h := compile_composes hq₁ hq₂ hb₁ hb₂ hr₁ hr₂
  exact ⟨⟨hq₁, hb₁, hr₁⟩, ⟨hq₂, hb₂, hr₂⟩, h.1.1, fun d => (h.2 d).1⟩

end KeywordRules
