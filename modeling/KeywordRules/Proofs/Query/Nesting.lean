import KeywordRules.Proofs.Query.Outline

/-!
# Groups beyond the nesting limit

Parentheses beyond the nesting limit are dropped, and the tokens that remain (`flatten`) mean the same: up to the
next `NOT` that stands right after a dropped parenthesis.  There a reading ends with all its open groups, and another
one begins at the `NOT`; the pieces are joined (`flatPieces`, `parse_eq_flatPieces`).  Without such a `NOT` a query
means what its flattened tokens mean.
-/

namespace KeywordRules

/-- How many groups are open, and how many dropped parentheses wait for their closing ones. -/
structure Levels where
  opened : Nat
  dropped : Nat
deriving DecidableEq, Repr

namespace Levels

def step : Levels → Token → Levels
  | ⟨o, x⟩, .opening => if o = maxNesting then ⟨o, x + 1⟩ else ⟨o + 1, x⟩
  | ⟨o, x + 1⟩, .closing => ⟨o, x⟩
  | ⟨o, 0⟩, .closing => ⟨o - 1, 0⟩
  | l, _ => l

/-- Whether a token is kept: a parenthesis is not if it is beyond the limit. -/
def keeps : Levels → Token → Bool
  | l, .opening => l.opened != maxNesting
  | l, .closing => l.dropped == 0
  | _, _ => true

/-- Whether a parenthesis is dropped right before a `NOT`. -/
def cuts (l : Levels) (t : Token) (ts : List Token) : Bool :=
  t == .opening && l.opened == maxNesting && ts.head? == some (.connective .not)

end Levels

/-- The tokens without the parentheses beyond the nesting limit. -/
def flatten (l : Levels) : List Token → List Token
  | [] => []
  | t :: ts => if l.keeps t then t :: flatten (l.step t) ts else flatten (l.step t) ts

/-- The same, cut wherever a parenthesis is dropped right before a `NOT`: no group is open after a cut. -/
def flatPieces (l : Levels) : List Token → List (List Token)
  | [] => [[]]
  | t :: ts =>
    if l.cuts t ts then [] :: flatPieces ⟨0, l.dropped + 1⟩ ts
    else if l.keeps t then (flatPieces (l.step t) ts).modifyHead (t :: ·)
    else flatPieces (l.step t) ts

/-! ### The outline without what was dropped -/

/-- The mode as it would be if no parenthesis had been dropped. -/
def Mode.flattened : Mode → Mode
  | .holding => .holding
  | _ => .awaiting

namespace Outline

def levels (σ : Outline) : Levels := ⟨σ.groups.length, σ.dropped⟩

/-- The outline of the piece that is being read, as it would be if nothing had been dropped from it. -/
def flattened (σ : Outline) : Outline := ⟨none, σ.groups, σ.place, σ.mode.flattened, 0⟩

/-- An operand may follow, and so may a negation if it does. -/
def Admits (σ : Outline) (t : Token) : Prop :=
  t.startsValue = true → σ.mode ≠ .holding ∧ (t = .connective .not → σ.mode = .awaiting)

private theorem flattened_mode {σ : Outline} (h : σ.mode ≠ .holding) : σ.mode.flattened = .awaiting := by
  rcases hm : σ.mode
  · rfl
  · rfl
  · exact absurd hm h

private theorem resume_flattened {σ : Outline} (h : σ.mode ≠ .holding) : σ.flattened.resume = σ.flattened := by
  refine resume_of_ne_holding ?_
  rw [flattened, flattened_mode h]
  simp

private theorem flattened_fill {σ : Outline} (h : σ.mode ≠ .holding) (e : Option Expr) :
    (σ.resume.fill e).flattened = σ.flattened.resume.fill e := by
  rw [resume_of_ne_holding h, resume_flattened h]
  rfl

/-- A step of the piece, or of what remains of it, makes the same of it. -/
theorem flattened_step {σ : Outline} {t : Token} (hn : σ.groups.length ≤ maxNesting) (ht : σ.Admits t) :
    (σ.step t).flattened = (if σ.levels.keeps t then σ.flattened.step t else σ.flattened) ∧
    (σ.step t).levels = σ.levels.step t ∧ (σ.step t).root? = σ.root? := by
  rcases t with c | _ | _ | ⟨w, m⟩ | v
  · rcases c with _ | _ | _
    · exact ⟨rfl, rfl, rfl⟩
    · exact ⟨rfl, rfl, rfl⟩
    · have hmode : σ.mode = .awaiting := (ht rfl).2 rfl
      simp [step, flattened, levels, Levels.keeps, Levels.step, negate, hmode, Mode.flattened]
  · -- below the limit both open the group; at the limit only the mode shows that a parenthesis was dropped
    rw [step, resume_of_ne_holding (ht rfl).1, step, resume_flattened (ht rfl).1]
    by_cases hlt : σ.groups.length < maxNesting
    · have hgroups : σ.flattened.groups.length < maxNesting := hlt
      have hne : σ.groups.length ≠ maxNesting := Nat.ne_of_lt hlt
      rw [enter, if_pos hlt, enter, if_pos hgroups]
      simp [flattened, levels, Levels.keeps, Levels.step, hne, Mode.flattened]
    · have heq : σ.groups.length = maxNesting := by omega
      have hmode := flattened_mode (ht rfl).1
      rw [enter, if_neg hlt]
      simp [flattened, levels, Levels.keeps, Levels.step, heq, hmode]
      rfl
  · obtain ⟨r, gs, s, m, d⟩ := σ
    rcases d with _ | d
    · rcases gs with _ | ⟨g, gs⟩
      · exact ⟨rfl, rfl, rfl⟩
      · exact ⟨rfl, rfl, rfl⟩
    · exact ⟨rfl, rfl, rfl⟩
  · refine ⟨flattened_fill (ht rfl).1 _, ?_⟩
    rw [step, resume_of_ne_holding (ht rfl).1]
    exact ⟨rfl, rfl⟩
  · refine ⟨flattened_fill (ht rfl).1 _, ?_⟩
    rw [step, resume_of_ne_holding (ht rfl).1]
    exact ⟨rfl, rfl⟩

/-- The tokens after one that is not cut off are admitted. -/
theorem admits_head {σ : Outline} {t : Token} {ts : List Token} (hn : σ.groups.length ≤ maxNesting)
    (ht : σ.Admits t) (hts : (t :: ts).IsChain Abuts) (hcut : σ.levels.cuts t ts = false) :
    ∀ u ∈ ts.head?, (σ.step t).Admits u := by
  intro u hu hstarts
  rcases he : t.endsValue with _ | _
  · rcases σ.mode_step he with hmode | ⟨rfl, hmode⟩
    · simp [hmode]
    · refine ⟨by simp [hmode], fun hu' => ?_⟩
      subst hu'
      rw [step, resume_of_ne_holding (ht rfl).1, enter] at hmode
      split at hmode
      · cases hmode
      · have heq : σ.groups.length = maxNesting := by omega
        simp [Levels.cuts, levels, heq, Option.mem_def.1 hu] at hcut
  · rw [List.isChain_cons] at hts
    rw [hts.1 u hu he] at hstarts
    cases hstarts

end Outline

/-! ### Pieces -/

/-- Joins to `root?` what the pieces mean. -/
def joinPieces (root? : Option Expr) (ps : List (List Token)) : Option Expr :=
  ps.foldl (fun r p => joinOperands .and r (parse p).root?) root?

namespace Outline

/-- What the query means if the piece that is being read goes on with the first of `ps`, and the others follow. -/
def valueOn (σ : Outline) : List (List Token) → Option Expr
  | [] => σ.root?
  | p :: ps => joinPieces (joinOperands .and σ.root? (p.foldl step σ.flattened).value) ps

theorem valueOn_modifyHead {σ : Outline} {t : Token} (ps : List (List Token))
    (h : (σ.step t).flattened = σ.flattened.step t) (hr : (σ.step t).root? = σ.root?) :
    σ.valueOn (ps.modifyHead (t :: ·)) = (σ.step t).valueOn ps := by
  rcases ps with _ | ⟨p, ps⟩
  · exact hr.symm
  · rw [List.modifyHead_cons, valueOn, valueOn, List.foldl_cons, h, hr]

theorem valueOn_congr {σ τ : Outline} (ps : List (List Token)) (h : τ.flattened = σ.flattened)
    (hr : τ.root? = σ.root?) : τ.valueOn ps = σ.valueOn ps := by
  rcases ps with _ | ⟨p, ps⟩
  · exact hr
  · rw [valueOn, valueOn, h, hr]

theorem valueOn_of_start {σ : Outline} (h : σ.flattened = start) (ps : List (List Token)) :
    σ.valueOn ps = joinPieces σ.root? ps := by
  rcases ps with _ | ⟨p, ps⟩
  · rfl
  · rw [valueOn, h, ← root_parse]
    rfl

/-- A piece that ends here is joined to those before it, and the next one begins anew. -/
theorem valueOn_conclude (σ : Outline) (ps : List (List Token)) : σ.valueOn ([] :: ps) = σ.conclude.valueOn ps := by
  have hvalue : joinOperands .and σ.root? σ.flattened.value = σ.conclude.root? := by
    simp [value, flattened, conclude]
  rw [valueOn, List.foldl_nil, hvalue, valueOn_of_start rfl]

/-- A `NOT` right after a dropped parenthesis ends the piece before it. -/
theorem foldl_step_of_cuts {σ : Outline} {t : Token} {ts : List Token} (ht : σ.Admits t)
    (hcut : σ.levels.cuts t ts = true) :
    ts.foldl step (σ.step t) = ts.foldl step { σ.conclude with dropped := σ.dropped + 1 } := by
  simp only [Levels.cuts, Bool.and_eq_true, beq_iff_eq] at hcut
  obtain ⟨⟨rfl, ho⟩, hnot⟩ := hcut
  obtain ⟨us, rfl⟩ : ∃ us, ts = .connective .not :: us := List.head?_eq_some_iff.1 hnot
  have hlt : ¬ σ.groups.length < maxNesting := by
    change σ.groups.length = maxNesting at ho
    omega
  have hdrop : σ.step .opening = { σ with mode := .flat, dropped := σ.dropped + 1 } := by
    rw [step, resume_of_ne_holding (ht rfl).1, enter, if_neg hlt]
  rw [List.foldl_cons, List.foldl_cons, hdrop]
  rfl

/-- An outline goes on as its pieces say. -/
theorem value_foldl_step {σ : Outline} {ts : List Token} (hn : σ.groups.length ≤ maxNesting)
    (hts : ts.IsChain Abuts) (hhead : ∀ t ∈ ts.head?, σ.Admits t) :
    (ts.foldl step σ).value = σ.valueOn (flatPieces σ.levels ts) := by
  induction ts generalizing σ with
  | nil => simp [flatPieces, valueOn, joinPieces, value, flattened]
  | cons t ts ih =>
    have ht : σ.Admits t := hhead t rfl
    have hts' : ts.IsChain Abuts := (List.isChain_cons.1 hts).2
    obtain ⟨hflat, hlevels, hroot⟩ := flattened_step hn ht
    rw [List.foldl_cons, flatPieces]
    rcases hcut : σ.levels.cuts t ts with _ | _
    · have hnext := ih (groups_length_step hn t) hts' (admits_head hn ht hts hcut)
      rw [if_neg (by simp), hnext, hlevels]
      rcases hkeep : σ.levels.keeps t with _ | _
      · rw [if_neg (by simp)]
        refine valueOn_congr _ ?_ hroot
        rw [hflat, hkeep, if_neg (by simp)]
      · rw [if_pos rfl, valueOn_modifyHead _ _ hroot]
        rw [hflat, hkeep, if_pos rfl]
    · -- the induction goes on with the outline of a new piece, which still counts what was dropped before it
      have hnext := ih (σ := { σ.conclude with dropped := σ.dropped + 1 }) (Nat.zero_le _) hts'
        (fun u _ _ => ⟨by simp [conclude], fun _ => rfl⟩)
      rw [if_pos rfl, foldl_step_of_cuts ht hcut, hnext, valueOn_conclude]
      exact valueOn_congr _ rfl rfl

end Outline

/-! ### The meaning of flattened tokens -/

theorem flatPieces_eq_flatten {l : Levels} {ts : List Token}
    (h : ∀ us vs, ts = us ++ .opening :: .connective .not :: vs → (us.foldl Levels.step l).opened ≠ maxNesting) :
    flatPieces l ts = [flatten l ts] := by
  induction ts generalizing l with
  | nil => rfl
  | cons t ts ih =>
    have hcut : l.cuts t ts = false := by
      rw [Bool.eq_false_iff]
      intro hcut
      simp only [Levels.cuts, Bool.and_eq_true, beq_iff_eq] at hcut
      obtain ⟨⟨rfl, ho⟩, hnot⟩ := hcut
      rcases ts with _ | ⟨u, ts⟩
      · cases hnot
      · rw [Option.some.inj hnot] at h
        exact h [] ts rfl ho
    have hnext : flatPieces (l.step t) ts = [flatten (l.step t) ts] := by
      refine ih fun us vs hts => ?_
      exact h (t :: us) vs (by rw [hts, List.cons_append])
    rw [flatPieces, hcut, hnext, flatten]
    rcases l.keeps t with _ | _
    · rfl
    · rfl

/-- A query means what its pieces mean, flattened and joined. -/
theorem parse_eq_flatPieces (ts : List Token) :
    (parse (spliceAnds ts)).root? = joinPieces none (flatPieces ⟨0, 0⟩ (spliceAnds ts)) := by
  have hadmits : ∀ t ∈ (spliceAnds ts).head?, Outline.start.Admits t :=
    fun t _ _ => ⟨by simp [Outline.start], fun _ => rfl⟩
  rw [root_parse, Outline.value_foldl_step (Nat.zero_le _) (isChain_spliceAnds ts) hadmits]
  exact Outline.valueOn_of_start rfl _

/-- A query means what its flattened pieces mean together, and what its flattened tokens mean if no parenthesis is
dropped right before a `NOT`. -/
theorem parse_flatten (ts : List Token) :
    (parse (spliceAnds ts)).root? = joinPieces none (flatPieces ⟨0, 0⟩ (spliceAnds ts)) ∧
    ((∀ us vs, spliceAnds ts = us ++ .opening :: .connective .not :: vs →
        (us.foldl Levels.step ⟨0, 0⟩).opened ≠ maxNesting) →
      (parse (spliceAnds ts)).root? = (parse (flatten ⟨0, 0⟩ (spliceAnds ts))).root?) := by
  refine ⟨parse_eq_flatPieces ts, fun h => ?_⟩
  rw [parse_eq_flatPieces, flatPieces_eq_flatten h, joinPieces, List.foldl_cons, List.foldl_nil,
    joinOperands_none_left]

/-- A word, `OR`, and the tokens `ts` in as many groups as are allowed and one more. -/
def orBeyondLimit (ts : List Token) : List Token :=
  .term ['b'] false :: .connective .or :: (List.replicate (maxNesting + 1) .opening ++
    (ts ++ List.replicate (maxNesting + 1) .closing))

theorem parse_flatten_orBeyondLimit :
    (∀ us vs, spliceAnds (orBeyondLimit [.term ['a'] false]) = us ++ .opening :: .connective .not :: vs →
        (us.foldl Levels.step ⟨0, 0⟩).opened ≠ maxNesting) ∧
    (parse (spliceAnds (orBeyondLimit [.term ['a'] false]))).root? =
      (parse (flatten ⟨0, 0⟩ (spliceAnds (orBeyondLimit [.term ['a'] false])))).root? := by
  have hnot : .connective .not ∉ spliceAnds (orBeyondLimit [.term ['a'] false]) := by decide +kernel
  have h : ∀ us vs, spliceAnds (orBeyondLimit [.term ['a'] false]) = us ++ .opening :: .connective .not :: vs →
      (us.foldl Levels.step ⟨0, 0⟩).opened ≠ maxNesting := by
    intro us vs hts
    rw [hts] at hnot
    simp at hnot
  exact ⟨h, (parse_flatten _).2 h⟩

/-- A `NOT` right after a dropped parenthesis leaves the groups around it: what was a disjunction is read as a
conjunction. -/
theorem parse_ne_flatten_orBeyondLimit :
    (parse (spliceAnds (orBeyondLimit [.connective .not, .term ['a'] false]))).root? ≠
      (parse (flatten ⟨0, 0⟩ (spliceAnds (orBeyondLimit [.connective .not, .term ['a'] false])))).root? := by
  rw [root_parse, root_parse]
  decide +kernel

end KeywordRules
