import KeywordRules.Proofs.Query.ParserScan
import KeywordRules.Proofs.Query.Splice

/-!
# Outlines of scans

What a query means does not depend on positions or warnings.  Without them a waiting connective is no more than what
stands on its left, and a scan becomes an outline: for each open group the disjunction and the conjunction read so
far, and the negations before the next operand.  A query means the value of its outline (`root_parse`); over tokens
that are yet to be spliced, the outline also remembers whether an operand has just ended (`root_spliceAnds`).
-/

namespace KeywordRules

/-- An operand under `n` negations. -/
def negate : Nat → Option Expr → Option Expr
  | 0, e => e
  | n + 1, e => negate n (e.map .not)

theorem negate_none (n : Nat) : negate n none = none := by
  induction n with
  | zero => rfl
  | succ n ih => exact ih

theorem negated_eq_negate (ns : List Nat) (e : Option Expr) : negated ns e = negate ns.length e := by
  induction ns generalizing e with
  | nil => rfl
  | cons n ns ih => exact ih (e.map .not)

/-- A group as far as it has been read: what stands before its last `OR`, what stands after it, and how many negations
wait for an operand. -/
structure Place where
  disjunction : Option Expr
  conjunction : Option Expr
  negations : Nat
deriving DecidableEq, Repr

namespace Place

def vacant : Place := ⟨none, none, 0⟩

/-- The place after an operand. -/
def fill (s : Place) (e : Option Expr) : Place :=
  ⟨s.disjunction, joinOperands .and s.conjunction (negate s.negations e), 0⟩

/-- What the group means if it ends here. -/
def value (s : Place) : Option Expr := joinOperands .or s.disjunction s.conjunction

@[simp] theorem value_vacant : vacant.value = none := rfl

end Place

/-- What may come next. -/
inductive Mode where
  /-- An operand. -/
  | awaiting
  /-- An operand, after an opening parenthesis that was dropped. -/
  | flat
  /-- A connective or the end of the group. -/
  | holding
deriving DecidableEq, Repr

/-- What the outermost of the open groups means if all are left unclosed and the innermost means `e`. -/
def leave : List Place → Option Expr → Option Expr
  | [], e => e
  | s :: gs, e => leave gs (s.fill e).value

/-- A scan without positions and warnings. -/
structure Outline where
  root? : Option Expr
  groups : List Place
  place : Place
  mode : Mode
  dropped : Nat
deriving DecidableEq, Repr

namespace Outline

/-- Nothing has been read. -/
def start : Outline := ⟨none, [], .vacant, .awaiting, 0⟩

/-- What the query means if it ends here. -/
def value (σ : Outline) : Option Expr := joinOperands .and σ.root? (leave σ.groups σ.place.value)

/-- Ends the piece that is being read. -/
def conclude (σ : Outline) : Outline := ⟨σ.value, [], .vacant, .awaiting, σ.dropped⟩

/-- The outline at a place where an operand may begin. -/
def resume (σ : Outline) : Outline := if σ.mode = .holding then σ.conclude else σ

def fill (σ : Outline) (e : Option Expr) : Outline := { σ with place := σ.place.fill e, mode := .holding }

def enter (σ : Outline) : Outline :=
  if σ.groups.length < maxNesting then
    { σ with groups := σ.place :: σ.groups, place := .vacant, mode := .awaiting }
  else { σ with mode := .flat, dropped := σ.dropped + 1 }

def close (σ : Outline) : Outline :=
  match σ.dropped, σ.groups with
  | d + 1, _ => { σ with dropped := d }
  | 0, [] => σ
  | 0, s :: gs => { σ with groups := gs, place := s.fill σ.place.value, mode := .holding }

def negate (σ : Outline) : Outline :=
  { σ with place := { σ.place with negations := σ.place.negations + 1 }, mode := .awaiting }

/-- Reads one token. -/
def step (σ : Outline) : Token → Outline
  | .opening => σ.resume.enter
  | .closing => σ.close
  | .term w m => σ.resume.fill (some (.leaf (Leaf.ofTerm w m)))
  | .phrase v => σ.resume.fill (some (.leaf (.phrase (normalise v))))
  | .connective .not => (if σ.mode = .awaiting then σ else σ.conclude).negate
  | .connective .and => { σ with place := { σ.place with negations := 0 }, mode := .awaiting }
  | .connective .or => { σ with place := ⟨σ.place.value, none, 0⟩, mode := .awaiting }

theorem resume_of_ne_holding {σ : Outline} (h : σ.mode ≠ .holding) : σ.resume = σ := if_neg h

theorem groups_length_resume {σ : Outline} (hn : σ.groups.length ≤ maxNesting) :
    σ.resume.groups.length ≤ maxNesting := by
  unfold resume
  split
  · exact Nat.zero_le _
  · exact hn

/-- No more groups are open than the nesting limit allows. -/
theorem groups_length_step {σ : Outline} (hn : σ.groups.length ≤ maxNesting) (t : Token) :
    (σ.step t).groups.length ≤ maxNesting := by
  have hresume := groups_length_resume hn
  rcases t with c | _ | _ | _ | _
  · rcases c with _ | _ | _
    · exact hn
    · exact hn
    · rw [step]
      split
      · exact hn
      · exact Nat.zero_le _
  · rw [step, enter]
    split
    · next hlt => exact hlt
    · exact hresume
  · rw [step, close]
    split
    · exact hn
    · exact hn
    · next hgs =>
      rw [hgs, List.length_cons] at hn
      exact Nat.le_of_succ_le hn
  · exact hresume
  · exact hresume

/-- Right after a token that ends no operand one is awaited. -/
theorem mode_step (σ : Outline) {t : Token} (h : t.endsValue = false) :
    (σ.step t).mode = .awaiting ∨ t = .opening ∧ (σ.step t).mode = .flat := by
  rcases t with c | _ | _ | _ | _
  · rcases c <;> exact .inl rfl
  · rw [step, enter]
    split
    · exact .inl rfl
    · exact .inr ⟨rfl, rfl⟩
  all_goals cases h

/-- Only with the end of an operand does an operand come to hand. -/
theorem endsValue_of_holding {σ : Outline} {t : Token} (h : (σ.step t).mode = .holding) : t.endsValue = true := by
  by_contra hends
  rw [Bool.not_eq_true] at hends
  rcases σ.mode_step hends with hm | ⟨-, hm⟩
  · simp [hm] at h
  · simp [hm] at h

end Outline

/-! ### The outline of a scan -/

def Slot.place (s : Slot) : Place :=
  ⟨s.disjunct?.bind Waiting.left, s.conjunct?.bind Waiting.left, s.negations.length⟩

def Stage.place : Stage → Place
  | .awaiting s _ => s.place
  | .holding d? v => ⟨d?.bind Waiting.left, v, 0⟩

def Stage.mode : Stage → Mode
  | .awaiting _ false => .awaiting
  | .awaiting _ true => .flat
  | .holding _ _ => .holding

def Scan.outline (σ : Scan) : Outline :=
  ⟨σ.root?, σ.groups.map fun g => g.2.place, σ.stage.place, σ.stage.mode, σ.dropped⟩

private theorem join_eq (build : Expr → Expr → Expr) (w? : Option Waiting) (e : Option Expr) :
    Waiting.join build w? e = joinOperands build (w?.bind Waiting.left) e := by
  cases w? <;> simp

private theorem place_holding (s : Slot) (e : Option Expr) :
    (Stage.holding s.disjunct? (s.conjunction e)).place = s.place.fill e := by
  simp [Stage.place, Place.fill, Slot.place, Slot.conjunction, join_eq, negated_eq_negate]

private theorem value_place (st : Stage) : st.place.value = st.value := by
  rcases st with ⟨s, flat⟩ | ⟨d?, v⟩
  · simp [Stage.place, Place.value, Slot.place, Slot.value, Slot.conjunction, join_eq, negated_none]
  · simp [Stage.place, Place.value, join_eq]

private theorem value_fill_place (s : Slot) (e : Option Expr) : (s.place.fill e).value = s.value e := by
  rw [← place_holding, value_place, Stage.value_holding, Slot.value]

private theorem leave_eq (gs : List (Nat × Slot)) (e : Option Expr) :
    leave (gs.map fun g => g.2.place) e = leaveGroups gs e := by
  induction gs generalizing e with
  | nil => rfl
  | cons g gs ih => rw [List.map_cons, leave, ih, value_fill_place, leaveGroups]

namespace Scan

theorem value_outline (σ : Scan) : σ.outline.value = σ.conclude.root? := by
  rw [Outline.value, outline, leave_eq, value_place, conclude]

theorem outline_conclude (σ : Scan) : σ.conclude.outline = σ.outline.conclude := by
  rw [Outline.conclude, value_outline]
  rfl

theorem outline_fill (σ : Scan) (s : Slot) (e : Option Expr) :
    (σ.fill s e).outline = ({ σ.outline with place := s.place } : Outline).fill e := by
  simp [outline, fill, Outline.fill, place_holding, Stage.mode]

/-- Where an operand may begin, its place is that of the outline. -/
theorem outline_resume (σ : Scan) :
    σ.resume.1.outline = σ.outline.resume ∧ σ.resume.2.place = σ.outline.resume.place := by
  rcases hst : σ.stage with ⟨s, _ | _⟩ | ⟨d?, v⟩
  · simp [resume, Outline.resume, outline, hst, Stage.mode, Stage.place]
  · simp [resume, Outline.resume, outline, hst, Stage.mode, Stage.place]
  · have hmode : σ.outline.mode = .holding := by simp [outline, hst, Stage.mode]
    rw [resume, hst, Outline.resume, if_pos hmode]
    exact ⟨σ.outline_conclude, rfl⟩

theorem outline_enter (σ : Scan) (s : Slot) (p : Nat) :
    (σ.enter s p).outline = ({ σ.outline with place := s.place } : Outline).enter := by
  unfold enter Outline.enter
  have hlength : σ.outline.groups.length = σ.groups.length := by simp [outline]
  dsimp only
  rw [hlength]
  split
  · rfl
  · rfl

theorem outline_close (σ : Scan) (p : Nat) : (σ.close p).outline = σ.outline.close := by
  obtain ⟨r, ws, gs, st, d⟩ := σ
  rcases d with _ | d
  · rcases gs with _ | ⟨⟨q, s⟩, gs⟩
    · rfl
    · rw [close, outline_fill]
      simp only [Outline.close, outline, Outline.fill, List.map_cons, value_place]
      rfl
  · rfl

/-- The outline reads what the scan reads. -/
theorem outline_step (σ : Scan) (t : Token) (p : Nat) : (σ.step (t, p)).outline = σ.outline.step t := by
  obtain ⟨hresume, hplace⟩ := σ.outline_resume
  have hread (l : Leaf) : (σ.read l p).outline = σ.outline.resume.fill (some (.leaf l)) := by
    rw [read, outline_fill, hplace, ← hresume]
    rfl
  rcases t with c | _ | _ | ⟨w, m⟩ | v
  · rcases c with _ | _ | _
    · rcases hst : σ.stage with ⟨s, flat⟩ | ⟨d?, v⟩ <;>
        simp [step, outline, Outline.step, hst, Stage.place, Slot.place, Slot.conjunction, Stage.mode, join_eq,
          negated_none]
    · simp only [step, outline, Outline.step, value_place]
      rfl
    · rcases hst : σ.stage with ⟨s, _ | _⟩ | ⟨d?, v⟩
      · simp [step, resumeNegation, outline, Outline.step, Outline.negate, hst, Stage.place, Slot.place, Stage.mode]
      · rw [step, resumeNegation, hst, Outline.step, if_neg (by simp [outline, hst, Stage.mode]), ← outline_conclude]
        rfl
      · rw [step, resumeNegation, hst, Outline.step, if_neg (by simp [outline, hst, Stage.mode]), ← outline_conclude]
        rfl
  · rw [step, outline_enter, hplace, Outline.step, hresume]
  · exact σ.outline_close p
  · exact hread _
  · exact hread _

theorem outline_foldl (σ : Scan) (ts : List Token) (p : Nat) :
    ((ts.zipIdx p).foldl step σ).outline = ts.foldl Outline.step σ.outline := by
  induction ts generalizing σ p with
  | nil => rfl
  | cons t ts ih => rw [List.zipIdx_cons, List.foldl_cons, ih, outline_step, List.foldl_cons]

end Scan

/-- A query means the value of its outline. -/
theorem root_parse (ts : List Token) : (parse ts).root? = (ts.foldl Outline.step .start).value := by
  rw [parse_eq_scan, Scan.result, ← Scan.value_outline, Scan.outline_foldl]
  rfl

/-! ### Outlines over tokens that are yet to be spliced -/

namespace Outline

/-- Reads one token, after the `AND` that is spliced before it if an operand has just ended; the flag says whether one
has. -/
def feed (x : Outline × Bool) (t : Token) : Outline × Bool :=
  ((if x.2 && t.startsValue then x.1.step (.connective .and) else x.1).step t, t.endsValue)

/-- Between an operand and the next one an `AND` is read. -/
theorem feed_of_starts (y : Outline × Bool) {t : Token} (h : t.startsValue = true) :
    feed (y.1, true) t = feed (feed y (.connective .and)) t := by
  have hand : feed y (.connective .and) = (y.1.step (.connective .and), false) := by
    simp [feed, Token.startsValue, Token.endsValue]
  rw [hand, feed, feed, h]
  rfl

/-- The meaning of spliced tokens, read unspliced. -/
theorem foldl_spliceAnds (σ : Outline) (ts : List Token) :
    (spliceAnds ts).foldl step σ = (ts.foldl feed (σ, false)).1 := by
  have hfeed (σ : Outline) (t : Token) : feed (σ, false) t = (σ.step t, t.endsValue) := rfl
  fun_induction spliceAnds ts generalizing σ with
  | case1 a b ts h ih =>
    rw [List.foldl_cons, List.foldl_cons, ih, List.foldl_cons, List.foldl_cons, List.foldl_cons, hfeed, hfeed, feed,
      if_pos h]
  | case2 a b ts h ih =>
    rw [List.foldl_cons, ih, List.foldl_cons, List.foldl_cons, List.foldl_cons, hfeed, hfeed, feed, if_neg h]
  | case3 ts h =>
    rcases ts with _ | ⟨a, _ | ⟨b, ts⟩⟩
    · rfl
    · rfl
    · exact absurd rfl (h a b ts)

end Outline

/-- What a query means once its juxtaposed operands are joined. -/
theorem root_spliceAnds (ts : List Token) :
    (parse (spliceAnds ts)).root? = (ts.foldl Outline.feed (.start, false)).1.value := by
  rw [root_parse, Outline.foldl_spliceAnds]

end KeywordRules
