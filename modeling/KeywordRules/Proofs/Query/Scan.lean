import KeywordRules.Query.Parser

/-!
# Scanning a query token by token

The parser reads a query by recursion on its grammar.  A scan reads the same tokens one at a time, from left to
right: its state holds the groups that are open, and in the innermost of them the connectives that wait for an
operand.  What holds after any number of tokens can then be shown by induction on the tokens.

A token that begins an operand where none is awaited ends the piece read so far: all open groups are left unclosed,
and what they held is joined to the pieces before.  The same happens at a `NOT` after an opening parenthesis that
was dropped beyond the nesting limit.
-/

namespace KeywordRules

/-- A connective that waits for its right operand, with what stands on its left. -/
structure Waiting where
  position : Nat
  left : Option Expr
deriving DecidableEq, Repr

namespace Waiting

/-- What a connective makes of its right operand, if there is a connective. -/
def join (build : Expr → Expr → Expr) : Option Waiting → Option Expr → Option Expr
  | none, e => e
  | some p, e => joinOperands build p.left e

/-- The warning about a connective `c` that lacks an operand. -/
def lacks (c : Connective) : Option Waiting → Option Expr → List Warning
  | none, _ => []
  | some p, e => joinWarnings c p.position p.left e

@[simp] theorem join_none (build : Expr → Expr → Expr) (e : Option Expr) : join build none e = e := rfl

@[simp] theorem join_some (build : Expr → Expr → Expr) (p : Waiting) (e : Option Expr) :
    join build (some p) e = joinOperands build p.left e := rfl

@[simp] theorem lacks_none (c : Connective) (e : Option Expr) : lacks c none e = [] := rfl

@[simp] theorem lacks_some (c : Connective) (p : Waiting) (e : Option Expr) :
    lacks c (some p) e = joinWarnings c p.position p.left e := rfl

end Waiting

/-- An operand under the negations at the positions `ns`. -/
def negated : List Nat → Option Expr → Option Expr
  | [], e => e
  | _ :: ns, e => negated ns (e.map .not)

@[simp] theorem negated_nil (e : Option Expr) : negated [] e = e := rfl

/-- The warnings about negations at the positions `ns`, the innermost first, that have no operand. -/
def negationWarnings (ns : List Nat) : Option Expr → List Warning
  | some _ => []
  | none => ns.map (.missingOperand .not)

@[simp] theorem negationWarnings_nil (e : Option Expr) : negationWarnings [] e = [] := by
  cases e <;> rfl

/-- The warning about an opening parenthesis at the position `p` beyond the nesting limit, while `dropped` others
wait: only the first of them is reported. -/
def depthWarnings (p : Nat) : (dropped : Nat) → List Warning
  | 0 => [.nestingTooDeep p maxNesting]
  | _ + 1 => []

/-- A place where an operand is awaited: the `OR` and the `AND` that wait for it, and the positions of the negations
right before it, the innermost first. -/
structure Slot where
  disjunct? : Option Waiting
  conjunct? : Option Waiting
  negations : List Nat
deriving DecidableEq, Repr

namespace Slot

/-- The start of a group or a piece. -/
def vacant : Slot := ⟨none, none, []⟩

/-- The conjunction that ends with the operand `e`. -/
def conjunction (s : Slot) (e : Option Expr) : Option Expr := Waiting.join .and s.conjunct? (negated s.negations e)

def conjunctionWarnings (s : Slot) (e : Option Expr) : List Warning :=
  negationWarnings s.negations e ++ Waiting.lacks .and s.conjunct? (negated s.negations e)

/-- The disjunction that ends with the operand `e`. -/
def value (s : Slot) (e : Option Expr) : Option Expr := Waiting.join .or s.disjunct? (s.conjunction e)

def valueWarnings (s : Slot) (e : Option Expr) : List Warning :=
  s.conjunctionWarnings e ++ Waiting.lacks .or s.disjunct? (s.conjunction e)

@[simp] theorem value_vacant (e : Option Expr) : vacant.value e = e := rfl

@[simp] theorem valueWarnings_vacant (e : Option Expr) : vacant.valueWarnings e = [] := by
  cases e <;> rfl

end Slot

/-- Where a scan stands in the innermost open group. -/
inductive Stage where
  /-- An operand is awaited.  The flag says whether an opening parenthesis was dropped here. -/
  | awaiting (slot : Slot) (flat : Bool)
  /-- A conjunction has been read as far as it goes. -/
  | holding (disjunct? : Option Waiting) (value : Option Expr)
deriving DecidableEq, Repr

namespace Stage

/-- The `OR` that waits for the conjunction at hand. -/
def disjunct? : Stage → Option Waiting
  | awaiting s _ => s.disjunct?
  | holding d _ => d

/-- The conjunction at hand, whose last operand is missing if it is awaited. -/
def conjunction : Stage → Option Expr
  | awaiting s _ => s.conjunction none
  | holding _ v => v

def conjunctionWarnings : Stage → List Warning
  | awaiting s _ => s.conjunctionWarnings none
  | holding _ _ => []

/-- What the innermost group means if it ends here. -/
def value (s : Stage) : Option Expr := Waiting.join .or s.disjunct? s.conjunction

def valueWarnings (s : Stage) : List Warning :=
  s.conjunctionWarnings ++ Waiting.lacks .or s.disjunct? s.conjunction

@[simp] theorem disjunct?_awaiting (s : Slot) (flat : Bool) : (awaiting s flat).disjunct? = s.disjunct? := rfl

@[simp] theorem disjunct?_holding (d : Option Waiting) (v : Option Expr) : (holding d v).disjunct? = d := rfl

@[simp] theorem conjunction_awaiting (s : Slot) (flat : Bool) :
    (awaiting s flat).conjunction = s.conjunction none := rfl

@[simp] theorem conjunction_holding (d : Option Waiting) (v : Option Expr) : (holding d v).conjunction = v := rfl

@[simp] theorem conjunctionWarnings_awaiting (s : Slot) (flat : Bool) :
    (awaiting s flat).conjunctionWarnings = s.conjunctionWarnings none := rfl

@[simp] theorem conjunctionWarnings_holding (d : Option Waiting) (v : Option Expr) :
    (holding d v).conjunctionWarnings = [] := rfl

@[simp] theorem value_awaiting (s : Slot) (flat : Bool) : (awaiting s flat).value = s.value none := rfl

@[simp] theorem value_holding (d : Option Waiting) (v : Option Expr) :
    (holding d v).value = Waiting.join .or d v := rfl

@[simp] theorem valueWarnings_awaiting (s : Slot) (flat : Bool) :
    (awaiting s flat).valueWarnings = s.valueWarnings none := rfl

@[simp] theorem valueWarnings_holding (d : Option Waiting) (v : Option Expr) :
    (holding d v).valueWarnings = Waiting.lacks .or d v := rfl

end Stage

/-- What the outermost of the open groups `gs` means if all are left unclosed and the innermost means `e`. -/
def leaveGroups : List (Nat × Slot) → Option Expr → Option Expr
  | [], e => e
  | (_, s) :: gs, e => leaveGroups gs (s.value e)

def leaveWarnings : List (Nat × Slot) → Option Expr → List Warning
  | [], _ => []
  | (p, s) :: gs, e => .unclosedGroup p :: (s.valueWarnings e ++ leaveWarnings gs (s.value e))

/-- What has been read: the pieces joined so far, the warnings, the open groups with the positions of their
parentheses and the places they stand in, where the scan stands in the innermost one, and how many dropped opening
parentheses wait for their closing ones. -/
structure Scan where
  root? : Option Expr
  warnings : List Warning
  groups : List (Nat × Slot)
  stage : Stage
  dropped : Nat
deriving DecidableEq, Repr

namespace Scan

/-- Nothing has been read. -/
def start : Scan := ⟨none, [], [], .awaiting .vacant false, 0⟩

@[simp] def warn (σ : Scan) (ws : List Warning) : Scan := { σ with warnings := σ.warnings ++ ws }

/-- The scan at a place where an operand is awaited. -/
@[simp] def await (σ : Scan) (s : Slot) : Scan := { σ with stage := .awaiting s false }

/-- The scan with the conjunction `v` at hand, for which the `OR` of `d?` waits. -/
@[simp] def hold (σ : Scan) (d? : Option Waiting) (v : Option Expr) : Scan := { σ with stage := .holding d? v }

/-- Ends the piece that is being read. -/
def conclude (σ : Scan) : Scan where
  root? := joinOperands .and σ.root? (leaveGroups σ.groups σ.stage.value)
  warnings := σ.warnings ++ (σ.stage.valueWarnings ++ leaveWarnings σ.groups σ.stage.value)
  groups := []
  stage := .awaiting .vacant false
  dropped := σ.dropped

/-- Puts the operand `e` into the place `s`. -/
def fill (σ : Scan) (s : Slot) (e : Option Expr) : Scan :=
  (σ.warn (s.conjunctionWarnings e)).hold s.disjunct? (s.conjunction e)

/-- Opens a group in the place `s`, or drops its parenthesis beyond the nesting limit. -/
def enter (σ : Scan) (s : Slot) (p : Nat) : Scan :=
  if σ.groups.length < maxNesting then ({ σ with groups := (p, s) :: σ.groups }).await .vacant
  else
    { σ with
      stage := .awaiting s true
      dropped := σ.dropped + 1
      warnings := σ.warnings ++ depthWarnings p σ.dropped }

/-- Closes a dropped group, or else the innermost one; outside groups the parenthesis is a stray. -/
def close (σ : Scan) (p : Nat) : Scan :=
  match σ.dropped, σ.groups with
  | d + 1, _ => { σ with dropped := d }
  | 0, [] => σ.warn [.unmatchedClose p]
  | 0, (_, s) :: gs => ({ σ with groups := gs }.warn σ.stage.valueWarnings).fill s σ.stage.value

/-- The scan at a place where an operand may begin, and that place. -/
def resume (σ : Scan) : Scan × Slot :=
  match σ.stage with
  | .awaiting s _ => (σ, s)
  | .holding _ _ => (σ.conclude, .vacant)

/-- The same for a negation, which a dropped opening parenthesis may not precede. -/
def resumeNegation (σ : Scan) : Scan × Slot :=
  match σ.stage with
  | .awaiting s false => (σ, s)
  | _ => (σ.conclude, .vacant)

/-- Reads a leaf. -/
def read (σ : Scan) (l : Leaf) (p : Nat) : Scan :=
  (σ.resume.1.warn (bareWildcards p l)).fill σ.resume.2 (some (.leaf l))

/-- Reads one token with its position. -/
def step (σ : Scan) : Token × Nat → Scan
  | (.opening, p) => σ.resume.1.enter σ.resume.2 p
  | (.closing, p) => σ.close p
  | (.term w m, p) => σ.read (Leaf.ofTerm w m) p
  | (.phrase v, p) => σ.read (.phrase (normalise v)) p
  | (.connective .not, p) =>
    let s := σ.resumeNegation.2
    σ.resumeNegation.1.await { s with negations := p :: s.negations }
  | (.connective .and, p) =>
    (σ.warn σ.stage.conjunctionWarnings).await ⟨σ.stage.disjunct?, some ⟨p, σ.stage.conjunction⟩, []⟩
  | (.connective .or, p) => (σ.warn σ.stage.valueWarnings).await ⟨some ⟨p, σ.stage.value⟩, none, []⟩

/-- What a query means, and the warnings about it, if it continues with `ts` and then ends. -/
def result (σ : Scan) (ts : List (Token × Nat)) : Option Expr × List Warning :=
  ((ts.foldl step σ).conclude.root?, (ts.foldl step σ).conclude.warnings)

end Scan

end KeywordRules
