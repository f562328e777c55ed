import KeywordRules.Proofs.Query.Scan

/-!
# Parsing with a cursor

The readings of the parser hand on what is left of the tokens, and how deep groups may still nest is a parameter of theirs.
Here the same grammar is read by routines that share one state: a cursor that moves over the tokens, with the number of
open groups, which a routine changes and has to change back.  Nothing says beforehand that the loops and the calls come to
an end.  So a routine is told how many levels it may go down: each turn of a loop and each call takes one of them, and a run
that finds none left has no result.
-/

namespace KeywordRules

/-- The position of the next token, how many groups are open, and how many dropped opening parentheses wait for their
closing ones. -/
structure Cursor where
  position : Nat
  depth : Nat
  dropped : Nat
deriving DecidableEq, Repr

/-- One routine for each rule of the grammar. -/
inductive Routine where
  | disjunction
  | conjunction
  | negation
  | primary
deriving DecidableEq, Repr

/-- A call of a routine, with the cursor it is made at. -/
structure Call where
  routine : Routine
  cursor : Cursor
deriving DecidableEq, Repr

/-- One turn of the outermost loop: where it begins, and where the disjunction that it reads ends. -/
structure Turn where
  start : Nat
  stop : Nat
deriving DecidableEq, Repr

/-- The state the routines share.  The calls and the turns are recorded for the sake of what is said about them; no routine
looks at them. -/
structure Session extends Cursor where
  warnings : List Warning
  calls : List Call
  turns : List Turn
deriving DecidableEq, Repr

/-- Nothing has been done at the cursor. -/
def Session.at (c : Cursor) : Session := ⟨c, [], [], []⟩

/-- A run that may find no level left. -/
abbrev Run := StateT Session Option

namespace Run

/-! ### Steps -/

def position : Run Nat := return (← get).position

def advance : Run Unit := modify fun σ => { σ with position := σ.position + 1 }

def descend : Run Unit := modify fun σ => { σ with depth := σ.depth + 1 }

def ascend : Run Unit := modify fun σ => { σ with depth := σ.depth - 1 }

def warn (ws : List Warning) : Run Unit := modify fun σ => { σ with warnings := σ.warnings ++ ws }

def recordCall (r : Routine) : Run Unit := modify fun σ => { σ with calls := σ.calls ++ [⟨r, σ.toCursor⟩] }

def recordTurn (t : Turn) : Run Unit := modify fun σ => { σ with turns := σ.turns ++ [t] }

/-- Joins two operands by the connective `c` at the position `p`. -/
def join (c : Connective) (p : Nat) (build : Expr → Expr → Expr) (left right : Option Expr) : Run (Option Expr) := do
  warn (joinWarnings c p left right)
  return joinOperands build left right

variable (ts : List Token)

/-- The next token, behind the closing parentheses that end no group. -/
def peek : Nat → Run (Option Token)
  | 0 => failure
  | n + 1 => do
    let σ ← get
    if ts[σ.position]? = some .closing then
      if 0 < σ.dropped then
        set { σ with position := σ.position + 1, dropped := σ.dropped - 1 }
        peek n
      else if σ.depth = 0 then
        set { σ with position := σ.position + 1, warnings := σ.warnings ++ [Warning.unmatchedClose σ.position] }
        peek n
      else return some .closing
    else return ts[σ.position]?

/-- Takes the connective `c` if it is next, and tells its position. -/
def eat (c : Connective) (n : Nat) : Run (Option Nat) := do
  let t? ← peek ts n
  let p ← position
  if t? = some (.connective c) then
    advance
    return some p
  else return none

/-- Takes all negations that come next; `ns` are the positions of those before, the innermost first. -/
def negations (ns : List Nat) : Nat → Run (List Nat)
  | 0 => failure
  | n + 1 => do
    match ← eat ts .not n with
    | none => return ns
    | some p => negations (p :: ns) n

/-- Drops the opening parentheses that come next beyond the nesting limit, the token `t?` first, and tells what comes after
them. -/
def dropOpenings (t? : Option Token) : Nat → Run (Option Token)
  | 0 => failure
  | n + 1 => do
    let σ ← get
    if t? = some .opening ∧ maxNesting ≤ σ.depth then
      set
        { σ with
          position := σ.position + 1
          dropped := σ.dropped + 1
          warnings := σ.warnings ++ depthWarnings σ.position σ.dropped }
      dropOpenings (← peek ts n) n
    else return t?

/-- The token that an operand begins with. -/
def operandStart (n : Nat) : Run (Option Token) := do dropOpenings ts (← peek ts n) n

/-- Reads the leaf that the token `t?` stands for, if it is next and stands for one. -/
def leaf (t? : Option Token) : Run (Option Expr) := do
  let p ← position
  match t? with
  | some (.term w m) =>
    advance
    warn (bareWildcards p (Leaf.ofTerm w m))
    return some (.leaf (Leaf.ofTerm w m))
  | some (.phrase v) =>
    advance
    return some (.leaf (.phrase (normalise v)))
  | _ => return none

/-- Closes the group that was opened at the position `p`. -/
def close (p : Nat) : Run Unit := do
  if ts[← position]? = some .closing then advance else warn [.unclosedGroup p]

/-! ### Routines -/

mutual

/-- Reads what the rule of the routine says. -/
def call (r : Routine) : Nat → Run (Option Expr)
  | 0 => failure
  | n + 1 => do
    recordCall r
    match r with
    | .disjunction => chain .or .or .conjunction (← call .conjunction n) n
    | .conjunction => chain .and .and .negation (← call .negation n) n
    | .negation =>
      let ns ← negations ts [] n
      let e ← call .primary n
      warn (negationWarnings ns e)
      return negated ns e
    | .primary =>
      let t? ← operandStart ts n
      if t? = some .opening then
        let p ← position
        advance
        descend
        let e ← call .disjunction n
        ascend
        close ts p
        return e
      else leaf t?

/-- Reads the rest of a chain of operands joined by `c`, after `left`. -/
def chain (c : Connective) (build : Expr → Expr → Expr) (operand : Routine) (left : Option Expr) :
    Nat → Run (Option Expr)
  | 0 => failure
  | n + 1 => do
    match ← eat ts c n with
    | none => return left
    | some p => chain c build operand (← join c p build left (← call operand n)) n

end

/-- Reads disjunctions to the end of the tokens and joins them to `root`.  A turn that takes nothing gives up one token, so
the loop goes on. -/
def pieces (root : Option Expr) : Nat → Run (Option Expr)
  | 0 => failure
  | n + 1 => do
    match ← peek ts n with
    | none => return root
    | some _ =>
      let start ← position
      let e ← call ts .disjunction n
      let stop ← position
      recordTurn ⟨start, stop⟩
      if stop = start then advance
      pieces (joinOperands .and root e) n

/-- Reads the tokens of a query from the first one on. -/
def ofTokens (n : Nat) : Option (Option Expr × Session) := (pieces ts none n).run (.at ⟨0, 0, 0⟩)

end Run

end KeywordRules
