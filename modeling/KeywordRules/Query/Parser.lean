import KeywordRules.Query.Expr
import KeywordRules.Query.TokenStream
import KeywordRules.Text.Words

/-!
# From tokens to expressions

The grammar, loosest binding first:

    disjunction := conjunction (OR conjunction)*
    conjunction := negation (AND negation)*
    negation    := NOT negation | primary
    primary     := '(' disjunction ')' | term | phrase

Chains associate to the left.  Reading never fails: a closing parenthesis without a group is left out, a group that
is never closed ends with the query, a connective without an operand contributes nothing, and groups beyond the
nesting limit are merged into the group around them.  Each of these is reported, in the order met.  What is left
after a complete expression is joined to it by conjunction.

Every reading hands on a stream that is no longer than the one it was given, so chains and groups come to an end.
-/

namespace KeywordRules

/-- What was read from the stream `s`: an expression, if any operand was found, the warnings in the order met, and the
stream that is left. -/
structure Outcome (s : TokenStream) where
  expr? : Option Expr
  warnings : List Warning
  rest : TokenStream
  le : rest.length ≤ s.length

/-- A way to read an expression from any stream. -/
abbrev Reading := (s : TokenStream) → Outcome s

/-- The leaf a term stands for.  A term of several words is a phrase. -/
def Leaf.ofTerm (word : Text) (marked : Bool) : Leaf :=
  let v := normalise word
  if ' ' ∈ v then .phrase v else if marked then .stem v else .word v

/-- The warning about a leaf that can match nothing because its mark stands alone. -/
def bareWildcards (position : Nat) : Leaf → List Warning
  | .stem [] => [.bareWildcard position]
  | _ => []

/-- The leaf at the head of a stream. -/
def readLeaf (s : TokenStream) : Outcome s :=
  match h : s.tokens with
  | (.term w m, p) :: ts =>
    let leaf := Leaf.ofTerm w m
    ⟨some (.leaf leaf), bareWildcards p leaf, ⟨ts, s.dropped⟩, by simp [TokenStream.length, h]⟩
  | (.phrase v, _) :: ts =>
    ⟨some (.leaf (.phrase (normalise v))), [], ⟨ts, s.dropped⟩, by simp [TokenStream.length, h]⟩
  | _ => ⟨none, [], s, Nat.le_refl _⟩

/-- A group, whose inside is read by `group`, or a leaf. -/
def readPrimary (inGroup : Bool) (group : Reading) (s : TokenStream) : Outcome s :=
  let t := s.settle inGroup
  match h : t.tokens with
  | (.opening, p) :: ts =>
    let inner := group ⟨ts, t.dropped⟩
    have lt : inner.rest.length < s.length := Nat.lt_of_le_of_lt inner.le (TokenStream.length_lt_of_settle h)
    match h' : inner.rest.tokens with
    | (.closing, _) :: us =>
      ⟨inner.expr?, s.strays inGroup ++ inner.warnings, ⟨us, inner.rest.dropped⟩, by
        simp only [TokenStream.length, h', List.length_cons] at lt ⊢; omega⟩
    | _ =>
      ⟨inner.expr?, s.strays inGroup ++ (inner.warnings ++ [.unclosedGroup p]), inner.rest, Nat.le_of_lt lt⟩
  | _ =>
    let leaf := readLeaf t
    ⟨leaf.expr?, s.strays inGroup ++ leaf.warnings, leaf.rest, Nat.le_trans leaf.le (s.length_settle inGroup)⟩

/-- A leaf at the nesting limit, where parentheses no longer open groups. -/
def readFlat (s : TokenStream) : Outcome s :=
  let leaf := readLeaf s.flatten
  ⟨leaf.expr?, s.tooDeep ++ leaf.warnings, leaf.rest, Nat.le_trans leaf.le s.length_flatten⟩

/-- An operand with the negations before it. -/
def readNegation (inGroup : Bool) (primary : Reading) (s : TokenStream) : Outcome s :=
  let t := s.settle inGroup
  match h : t.tokens with
  | (.connective .not, p) :: ts =>
    let inner := readNegation inGroup primary ⟨ts, t.dropped⟩
    have le : inner.rest.length ≤ s.length :=
      Nat.le_of_lt (Nat.lt_of_le_of_lt inner.le (TokenStream.length_lt_of_settle h))
    match inner.expr? with
    | some e => ⟨some (.not e), s.strays inGroup ++ inner.warnings, inner.rest, le⟩
    | none => ⟨none, s.strays inGroup ++ (inner.warnings ++ [.missingOperand .not p]), inner.rest, le⟩
  | _ =>
    let operand := primary t
    ⟨operand.expr?, s.strays inGroup ++ operand.warnings, operand.rest,
      Nat.le_trans operand.le (s.length_settle inGroup)⟩
termination_by s.length
decreasing_by exact TokenStream.length_lt_of_settle h

/-- Two operands joined, or the one there is. -/
def joinOperands (build : Expr → Expr → Expr) : Option Expr → Option Expr → Option Expr
  | some l, some r => some (build l r)
  | some l, none => some l
  | none, r => r

/-- The warning about a connective at the position `p` that lacks an operand. -/
def joinWarnings (c : Connective) (p : Nat) : Option Expr → Option Expr → List Warning
  | some _, some _ => []
  | _, _ => [.missingOperand c p]

/-- The rest of a chain of operands joined by `c`, after `left`. -/
def readChain (inGroup : Bool) (c : Connective) (build : Expr → Expr → Expr) (operand : Reading)
    (left : Option Expr) (s : TokenStream) : Outcome s :=
  let t := s.settle inGroup
  match h : t.tokens with
  | (.connective d, p) :: ts =>
    if d = c then
      let right := operand ⟨ts, t.dropped⟩
      have lt : right.rest.length < s.length := Nat.lt_of_le_of_lt right.le (TokenStream.length_lt_of_settle h)
      let more := readChain inGroup c build operand (joinOperands build left right.expr?) right.rest
      ⟨more.expr?,
        s.strays inGroup ++ (right.warnings ++ (joinWarnings c p left right.expr? ++ more.warnings)),
        more.rest, Nat.le_of_lt (Nat.lt_of_le_of_lt more.le lt)⟩
    else ⟨left, s.strays inGroup, t, s.length_settle inGroup⟩
  | _ => ⟨left, s.strays inGroup, t, s.length_settle inGroup⟩
termination_by s.length

/-- A chain of operands joined by `c`. -/
def readOperands (inGroup : Bool) (c : Connective) (build : Expr → Expr → Expr) (operand : Reading)
    (s : TokenStream) : Outcome s :=
  let first := operand s
  let more := readChain inGroup c build operand first.expr? first.rest
  ⟨more.expr?, first.warnings ++ more.warnings, more.rest, Nat.le_trans more.le first.le⟩

/-- A disjunction of conjunctions of negations. -/
def readLevel (inGroup : Bool) (primary : Reading) : Reading :=
  readOperands inGroup .or .or (readOperands inGroup .and .and (readNegation inGroup primary))

/-- A disjunction inside which groups may nest `levels` deep. -/
def readDisjunction (inGroup : Bool) : (levels : Nat) → Reading
  | 0 => readLevel inGroup readFlat
  | levels + 1 => readLevel inGroup (readPrimary inGroup (readDisjunction true levels))

/-- Reads expressions to the end of the stream and joins them to `root`.  A piece that takes nothing gives up one
token, so the reading goes on. -/
def readPieces (root : Option Expr) (s : TokenStream) : Option Expr × List Warning :=
  let t := s.settle false
  match h : t.tokens with
  | [] => (root, s.strays false)
  | _ :: ts =>
    let piece := readDisjunction false maxNesting t
    let rest : TokenStream := if piece.rest.length < t.length then piece.rest else ⟨ts, piece.rest.dropped⟩
    have lt : rest.length < s.length := by
      have := TokenStream.length_lt_of_settle h
      have := s.length_settle false
      simp only [rest]
      split
      · exact Nat.lt_of_lt_of_le ‹_› this
      · assumption
    let more := readPieces (joinOperands .and root piece.expr?) rest
    (more.1, s.strays false ++ (piece.warnings ++ more.2))
termination_by s.length

/-- What a query's tokens mean, with the warnings about what had to be tolerated. -/
structure Parsed where
  root? : Option Expr
  warnings : List Warning
deriving DecidableEq, Repr

/-- The closing warning of a query that means nothing. -/
def emptiness (tokens : List Token) (root? : Option Expr) : List Warning :=
  if tokens.isEmpty then [.emptyQuery] else if root?.isNone then [.neverMatches] else []

/-- Reads the tokens of a query. -/
def parse (tokens : List Token) : Parsed :=
  let read := readPieces none (TokenStream.ofTokens tokens)
  ⟨read.1, read.2 ++ emptiness tokens read.1⟩

end KeywordRules
