import KeywordRules.Query.Token
import KeywordRules.Text.Words

/-!
# From query text to tokens

A folded query is cut into pieces: parentheses, quoted spans, and runs of other characters between blanks,
parentheses and quotes.  A quoted span goes to the next quote or to the end of the query and gives one phrase in
normal form, or nothing.  A run gives its words; those directly followed by `*` are marked, and those that spell a
connective and are not marked are connectives.  Of two neighbouring connectives the second is kept only if it is
`NOT`.
-/

namespace KeywordRules

/-- What a query is cut into. -/
inductive Piece where
  | opening
  | closing
  | quoted (body : Text)
  | run (chars : Text)
deriving DecidableEq, Repr

/-- Whether `c` may stand inside a run. -/
def isRunChar (c : Char) : Bool := !(isBlank c || c = '(' || c = ')' || c = '"')

/-- The pieces of a query, blanks between them left out. -/
def pieces : Text → List Piece
  | [] => []
  | c :: t =>
    if c = '(' then .opening :: pieces t
    else if c = ')' then .closing :: pieces t
    else if c = '"' then .quoted (t.takeWhile (· ≠ '"')) :: pieces ((t.dropWhile (· ≠ '"')).drop 1)
    else if isBlank c then pieces t
    else .run (c :: t.takeWhile isRunChar) :: pieces (t.dropWhile isRunChar)
termination_by t => t.length
decreasing_by
  · simp
  · simp
  · have := (List.dropWhile_suffix (l := t) (· ≠ '"')).length_le
    simp only [List.length_drop, List.length_cons]; omega
  · simp
  · have := (List.dropWhile_suffix (l := t) isRunChar).length_le
    simp only [List.length_cons]; omega

/-- The words of a run, each with whether `*` follows it directly. -/
def markedWords : Text → List (Text × Bool)
  | [] => []
  | c :: t =>
    if isWordChar c then
      (c :: t.takeWhile isWordChar, (t.dropWhile isWordChar).head? = some '*') ::
        markedWords (t.dropWhile isWordChar)
    else markedWords t
termination_by t => t.length
decreasing_by
  · have := (List.dropWhile_suffix (l := t) isWordChar).length_le
    simp only [List.length_cons]; omega
  · simp

/-- The token of one word of a run. -/
def wordToken (word : Text) (marked : Bool) : Token :=
  if marked then .term word true
  else
    match Connective.ofWord? word with
    | some c => .connective c
    | none => .term word false

/-- The tokens of a run.  A run without words that holds a `*` is a mark on the empty word. -/
def runTokens (run : Text) : List Token :=
  match markedWords run with
  | [] => if '*' ∈ run then [.term [] true] else []
  | ws => ws.map fun w => wordToken w.1 w.2

/-- The tokens of a quoted span: one phrase, or none if it holds no word. -/
def phraseTokens (body : Text) : List Token :=
  match normalise body with
  | [] => []
  | v => [.phrase v]

def Piece.tokens : Piece → List Token
  | .opening => [.opening]
  | .closing => [.closing]
  | .quoted body => phraseTokens body
  | .run chars => runTokens chars

/-- All tokens written in a query. -/
def writtenTokens (query : Text) : List Token := (pieces (fold query)).flatMap Piece.tokens

/-- Leaves out every `AND` and `OR` that follows a connective directly.  `after` says whether a connective came
last. -/
def dropRedundant (after : Bool) : List Token → List Token
  | [] => []
  | t :: ts => if after && t.isBinary then dropRedundant true ts else t :: dropRedundant t.isConnective ts

/-- The tokens of a query. -/
def tokenise (query : Text) : List Token := dropRedundant false (writtenTokens query)

end KeywordRules
