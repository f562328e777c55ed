import KeywordRules.Text.CharClass

/-!
# Tokens of a query

A query is written with the connectives `AND`, `OR` and `NOT`, parentheses, words, and phrases in double quotes.  A
word followed by `*` is a marked term: it stands for every word that starts with it.

Operands written side by side are joined: `a b` and `a (b or c)` read as conjunctions.  An `AND` is spliced between
every token that may end an operand and a next token that may begin one.
-/

namespace KeywordRules

/-- The words that join or negate operands. -/
inductive Connective where
  | and
  | or
  | not
deriving DecidableEq, Repr

/-- The connective as it is written. -/
def Connective.text : Connective → Text
  | .and => ['A', 'N', 'D']
  | .or => ['O', 'R']
  | .not => ['N', 'O', 'T']

/-- `AND` and `OR` join two operands; `NOT` stands before one. -/
def Connective.isBinary : Connective → Bool
  | .and => true
  | .or => true
  | .not => false

/-- The connective that a lowercase word spells. -/
def Connective.ofWord? (w : Text) : Option Connective :=
  if w = ['a', 'n', 'd'] then some .and
  else if w = ['o', 'r'] then some .or
  else if w = ['n', 'o', 't'] then some .not
  else none

/-- The lexical units of a query. -/
inductive Token where
  | connective (c : Connective)
  | opening
  | closing
  /-- A word, marked when `*` follows it directly. -/
  | term (word : Text) (marked : Bool)
  /-- What stood between double quotes. -/
  | phrase (text : Text)
deriving DecidableEq, Repr

namespace Token

def isConnective : Token → Bool
  | .connective _ => true
  | _ => false

/-- Whether the token is `AND` or `OR`. -/
def isBinary : Token → Bool
  | .connective c => c.isBinary
  | _ => false

/-- Whether the token is a term or a phrase. -/
def isOperand : Token → Bool
  | .term _ _ => true
  | .phrase _ => true
  | _ => false

/-- Whether an operand may have ended with this token. -/
def endsValue : Token → Bool
  | .term _ _ => true
  | .phrase _ => true
  | .closing => true
  | _ => false

/-- Whether an operand may begin with this token. -/
def startsValue : Token → Bool
  | .term _ _ => true
  | .phrase _ => true
  | .opening => true
  | .connective .not => true
  | _ => false

end Token

/-- Splices `AND` between neighbouring operands. -/
def spliceAnds : List Token → List Token
  | a :: b :: ts =>
    if a.endsValue && b.startsValue then a :: .connective .and :: spliceAnds (b :: ts)
    else a :: spliceAnds (b :: ts)
  | ts => ts

theorem spliceAnds_nil : spliceAnds [] = [] := rfl

theorem spliceAnds_singleton (a : Token) : spliceAnds [a] = [a] := rfl

end KeywordRules
