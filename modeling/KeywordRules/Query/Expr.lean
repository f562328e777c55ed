import KeywordRules.Text.CharClass

/-!
# Query expressions

What a query means is a tree: leaves that test a document for a word, for the start of a word or for a phrase, joined
by negation, conjunction and disjunction.  The canonical text of a tree writes every conjunction and disjunction in
parentheses.
-/

namespace KeywordRules

/-- The tests a query makes on a document. -/
inductive Leaf where
  /-- The document holds the word. -/
  | word (value : Text)
  /-- Some word of the document starts with the value. -/
  | stem (value : Text)
  /-- The document's normal form holds the value. -/
  | phrase (value : Text)
deriving DecidableEq, Repr

namespace Leaf

def value : Leaf → Text
  | .word v => v
  | .stem v => v
  | .phrase v => v

/-- The leaf as it is written in a query. -/
def render : Leaf → Text
  | .word v => v
  | .stem v => v ++ ['*']
  | .phrase v => '"' :: (v ++ ['"'])

end Leaf

/-- A boolean expression over leaves. -/
inductive Expr where
  | leaf (l : Leaf)
  | not (e : Expr)
  | and (l r : Expr)
  | or (l r : Expr)
deriving DecidableEq, Repr

namespace Expr

/-- The canonical text. -/
def render : Expr → Text
  | .leaf l => l.render
  | .not e => ['N', 'O', 'T', ' '] ++ e.render
  | .and l r => '(' :: (l.render ++ ([' ', 'A', 'N', 'D', ' '] ++ (r.render ++ [')'])))
  | .or l r => '(' :: (l.render ++ ([' ', 'O', 'R', ' '] ++ (r.render ++ [')'])))

/-- The leaves from left to right. -/
def leaves : Expr → List Leaf
  | .leaf l => [l]
  | .not e => e.leaves
  | .and l r => l.leaves ++ r.leaves
  | .or l r => l.leaves ++ r.leaves

end Expr

end KeywordRules
