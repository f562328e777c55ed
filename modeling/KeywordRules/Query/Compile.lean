import KeywordRules.Document
import KeywordRules.Query.Lexer
import KeywordRules.Query.Parser

/-!
# Queries

A query is compiled once and then decides any number of documents.  Compiling never fails; a query without operands
matches nothing.
-/

namespace KeywordRules

namespace Leaf

/-- Whether a document passes the test. -/
def holds (d : Document) : Leaf → Bool
  | .word v => d.hasWord v
  | .stem v => d.hasStem v
  | .phrase v => d.hasPhrase v

end Leaf

namespace Expr

/-- Whether a document satisfies the expression. -/
def holds (d : Document) : Expr → Bool
  | .leaf l => l.holds d
  | .not e => !e.holds d
  | .and l r => l.holds d && r.holds d
  | .or l r => l.holds d || r.holds d

end Expr

/-- A compiled query. -/
structure Query where
  source : Text
  root? : Option Expr
  warnings : List Warning
deriving DecidableEq, Repr

namespace Query

/-- The tokens of a query with conjunctions spliced in, as its warnings count them. -/
def tokens (source : Text) : List Token := spliceAnds (tokenise source)

/-- Compiles the text of a query. -/
def compile (source : Text) : Query :=
  let parsed := parse (tokens source)
  ⟨source, parsed.root?, parsed.warnings⟩

def isEmpty (q : Query) : Bool := q.root?.isNone

/-- Whether a prepared document satisfies the query. -/
def holds (q : Query) (d : Document) : Bool :=
  match q.root? with
  | some e => e.holds d
  | none => false

/-- Whether a text satisfies the query. -/
def isMatch (q : Query) (t : Text) : Bool := q.holds (Document.ofText t)

end Query

/-- Whether a document satisfies the query written in `query`. -/
def isMatch (document query : Text) : Bool := (Query.compile query).isMatch document

end KeywordRules
