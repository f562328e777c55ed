import KeywordRules.Query.Token
import KeywordRules.Text.Decimal

/-!
# Warnings about a query

A malformed query is never refused.  What had to be tolerated is reported by warnings; their positions count the
tokens of the query from zero, spliced conjunctions included.
-/

namespace KeywordRules

inductive Warning where
  /-- The query has no tokens. -/
  | emptyQuery
  /-- The group opened at the position is never closed. -/
  | unclosedGroup (position : Nat)
  /-- The closing parenthesis at the position closes nothing. -/
  | unmatchedClose (position : Nat)
  /-- The connective at the position has nothing to apply to on one side. -/
  | missingOperand (connective : Connective) (position : Nat)
  /-- The mark at the position stands on the empty word. -/
  | bareWildcard (position : Nat)
  /-- The group opened at the position lies beyond the nesting limit. -/
  | nestingTooDeep (position : Nat) (limit : Nat)
  /-- The query has tokens but no operand. -/
  | neverMatches
deriving DecidableEq, Repr

namespace Warning

def atToken (position : Nat) : Text := " at token ".toList ++ decimal position ++ " (zero-based)".toList

/-- The warning in words. -/
def message : Warning → Text
  | emptyQuery => "query is empty".toList
  | unclosedGroup p => "unclosed '('".toList ++ atToken p
  | unmatchedClose p => "unmatched ')'".toList ++ atToken p
  | missingOperand c p => ['\''] ++ c.text ++ "' is missing an operand".toList ++ atToken p
  | bareWildcard p => "wildcard without a prefix".toList ++ atToken p
  | nestingTooDeep p limit =>
    "groups nested deeper than ".toList ++ decimal limit ++ " levels".toList ++ atToken p ++ " are flattened".toList
  | neverMatches => "query contains no terms and never matches".toList

/-- The token a warning points at. -/
def position? : Warning → Option Nat
  | emptyQuery => none
  | unclosedGroup p => some p
  | unmatchedClose p => some p
  | missingOperand _ p => some p
  | bareWildcard p => some p
  | nestingTooDeep p _ => some p
  | neverMatches => none

end Warning

end KeywordRules
