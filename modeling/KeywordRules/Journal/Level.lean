import KeywordRules.Text.Fold

/-!
# Levels of importance

The program keeps a journal of what it does.  Every record has a level, and a setting names the least level worth
showing.
-/

namespace KeywordRules

/-- How important a record is, most verbose first. -/
inductive Level where
  | trace
  | debug
  | info
  | warn
  | error
deriving DecidableEq, Repr

namespace Level

/-- The level as settings spell it. -/
def name : Level → Text
  | .trace => "trace".toList
  | .debug => "debug".toList
  | .info => "info".toList
  | .warn => "warn".toList
  | .error => "error".toList

/-- The level as records show it. -/
def tag : Level → Text
  | .trace => "TRACE".toList
  | .debug => "DEBUG".toList
  | .info => "INFO".toList
  | .warn => "WARN".toList
  | .error => "ERROR".toList

/-- The words a setting may use, in lowercase. -/
def spellings : List (Text × Level) :=
  [("trace".toList, .trace), ("debug".toList, .debug), ("info".toList, .info), ("warn".toList, .warn),
    ("warning".toList, .warn), ("error".toList, .error)]

/-- Reads a level, in capitals or not. -/
def ofText? (t : Text) : Option Level := spellings.lookup (fold t)

end Level

end KeywordRules
