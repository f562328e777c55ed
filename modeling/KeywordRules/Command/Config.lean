import KeywordRules.Journal.Level
import KeywordRules.Text.Decimal

/-!
# Configuration

Two settings apply to every command: the level of the journal and the size limit for documents.  Each comes from an
option, else from an environment variable, else from its default.  A variable with a bad value is an error even if an
option overrides it.
-/

namespace KeywordRules

structure Config where
  level : Level
  maxBytes : Nat
deriving DecidableEq, Repr

/-- Settings given by options. -/
structure Overrides where
  level? : Option Level
  maxBytes? : Option Nat
deriving DecidableEq, Repr

inductive ConfigError where
  | unknownLevel (raw : Text)
  | invalidLimit (raw : Text)
deriving DecidableEq, Repr

def ConfigError.message : ConfigError → Text
  | .unknownLevel raw =>
    "unknown log level '".toList ++ raw ++ "', expected one of: trace, debug, info, warn, error".toList
  | .invalidLimit raw =>
    "invalid document size limit '".toList ++ raw ++ "', expected a positive integer".toList

/-- Reads a level. -/
def parseLevel (raw : Text) : Except ConfigError Level :=
  match Level.ofText? raw with
  | some level => .ok level
  | none => .error (.unknownLevel raw)

/-- Reads a size limit, which is at least one byte, with blanks around it. -/
def parseLimit (raw : Text) : Except ConfigError Nat :=
  match parseWord? (trim raw) with
  | some (n + 1) => .ok (n + 1)
  | _ => .error (.invalidLimit raw)

/-- The variable that sets the level. -/
def levelVariable : Text := "RULEMATCH_LOG_LEVEL".toList

/-- The variable that sets the size limit. -/
def limitVariable : Text := "RULEMATCH_MAX_DOCUMENT_BYTES".toList

namespace Config

/-- The settings without variables and options: warnings are shown, and documents hold at most 16 MiB. -/
def standard : Config := ⟨.warn, 16777216⟩

/-- The settings that variables make.  The level is looked at first. -/
def ofVariables (lookup : Text → Option Text) : Except ConfigError Config := do
  let level ← match lookup levelVariable with
    | some raw => parseLevel raw
    | none => pure standard.level
  let maxBytes ← match lookup limitVariable with
    | some raw => parseLimit raw
    | none => pure standard.maxBytes
  return ⟨level, maxBytes⟩

/-- Puts the settings given by options in place of others. -/
def override (c : Config) (o : Overrides) : Config :=
  ⟨o.level?.getD c.level, o.maxBytes?.getD c.maxBytes⟩

end Config

end KeywordRules
