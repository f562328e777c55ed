import KeywordRules.RuleSet.Json
import KeywordRules.Command.Config
import KeywordRules.Text.Utf8
import KeywordRules.Text.Words

/-!
# Inputs of a command

Documents and rule sets are read from files and from standard input, which `-` names.  Both may fail to be read, and an
input longer than the limit is refused.  What is read from standard input is gone from it.

An input is all of its bytes or the cause of a failure, so one that fails only behind the bytes that a limit lets through
counts as failing.  Paths are texts, as the arguments are that give them: a name that is no valid Unicode has no place here.
-/

namespace KeywordRules

/-- Why an input cannot be read. -/
inductive ReadFailure where
  | notFound
  | isDirectory
  | notADirectory
  | nameTooLong
  /-- The name holds a NUL character. -/
  | nulInName
  | other (description : Text)
deriving DecidableEq, Repr

def ReadFailure.message : ReadFailure → Text
  | .notFound => "No such file or directory (os error 2)".toList
  | .isDirectory => "Is a directory (os error 21)".toList
  | .notADirectory => "Not a directory (os error 20)".toList
  | .nameTooLong => "File name too long (os error 36)".toList
  | .nulInName => "file name contained an unexpected NUL byte".toList
  | .other description => description

/-- Why a command fails. -/
inductive RunError where
  | config (e : ConfigError)
  | read (path : Text) (failure : ReadFailure)
  | tooLarge (path : Text) (limit : Nat)
  | rules (path : Text) (e : LoadError)
deriving Repr

namespace RunError

def isConfig : RunError → Bool
  | .config _ => true
  | _ => false

def message : RunError → Text
  | .config e => "invalid configuration: ".toList ++ e.message
  | .read path failure => "failed to read ".toList ++ path ++ ": ".toList ++ failure.message
  | .tooLarge path limit => path ++ " exceeds the ".toList ++ decimal limit ++ " byte document limit".toList
  | .rules path e => "rule set ".toList ++ path ++ " is invalid: ".toList ++ e.message

/-- The messages of the errors that led to this one, nearest first. -/
def causes : RunError → List Text
  | .config _ => []
  | .read _ failure => [failure.message]
  | .tooLarge _ _ => []
  | .rules _ (.json e) => [(LoadError.json e).message, e.message]
  | .rules _ (.names e) => [e.message]

/-- The error with its causes. -/
def chain (e : RunError) : Text := ": ".toList.intercalate (e.message :: e.causes)

/-- Configuration errors are told apart from failures. -/
def exitCode (e : RunError) : Nat := if e.isConfig then 2 else 1

end RunError

/-- Where a command reads from. -/
structure Inputs where
  file : Text → Except ReadFailure Bytes
  stdin : Except ReadFailure Bytes

/-- Standard input that does not fail is given by its bytes. -/
instance : Coe Bytes (Except ReadFailure Bytes) := ⟨.ok⟩

/-- Whether a path names standard input: `-`, possibly with slashes and dots behind it that lead nowhere else. -/
def isStandardInput (path : Text) : Bool :=
  match fields (· = '/') path with
  | first :: rest => first = ['-'] && rest.all fun part => part = [] || part = ['.']
  | [] => false

namespace Inputs

/-- The bytes a path names. -/
def bytes (i : Inputs) (path : Text) : Except ReadFailure Bytes :=
  if isStandardInput path then i.stdin else i.file path

/-- How many bytes are taken from an input under a limit: one more than allowed, so that a longer input is noticed, as
far as 64 bits count. -/
def readCount (limit : Nat) : Nat := min (limit + 1) maxWord

/-- The inputs after a path has been read under a limit. -/
def after (i : Inputs) (limit : Nat) (path : Text) : Inputs :=
  if isStandardInput path then { i with stdin := i.stdin.map (·.drop (readCount limit)) } else i

/-- Reads a text of at most `limit` bytes. -/
def read (i : Inputs) (limit : Nat) (path : Text) : Except RunError Text :=
  match i.bytes path with
  | .error failure => .error (.read path failure)
  | .ok bytes =>
    let taken := bytes.take (readCount limit)
    if limit < taken.length then .error (.tooLarge path limit) else .ok (decodeLossy taken)

end Inputs

end KeywordRules
