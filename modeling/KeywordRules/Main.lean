import KeywordRules.Command.Run

/-!
# The command

Reads the arguments, the environment and the inputs that the arguments name, answers, and shows what was answered.
-/

namespace KeywordRules

/-- What `--help` shows. -/
def helpText : String := String.intercalate "\n" [
  "Evaluate boolean keyword rules against documents",
  "",
  "Usage: rulematch [OPTIONS] <COMMAND>",
  "",
  "Commands:",
  "  match     Report whether each document satisfies a query",
  "  classify  Assign each document to the first matching brand and sub-brand",
  "  check     Compile rules, print their canonical form and list warnings",
  "  help      Print this message",
  "",
  "Options:",
  "      --log-level <LOG_LEVEL>                    Log level (trace, debug, info, warn, error)",
  "      --max-document-bytes <MAX_DOCUMENT_BYTES>  Reject inputs larger than this many bytes",
  "  -h, --help                                     Print help",
  "  -V, --version                                  Print version",
  ""]

/-- What a fault on the command line is told by. -/
def Usage.hint : Usage → String
  | .help => ""
  | .version => ""
  | .nothingGiven => helpText
  | .missingSubcommand => "error: a subcommand is required but one was not provided\n"
  | .unknownSubcommand => "error: unrecognized subcommand\n"
  | .unknownArgument => "error: unexpected argument found\n"
  | .invalidValue => "error: a value is required but none was supplied\n"
  | .rejectedValue => "error: invalid value\n"
  | .tooManyValues => "error: unexpected value for a flag\n"
  | .missingRequired => "error: a required argument was not provided\n"
  | .conflict => "error: an argument cannot be used with another or more than once\n"

/-- The code and the description of a failed system call. -/
def systemError? : IO.Error → Option (Nat × String)
  | .noFileOrDirectory _ code d => some (code.toNat, d)
  | .inappropriateType _ code d => some (code.toNat, d)
  | .permissionDenied _ code d => some (code.toNat, d)
  | .invalidArgument _ code d => some (code.toNat, d)
  | .resourceExhausted _ code d => some (code.toNat, d)
  | .noSuchThing _ code d => some (code.toNat, d)
  | .otherError code d => some (code.toNat, d)
  | _ => none

/-- Why reading an input failed. -/
def ReadFailure.ofError (e : IO.Error) : ReadFailure :=
  match systemError? e with
  | some (2, _) => .notFound
  | some (20, _) => .notADirectory
  | some (21, _) => .isDirectory
  | some (36, _) => .nameTooLong
  | some (code, d) => .other (d.toList ++ " (os error ".toList ++ decimal code ++ [')'])
  | none => .other e.toString.toList

/-- Reads a file whole. -/
def readFile (path : Text) : IO (Except ReadFailure Bytes) := do
  if path.contains '\x00' then return .error .nulInName
  try
    return .ok (← IO.FS.readBinFile (String.ofList path)).toList
  catch e => return .error (.ofError e)

/-- The paths a command reads, in order. -/
def Command.paths : Command → List Text
  | .matchDocuments _ documents => documentPaths documents
  | .classify rules documents => rules :: documentPaths documents
  | .check (.rules path) _ => [path]
  | .check (.query _) _ => []

/-- Reads standard input to its end.  One that is closed is empty. -/
def readStdin : IO (Except ReadFailure Bytes) := do
  try
    return .ok (← (← IO.getStdin).readBinToEnd).toList
  catch e =>
    match systemError? e with
    | some (9, _) => return ([] : Bytes)
    | _ => return .error (.ofError e)

/-- Reads what the paths name. -/
def Inputs.load (paths : List Text) : IO Inputs := do
  let files ← (paths.filter fun path => !isStandardInput path).mapM fun path => do return (path, ← readFile path)
  let stdin ← if paths.any isStandardInput then readStdin else pure ([] : Bytes)
  return ⟨fun path => (files.lookup path).getD (.error .notFound), stdin⟩

/-- Answers a command line with what the process finds around it. -/
def answerProcess (args : List Text) : IO Answer := do
  let paths := match Invocation.ofArguments args with
    | .ok invocation => invocation.command.paths
    | .error _ => []
  let level ← IO.getEnv (String.ofList levelVariable)
  let limit ← IO.getEnv (String.ofList limitVariable)
  let environment := [(levelVariable, level), (limitVariable, limit)]
  let lookup (name : Text) : Option Text := (environment.lookup name).join.map String.toList
  return .ofArguments args lookup (← Inputs.load paths)

/-- Writes an answer and gives the status of the process. -/
def Answer.show (a : Answer) : IO UInt32 := do
  let stdout ← IO.getStdout
  stdout.putStr (String.ofList a.stdout)
  match a with
  | .usage .help => stdout.putStr helpText
  | .usage u => IO.eprint u.hint
  | _ => pure ()
  stdout.flush
  if let some failure := a.failure? then
    IO.eprintln ("ERROR rulematch failed: " ++ String.ofList failure)
  return UInt32.ofNat a.exitCode

end KeywordRules

def main (args : List String) : IO UInt32 := do
  (← KeywordRules.answerProcess (args.map String.toList)).show
