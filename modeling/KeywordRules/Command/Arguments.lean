import KeywordRules.Command.Config

/-!
# Command lines

The command has three subcommands.  `match` takes a query and documents, `classify` a rule set file and documents, and
`check` either a query or a rule set file and the flag `--strict`.  The two settings may be given before the
subcommand or after it, and after it they win.

Arguments are read from left to right.  An option takes its value from behind `=`, from the rest of a group of short
options, or from the next argument, which must not begin with `-` unless it is a lone `-`; such a value is only looked
at when the next option, document or the end is met.  `--` ends the options.  The first fault met is the one reported;
what is missing or does not go together is noticed at the end.
-/

namespace KeywordRules

/-- How a command line is answered when no command is to be run. -/
inductive Usage where
  | help
  | version
  /-- There is nothing on the command line. -/
  | nothingGiven
  | missingSubcommand
  | unknownSubcommand
  | unknownArgument
  /-- An option without a value, or an empty path. -/
  | invalidValue
  /-- A value that does not read as a level or a limit. -/
  | rejectedValue
  /-- A flag with a value. -/
  | tooManyValues
  | missingRequired
  /-- An option given twice, or two options that exclude each other. -/
  | conflict
deriving DecidableEq, Repr

/-- Help and the version were asked for; everything else is a fault. -/
def Usage.exitCode : Usage → Nat
  | .help => 0
  | .version => 0
  | _ => 2

/-- What `check` checks. -/
inductive Source where
  | query (text : Text)
  | rules (path : Text)
deriving DecidableEq, Repr

inductive Command where
  | matchDocuments (query : Text) (documents : List Text)
  | classify (rules : Text) (documents : List Text)
  | check (source : Source) (strict : Bool)
deriving DecidableEq, Repr

/-- What a command line asks for. -/
structure Invocation where
  overrides : Overrides
  command : Command
deriving DecidableEq, Repr

inductive Subcommand where
  | matchDocuments
  | classify
  | check
deriving DecidableEq, Repr

def Subcommand.ofText? (t : Text) : Option Subcommand :=
  if t = "match".toList then some .matchDocuments
  else if t = "classify".toList then some .classify
  else if t = "check".toList then some .check
  else none

/-- Whether documents may follow the subcommand. -/
def Subcommand.takesDocuments : Subcommand → Bool
  | .check => false
  | _ => true

/-- The options of all subcommands. -/
inductive Opt where
  | level
  | limit
  | query
  | rules
  | strict
  | help
  | version
deriving DecidableEq, Repr

namespace Opt

def takesValue : Opt → Bool
  | .level | .limit | .query | .rules => true
  | .strict | .help | .version => false

/-- Whether the option is known behind a subcommand, or with `none` before it. -/
def isKnown : Opt → Option Subcommand → Bool
  | .level, _ => true
  | .limit, _ => true
  | .help, _ => true
  | .version, s => s = none
  | .query, s => s = some .matchDocuments || s = some .check
  | .rules, s => s = some .classify || s = some .check
  | .strict, s => s = some .check

def ofLongName? (s : Option Subcommand) (name : Text) : Option Opt :=
  let names : List (Text × Opt) := [("log-level".toList, .level), ("max-document-bytes".toList, .limit),
    ("query".toList, .query), ("rules".toList, .rules), ("strict".toList, .strict), ("help".toList, .help),
    ("version".toList, .version)]
  (names.lookup name).filter (·.isKnown s)

def ofLetter? (s : Option Subcommand) (c : Char) : Option Opt :=
  let letters : List (Char × Opt) := [('q', .query), ('r', .rules), ('h', .help), ('V', .version)]
  (letters.lookup c).filter (·.isKnown s)

end Opt

/-- What has been given so far. -/
structure Given where
  level? : Option Level
  limit? : Option Nat
  query? : Option Text
  rules? : Option Text
  strict : Bool
  documents : List Text
deriving DecidableEq, Repr

namespace Given

def nothing : Given := ⟨none, none, none, none, false, []⟩

/-- A value for an option that may be given once. -/
def once {α : Type} (old : Option α) (values : List Text) (read : Text → Except Usage α) :
    Except Usage (Option α) :=
  match values with
  | v :: _ => if old.isSome then .error .conflict else (read v).map some
  | [] => .error .invalidValue

def readLevel (v : Text) : Except Usage Level :=
  match Level.ofText? v with
  | some level => .ok level
  | none => .error .rejectedValue

def readLimit (v : Text) : Except Usage Nat :=
  match parseWord? v with
  | some (n + 1) => .ok (n + 1)
  | _ => .error .rejectedValue

def readPath (v : Text) : Except Usage Text := if v.isEmpty then .error .invalidValue else .ok v

/-- Takes an option with its values. -/
def addOption (g : Given) (o : Opt) (values : List Text) : Except Usage Given := do
  match o with
  | .level => return { g with level? := ← once g.level? values readLevel }
  | .limit => return { g with limit? := ← once g.limit? values readLimit }
  | .query => return { g with query? := ← once g.query? values .ok }
  | .rules => return { g with rules? := ← once g.rules? values readPath }
  | .strict => if g.strict then throw .conflict else return { g with strict := true }
  | .help => throw .help
  | .version => throw .version

/-- Takes documents. -/
def addDocuments (g : Given) (documents : List Text) : Except Usage Given := do
  return { g with documents := g.documents ++ (← documents.mapM readPath) }

end Given

/-- What was last named and waits to be taken. -/
inductive Pending where
  | nothing
  | option (o : Opt) (values : List Text)
  | documents (paths : List Text)
deriving DecidableEq, Repr

/-- How far a command line has been read. -/
structure Progress where
  given : Given
  pending : Pending
  /-- Whether `--` has been met. -/
  trailing : Bool
deriving DecidableEq, Repr

namespace Progress

def start : Progress := ⟨Given.nothing, .nothing, false⟩

/-- Whether an option waits for its value. -/
def isAwaiting (p : Progress) : Bool :=
  match p.pending with
  | .option _ [] => true
  | _ => false

/-- Takes what is pending. -/
def settle (p : Progress) : Except Usage Progress := do
  match p.pending with
  | .nothing => return p
  | .option o values => return { p with given := ← p.given.addOption o values, pending := .nothing }
  | .documents paths => return { p with given := ← p.given.addDocuments paths, pending := .nothing }

/-- Takes an option with the values that came with it. -/
def take (p : Progress) (o : Opt) (values : List Text) : Except Usage Progress := do
  let p ← p.settle
  return { p with given := ← p.given.addOption o values }

/-- Waits for the value of an option. -/
def await (p : Progress) (o : Opt) : Except Usage Progress := do
  return { ← p.settle with pending := .option o [] }

/-- Reads an option by its long name, with the value behind `=` if there is one. -/
def readLong (s : Option Subcommand) (p : Progress) (name : Text) (value? : Option Text) :
    Except Usage Progress :=
  match Opt.ofLongName? s name, value? with
  | none, _ => .error .unknownArgument
  | some o, some v => if o.takesValue then p.take o [v] else .error .tooManyValues
  | some o, none => if o.takesValue then p.await o else p.take o []

/-- Reads a group of short options; the first that takes a value has the rest of the group as its value. -/
def readLetters (s : Option Subcommand) (p : Progress) : Text → Except Usage Progress
  | [] => .ok p
  | c :: rest =>
    match Opt.ofLetter? s c with
    | none => .error .unknownArgument
    | some o =>
      if o.takesValue then
        match rest with
        | [] => p.await o
        | '=' :: v => p.take o [v]
        | v => p.take o [v]
      else do readLetters s (← p.take o []) rest

/-- Reads an argument that is neither an option nor the value of one. -/
def readPositional (s : Option Subcommand) (p : Progress) (arg : Text) : Except Usage Progress := do
  match s with
  | none => throw (if p.trailing ∧ ((Subcommand.ofText? arg).isSome ∨ arg = "help".toList) then .unknownArgument
      else .unknownSubcommand)
  | some s =>
    if !s.takesDocuments then throw .unknownArgument
    match p.pending with
    | .documents paths => return { p with pending := .documents (paths ++ [arg]) }
    | _ => return { ← p.settle with pending := .documents [arg] }

/-- Reads one argument. -/
def readArgument (s : Option Subcommand) (p : Progress) (arg : Text) : Except Usage Progress :=
  if p.trailing then p.readPositional s arg
  else
    match arg with
    | ['-', '-'] => .ok { p with trailing := true }
    | '-' :: '-' :: body =>
      let name := body.takeWhile (· ≠ '=')
      match body.dropWhile (· ≠ '=') with
      | [] => p.readLong s name none
      | _ :: value => p.readLong s name (some value)
    | '-' :: c :: letters => p.readLetters s (c :: letters)
    | _ =>
      match p.pending with
      | .option o [] => .ok { p with pending := .option o [arg] }
      | _ => p.readPositional s arg

end Progress

/-- The command that has been given behind a subcommand. -/
def Given.command (g : Given) : Subcommand → Except Usage Command
  | .matchDocuments =>
    match g.query? with
    | some q => .ok (.matchDocuments q g.documents)
    | none => .error .missingRequired
  | .classify =>
    match g.rules? with
    | some r => .ok (.classify r g.documents)
    | none => .error .missingRequired
  | .check =>
    match g.query?, g.rules? with
    | some _, some _ => .error .conflict
    | some q, none => .ok (.check (.query q) g.strict)
    | none, some r => .ok (.check (.rules r) g.strict)
    | none, none => .error .missingRequired

/-- Reads what follows a subcommand: its settings and the command. -/
def readSubcommand (s : Subcommand) (args : List Text) : Except Usage (Given × Command) := do
  let p ← args.foldlM (Progress.readArgument (some s)) Progress.start
  let p ← p.settle
  return (p.given, ← p.given.command s)

/-- What `help` answers: help on the words behind it, if they name a subcommand. -/
def helpOn : List Text → Usage
  | [] => .help
  | [word] => if (Subcommand.ofText? word).isSome ∨ word = "help".toList then .help else .unknownSubcommand
  | _ => .unknownSubcommand

/-- Reads a command line from the point `p` on, before any subcommand. -/
def readCommandLine (p : Progress) : List Text → Except Usage Invocation
  | [] => do
    let p ← p.settle
    throw (if p.given = Given.nothing then .nothingGiven else .missingSubcommand)
  | arg :: args =>
    if p.trailing ∨ p.isAwaiting then do readCommandLine (← p.readArgument none arg) args
    else if arg = "help".toList then .error (helpOn args)
    else
      match Subcommand.ofText? arg with
      | none => do readCommandLine (← p.readArgument none arg) args
      | some s => do
        let (inner, command) ← readSubcommand s args
        let outer := (← p.settle).given
        return ⟨⟨inner.level?.or outer.level?, inner.limit?.or outer.limit?⟩, command⟩

/-- Reads a command line. -/
def Invocation.ofArguments (args : List Text) : Except Usage Invocation := readCommandLine Progress.start args

end KeywordRules
