import KeywordRules.Command.Arguments
import KeywordRules.Command.Inputs
import KeywordRules.RuleSet.Classifier
import KeywordRules.Text.Quoted

/-!
# Running a command

`match` and `classify` write one line of JSON for each document, in order, and stop at the first that cannot be read.
`check` writes the canonical form of each rule and then the warnings; in strict mode warnings make it end with
status 1.  What was written before a failure stays written.
-/

namespace KeywordRules

/-- How a command that did not fail ended. -/
inductive Ending where
  | clean
  /-- A strict check found this many warnings. -/
  | warnings (count : Nat)
deriving DecidableEq, Repr

/-- What a command wrote and how it ended. -/
structure Report where
  stdout : Text
  ending : Except RunError Ending

namespace Report

/-- A command that fails before it writes anything. -/
def failed (e : RunError) : Report := ⟨[], .error e⟩

/-- Writes more in front. -/
def after (t : Text) (r : Report) : Report := ⟨t ++ r.stdout, r.ending⟩

def exitCode (r : Report) : Nat :=
  match r.ending with
  | .ok .clean => 0
  | .ok (.warnings _) => 1
  | .error e => e.exitCode

end Report

/-! ### Lines of output -/

/-- What `match` writes about a document. -/
def matchLine (path : Text) (isMatch : Bool) : Text :=
  Json.writeObject [("document".toList, Json.writeString path), ("matched".toList, Json.writeBool isMatch)] ++ ['\n']

/-- What `classify` writes about a document. -/
def classifyLine (path : Text) (found? : Option Classification) : Text :=
  Json.writeObject [("document".toList, Json.writeString path),
    ("brand".toList, Json.writeOption Json.writeString (found?.map Classification.brand)),
    ("subbrand".toList, Json.writeOption Json.writeString (found?.bind Classification.subbrand?))] ++ ['\n']

/-- What `check` writes about a rule. -/
def ruleLine (label : Text) (q : Query) : Text :=
  let canonical := match q.root? with
    | some e => e.render
    | none => "<never matches>".toList
  label ++ ": ".toList ++ canonical ++ ['\n']

/-- What `check` writes about a warning. -/
def warningLine (message : Text) : Text := "warning: ".toList ++ message ++ ['\n']

/-- The names of a rule, as `check` shows them. -/
def CompiledRule.label (r : CompiledRule) : Text :=
  match r.subbrand? with
  | some s => r.brand ++ " / ".toList ++ s
  | none => r.brand

/-! ### Commands -/

/-- The documents named on a command line; without any, standard input. -/
def documentPaths (documents : List Text) : List Text :=
  if documents.isEmpty then [['-']] else documents

/-- Writes a line for each document until one cannot be read. -/
def runDocuments (limit : Nat) (line : Text → Text → Text) : (paths : List Text) → Inputs → Report
  | [], _ => ⟨[], .ok .clean⟩
  | path :: paths, inputs =>
    match inputs.read limit path with
    | .error e => .failed e
    | .ok text => (runDocuments limit line paths (inputs.after limit path)).after (line path text)

/-- Loads and compiles the rule set in a file. -/
def loadClassifier (limit : Nat) (path : Text) (inputs : Inputs) : Except RunError Classifier :=
  match inputs.read limit path with
  | .error e => .error e
  | .ok text =>
    match RuleSet.ofJson text with
    | .error e => .error (.rules path e)
    | .ok rs => .ok rs.compile

/-- How a check with `count` warnings ends. -/
def checkEnding (strict : Bool) (count : Nat) : Ending :=
  if strict && count != 0 then .warnings count else .clean

def checkQuery (source : Text) (strict : Bool) : Report :=
  let q := Query.compile source
  ⟨ruleLine "query".toList q ++ q.warnings.flatMap fun w => warningLine w.message,
    .ok (checkEnding strict q.warnings.length)⟩

def checkRules (c : Classifier) (strict : Bool) : Report :=
  ⟨(c.rules.flatMap fun r => ruleLine r.label r.query) ++ c.warnings.flatMap fun w => warningLine w.message,
    .ok (checkEnding strict c.warnings.length)⟩

/-- Runs a command under a size limit. -/
def Command.run (limit : Nat) (inputs : Inputs) : Command → Report
  | .matchDocuments query documents =>
    let q := Query.compile query
    runDocuments limit (fun path text => matchLine path (q.isMatch text)) (documentPaths documents) inputs
  | .classify rules documents =>
    match loadClassifier limit rules inputs with
    | .error e => .failed e
    | .ok c =>
      runDocuments limit (fun path text => classifyLine path (c.classify text)) (documentPaths documents)
        (inputs.after limit rules)
  | .check (.query source) strict => checkQuery source strict
  | .check (.rules path) strict =>
    match loadClassifier limit path inputs with
    | .error e => .failed e
    | .ok c => checkRules c strict

/-- How a command line was answered. -/
inductive Answer where
  /-- No command was run. -/
  | usage (u : Usage)
  /-- The settings were bad. -/
  | misconfigured (e : ConfigError)
  | ran (config : Config) (report : Report)

namespace Answer

/-- Answers a command line.  The arguments are read first, then the variables. -/
def ofArguments (args : List Text) (lookup : Text → Option Text) (inputs : Inputs) : Answer :=
  match Invocation.ofArguments args with
  | .error u => .usage u
  | .ok invocation =>
    match Config.ofVariables lookup with
    | .error e => .misconfigured e
    | .ok base =>
      let config := base.override invocation.overrides
      .ran config (invocation.command.run config.maxBytes inputs)

/-- The error a command failed with. -/
def error? : Answer → Option RunError
  | .usage _ => none
  | .misconfigured e => some (.config e)
  | .ran _ report =>
    match report.ending with
    | .error e => some e
    | .ok _ => none

/-- What is said about the failure on a terminal. -/
def failure? (a : Answer) : Option Text := a.error?.map fun e => terminalText e.chain

def exitCode : Answer → Nat
  | .usage u => u.exitCode
  | .misconfigured e => (RunError.config e).exitCode
  | .ran _ report => report.exitCode

/-- The name and version of the program. -/
def versionLine : Text := "rulematch 0.1.0\n".toList

def stdout : Answer → Text
  | .usage .version => versionLine
  | .usage _ => []
  | .misconfigured _ => []
  | .ran _ report => report.stdout

end Answer

end KeywordRules
