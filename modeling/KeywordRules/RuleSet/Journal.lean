import KeywordRules.Journal.Level
import KeywordRules.RuleSet.Classifier
import KeywordRules.Text.Quoted

/-!
# The journal of a rule set

Compiling a rule set records each warning twice: once with the query it came from, for whoever debugs queries, and
once, after all queries are compiled, with the rule it belongs to, for whoever maintains the rules.  Classifying a
document records the outcome.
-/

namespace KeywordRules

structure Record where
  level : Level
  message : Text
deriving DecidableEq, Repr

/-- What compiling a query records. -/
def Query.journal (q : Query) : List Record :=
  q.warnings.map fun w => ⟨.debug, "query ".toList ++ quoted q.source ++ ": ".toList ++ w.message⟩

/-- How a warning is recorded for whoever maintains the rules. -/
def RuleWarning.record (w : RuleWarning) : Record := ⟨.warn, w.message⟩

/-- What has been gathered while the rules of a set are compiled one after the other. -/
structure Gathered where
  warnings : List RuleWarning
  records : List Record
deriving DecidableEq, Repr

/-- Compiles a rule's query, records what there is to record and gathers the warnings under the rule's names. -/
def compileRule (brand : Text) (subbrand? : Option Text) (rule : Text) : StateM Gathered Query := do
  let query := Query.compile rule
  modify fun g => { g with records := g.records ++ query.journal }
  modify fun g => { g with warnings := g.warnings ++ query.warnings.map fun w => ⟨brand, subbrand?, w⟩ }
  return query

def SubBrand.compiling (brand : Text) (s : SubBrand) : StateM Gathered CompiledSubBrand := do
  let query ← compileRule brand (some s.name) s.rule
  return ⟨s.name, query⟩

def Brand.compiling (b : Brand) : StateM Gathered CompiledBrand := do
  let query ← compileRule b.name none b.rule
  let subbrands ← b.subbrands.mapM (SubBrand.compiling b.name)
  return ⟨b.name, query, subbrands⟩

/-- Compiles a rule set, with a journal of what happens. -/
def RuleSet.compiling (rs : RuleSet) : StateM Gathered Classifier := do
  let brands ← rs.brands.mapM Brand.compiling
  let g ← get
  set { g with records := g.records ++ g.warnings.map RuleWarning.record }
  return ⟨brands, g.warnings⟩

/-- What compiling a rule set records. -/
def RuleSet.journal (rs : RuleSet) : List Record := (rs.compiling.run ⟨[], []⟩).2.records

/-- An optional name as records show it. -/
def shownName : Option Text → Text
  | none => "None".toList
  | some n => "Some(".toList ++ quoted n ++ ")".toList

/-- What classifying a document records. -/
def Classifier.journal (c : Classifier) (d : Document) : List Record :=
  match c.classifyDocument d with
  | none => [⟨.trace, "no brand matched".toList⟩]
  | some found =>
    [⟨.trace, "matched brand ".toList ++ found.brand ++ " sub-brand ".toList ++ shownName found.subbrand?⟩]

end KeywordRules
