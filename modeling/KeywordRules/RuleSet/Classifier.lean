import KeywordRules.Query.Compile
import KeywordRules.RuleSet.Basic

/-!
# Classifying documents

A rule set is compiled once.  A document belongs to the first brand whose query it satisfies and, within it, to the
first of its sub-brands whose query it satisfies, if there is one.
-/

namespace KeywordRules

/-- A warning and the rule it is about. -/
structure RuleWarning where
  brand : Text
  subbrand? : Option Text
  warning : Warning
deriving DecidableEq, Repr

namespace RuleWarning

def message (w : RuleWarning) : Text :=
  let subbrand := match w.subbrand? with
    | some s => " sub-brand `".toList ++ s ++ "`".toList
    | none => []
  "brand `".toList ++ w.brand ++ "`".toList ++ subbrand ++ ": ".toList ++ w.warning.message

end RuleWarning

/-- What a document was found to be. -/
structure Classification where
  brand : Text
  subbrand? : Option Text
deriving DecidableEq, Repr

/-- A rule with its query compiled. -/
structure CompiledRule where
  brand : Text
  subbrand? : Option Text
  query : Query
deriving DecidableEq, Repr

/-- The warnings of a rule's query, each with the rule's names. -/
def CompiledRule.warnings (r : CompiledRule) : List RuleWarning :=
  r.query.warnings.map fun w => ⟨r.brand, r.subbrand?, w⟩

structure CompiledSubBrand where
  name : Text
  query : Query
deriving DecidableEq, Repr

structure CompiledBrand where
  name : Text
  query : Query
  subbrands : List CompiledSubBrand
deriving DecidableEq, Repr

namespace CompiledBrand

/-- The brand's rule, then those of its sub-brands. -/
def rules (b : CompiledBrand) : List CompiledRule :=
  ⟨b.name, none, b.query⟩ :: b.subbrands.map fun s => ⟨b.name, some s.name, s.query⟩

/-- The warnings of the brand's query, then those of its sub-brands' queries. -/
def warnings (b : CompiledBrand) : List RuleWarning :=
  (b.query.warnings.map fun w => ⟨b.name, none, w⟩) ++
    b.subbrands.flatMap fun s => s.query.warnings.map fun w => ⟨b.name, some s.name, w⟩

end CompiledBrand

def SubBrand.compile (s : SubBrand) : CompiledSubBrand := ⟨s.name, Query.compile s.rule⟩

def Brand.compile (b : Brand) : CompiledBrand :=
  ⟨b.name, Query.compile b.rule, b.subbrands.map SubBrand.compile⟩

/-- A compiled rule set with the warnings met on the way. -/
structure Classifier where
  brands : List CompiledBrand
  warnings : List RuleWarning
deriving DecidableEq, Repr

/-- Compiles every rule once. -/
def RuleSet.compile (rs : RuleSet) : Classifier :=
  let brands := rs.brands.map Brand.compile
  ⟨brands, brands.flatMap CompiledBrand.warnings⟩

namespace Classifier

def size (c : Classifier) : Nat := c.brands.length

def isEmpty (c : Classifier) : Bool := c.brands.isEmpty

/-- All rules in the order of the rule set, each brand before its sub-brands. -/
def rules (c : Classifier) : List CompiledRule := c.brands.flatMap CompiledBrand.rules

/-- The first brand, and the first of its sub-brands, that a prepared document satisfies. -/
def classifyDocument (c : Classifier) (d : Document) : Option Classification :=
  (c.brands.find? (·.query.holds d)).map fun b =>
    ⟨b.name, (b.subbrands.find? (·.query.holds d)).map CompiledSubBrand.name⟩

/-- Classifies a text. -/
def classify (c : Classifier) (t : Text) : Option Classification := c.classifyDocument (Document.ofText t)

end Classifier

end KeywordRules
