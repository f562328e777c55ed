import KeywordRules.Json.Reader
import KeywordRules.Json.Writer
import KeywordRules.RuleSet.Basic

/-!
# Rule sets as JSON

A rule set is written as an object with the field `brands`; a brand has the fields `name`, `rule` and `subbrands`, the
last of which may be left out when it is empty, and a sub-brand has `name` and `rule`.  A text is read as a whole
before the names are checked.
-/

namespace KeywordRules

/-! ### Field names -/

def nameField : Text := ['n', 'a', 'm', 'e']

def ruleField : Text := ['r', 'u', 'l', 'e']

def brandsField : Text := ['b', 'r', 'a', 'n', 'd', 's']

def subbrandsField : Text := ['s', 'u', 'b', 'b', 'r', 'a', 'n', 'd', 's']

/-! ### Reading -/

/-- The fields of a sub-brand read so far. -/
structure SubBrandDraft where
  name? : Option Text
  rule? : Option Text

/-- The fields of a brand read so far. -/
structure BrandDraft where
  name? : Option Text
  rule? : Option Text
  subbrands? : Option (List SubBrand)

/-- The fields of a rule set read so far. -/
structure RuleSetDraft where
  brands? : Option (List Brand)

namespace Json

def subBrandShape : Shape SubBrandDraft SubBrand where
  title := "struct SubBrandRule".toList
  fields := [
    ⟨nameField, false, (·.name?.isSome), fun d => readInto readString fun v => { d with name? := some v }⟩,
    ⟨ruleField, false, (·.rule?.isSome), fun d => readInto readString fun v => { d with rule? := some v }⟩]
  empty := ⟨none, none⟩
  build d := ⟨d.name?.getD [], d.rule?.getD []⟩

def brandShape : Shape BrandDraft Brand where
  title := "struct BrandRule".toList
  fields := [
    ⟨nameField, false, (·.name?.isSome), fun d => readInto readString fun v => { d with name? := some v }⟩,
    ⟨ruleField, false, (·.rule?.isSome), fun d => readInto readString fun v => { d with rule? := some v }⟩,
    ⟨subbrandsField, true, (·.subbrands?.isSome),
      fun d => readInto (readList subBrandShape.read) fun v => { d with subbrands? := some v }⟩]
  empty := ⟨none, none, none⟩
  build d := ⟨d.name?.getD [], d.rule?.getD [], d.subbrands?.getD []⟩

def ruleSetShape : Shape RuleSetDraft RuleSet where
  title := "struct RuleSet".toList
  fields := [
    ⟨brandsField, false, (·.brands?.isSome),
      fun _ => readInto (readList brandShape.read) fun v => { brands? := some v }⟩]
  empty := ⟨none⟩
  build d := ⟨d.brands?.getD []⟩

end Json

/-- Why a text is not a rule set. -/
inductive LoadError where
  | json (e : Json.Error)
  | names (e : NameError)
deriving Repr

def LoadError.message : LoadError → Text
  | .json e => "invalid rule set JSON: ".toList ++ e.message
  | .names e => e.message

/-- Accepts a rule set whose names are all usable. -/
def RuleSet.check (rs : RuleSet) : Except LoadError RuleSet :=
  match rs.nameError? with
  | some e => .error (.names e)
  | none => .ok rs

/-- Reads a rule set and checks its names. -/
def RuleSet.ofJson (t : Text) : Except LoadError RuleSet :=
  match Json.readAll Json.ruleSetShape.read t with
  | .ok rs => rs.check
  | .error e => .error (.json e)

/-! ### Writing -/

def SubBrand.toJson (s : SubBrand) : Text :=
  Json.writeObject [(nameField, Json.writeString s.name), (ruleField, Json.writeString s.rule)]

def Brand.toJson (b : Brand) : Text :=
  Json.writeObject [(nameField, Json.writeString b.name), (ruleField, Json.writeString b.rule),
    (subbrandsField, Json.writeList SubBrand.toJson b.subbrands)]

def RuleSet.toJson (rs : RuleSet) : Text :=
  Json.writeObject [(brandsField, Json.writeList Brand.toJson rs.brands)]

end KeywordRules
