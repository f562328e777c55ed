import KeywordRules.Proofs.RuleSet.Layouts

/-!
# Rule sets survive being written and read

The text written for a rule set is one of its texts (`RuleSet.isTextOf_toJson`), whatever stands in its names and rules.  So
it is read as that rule set, and reading back ends with the check of the names: it gives the rule set if they are usable
and the first offender otherwise.
-/

namespace KeywordRules

open Json

/-! ### The written text is a text of the rule set -/

/-- What the written text of a sub-brand says. -/
def SubBrand.toValue (s : SubBrand) : Value := .object [(nameField, .string s.name), (ruleField, .string s.rule)]

/-- What the written text of a brand says. -/
def Brand.toValue (b : Brand) : Value :=
  .object [(nameField, .string b.name), (ruleField, .string b.rule),
    (subbrandsField, .list (b.subbrands.map SubBrand.toValue))]

/-- What the written text of a rule set says. -/
def RuleSet.toValue (rs : RuleSet) : Value := .object [(brandsField, .list (rs.brands.map Brand.toValue))]

theorem forall₂_map {α β : Type} {P : α → β → Prop} {f : α → β} (h : ∀ a, P a (f a)) (as : List α) :
    List.Forall₂ P as (as.map f) :=
  List.forall₂_map_right_iff.mpr (List.forall₂_same.mpr fun a _ => h a)

theorem SubBrand.isWrittenAs_toValue (s : SubBrand) : s.IsWrittenAs s.toValue := .fields (.refl _)

theorem Brand.isWrittenAs_toValue (b : Brand) : b.IsWrittenAs b.toValue :=
  .fields (forall₂_map SubBrand.isWrittenAs_toValue b.subbrands) (.refl _)

theorem RuleSet.isWrittenAs_toValue (rs : RuleSet) : rs.IsWrittenAs rs.toValue :=
  .fields (forall₂_map Brand.isWrittenAs_toValue rs.brands)

theorem SubBrand.writes_toJson (s : SubBrand) : Writes s.toValue s.toJson := by
  refine writes_writeObject (.cons ⟨rfl, writes_writeString s.name⟩ ?_)
  exact .cons ⟨rfl, writes_writeString s.rule⟩ .nil

theorem Brand.writes_toJson (b : Brand) : Writes b.toValue b.toJson := by
  refine writes_writeObject (.cons ⟨rfl, writes_writeString b.name⟩ ?_)
  refine .cons ⟨rfl, writes_writeString b.rule⟩ (.cons ⟨rfl, ?_⟩ .nil)
  exact writes_writeList (forall₂_map (f := SubBrand.toValue) SubBrand.writes_toJson b.subbrands)

theorem RuleSet.isTextOf_toJson (rs : RuleSet) : IsTextOf rs.toValue rs.toJson := by
  have hbrands : Writes (.list (rs.brands.map Brand.toValue)) (writeList Brand.toJson rs.brands) :=
    writes_writeList (forall₂_map (f := Brand.toValue) Brand.writes_toJson rs.brands)
  exact (writes_writeObject (.cons ⟨rfl, hbrands⟩ .nil)).isTextOf

/-! ### Reading back -/

namespace RuleSet

/-- Reading back what was written leaves only the names to be checked. -/
theorem ofJson_toJson_eq_check (rs : RuleSet) : ofJson rs.toJson = rs.check :=
  ofJson_eq_check rs.isWrittenAs_toValue rs.isTextOf_toJson

theorem nameError?_eq_none_of_ofJson {t : Text} {rs : RuleSet} (h : ofJson t = .ok rs) : rs.nameError? = none := by
  unfold ofJson check at h
  split at h
  · split at h
    · cases h
    · next hnames =>
      cases h
      exact hnames
  · cases h

/-- A rule set with usable names is read back field for field, any other gives its first offender; so what was accepted
once is written as a text that is accepted with the same value. -/
theorem ofJson_toJson (rs : RuleSet) :
    ofJson rs.toJson = (match rs.nameError? with
      | none => .ok rs
      | some e => .error (.names e)) ∧
    ∀ t, ofJson t = .ok rs → ofJson rs.toJson = .ok rs := by
  have hcheck := ofJson_toJson_eq_check rs
  constructor
  · rw [hcheck, check]
    cases rs.nameError? <;> rfl
  · intro t ht
    rw [hcheck, check, nameError?_eq_none_of_ofJson ht]

/-- A rule set with a quote, a backslash, a control and a character outside the first plane, written loosely. -/
def looseText : Text :=
  "\x7b \"brands\": [\n\x7b\"rule\":\"\\\"a b\\\" OR c\", \"name\":\"\\u00e9\\u0007\\ud83d\\ude00\\\\\"\x7d ]\x7d".toList

/-- The same rule set, read. -/
def looseRuleSet : RuleSet := ⟨[⟨['é', '\x07', '😀', '\\'], "\"a b\" OR c".toList, []⟩]⟩

theorem ofJson_toJson_loose :
    ofJson looseText = .ok looseRuleSet ∧ ofJson looseRuleSet.toJson = .ok looseRuleSet := by
  have hsome : (ofJson looseText).toOption = some looseRuleSet := by decide +kernel
  have hread : ofJson looseText = .ok looseRuleSet := by
    cases h : ofJson looseText with
    | error e =>
      rw [h] at hsome
      cases hsome
    | ok rs =>
      rw [h] at hsome
      cases hsome
      rfl
  exact ⟨hread, (ofJson_toJson looseRuleSet).2 looseText hread⟩

end RuleSet

end KeywordRules
