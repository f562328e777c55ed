import KeywordRules.Proofs.Json.Values
import KeywordRules.RuleSet.Json

/-!
# The texts that are rule sets

A rule set may be written in any layout, with the fields of each object in any order, and with an empty list of
sub-brands or none at all (`RuleSet.IsWrittenAs`).  It is read back from all of these texts.  A single object with a field
it may not have, with a field twice, or without one it must have spoils the text (`RuleSet.Spoilt`), wherever it stands:
`RuleSet.ofJson_layouts`.

While an object is read, the fields read so far are right (`Brand.Fits`), whatever their order; so no order has to be
singled out.
-/

namespace KeywordRules

open Json

/-! ### Ways to write a rule set -/

inductive SubBrand.IsWrittenAs (s : SubBrand) : Value → Prop where
  | fields {entries : List (Text × Value)} :
    entries.Perm [(nameField, .string s.name), (ruleField, .string s.rule)] → s.IsWrittenAs (.object entries)

inductive Brand.IsWrittenAs (b : Brand) : Value → Prop where
  | fields {entries : List (Text × Value)} {subbrands : List Value} :
    List.Forall₂ SubBrand.IsWrittenAs b.subbrands subbrands →
    entries.Perm [(nameField, .string b.name), (ruleField, .string b.rule), (subbrandsField, .list subbrands)] →
    b.IsWrittenAs (.object entries)
  /-- Without sub-brands, their field may be left out. -/
  | short {entries : List (Text × Value)} : b.subbrands = [] →
    entries.Perm [(nameField, .string b.name), (ruleField, .string b.rule)] → b.IsWrittenAs (.object entries)

inductive RuleSet.IsWrittenAs (rs : RuleSet) : Value → Prop where
  | fields {brands : List Value} : List.Forall₂ Brand.IsWrittenAs rs.brands brands →
    rs.IsWrittenAs (.object [(brandsField, .list brands)])

/-! ### Ways to spoil it -/

/-- The fields of an object with one it may not have, with one twice, or without one it must have. -/
inductive SpoiltFields (known required : List Text) : List (Text × Value) → List (Text × Value) → Prop where
  | unknown {before after : List (Text × Value)} {name : Text} {v : Value} : name ∉ known →
    SpoiltFields known required (before ++ after) (before ++ (name, v) :: after)
  | repeated {before after : List (Text × Value)} {name : Text} {v : Value} :
    name ∈ (before ++ after).map Prod.fst →
    SpoiltFields known required (before ++ after) (before ++ (name, v) :: after)
  | missing {entries : List (Text × Value)} {name : Text} : name ∈ required →
    SpoiltFields known required entries (entries.filter (·.1 ≠ name))

/-- `Spoilt v v'` says that `v'` is the sub-brand `v` with its object spoilt. -/
inductive SubBrand.Spoilt : Value → Value → Prop where
  | fields {entries entries' : List (Text × Value)} :
    SpoiltFields [nameField, ruleField] [nameField, ruleField] entries entries' →
    SubBrand.Spoilt (.object entries) (.object entries')

/-- The brand `v` with its own object or that of a sub-brand spoilt. -/
inductive Brand.Spoilt : Value → Value → Prop where
  | fields {entries entries' : List (Text × Value)} :
    SpoiltFields [nameField, ruleField, subbrandsField] [nameField, ruleField] entries entries' →
    Brand.Spoilt (.object entries) (.object entries')
  | subbrand {before after : List (Text × Value)} {items items' : List Value} {v v' : Value} : SubBrand.Spoilt v v' →
    Brand.Spoilt (.object (before ++ (subbrandsField, .list (items ++ v :: items')) :: after))
      (.object (before ++ (subbrandsField, .list (items ++ v' :: items')) :: after))

/-- The rule set `v` with its own object or one inside a brand spoilt. -/
inductive RuleSet.Spoilt : Value → Value → Prop where
  | fields {entries entries' : List (Text × Value)} : SpoiltFields [brandsField] [brandsField] entries entries' →
    RuleSet.Spoilt (.object entries) (.object entries')
  | brand {before after : List (Text × Value)} {items items' : List Value} {v v' : Value} : Brand.Spoilt v v' →
    RuleSet.Spoilt (.object (before ++ (brandsField, .list (items ++ v :: items')) :: after))
      (.object (before ++ (brandsField, .list (items ++ v' :: items')) :: after))

/-! ### The shapes of the records -/

namespace Json

theorem subBrandShape_lawful : subBrandShape.Lawful := by
  have hne : ruleField ≠ nameField := by decide
  refine lawful_of_hasSlot ?unset ?slots
  case unset => exact List.forall_mem_cons.mpr ⟨rfl, List.forall_mem_cons.mpr ⟨rfl, nofun⟩⟩
  case slots =>
    refine List.forall_mem_cons.mpr ⟨?name, List.forall_mem_cons.mpr ⟨?rule, nofun⟩⟩
    case name =>
      refine .slot (filledBy fun _ => rfl) whole_string fun d a => ?_
      refine List.forall_mem_cons.mpr ⟨iff_of_true rfl (.inr rfl), ?_⟩
      exact List.forall_mem_cons.mpr ⟨(or_iff_left hne).symm, nofun⟩
    case rule =>
      refine .slot (filledBy fun _ => rfl) whole_string fun d a => ?_
      refine List.forall_mem_cons.mpr ⟨(or_iff_left hne.symm).symm, ?_⟩
      exact List.forall_mem_cons.mpr ⟨iff_of_true rfl (.inr rfl), nofun⟩

theorem brandShape_lawful : brandShape.Lawful := by
  have hname : ruleField ≠ nameField ∧ subbrandsField ≠ nameField ∧ subbrandsField ≠ ruleField := by decide
  obtain ⟨hrn, hsn, hsr⟩ := hname
  refine lawful_of_hasSlot ?unset ?slots
  case unset =>
    exact List.forall_mem_cons.mpr ⟨rfl, List.forall_mem_cons.mpr ⟨rfl, List.forall_mem_cons.mpr ⟨rfl, nofun⟩⟩⟩
  case slots =>
    refine List.forall_mem_cons.mpr ⟨?name, List.forall_mem_cons.mpr ⟨?rule,
      List.forall_mem_cons.mpr ⟨?subs, nofun⟩⟩⟩
    case name =>
      refine .slot (filledBy fun _ => rfl) whole_string fun d a => ?_
      refine List.forall_mem_cons.mpr ⟨iff_of_true rfl (.inr rfl), ?_⟩
      refine List.forall_mem_cons.mpr ⟨(or_iff_left hrn).symm, ?_⟩
      exact List.forall_mem_cons.mpr ⟨(or_iff_left hsn).symm, nofun⟩
    case rule =>
      refine .slot (filledBy fun _ => rfl) whole_string fun d a => ?_
      refine List.forall_mem_cons.mpr ⟨(or_iff_left hrn.symm).symm, ?_⟩
      refine List.forall_mem_cons.mpr ⟨iff_of_true rfl (.inr rfl), ?_⟩
      exact List.forall_mem_cons.mpr ⟨(or_iff_left hsr).symm, nofun⟩
    case subs =>
      refine .slot (filledBy fun _ => rfl) (whole_list subBrandShape_lawful.whole_record) fun d a => ?_
      refine List.forall_mem_cons.mpr ⟨(or_iff_left hsn.symm).symm, ?_⟩
      refine List.forall_mem_cons.mpr ⟨(or_iff_left hsr.symm).symm, ?_⟩
      exact List.forall_mem_cons.mpr ⟨iff_of_true rfl (.inr rfl), nofun⟩

theorem ruleSetShape_lawful : ruleSetShape.Lawful := by
  refine lawful_of_hasSlot ?unset ?slots
  case unset => exact List.forall_mem_cons.mpr ⟨rfl, nofun⟩
  case slots =>
    refine List.forall_mem_cons.mpr ⟨.slot (filledBy fun _ => rfl) ?_ fun d a => ?_, nofun⟩
    · exact whole_list brandShape_lawful.whole_record
    · exact List.forall_mem_cons.mpr ⟨iff_of_true rfl (.inr rfl), nofun⟩

end Json

/-! ### What is read -/

theorem getD_eq_of_mem {α : Type} {o : Option α} {a b : α} (h : ∀ x ∈ o, x = a) (hset : o.isSome = true ∨ b = a) :
    o.getD b = a := by
  cases o with
  | none =>
    obtain hsome | rfl := hset
    · cases hsome
    · rfl
  | some x => exact h x rfl

/-- The fields read so far are those of the sub-brand. -/
structure SubBrand.Fits (s : SubBrand) (d : SubBrandDraft) : Prop where
  name : ∀ n ∈ d.name?, n = s.name
  rule : ∀ r ∈ d.rule?, r = s.rule

/-- A field of the sub-brand. -/
inductive SubBrand.IsEntry (s : SubBrand) : Text × Value → Prop where
  | name : s.IsEntry (nameField, .string s.name)
  | rule : s.IsEntry (ruleField, .string s.rule)

theorem SubBrand.IsEntry.advances {s : SubBrand} {e : Text × Value} (h : s.IsEntry e) :
    subBrandShape.Advances s.Fits e := by
  cases h with
  | name =>
    refine ⟨_, rfl, fun d hd => ⟨{ d with name? := some s.name }, ⟨?_, hd.rule⟩, ?_⟩⟩
    · rintro n ⟨⟩
      rfl
    · exact (filledBy fun _ => rfl).accepts (accepts_string s.name) d
  | rule =>
    refine ⟨_, rfl, fun d hd => ⟨{ d with rule? := some s.rule }, ⟨hd.name, ?_⟩, ?_⟩⟩
    · rintro r ⟨⟩
      rfl
    · exact (filledBy fun _ => rfl).accepts (accepts_string s.rule) d

theorem SubBrand.accepts {s : SubBrand} {v : Value} (h : s.IsWrittenAs v) : Accepts subBrandShape.read v s := by
  obtain @⟨entries, hperm⟩ := h
  have hentries : ∀ e ∈ entries, s.IsEntry e := by
    intro e he
    rw [hperm.mem_iff] at he
    revert e
    exact List.forall_mem_cons.mpr ⟨.name, List.forall_mem_cons.mpr ⟨.rule, nofun⟩⟩
  have hkeys : (entries.map Prod.fst).Perm [nameField, ruleField] := hperm.map Prod.fst
  have hname : nameField ∈ entries.map Prod.fst := hkeys.mem_iff.mpr (by decide)
  have hrule : ruleField ∈ entries.map Prod.fst := hkeys.mem_iff.mpr (by decide)
  have hstart : s.Fits subBrandShape.empty := ⟨nofun, nofun⟩
  refine subBrandShape_lawful.accepts_record hstart (fun e he => (hentries e he).advances) ?distinct ?complete ?build
  case distinct =>
    rw [hkeys.nodup_iff]
    decide
  case complete => exact List.forall_mem_cons.mpr ⟨fun _ => hname, List.forall_mem_cons.mpr ⟨fun _ => hrule, nofun⟩⟩
  case build =>
    intro d hd htakes
    obtain ⟨hsetName, hmore⟩ := List.forall_mem_cons.mp htakes.isSet
    obtain ⟨hsetRule, -⟩ := List.forall_mem_cons.mp hmore
    have hname := hsetName.mpr (.inr hname)
    have hrule := hsetRule.mpr (.inr hrule)
    show SubBrand.mk (d.name?.getD []) (d.rule?.getD []) = s
    rw [getD_eq_of_mem hd.name (.inl hname), getD_eq_of_mem hd.rule (.inl hrule)]

/-- The fields read so far are those of the brand. -/
structure Brand.Fits (b : Brand) (d : BrandDraft) : Prop where
  name : ∀ n ∈ d.name?, n = b.name
  rule : ∀ r ∈ d.rule?, r = b.rule
  subbrands : ∀ s ∈ d.subbrands?, s = b.subbrands

/-- A field of the brand. -/
inductive Brand.IsEntry (b : Brand) : Text × Value → Prop where
  | name : b.IsEntry (nameField, .string b.name)
  | rule : b.IsEntry (ruleField, .string b.rule)
  | subbrands {subbrands : List Value} : List.Forall₂ SubBrand.IsWrittenAs b.subbrands subbrands →
    b.IsEntry (subbrandsField, .list subbrands)

theorem Brand.IsEntry.advances {b : Brand} {e : Text × Value} (h : b.IsEntry e) :
    brandShape.Advances b.Fits e := by
  cases h with
  | name =>
    refine ⟨_, rfl, fun d hd => ⟨{ d with name? := some b.name }, ⟨?_, hd.rule, hd.subbrands⟩, ?_⟩⟩
    · rintro n ⟨⟩
      rfl
    · exact (filledBy fun _ => rfl).accepts (accepts_string b.name) d
  | rule =>
    refine ⟨_, rfl, fun d hd => ⟨{ d with rule? := some b.rule }, ⟨hd.name, ?_, hd.subbrands⟩, ?_⟩⟩
    · rintro r ⟨⟩
      rfl
    · exact (filledBy fun _ => rfl).accepts (accepts_string b.rule) d
  | @subbrands subs hsubs =>
    refine ⟨_, rfl, fun d hd => ⟨{ d with subbrands? := some b.subbrands }, ⟨hd.name, hd.rule, ?_⟩, ?_⟩⟩
    · rintro s ⟨⟩
      rfl
    · have hitems : List.Forall₂ (Accepts subBrandShape.read) subs b.subbrands :=
        hsubs.flip.imp fun _ _ => SubBrand.accepts
      exact (filledBy fun _ => rfl).accepts (accepts_list hitems) d

theorem Brand.accepts_entries {b : Brand} {entries : List (Text × Value)} (hentries : ∀ e ∈ entries, b.IsEntry e)
    (hdistinct : (entries.map Prod.fst).Nodup) (hname : nameField ∈ entries.map Prod.fst)
    (hrule : ruleField ∈ entries.map Prod.fst)
    (hsubbrands : subbrandsField ∈ entries.map Prod.fst ∨ [] = b.subbrands) :
    Accepts brandShape.read (.object entries) b := by
  have hstart : b.Fits brandShape.empty := ⟨nofun, nofun, nofun⟩
  refine brandShape_lawful.accepts_record hstart (fun e he => (hentries e he).advances) hdistinct ?complete ?build
  case complete =>
    refine List.forall_mem_cons.mpr ⟨fun _ => hname, List.forall_mem_cons.mpr ⟨fun _ => hrule, ?_⟩⟩
    exact List.forall_mem_cons.mpr ⟨nofun, nofun⟩
  case build =>
    intro d hd htakes
    obtain ⟨hsetName, hmore⟩ := List.forall_mem_cons.mp htakes.isSet
    obtain ⟨hsetRule, hmore⟩ := List.forall_mem_cons.mp hmore
    obtain ⟨hsetSubbrands, -⟩ := List.forall_mem_cons.mp hmore
    have hname := hsetName.mpr (.inr hname)
    have hrule := hsetRule.mpr (.inr hrule)
    have hsubbrands : d.subbrands?.isSome = true ∨ [] = b.subbrands :=
      hsubbrands.imp_left fun h => hsetSubbrands.mpr (.inr h)
    show Brand.mk (d.name?.getD []) (d.rule?.getD []) (d.subbrands?.getD []) = b
    rw [getD_eq_of_mem hd.name (.inl hname), getD_eq_of_mem hd.rule (.inl hrule),
      getD_eq_of_mem hd.subbrands hsubbrands]

theorem Brand.accepts {b : Brand} {v : Value} (h : b.IsWrittenAs v) : Accepts brandShape.read v b := by
  cases h with
  | @fields entries subs hsubs hperm =>
    have hkeys : (entries.map Prod.fst).Perm [nameField, ruleField, subbrandsField] := hperm.map Prod.fst
    refine Brand.accepts_entries ?_ ?_ ?_ ?_ ?_
    · intro e he
      rw [hperm.mem_iff] at he
      revert e
      refine List.forall_mem_cons.mpr ⟨.name, List.forall_mem_cons.mpr ⟨.rule, ?_⟩⟩
      exact List.forall_mem_cons.mpr ⟨.subbrands hsubs, nofun⟩
    · rw [hkeys.nodup_iff]
      decide
    · exact hkeys.mem_iff.mpr (by decide)
    · exact hkeys.mem_iff.mpr (by decide)
    · exact .inl (hkeys.mem_iff.mpr (by decide))
  | @short entries hsubs hperm =>
    have hkeys : (entries.map Prod.fst).Perm [nameField, ruleField] := hperm.map Prod.fst
    refine Brand.accepts_entries ?_ ?_ ?_ ?_ (.inr hsubs.symm)
    · intro e he
      rw [hperm.mem_iff] at he
      revert e
      exact List.forall_mem_cons.mpr ⟨.name, List.forall_mem_cons.mpr ⟨.rule, nofun⟩⟩
    · rw [hkeys.nodup_iff]
      decide
    · exact hkeys.mem_iff.mpr (by decide)
    · exact hkeys.mem_iff.mpr (by decide)

/-- The field read so far is that of the rule set. -/
structure RuleSet.Fits (rs : RuleSet) (d : RuleSetDraft) : Prop where
  brands : ∀ bs ∈ d.brands?, bs = rs.brands

theorem RuleSet.accepts {rs : RuleSet} {v : Value} (h : rs.IsWrittenAs v) : Accepts ruleSetShape.read v rs := by
  obtain @⟨brands, hbrands⟩ := h
  have hitems : List.Forall₂ (Accepts brandShape.read) brands rs.brands := hbrands.flip.imp fun _ _ => Brand.accepts
  have hstart : rs.Fits ruleSetShape.empty := ⟨nofun⟩
  refine ruleSetShape_lawful.accepts_record hstart ?step (List.pairwise_singleton _ _) ?complete ?build
  case step =>
    refine List.forall_mem_cons.mpr ⟨⟨_, rfl, fun d _ => ⟨⟨some rs.brands⟩, ⟨?_⟩, ?_⟩⟩, nofun⟩
    · rintro bs ⟨⟩
      rfl
    · exact (filledBy fun _ => rfl).accepts (accepts_list hitems) d
  case complete => exact List.forall_mem_cons.mpr ⟨fun _ => List.mem_cons_self, nofun⟩
  case build =>
    intro d hd htakes
    obtain ⟨hset, -⟩ := List.forall_mem_cons.mp htakes.isSet
    have hset := hset.mpr (.inr List.mem_cons_self)
    show RuleSet.mk (d.brands?.getD []) = rs
    rw [getD_eq_of_mem hd.brands (.inl hset)]

/-! ### What is refused -/

theorem SpoiltFields.rejects {δ α : Type} {shape : Shape δ α} (lawful : shape.Lawful) {known required : List Text}
    (hknown : shape.fields.map Field.name ⊆ known)
    (hrequired : ∀ name ∈ required, ∃ f ∈ shape.fields, f.name = name ∧ f.optional = false)
    {entries entries' : List (Text × Value)} (h : SpoiltFields known required entries entries') :
    Rejects shape.read (.object entries') := by
  cases h with
  | unknown hname =>
    exact lawful.rejects_unknown (List.mem_append_right _ List.mem_cons_self) fun hmem => hname (hknown hmem)
  | repeated hname =>
    refine lawful.rejects_repeated fun hdistinct => ?_
    rw [List.map_append, List.map_cons, List.perm_middle.nodup_iff, ← List.map_append] at hdistinct
    exact (List.nodup_cons.mp hdistinct).1 hname
  | @missing _ name hname =>
    obtain ⟨f, hf, rfl, hoptional⟩ := hrequired _ hname
    refine lawful.rejects_missing hf hoptional fun hmem => ?_
    obtain ⟨e, he, heq⟩ := List.mem_map.mp hmem
    exact of_decide_eq_true (List.mem_filter.mp he).2 heq

theorem SubBrand.Spoilt.rejects {v v' : Value} (h : SubBrand.Spoilt v v') : Rejects subBrandShape.read v' := by
  obtain ⟨h⟩ := h
  refine h.rejects subBrandShape_lawful (fun _ hname => hname) ?_
  refine List.forall_mem_cons.mpr ⟨⟨_, List.mem_cons_self, rfl, rfl⟩, ?_⟩
  exact List.forall_mem_cons.mpr ⟨⟨_, List.mem_cons_of_mem _ List.mem_cons_self, rfl, rfl⟩, nofun⟩

theorem Brand.Spoilt.rejects {v v' : Value} (h : Brand.Spoilt v v') : Rejects brandShape.read v' := by
  cases h with
  | fields h =>
    refine h.rejects brandShape_lawful (fun _ hname => hname) ?_
    refine List.forall_mem_cons.mpr ⟨⟨_, List.mem_cons_self, rfl, rfl⟩, ?_⟩
    exact List.forall_mem_cons.mpr ⟨⟨_, List.mem_cons_of_mem _ List.mem_cons_self, rfl, rfl⟩, nofun⟩
  | @subbrand before after items items' _ v' h =>
    have hlist : Rejects (readList subBrandShape.read) (.list (items ++ v' :: items')) :=
      rejects_list subBrandShape_lawful.whole_record (List.mem_append_right _ List.mem_cons_self) h.rejects
    refine brandShape_lawful.rejects_value (List.mem_append_right _ List.mem_cons_self) ?_
    refine List.forall_mem_cons.mpr ⟨fun hname => absurd hname (by decide), ?_⟩
    refine List.forall_mem_cons.mpr ⟨fun hname => absurd hname (by decide), ?_⟩
    exact List.forall_mem_cons.mpr ⟨fun _ d => (filledBy fun _ => rfl).rejects hlist d, nofun⟩

theorem RuleSet.Spoilt.rejects {v v' : Value} (h : RuleSet.Spoilt v v') : Rejects ruleSetShape.read v' := by
  cases h with
  | fields h =>
    refine h.rejects ruleSetShape_lawful (fun _ hname => hname) ?_
    exact List.forall_mem_cons.mpr ⟨⟨_, List.mem_cons_self, rfl, rfl⟩, nofun⟩
  | @brand before after items items' _ v' h =>
    have hlist : Rejects (readList brandShape.read) (.list (items ++ v' :: items')) :=
      rejects_list brandShape_lawful.whole_record (List.mem_append_right _ List.mem_cons_self) h.rejects
    refine ruleSetShape_lawful.rejects_value (List.mem_append_right _ List.mem_cons_self) ?_
    exact List.forall_mem_cons.mpr ⟨fun _ d => (filledBy fun _ => rfl).rejects hlist d, nofun⟩

namespace RuleSet

theorem ofJson_eq_check {rs : RuleSet} {v : Value} {t : Text} (h : rs.IsWrittenAs v) (ht : IsTextOf v t) :
    ofJson t = rs.check := by
  rw [ofJson, readAll_of_accepts (accepts h) ht]

/-- Every text of a rule set with usable names is read as that rule set, and where one object is spoilt nothing is
read. -/
theorem ofJson_layouts {rs : RuleSet} {v : Value} (h : rs.IsWrittenAs v) :
    (rs.nameError? = none → ∀ t, IsTextOf v t → ofJson t = .ok rs) ∧
      ∀ v', Spoilt v v' → ∀ t, IsTextOf v' t → ∃ e, ofJson t = .error (.json e) := by
  constructor
  · intro hnames t ht
    rw [ofJson_eq_check h ht, check, hnames]
  · intro v' hspoilt t ht
    obtain ⟨e, he⟩ := readAll_of_rejects hspoilt.rejects ht
    exact ⟨e, by rw [ofJson, he]⟩

/-- One brand with its fields out of order, with white space, an escape and no list of sub-brands. -/
def spacedText : Text := "\x7b\"brands\" :\n[ \x7b\"rule\":\"a\",\t\"name\":\"\\u0042\"\x7d]\x7d ".toList

def spacedValue : Value :=
  .object [(brandsField, .list [.object [(ruleField, .string ['a']), (nameField, .string ['B'])]])]

def spacedRuleSet : RuleSet := ⟨[⟨['B'], ['a'], []⟩]⟩

/-- The same brand with a letter missing in the name of a field. -/
def misspeltText : Text := "\x7b\"brands\":[\x7b\"rule\":\"a\",\"name\":\"B\",\"subbrand\":[]\x7d]\x7d".toList

def subbrandField : Text := ['s', 'u', 'b', 'b', 'r', 'a', 'n', 'd']

def misspeltValue : Value :=
  .object [(brandsField, .list [.object [(ruleField, .string ['a']), (nameField, .string ['B']),
    (subbrandField, .list [])]])]

theorem spacedRuleSet_isWrittenAs : spacedRuleSet.IsWrittenAs spacedValue :=
  .fields (.cons (.short rfl (.swap _ _ _)) .nil)

theorem spacedValue_spoilt : Spoilt spacedValue misspeltValue := by
  have hfields : SpoiltFields [nameField, ruleField, subbrandsField] [nameField, ruleField]
      ([(ruleField, .string ['a']), (nameField, .string ['B'])] ++ [])
      ([(ruleField, .string ['a']), (nameField, .string ['B'])] ++ [(subbrandField, .list [])]) :=
    .unknown (by decide)
  have hbrands : Spoilt (.object ([] ++ (brandsField, .list ([] ++ _ :: [])) :: []))
      (.object ([] ++ (brandsField, .list ([] ++ _ :: [])) :: [])) := .brand (.fields hfields)
  exact hbrands

theorem isTextOf_misspeltText : IsTextOf misspeltValue misspeltText := by
  have hempty : Writes (.list []) (writeList id []) := writes_writeList .nil
  have hbrand : Writes
      (.object [(ruleField, .string ['a']), (nameField, .string ['B']), (subbrandField, .list [])])
      (writeObject [(ruleField, writeString ['a']), (nameField, writeString ['B']),
        (subbrandField, writeList id [])]) :=
    writes_writeObject (.cons ⟨rfl, writes_writeString ['a']⟩ (.cons ⟨rfl, writes_writeString ['B']⟩
      (.cons ⟨rfl, hempty⟩ .nil)))
  have hbrands : Writes (.list [_]) (writeList writeObject [_]) := writes_writeList (.cons hbrand .nil)
  have hwrites : Writes misspeltValue (writeObject [(brandsField, _)]) :=
    writes_writeObject (.cons ⟨rfl, hbrands⟩ .nil)
  refine ⟨[], _, [], ?_, spaces_nil, hwrites, spaces_nil⟩
  decide +kernel

theorem isTextOf_spacedText : IsTextOf spacedValue spacedText := by
  obtain ⟨hblank, hline, htab⟩ : Spaces [' '] ∧ Spaces ['\n'] ∧ Spaces ['\t'] := by decide
  have hrule := Writes.string (spells_plain (t := ['a']) (by decide))
  have hname : Writes (.string ['B']) ('"' :: (['\\', 'u', '0', '0', '4', '2'] ++ [] ++ ['"'])) := by
    have hcode : SpellsCode (((0 * 16 + 0) * 16 + 4) * 16 + 2) ['0', '0', '4', '2'] :=
      .digits ⟨by decide, .inl rfl⟩ ⟨by decide, .inl rfl⟩ ⟨by decide, .inl rfl⟩ ⟨by decide, .inl rfl⟩
    exact .string (.cons (.code hcode) .nil)
  have hruleEntry := WritesEntry.colon (spells_plain (t := ruleField) (by decide)) spaces_nil spaces_nil hrule
  have hnameEntry := WritesEntry.colon (spells_plain (t := nameField) (by decide)) spaces_nil spaces_nil hname
  have hbrand := Writes.object (.items spaces_nil hruleEntry (.next spaces_nil htab hnameEntry (.last spaces_nil)))
  have hbrands := Writes.list (.items hblank hbrand (.last spaces_nil))
  have hentry := WritesEntry.colon (spells_plain (t := brandsField) (by decide)) hblank hline hbrands
  have hwrites := Writes.object (.items spaces_nil hentry (.last spaces_nil))
  refine ⟨[], _, [' '], ?_, spaces_nil, hwrites, hblank⟩
  decide +kernel

theorem ofJson_layouts_spaced : spacedRuleSet.IsWrittenAs spacedValue ∧ ofJson spacedText = .ok spacedRuleSet ∧
    ∃ e, ofJson misspeltText = .error (.json e) := by
  obtain ⟨hread, hspoilt⟩ := ofJson_layouts spacedRuleSet_isWrittenAs
  have hnames : spacedRuleSet.nameError? = none := by decide
  exact ⟨spacedRuleSet_isWrittenAs, hread hnames _ isTextOf_spacedText,
    hspoilt _ spacedValue_spoilt _ isTextOf_misspeltText⟩

end RuleSet

end KeywordRules
