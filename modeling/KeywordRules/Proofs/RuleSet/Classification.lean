import KeywordRules.Proofs.RuleSet.Names
import KeywordRules.RuleSet.Classifier

/-!
# Classification by single rules

A compiled rule set tries all of its queries on one prepared document.  The outcome is the one that testing each rule on
its own gives: the first brand that matches and the first of its own sub-brands that does (`classify_iff_first`).
-/

namespace KeywordRules

/-- `x` is the first member of `xs` that passes the test. -/
def IsFirst {α : Type} (p : α → Bool) (xs : List α) (x : α) : Prop :=
  p x = true ∧ ∃ before after, xs = before ++ x :: after ∧ ∀ y ∈ before, p y = false

theorem find?_eq_some_iff_isFirst {α : Type} {p : α → Bool} {xs : List α} {x : α} :
    xs.find? p = some x ↔ IsFirst p xs x := by
  simp [List.find?_eq_some_iff_append, IsFirst]

theorem IsFirst.mem {α : Type} {p : α → Bool} {xs : List α} {x : α} (h : IsFirst p xs x) : x ∈ xs := by
  obtain ⟨-, before, after, rfl, -⟩ := h
  exact List.mem_append_right _ List.mem_cons_self

theorem IsFirst.append {α : Type} {p : α → Bool} {xs : List α} {x : α} (h : IsFirst p xs x) (ys : List α) :
    IsFirst p (xs ++ ys) x := by
  obtain ⟨hx, before, after, rfl, hbefore⟩ := h
  exact ⟨hx, before, after ++ ys, by simp, hbefore⟩

/-- What is said of the document `d` once it is found to be of the brand `b`: the name of the brand and of its first
sub-brand whose rule the document satisfies, if there is one. -/
def Classification.Describes (c : Classification) (d : Text) (b : Brand) : Prop :=
  c.brand = b.name ∧
    match c.subbrand? with
    | none => ∀ s ∈ b.subbrands, isMatch d s.rule = false
    | some n => ∃ s, IsFirst (fun s => isMatch d s.rule) b.subbrands s ∧ n = s.name

variable {rs : RuleSet} {d : Text} {c : Classification}

/-- Queries that share a prepared document decide as they do on their own. -/
theorem classify_eq (rs : RuleSet) (d : Text) :
    rs.compile.classify d = (rs.brands.find? fun b => isMatch d b.rule).map fun b =>
      ⟨b.name, (b.subbrands.find? fun s => isMatch d s.rule).map SubBrand.name⟩ := by
  rw [Classifier.classify, Classifier.classifyDocument, RuleSet.compile, List.find?_map, Option.map_map]
  refine congrArg (Option.map · _) (funext fun b => ?_)
  rw [Function.comp, Brand.compile, List.find?_map, Option.map_map]
  rfl

theorem classify_eq_none_iff : rs.compile.classify d = none ↔ ∀ b ∈ rs.brands, isMatch d b.rule = false := by
  rw [classify_eq, Option.map_eq_none_iff, List.find?_eq_none]
  simp

theorem describes_iff {b : Brand} :
    c.Describes d b ↔ ⟨b.name, (b.subbrands.find? fun s => isMatch d s.rule).map SubBrand.name⟩ = c := by
  obtain ⟨brand, subbrand?⟩ := c
  rw [Classification.Describes, Classification.mk.injEq]
  refine and_congr eq_comm ?_
  cases subbrand? with
  | none =>
    rw [Option.map_eq_none_iff, List.find?_eq_none]
    simp
  | some n =>
    rw [Option.map_eq_some_iff]
    refine exists_congr fun s => ?_
    rw [find?_eq_some_iff_isFirst]
    exact and_congr_right fun _ => eq_comm

theorem classify_eq_some_iff :
    rs.compile.classify d = some c ↔ ∃ b, IsFirst (fun b => isMatch d b.rule) rs.brands b ∧ c.Describes d b := by
  rw [classify_eq, Option.map_eq_some_iff]
  refine exists_congr fun b => ?_
  rw [find?_eq_some_iff_isFirst, describes_iff]

/-- Brands behind the one that was found do not matter. -/
theorem classify_append (h : rs.compile.classify d = some c) (more : List Brand) :
    (RuleSet.mk (rs.brands ++ more)).compile.classify d = some c := by
  obtain ⟨b, hb, hc⟩ := classify_eq_some_iff.1 h
  exact classify_eq_some_iff.2 ⟨b, hb.append more, hc⟩

/-- A sub-brand that is reported is the reported brand's own. -/
theorem Classification.Describes.mem_subbrands {b : Brand} {n : Text} (h : c.Describes d b) (hn : c.subbrand? = some n) :
    ∃ s ∈ b.subbrands, s.name = n := by
  have hsub := h.2
  rw [hn] at hsub
  obtain ⟨s, hs, rfl⟩ := hsub
  exact ⟨s, hs.mem, rfl⟩

/-- If all names are usable, the reported names stand for one brand and for one or none of its sub-brands. -/
theorem Classification.Describes.countP_eq {b : Brand} (h : c.Describes d b) (hnames : rs.nameError? = none)
    (hb : b ∈ rs.brands) :
    rs.brands.countP (fun b' => b'.name = c.brand) = 1 ∧
    b.subbrands.countP (fun s => some s.name = c.subbrand?) = c.subbrand?.toList.length := by
  obtain ⟨hbrands, hsubbrands⟩ := nameError?_eq_none_iff.1 hnames
  rw [h.1]
  refine ⟨hbrands.countP_eq_one hb, ?_⟩
  rcases hsub : c.subbrand? with _ | n
  · simp
  · obtain ⟨s, hs, rfl⟩ := h.mem_subbrands hsub
    have hone := (hsubbrands b hb).countP_eq_one hs
    simpa using hone

/-- Classifying a document agrees with matching it against each rule on its own.  It has no brand exactly if it matches
no brand's rule, and otherwise the first brand whose rule it matches, with the first of that brand's own sub-brands whose
rule it matches, if there is one.  So further brands change nothing once a brand is found, a reported sub-brand is one of
the reported brand's own, and usable names stand for one brand and at most one of its sub-brands. -/
theorem classify_iff_first (rs : RuleSet) (d : Text) :
    (rs.compile.classify d = none ↔ ∀ b ∈ rs.brands, isMatch d b.rule = false) ∧
    (∀ c, rs.compile.classify d = some c ↔
      ∃ b, IsFirst (fun b => isMatch d b.rule) rs.brands b ∧ c.Describes d b) ∧
    (∀ c, rs.compile.classify d = some c →
      ∀ more, (RuleSet.mk (rs.brands ++ more)).compile.classify d = some c) ∧
    (∀ c n, rs.compile.classify d = some c → c.subbrand? = some n →
      ∃ b, IsFirst (fun b => isMatch d b.rule) rs.brands b ∧ b.name = c.brand ∧ ∃ s ∈ b.subbrands, s.name = n) ∧
    (rs.nameError? = none → ∀ c, rs.compile.classify d = some c →
      rs.brands.countP (fun b => b.name = c.brand) = 1 ∧
      ∀ b ∈ rs.brands, b.name = c.brand →
        b.subbrands.countP (fun s => some s.name = c.subbrand?) = c.subbrand?.toList.length) := by
  refine ⟨classify_eq_none_iff, fun c => classify_eq_some_iff, fun c h more => classify_append h more, ?_, ?_⟩
  · intro c n h hn
    obtain ⟨b, hb, hc⟩ := classify_eq_some_iff.1 h
    exact ⟨b, hb, hc.1.symm, hc.mem_subbrands hn⟩
  · intro hnames c h
    obtain ⟨b, hb, hc⟩ := classify_eq_some_iff.1 h
    have hcount := hc.countP_eq hnames hb.mem
    refine ⟨hcount.1, fun b' hb' hname => ?_⟩
    have hbrands := (nameError?_eq_none_iff.1 hnames).1
    rw [hbrands.eq_of_name_eq hb' hb.mem (hname.trans hc.1)]
    exact hcount.2

/-- Two brands that share the name of a sub-brand, the second with a rule for every document with an `a`. -/
def sharedSubbrands : RuleSet :=
  ⟨[⟨"A".toList, "a AND b".toList, [⟨"X".toList, "c".toList⟩, ⟨"Y".toList, "(b".toList⟩]⟩,
    ⟨"B".toList, "a".toList, [⟨"X".toList, "not b".toList⟩]⟩]⟩

theorem classify_sharedSubbrands :
    (sharedSubbrands.nameError? = none ∧
      sharedSubbrands.compile.classify "a b".toList = some ⟨"A".toList, some "Y".toList⟩) ∧
    (∃ b, IsFirst (fun b => isMatch "a b".toList b.rule) sharedSubbrands.brands b ∧ b.name = "A".toList ∧
      ∃ s ∈ b.subbrands, s.name = "Y".toList) ∧
    (∀ more, (RuleSet.mk (sharedSubbrands.brands ++ more)).compile.classify "a b".toList =
      some ⟨"A".toList, some "Y".toList⟩) ∧
    sharedSubbrands.brands.countP (fun b => b.name = "A".toList) = 1 := by
  have hnames : sharedSubbrands.nameError? = none := by decide +kernel
  have hfound : sharedSubbrands.compile.classify "a b".toList = some ⟨"A".toList, some "Y".toList⟩ := by
    decide +kernel
  obtain ⟨-, -, happend, hown, husable⟩ := classify_iff_first sharedSubbrands "a b".toList
  exact ⟨⟨hnames, hfound⟩, hown _ _ hfound rfl, happend _ hfound, (husable hnames _ hfound).1⟩

end KeywordRules
