import KeywordRules.Proofs.Command.Documents
import KeywordRules.Proofs.Command.Lines

/-!
# Strict checks

A strict check writes what a lenient one writes and differs from it in its ending alone: it counts the warnings, and ends
with status 1 if there are any (`Command.check_strict`).  The count goes through the classifier, which gathers the
warnings of all rules, and is that of the rules compiled one by one (`RuleSet.length_warnings_compile`).
-/

namespace KeywordRules

/-- The texts of all rules, each brand's before those of its sub-brands. -/
def RuleSet.ruleTexts (rs : RuleSet) : List Text :=
  rs.brands.flatMap fun b => b.rule :: b.subbrands.map SubBrand.rule

theorem RuleSet.queries_compile (rs : RuleSet) :
    rs.compile.rules.map CompiledRule.query = rs.ruleTexts.map Query.compile := by
  rw [rules_compile, ruleTexts, List.map_flatMap, List.map_flatMap]
  refine congrArg (rs.brands.flatMap ·) (funext fun b => ?_)
  simp only [List.map_cons, List.map_map, Function.comp_def]

/-- The warnings that the rules have when they are compiled one by one. -/
def RuleSet.queryWarnings (rs : RuleSet) : List Warning := rs.ruleTexts.flatMap fun rule => (Query.compile rule).warnings

theorem RuleSet.queryWarnings_eq (rs : RuleSet) :
    rs.queryWarnings = rs.compile.rules.flatMap fun r => r.query.warnings := by
  calc rs.queryWarnings = (rs.ruleTexts.map Query.compile).flatMap Query.warnings := (List.flatMap_map _ _ _).symm
    _ = (rs.compile.rules.map CompiledRule.query).flatMap Query.warnings := by rw [queries_compile]
    _ = rs.compile.rules.flatMap fun r => r.query.warnings := List.flatMap_map _ _ _

/-- The classifier has as many warnings as its rules bring one by one. -/
theorem RuleSet.length_warnings_compile (rs : RuleSet) : rs.compile.warnings.length = rs.queryWarnings.length := by
  have hrule : ∀ r : CompiledRule, r.warnings.length = r.query.warnings.length := fun r => List.length_map _
  rw [warnings_compile, queryWarnings_eq, List.length_flatMap, List.length_flatMap]
  simp only [hrule]

/-! ### Endings -/

/-- What a lenient and a strict check of the same rules, which have `n` warnings, have in common and how they end. -/
structure DifferInStrictness (n : Nat) (lenient strict : Report) : Prop where
  stdout : strict.stdout = lenient.stdout
  lenient : lenient.ending = .ok .clean ∧ lenient.exitCode = 0
  warned : (strict.ending = .ok (.warnings n) ∧ strict.exitCode = 1) ↔ 0 < n
  clean : (strict.ending = .ok .clean ∧ strict.exitCode = 0) ↔ n = 0

/-- A report that ends as a check with `n` warnings does differs in nothing else between the modes. -/
theorem DifferInStrictness.of_checkEnding (n : Nat) (t : Text) :
    DifferInStrictness n ⟨t, .ok (checkEnding false n)⟩ ⟨t, .ok (checkEnding true n)⟩ := by
  rcases n with _ | n
  · exact ⟨rfl, ⟨rfl, rfl⟩, by simp [checkEnding], by simp [checkEnding, Report.exitCode]⟩
  · exact ⟨rfl, ⟨rfl, rfl⟩, by simp [checkEnding, Report.exitCode], by simp [checkEnding]⟩

theorem differInStrictness_checkQuery (source : Text) :
    DifferInStrictness (Query.compile source).warnings.length (checkQuery source false) (checkQuery source true) :=
  .of_checkEnding _ _

theorem differInStrictness_checkRules (rs : RuleSet) :
    DifferInStrictness rs.queryWarnings.length (checkRules rs.compile false) (checkRules rs.compile true) := by
  rw [← rs.length_warnings_compile]
  exact .of_checkEnding _ _

/-! ### Checks that fail -/

/-- A check that fails with status 1 before it writes anything. -/
structure Report.IsRefusal (r : Report) (e : RunError) : Prop where
  stdout : r.stdout = []
  ending : r.ending = .error e
  exitCode : r.exitCode = 1

section Failures

variable {limit : Nat} {inputs : Inputs} {path : Text} {e : RunError}

theorem Inputs.exitCode_of_read_eq_error (h : inputs.read limit path = .error e) : e.exitCode = 1 := by
  unfold read at h
  split at h
  · cases h
    rfl
  · dsimp only at h
    split at h
    · cases h
      rfl
    · cases h

/-- A rule set that cannot be loaded is refused, whatever the mode. -/
theorem Command.isRefusal_check (hload : loadClassifier limit path inputs = .error e) (hexit : e.exitCode = 1)
    (strict : Bool) : (Command.run limit inputs (.check (.rules path) strict)).IsRefusal e := by
  rw [Command.run, hload]
  exact ⟨rfl, rfl, hexit⟩

end Failures

/-! ### The two modes -/

/-- Checking a query, or a rule set that can be read and is accepted, writes the same in both modes.  A lenient check ends
well; a strict one counts the warnings that the rules have when they are compiled one by one, and ends with that count
and status 1 if there are any, and well otherwise.  A rule set that cannot be read or is rejected is refused in both
modes, and what is read is the file unless it is longer than the limit. -/
theorem Command.check_strict (limit : Nat) (inputs : Inputs) :
    (∀ source, DifferInStrictness (Query.compile source).warnings.length
      (Command.run limit inputs (.check (.query source) false)) (Command.run limit inputs (.check (.query source) true))) ∧
    (∀ path,
      let check := fun strict => Command.run limit inputs (.check (.rules path) strict)
      match inputs.read limit path with
      | .error e => ∀ strict, (check strict).IsRefusal e
      | .ok text =>
        match RuleSet.ofJson text with
        | .error e => ∀ strict, (check strict).IsRefusal (.rules path e)
        | .ok rs => DifferInStrictness rs.queryWarnings.length (check false) (check true)) ∧
    (limit < maxWord ∨ inputs.FitsWord →
      ∀ path, inputs.read limit path = (inputs.document limit [] path).map decodeLossy) := by
  refine ⟨fun source => differInStrictness_checkQuery source, fun path => ?_, fun hfits path => ?_⟩
  · dsimp only
    cases hread : inputs.read limit path with
    | error e =>
      have hload : loadClassifier limit path inputs = .error e := by rw [loadClassifier, hread]
      exact Command.isRefusal_check hload (Inputs.exitCode_of_read_eq_error hread)
    | ok text =>
      cases hrules : RuleSet.ofJson text with
      | error e =>
        have hload : loadClassifier limit path inputs = .error (.rules path e) := by simp only [loadClassifier, hread, hrules]
        simp only [hrules]
        exact Command.isRefusal_check hload rfl
      | ok rs =>
        have hload : loadClassifier limit path inputs = .ok rs.compile := by simp only [loadClassifier, hread, hrules]
        simp only [hrules, Command.run, hload]
        exact differInStrictness_checkRules rs
  · exact (Inputs.Reached.start inputs).read_eq hfits path

theorem RuleSet.fitsWord_asFile {rs : RuleSet} (h : rs.toJson.length ≤ maxWord) : rs.asFile.FitsWord where
  stdin bytes hbytes := by
    cases hbytes
    exact Nat.zero_le _
  file path bytes hbytes := by
    simp only [asFile] at hbytes
    split at hbytes
    · cases hbytes
      rwa [List.length_map]
    · cases hbytes

/-- A brand and a sub-brand have a warning each: under the greatest limit the strict check counts both. -/
theorem Command.check_strict_warningNames :
    let check := fun strict => Command.run maxWord warningNames.asFile (.check (.rules ['r']) strict)
    (maxWord < maxWord ∨ warningNames.asFile.FitsWord) ∧
    warningNames.asFile.read maxWord ['r'] = (warningNames.asFile.document maxWord [] ['r']).map decodeLossy ∧
    warningNames.asFile.read maxWord ['r'] = .ok warningNames.toJson ∧
    DifferInStrictness 2 (check false) (check true) ∧
    (Command.run maxWord warningNames.asFile (.check (.rules ['s']) true)).IsRefusal (.read ['s'] .notFound) := by
  have hfits : maxWord < maxWord ∨ warningNames.asFile.FitsWord :=
    .inr (RuleSet.fitsWord_asFile (by decide +kernel))
  obtain ⟨-, hrules, hreading⟩ := Command.check_strict maxWord warningNames.asFile
  have hread : warningNames.asFile.read maxWord ['r'] = .ok warningNames.toJson := eq_ok_of_toOption (by decide +kernel)
  have haccepted : RuleSet.ofJson warningNames.toJson = .ok warningNames := by
    rw [RuleSet.ofJson_toJson_eq_check]
    rfl
  have hcount : warningNames.queryWarnings.length = 2 := by decide +kernel
  have hcheck := hrules ['r']
  simp only [hread, haccepted, hcount] at hcheck
  exact ⟨hfits, hreading hfits ['r'], hread, hcheck, hrules ['s'] true⟩

end KeywordRules
