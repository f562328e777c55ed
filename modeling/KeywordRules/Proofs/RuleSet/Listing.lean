import KeywordRules.RuleSet.Journal

/-!
# Rules, warnings and records in one order

Compiling a rule set goes through the rules once.  The list of compiled rules, the list of warnings and the journal are
made in different places, and all three follow the order of the rule set: each brand before its own sub-brands
(`compile_in_order`).
-/

namespace KeywordRules

/-- What has been gathered once `rules` have been compiled as well. -/
def Gathered.with (g : Gathered) (rules : List CompiledRule) : Gathered :=
  ⟨g.warnings ++ rules.flatMap CompiledRule.warnings, g.records ++ rules.flatMap fun r => r.query.journal⟩

theorem Gathered.with_nil (g : Gathered) : g.with [] = g := by
  simp [Gathered.with]

theorem Gathered.with_append (g : Gathered) (rules more : List CompiledRule) :
    g.with (rules ++ more) = (g.with rules).with more := by
  simp [Gathered.with]

/-! ### Compiling step by step -/

/-- One rule adds its own warnings and records, and nothing else. -/
theorem compileRule_run (brand : Text) (subbrand? : Option Text) (rule : Text) (g : Gathered) :
    (compileRule brand subbrand? rule).run g =
      (Query.compile rule, g.with [⟨brand, subbrand?, Query.compile rule⟩]) := by
  simp only [Gathered.with, List.flatMap_singleton]
  rfl

/-- Compiling one after the other lists what each of them compiles to and gathers the rules of each in turn. -/
theorem mapM_run {α β : Type} {compiling : α → StateM Gathered β} {compile : α → β} {rules : β → List CompiledRule}
    {xs : List α} (h : ∀ x ∈ xs, ∀ g, (compiling x).run g = (compile x, g.with (rules (compile x)))) (g : Gathered) :
    (xs.mapM compiling).run g = (xs.map compile, g.with ((xs.map compile).flatMap rules)) := by
  induction xs generalizing g with
  | nil => rw [List.map_nil, List.flatMap_nil, Gathered.with_nil]; rfl
  | cons x xs ih =>
    obtain ⟨hx, hxs⟩ := List.forall_mem_cons.1 h
    rw [List.mapM_cons, StateT.run_bind, hx g, List.map_cons, List.flatMap_cons, Gathered.with_append]
    change (do let p ← (xs.mapM compiling).run (g.with (rules (compile x))); pure (compile x :: p.1, p.2)) = _
    rw [ih hxs]
    rfl

theorem SubBrand.compiling_run (brand : Text) (s : SubBrand) (g : Gathered) :
    (s.compiling brand).run g = (s.compile, g.with [⟨brand, some s.name, s.compile.query⟩]) := by
  rw [SubBrand.compiling, StateT.run_bind, compileRule_run]
  rfl

theorem Brand.compiling_run (b : Brand) (g : Gathered) :
    b.compiling.run g = (b.compile, g.with b.compile.rules) := by
  let rules (s : CompiledSubBrand) : List CompiledRule := [⟨b.name, some s.name, s.query⟩]
  have hsubbrands : ∀ g, (b.subbrands.mapM (SubBrand.compiling b.name)).run g =
      (b.subbrands.map SubBrand.compile, g.with ((b.subbrands.map SubBrand.compile).flatMap rules)) :=
    mapM_run fun s _ => s.compiling_run b.name
  have hrules : b.compile.rules =
      [⟨b.name, none, Query.compile b.rule⟩] ++ (b.subbrands.map SubBrand.compile).flatMap rules := by
    rw [CompiledBrand.rules, List.map_eq_flatMap]
    rfl
  rw [hrules, Gathered.with_append, Brand.compiling, StateT.run_bind, compileRule_run]
  change (do let p ← (b.subbrands.mapM (SubBrand.compiling b.name)).run _; pure (CompiledBrand.mk _ _ p.1, p.2)) = _
  rw [hsubbrands]
  rfl

/-! ### The three lists -/

theorem CompiledBrand.flatMap_warnings_rules (b : CompiledBrand) : b.rules.flatMap CompiledRule.warnings = b.warnings := by
  rw [CompiledBrand.rules, List.flatMap_cons, List.flatMap_map]
  rfl

namespace RuleSet

variable (rs : RuleSet)

theorem rules_compile :
    rs.compile.rules = rs.brands.flatMap fun b =>
      ⟨b.name, none, Query.compile b.rule⟩ :: b.subbrands.map fun s => ⟨b.name, some s.name, Query.compile s.rule⟩ := by
  rw [Classifier.rules, compile, List.flatMap_map]
  refine congrArg (rs.brands.flatMap ·) (funext fun b => ?_)
  rw [CompiledBrand.rules, Brand.compile, List.map_map]
  rfl

/-- The warnings gathered brand by brand are those of the rules as they are listed. -/
theorem warnings_compile : rs.compile.warnings = rs.compile.rules.flatMap CompiledRule.warnings := by
  rw [Classifier.rules, List.flatMap_assoc]
  exact congrArg (rs.compile.brands.flatMap ·) (funext fun b => b.flatMap_warnings_rules.symm)

/-- Compiling with a journal gives the same classifier. -/
theorem compiling_run :
    rs.compiling.run ⟨[], []⟩ = (rs.compile,
      ⟨rs.compile.warnings,
        (rs.compile.rules.flatMap fun r => r.query.journal) ++ rs.compile.warnings.map RuleWarning.record⟩) := by
  have hbrands : (rs.brands.mapM Brand.compiling).run ⟨[], []⟩ =
      (rs.brands.map Brand.compile, Gathered.with ⟨[], []⟩ rs.compile.rules) :=
    mapM_run (fun b _ => b.compiling_run) _
  have hgathered : Gathered.with ⟨[], []⟩ rs.compile.rules =
      ⟨rs.compile.warnings, rs.compile.rules.flatMap fun r => r.query.journal⟩ := by
    rw [Gathered.with, List.nil_append, List.nil_append, warnings_compile]
  rw [compiling, StateT.run_bind, hbrands, hgathered]
  rfl

/-- The rules are listed in the order of the rule set, each brand before its own sub-brands and each with the query of its
own text.  The warnings are those of the queries in that order, each under the names of its rule.  The journal has one
record for each warning of a query in that order, then one for each warning of the rule set in that order, and nothing
else. -/
theorem compile_in_order :
    (rs.compile.rules = rs.brands.flatMap fun b =>
      ⟨b.name, none, Query.compile b.rule⟩ :: b.subbrands.map fun s => ⟨b.name, some s.name, Query.compile s.rule⟩) ∧
    (rs.compile.warnings = rs.compile.rules.flatMap fun r => r.query.warnings.map fun w => ⟨r.brand, r.subbrand?, w⟩) ∧
    rs.journal =
      (rs.compile.rules.flatMap fun r => r.query.warnings.map fun w =>
        ⟨.debug, "query ".toList ++ quoted r.query.source ++ ": ".toList ++ w.message⟩) ++
      rs.compile.warnings.map (fun w => ⟨.warn, w.message⟩) ∧
    (rs.compiling.run ⟨[], []⟩).1 = rs.compile := by
  refine ⟨rs.rules_compile, rs.warnings_compile, ?_, ?_⟩
  · rw [journal, compiling_run]
    rfl
  · rw [compiling_run]

end RuleSet

end KeywordRules
