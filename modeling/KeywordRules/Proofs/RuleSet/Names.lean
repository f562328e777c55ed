import KeywordRules.RuleSet.Basic
import Mathlib.Data.List.Nodup

/-!
# Usable names

A rule set passes the check of its names exactly if, in every scope, no trimmed name is empty and no two are alike
(`nameError?_eq_none_iff`).  Otherwise the check reports the entry with the smallest index in the first scope that does not
pass (`nameError?_reports_first`).
-/

namespace KeywordRules

/-- The names of a scope that passes: trimmed, none is empty and no two are alike. -/
def UsableNames (names : List Text) : Prop := (∀ n ∈ names, trim n ≠ []) ∧ (names.map trim).Nodup

/-- The search finds no fault exactly if no trimmed name is empty, among those seen before or met again. -/
theorem firstFault_eq_none_iff {seen names : List Text} {i : Nat} :
    firstFault seen i names = none ↔
      (∀ n ∈ names, trim n ≠ [] ∧ trim n ∉ seen) ∧ (names.map trim).Nodup := by
  induction names generalizing seen i with
  | nil => simp [firstFault]
  | cons name names ih =>
    simp only [firstFault]
    split
    · next hblank =>
      simp [List.isEmpty_iff.1 hblank]
    · next hblank =>
      have hne : trim name ≠ [] := by simpa using hblank
      split
      · next hseen =>
        have hmem : trim name ∈ seen := by simpa using hseen
        simp [hmem]
      · next hseen =>
        have hnew : trim name ∉ seen := by simpa using hseen
        rw [ih, List.map_cons, List.nodup_cons, List.forall_mem_cons]
        -- a later name may not be `name` either, whether that is said of the names seen or of the list
        constructor
        · rintro ⟨hrest, hnodup⟩
          refine ⟨⟨⟨hne, hnew⟩, fun n hn => ⟨(hrest n hn).1, ?_⟩⟩, ?_, hnodup⟩
          · exact fun hmem => (hrest n hn).2 (List.mem_cons_of_mem _ hmem)
          · intro hmem
            obtain ⟨n, hn, he⟩ := List.mem_map.1 hmem
            exact (hrest n hn).2 (he ▸ List.mem_cons_self)
        · rintro ⟨⟨-, hrest⟩, hfresh, hnodup⟩
          refine ⟨fun n hn => ⟨(hrest n hn).1, fun hmem => ?_⟩, hnodup⟩
          rcases List.mem_cons.1 hmem with he | hmem
          · exact hfresh (he ▸ List.mem_map_of_mem hn)
          · exact (hrest n hn).2 hmem

theorem scopeError?_eq_none_iff {scope : NameScope} {names : List Text} :
    scopeError? scope names = none ↔ UsableNames names := by
  rw [scopeError?, Option.map_eq_none_iff, firstFault_eq_none_iff, UsableNames]
  simp

/-- A rule set passes exactly if the names of its brands are usable and so are those of the sub-brands of each. -/
theorem nameError?_eq_none_iff {rs : RuleSet} :
    rs.nameError? = none ↔
      UsableNames (rs.brands.map Brand.name) ∧ ∀ b ∈ rs.brands, UsableNames (b.subbrands.map SubBrand.name) := by
  rw [RuleSet.nameError?, Option.or_eq_none_iff, scopeError?_eq_none_iff, List.findSome?_eq_none_iff]
  simp only [Brand.nameError?, scopeError?_eq_none_iff]

/-- A usable name stands in its scope once. -/
theorem UsableNames.countP_eq_one {α : Type} {name : α → Text} {xs : List α} (h : UsableNames (xs.map name)) {x : α}
    (hx : x ∈ xs) : xs.countP (fun y => name y = name x) = 1 := by
  have hnodup : (xs.map name).Nodup := h.2.of_map
  have hcount : (xs.map name).count (name x) = 1 :=
    List.count_eq_one_of_mem hnodup (List.mem_map_of_mem hx)
  rw [List.count, List.countP_map] at hcount
  rw [← hcount]
  refine List.countP_congr fun y _ => ?_
  simp

theorem UsableNames.eq_of_name_eq {α : Type} {name : α → Text} {xs : List α} (h : UsableNames (xs.map name)) {x y : α}
    (hx : x ∈ xs) (hy : y ∈ xs) (he : name x = name y) : x = y := by
  have hnodup : (xs.map name).Nodup := h.2.of_map
  exact List.inj_on_of_nodup_map hnodup hx hy he

/-! ### The first offender -/

/-- `fault` is what is wrong with the entry at `i`: its trimmed name is empty or that of an earlier entry. -/
def IsFaultAt (names : List Text) (i : Nat) (fault : NameFault) : Prop :=
  ∃ n, names[i]? = some n ∧
    ((trim n = [] ∧ fault = .blank i) ∨
      (trim n ≠ [] ∧ trim n ∈ (names.take i).map trim ∧ fault = .duplicate (trim n)))

/-- `fault` is what is wrong with the entry of the smallest index with which anything is wrong. -/
def IsFirstFault (names : List Text) (fault : NameFault) : Prop :=
  ∃ i, IsFaultAt names i fault ∧ ∀ j < i, ∀ other, ¬ IsFaultAt names j other

/-- `e` is about the first scope that does not pass, and there about the first offender. -/
def NameError.IsFirstIn (e : NameError) (rs : RuleSet) : Prop :=
  match e.scope with
  | .brands => IsFirstFault (rs.brands.map Brand.name) e.fault
  | .subbrands name =>
    UsableNames (rs.brands.map Brand.name) ∧
    ∃ before b after, rs.brands = before ++ b :: after ∧
      (∀ b' ∈ before, UsableNames (b'.subbrands.map SubBrand.name)) ∧
      b.name = name ∧ IsFirstFault (b.subbrands.map SubBrand.name) e.fault

section FirstFault

variable {seen names xs ys : List Text} {name : Text} {fault : NameFault} {i k : Nat}

theorem firstFault_singleton :
    firstFault seen i [name] = some fault ↔
      (trim name = [] ∧ fault = .blank i) ∨ (trim name ≠ [] ∧ trim name ∈ seen ∧ fault = .duplicate (trim name)) := by
  simp only [firstFault, List.isEmpty_iff, List.contains_iff_mem]
  by_cases hblank : trim name = []
  · simp [hblank, eq_comm]
  · by_cases hseen : trim name ∈ seen
    · simp [hblank, hseen, eq_comm]
    · simp [hblank, hseen]

/-- Behind other names the search goes on with those among the names seen. -/
theorem firstFault_append :
    firstFault seen i (xs ++ ys) =
      (firstFault seen i xs).or (firstFault ((xs.map trim).reverse ++ seen) (i + xs.length) ys) := by
  induction xs generalizing seen i with
  | nil => simp [firstFault]
  | cons x xs ih =>
    rw [List.cons_append, firstFault, firstFault]
    split
    · rfl
    · split
      · rfl
      · have hseen : (xs.map trim).reverse ++ trim x :: seen = ((x :: xs).map trim).reverse ++ seen := by simp
        have hindex : i + 1 + xs.length = i + (x :: xs).length := by
          rw [List.length_cons]
          omega
        rw [ih, hseen, hindex]

/-- One name more brings the fault of that name, if there was none before. -/
theorem firstFault_take_succ (hname : names[k]? = some name) :
    firstFault [] 0 (names.take (k + 1)) =
      (firstFault [] 0 (names.take k)).or (firstFault ((names.take k).map trim).reverse k [name]) := by
  have hlt : k < names.length := (List.getElem?_eq_some_iff.1 hname).1
  have hlength : (names.take k).length = k := List.length_take_of_le (Nat.le_of_lt hlt)
  rw [List.take_add_one, hname, Option.toList_some, firstFault_append, hlength, Nat.zero_add, List.append_nil]

theorem isFaultAt_iff (hname : names[i]? = some name) :
    IsFaultAt names i fault ↔ firstFault ((names.take i).map trim).reverse i [name] = some fault := by
  rw [firstFault_singleton, List.mem_reverse, IsFaultAt]
  simp [hname]

theorem firstFault_take_eq_none_iff :
    firstFault [] 0 (names.take k) = none ↔ ∀ j < k, ∀ other, ¬ IsFaultAt names j other := by
  induction k with
  | zero => simp [firstFault]
  | succ k ih =>
    rw [Nat.forall_lt_succ_right, ← ih]
    cases hname : names[k]? with
    | none =>
      have hall : names.take (k + 1) = names.take k := by
        rw [List.take_add_one, hname, Option.toList_none, List.append_nil]
      have hlast : ∀ other, ¬ IsFaultAt names k other := by
        rintro other ⟨n, hn, -⟩
        rw [hname] at hn
        cases hn
      rw [hall]
      exact (and_iff_left hlast).symm
    | some name =>
      rw [firstFault_take_succ hname, Option.or_eq_none_iff]
      refine and_congr_right fun _ => ?_
      rw [Option.eq_none_iff_forall_ne_some]
      exact forall_congr' fun other => not_congr (isFaultAt_iff hname).symm

theorem isFirstFault_of_take (h : firstFault [] 0 (names.take k) = some fault) : IsFirstFault names fault := by
  induction k with
  | zero => simp [firstFault] at h
  | succ k ih =>
    cases hname : names[k]? with
    | none =>
      rw [List.take_add_one, hname, Option.toList_none, List.append_nil] at h
      exact ih h
    | some name =>
      rw [firstFault_take_succ hname] at h
      cases hbefore : firstFault [] 0 (names.take k) with
      | some earlier =>
        rw [hbefore, Option.some_or] at h
        exact ih (hbefore.trans h)
      | none =>
        rw [hbefore, Option.none_or] at h
        exact ⟨k, (isFaultAt_iff hname).2 h, firstFault_take_eq_none_iff.1 hbefore⟩

/-- The search of a scope finds its first fault. -/
theorem firstFault_eq_some_iff : firstFault [] 0 names = some fault ↔ IsFirstFault names fault := by
  constructor
  · intro h
    rw [← List.take_length (l := names)] at h
    exact isFirstFault_of_take h
  · rintro ⟨i, hfault, hbefore⟩
    obtain ⟨name, hname, -⟩ := id hfault
    rw [← List.take_append_drop (i + 1) names, firstFault_append, firstFault_take_succ hname,
      firstFault_take_eq_none_iff.2 hbefore, (isFaultAt_iff hname).1 hfault]
    rfl

theorem scopeError?_eq_some_iff {scope : NameScope} {e : NameError} :
    scopeError? scope names = some e ↔ e.scope = scope ∧ IsFirstFault names e.fault := by
  obtain ⟨scope', fault⟩ := e
  rw [scopeError?, Option.map_eq_some_iff, ← firstFault_eq_some_iff]
  constructor
  · rintro ⟨found, hfound, he⟩
    cases he
    exact ⟨rfl, hfound⟩
  · rintro ⟨rfl, hfound⟩
    exact ⟨fault, hfound, rfl⟩

end FirstFault

theorem findSome?_nameError?_eq_some_iff {brands : List Brand} {e : NameError} :
    brands.findSome? Brand.nameError? = some e ↔
      ∃ before b after, brands = before ++ b :: after ∧
        (∀ b' ∈ before, UsableNames (b'.subbrands.map SubBrand.name)) ∧
        e.scope = .subbrands b.name ∧ IsFirstFault (b.subbrands.map SubBrand.name) e.fault := by
  rw [List.findSome?_eq_some_iff]
  simp only [Brand.nameError?, scopeError?_eq_some_iff, scopeError?_eq_none_iff]
  constructor
  · rintro ⟨before, b, after, rfl, ⟨hscope, hfault⟩, hbefore⟩
    exact ⟨before, b, after, rfl, hbefore, hscope, hfault⟩
  · rintro ⟨before, b, after, rfl, hbefore, hscope, hfault⟩
    exact ⟨before, b, after, rfl, ⟨hscope, hfault⟩, hbefore⟩

theorem nameError?_eq_some_iff {rs : RuleSet} {e : NameError} : rs.nameError? = some e ↔ e.IsFirstIn rs := by
  rw [RuleSet.nameError?, Option.or_eq_some_iff, scopeError?_eq_some_iff, scopeError?_eq_none_iff,
    findSome?_nameError?_eq_some_iff, NameError.IsFirstIn]
  -- the scope of the error tells which of the two searches found it
  cases e.scope with
  | brands => simp
  | subbrands name => simp [eq_comm]

/-- A list of brands that share a rule, each with sub-brands of the same names as the brands. -/
def RuleSet.ofNames (names : List Text) (rule : Text) : RuleSet :=
  ⟨names.map fun n => ⟨n, rule, names.map fun s => ⟨s, rule⟩⟩⟩

theorem nameError?_ofNames_eq_none_iff {names : List Text} {rule : Text} :
    (RuleSet.ofNames names rule).nameError? = none ↔ UsableNames names := by
  have hbrands : (RuleSet.ofNames names rule).brands.map Brand.name = names := by
    simp [RuleSet.ofNames, Function.comp_def]
  rw [nameError?_eq_none_iff, hbrands, and_iff_left_iff_imp]
  intro husable b hb
  obtain ⟨n, -, rfl⟩ := List.mem_map.1 hb
  have hsubbrands : (names.map fun s => SubBrand.mk s rule).map SubBrand.name = names := by
    simp [Function.comp_def]
  rwa [hsubbrands]

/-- The check of the names passes a rule set exactly if the names are usable in every scope, and otherwise reports the
first offender of the first scope in which they are not: brands come before sub-brands and the sub-brands in the order of
the brands, and a blank name is told by its index, a repeated one by itself, trimmed.  Scopes do not interfere, so a list
of names may serve in all of them at once. -/
theorem nameError?_reports_first (rs : RuleSet) :
    (rs.nameError? = none ↔
      UsableNames (rs.brands.map Brand.name) ∧ ∀ b ∈ rs.brands, UsableNames (b.subbrands.map SubBrand.name)) ∧
    (∀ e, rs.nameError? = some e ↔ e.IsFirstIn rs) ∧
    ∀ names rule, (RuleSet.ofNames names rule).nameError? = none ↔ UsableNames names :=
  ⟨nameError?_eq_none_iff, fun _ => nameError?_eq_some_iff, fun _ _ => nameError?_ofNames_eq_none_iff⟩

/-- Two brands may each have a sub-brand `X`.  The second `X` of one brand is reported, although a no-break space stands
before it, and the blank name behind it is not. -/
example :
    let x : SubBrand := ⟨['X'], []⟩
    (RuleSet.mk [⟨['A'], [], [x]⟩, ⟨['B'], [], [x, ⟨['\u00a0', 'X'], []⟩, ⟨[' '], []⟩]⟩]).nameError? =
      some ⟨.subbrands ['B'], .duplicate ['X']⟩ := by
  decide

end KeywordRules
