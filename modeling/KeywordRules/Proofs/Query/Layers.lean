import KeywordRules.Proofs.Query.Grammar
import KeywordRules.Proofs.Query.Nesting

/-!
# The layers of a parsed tree

Whatever recovery had to do, the tree of a query is built in layers: a disjunction of conjunctions of operands, each
under no more negations than the query has side by side, where an operand is a leaf or another disjunction, one group
further in (`Layered`).  There are as many layers as groups nest, up to the limit.  The outline of a query has this shape
in every open group, and each token keeps it (`Outline.Layered.step`).  So the pieces of a query have it
(`pieced_parse`), and without a group beyond the limit there is one piece (`layered_parse`).
-/

namespace KeywordRules

/-- An expression with at most `k` negations in a row and groups nested at most `g` deep, as the grammar builds it. -/
inductive Layered (k : Nat) : Nat → Nonterminal → Expr → Prop where
  | leaf {g : Nat} (l : Leaf) : Layered k g .primary (.leaf l)
  | group {g : Nat} {e : Expr} (inside : Layered k g .disjunction e) : Layered k (g + 1) .primary e
  | negation {g n : Nat} {e : Expr} (hn : n ≤ k) (operand : Layered k g .primary e) :
      Layered k g .negation (Expr.not^[n] e)
  | conjunction {g : Nat} {e : Expr} (first : Layered k g .negation e) : Layered k g .conjunction e
  | and {g : Nat} {l r : Expr} (hl : Layered k g .conjunction l) (hr : Layered k g .negation r) :
      Layered k g .conjunction (.and l r)
  | disjunction {g : Nat} {e : Expr} (first : Layered k g .conjunction e) : Layered k g .disjunction e
  | or {g : Nat} {l r : Expr} (hl : Layered k g .disjunction l) (hr : Layered k g .conjunction r) :
      Layered k g .disjunction (.or l r)

/-- A conjunction of disjunctions: the pieces of a query, joined. -/
inductive Pieced (k g : Nat) : Expr → Prop where
  | piece {e : Expr} (h : Layered k g .disjunction e) : Pieced k g e
  | and {l r : Expr} (hl : Pieced k g l) (hr : Layered k g .disjunction r) : Pieced k g (.and l r)

/-! ### Places and groups -/

/-- The operand, if there is one, has the shape. -/
def Fits (k g : Nat) (kind : Nonterminal) (e : Option Expr) : Prop := ∀ x ∈ e, Layered k g kind x

section Fits

variable {k g : Nat} {e l r : Option Expr} {kind : Nonterminal}

theorem fits_none : Fits k g kind none := fun _ h => by cases h

theorem Fits.group (h : Fits k g .disjunction e) : Fits k (g + 1) .primary e := fun x hx => .group (h x hx)

theorem negate_some (n : Nat) (e : Expr) : negate n (some e) = some (Expr.not^[n] e) := by
  induction n generalizing e with
  | zero => rfl
  | succ n ih => exact ih (.not e)

theorem Fits.negate {n : Nat} (h : Fits k g .primary e) (hn : n ≤ k) : Fits k g .negation (negate n e) := by
  cases e with
  | none =>
    rw [negate_none]
    exact fits_none
  | some e =>
    rw [negate_some]
    intro x hx
    cases hx
    exact .negation hn (h e rfl)

theorem Fits.and (hl : Fits k g .conjunction l) (hr : Fits k g .negation r) :
    Fits k g .conjunction (joinOperands .and l r) :=
  forall_mem_joinOperands hl hr .conjunction .and

theorem Fits.or (hl : Fits k g .disjunction l) (hr : Fits k g .conjunction r) :
    Fits k g .disjunction (joinOperands .or l r) :=
  forall_mem_joinOperands hl hr .disjunction .or

theorem pieced_join (hl : ∀ x ∈ l, Pieced k g x) (hr : Fits k g .disjunction r) :
    ∀ x ∈ joinOperands .and l r, Pieced k g x :=
  forall_mem_joinOperands hl hr .piece .and

end Fits

/-- What has been read of a group inside which groups may nest `g` deep. -/
structure Place.Layered (k g : Nat) (s : Place) : Prop where
  disjunction : Fits k g .disjunction s.disjunction
  conjunction : Fits k g .conjunction s.conjunction
  negations : s.negations ≤ k

namespace Place.Layered

variable {k g : Nat} {s : Place}

theorem vacant : Place.vacant.Layered k g := ⟨fits_none, fits_none, Nat.zero_le k⟩

theorem fill (h : s.Layered k g) {e : Option Expr} (he : Fits k g .primary e) : (s.fill e).Layered k g :=
  ⟨h.disjunction, h.conjunction.and (he.negate h.negations), Nat.zero_le k⟩

theorem value (h : s.Layered k g) : Fits k g .disjunction s.value := h.disjunction.or h.conjunction

end Place.Layered

/-- The open groups, from the one around a group inside which groups may nest `g` deep. -/
def GroupsLayered (k : Nat) : Nat → List Place → Prop
  | _, [] => True
  | g, s :: gs => s.Layered k (g + 1) ∧ GroupsLayered k (g + 1) gs

theorem GroupsLayered.leave {k g : Nat} {gs : List Place} (h : GroupsLayered k g gs) {e : Option Expr}
    (he : Fits k g .disjunction e) : Fits k (g + gs.length) .disjunction (leave gs e) := by
  induction gs generalizing g e with
  | nil => exact he
  | cons s gs ih =>
    have hrest := ih h.2 (h.1.fill he.group).value
    rwa [Nat.add_right_comm] at hrest

/-! ### Outlines -/

/-- Groups nest at most `m` deep in what has been read, and `g` further groups may open inside the innermost one. -/
structure Outline.Layered (k m g : Nat) (σ : Outline) : Prop where
  root : ∀ e ∈ σ.root?, Pieced k m e
  level : g + σ.groups.length = m
  groups : GroupsLayered k g σ.groups
  place : σ.place.Layered k g

namespace Outline

variable {k m g : Nat} {σ : Outline}

namespace Layered

theorem start : Outline.start.Layered k m m where
  root _ h := by cases h
  level := rfl
  groups := trivial
  place := .vacant

/-- The piece that is being read. -/
theorem piece (h : σ.Layered k m g) : Fits k m .disjunction (leave σ.groups σ.place.value) := by
  have hleave := h.groups.leave h.place.value
  rwa [h.level] at hleave

theorem value (h : σ.Layered k m g) : ∀ e ∈ σ.value, Pieced k m e :=
  pieced_join h.root h.piece

theorem conclude (h : σ.Layered k m g) : σ.conclude.Layered k m m := ⟨h.value, rfl, trivial, .vacant⟩

theorem resume (h : σ.Layered k m g) : ∃ g', σ.resume.Layered k m g' := by
  unfold Outline.resume
  split
  · exact ⟨m, h.conclude⟩
  · exact ⟨g, h⟩

theorem fill (h : σ.Layered k m g) (l : Leaf) : (σ.fill (some (.leaf l))).Layered k m g := by
  refine ⟨h.root, h.level, h.groups, h.place.fill fun x hx => ?_⟩
  cases hx
  exact .leaf l

theorem enter (h : σ.Layered k m g) (hlength : σ.enter.groups.length ≤ m) : ∃ g', σ.enter.Layered k m g' := by
  unfold Outline.enter at hlength ⊢
  split
  · next hlt =>
    rw [if_pos hlt, List.length_cons] at hlength
    obtain ⟨g, rfl⟩ : ∃ g', g = g' + 1 := ⟨g - 1, by have := h.level; omega⟩
    refine ⟨g, h.root, ?_, ⟨h.place, h.groups⟩, .vacant⟩
    rw [List.length_cons, ← h.level]
    omega
  · exact ⟨g, h.root, h.level, h.groups, h.place⟩

theorem close (h : σ.Layered k m g) : ∃ g', σ.close.Layered k m g' := by
  obtain ⟨r, gs, s, mode, d⟩ := σ
  obtain ⟨hroot, hlevel, hgroups, hplace⟩ := h
  dsimp only at hroot hlevel hgroups hplace
  rcases d with _ | d
  · rcases gs with _ | ⟨s', gs⟩
    · exact ⟨g, hroot, hlevel, hgroups, hplace⟩
    · have hinside : g + 1 + gs.length = m := by
        rw [← hlevel, List.length_cons, Nat.add_right_comm, Nat.add_assoc]
      exact ⟨g + 1, hroot, hinside, hgroups.2, hgroups.1.fill hplace.value.group⟩
  · exact ⟨g, hroot, hlevel, hgroups, hplace⟩

/-- A token keeps the shape, if it does not open a group too many or negate too often. -/
theorem step (h : σ.Layered k m g) {t : Token} (hlength : (σ.step t).groups.length ≤ m)
    (hnegations : (σ.step t).place.negations ≤ k) : ∃ g', (σ.step t).Layered k m g' := by
  obtain ⟨g', hresume⟩ := h.resume
  rcases t with c | _ | _ | _ | _
  · rcases c with _ | _ | _
    · exact ⟨g, h.root, h.level, h.groups, h.place.disjunction, h.place.conjunction, hnegations⟩
    · exact ⟨g, h.root, h.level, h.groups, h.place.value, fits_none, hnegations⟩
    · rw [Outline.step] at hnegations ⊢
      split at hnegations
      · next hmode =>
        rw [if_pos hmode]
        exact ⟨g, h.root, h.level, h.groups, h.place.disjunction, h.place.conjunction, hnegations⟩
      · next hmode =>
        have hconclude := h.conclude
        rw [if_neg hmode]
        exact ⟨m, hconclude.root, hconclude.level, hconclude.groups, fits_none, fits_none, hnegations⟩
  · exact hresume.enter hlength
  · exact h.close
  · exact ⟨g', hresume.fill _⟩
  · exact ⟨g', hresume.fill _⟩

end Layered

end Outline

/-! ### Counts along the tokens -/

/-- The greatest value that a count takes along the tokens, from `n` on. -/
def peak (count : Nat → Token → Nat) (n : Nat) : List Token → Nat
  | [] => n
  | t :: ts => max n (peak count (count n t) ts)

/-- How many groups are open behind a token, if `n` are before it. -/
def openGroups (n : Nat) : Token → Nat
  | .opening => n + 1
  | .closing => n - 1
  | _ => n

/-- How many negations end with a token, if `n` end before it. -/
def negationsInRow (n : Nat) : Token → Nat
  | .connective .not => n + 1
  | _ => 0

/-- How deep the groups nest that are written in a query. -/
def groupDepth (ts : List Token) : Nat := peak openGroups 0 ts

/-- How deep the groups nest that are read. -/
def nesting (ts : List Token) : Nat := min (groupDepth ts) maxNesting

/-- The most negations that stand side by side. -/
def longestNegation (ts : List Token) : Nat := peak negationsInRow 0 ts

theorem le_peak (count : Nat → Token → Nat) (n : Nat) (ts : List Token) : n ≤ peak count n ts := by
  cases ts with
  | nil => exact Nat.le_refl n
  | cons t ts => exact Nat.le_max_left _ _

theorem peak_le_peak_cons (count : Nat → Token → Nat) (n : Nat) (t : Token) (ts : List Token) :
    peak count (count n t) ts ≤ peak count n (t :: ts) := Nat.le_max_right _ _

namespace Outline

variable {k m g o r : Nat} {σ : Outline} {t : Token} {ts : List Token}

theorem groups_resume (h : σ.groups.length + σ.dropped ≤ o) : σ.resume.groups.length + σ.resume.dropped ≤ o := by
  unfold resume
  split
  · exact Nat.le_trans (Nat.add_le_add_right (Nat.zero_le _) σ.dropped) h
  · exact h

/-- No more groups are open, dropped ones included, than parentheses. -/
theorem groups_step (h : σ.groups.length + σ.dropped ≤ o) (t : Token) :
    (σ.step t).groups.length + (σ.step t).dropped ≤ openGroups o t := by
  have hresume := groups_resume h
  rcases t with c | _ | _ | _ | _
  · rcases c with _ | _ | _
    · exact h
    · exact h
    · rw [step]
      split
      · exact h
      · exact Nat.le_trans (Nat.add_le_add_right (Nat.zero_le _) σ.dropped) h
  · rw [step, enter, openGroups]
    split
    · rw [List.length_cons, Nat.add_right_comm]
      exact Nat.succ_le_succ hresume
    · exact Nat.succ_le_succ hresume
  · obtain ⟨root, gs, s, mode, d⟩ := σ
    rcases d with _ | d
    · rcases gs with _ | ⟨s', gs⟩
      · exact Nat.zero_le _
      · exact Nat.le_sub_one_of_lt h
    · exact Nat.le_sub_one_of_lt h
  · exact hresume
  · exact hresume

/-- Only a `NOT` adds to the negations before an operand. -/
theorem negations_step_le (h : σ.place.negations ≤ k) (ht : t ≠ .connective .not) : (σ.step t).place.negations ≤ k := by
  have hresume : σ.resume.place.negations ≤ k := by
    unfold resume
    split
    · exact Nat.zero_le k
    · exact h
  rcases t with c | _ | _ | _ | _
  · rcases c with _ | _ | _
    · exact Nat.zero_le k
    · exact Nat.zero_le k
    · exact absurd rfl ht
  · rw [step, enter]
    split
    · exact Nat.zero_le k
    · exact hresume
  · rw [step, close]
    split
    · exact h
    · exact h
    · exact Nat.zero_le k
  · exact Nat.zero_le k
  · exact Nat.zero_le k

theorem negations_step_not (h : σ.mode = .awaiting → σ.place.negations ≤ r) :
    (σ.step (.connective .not)).place.negations ≤ r + 1 := by
  rw [step, negate]
  split
  · next hmode => exact Nat.succ_le_succ (h hmode)
  · exact Nat.succ_le_succ (Nat.zero_le r)

/-- The negations that wait where a `NOT` may follow stand right before it. -/
theorem negations_step (h : t = .connective .not → σ.mode = .awaiting → σ.place.negations ≤ r)
    (ht : t.endsValue = false) (hmode : (σ.step t).mode = .awaiting) :
    (σ.step t).place.negations ≤ negationsInRow r t := by
  rcases t with c | _ | _ | _ | _
  · rcases c with _ | _ | _
    · exact Nat.zero_le 0
    · exact Nat.zero_le 0
    · exact negations_step_not (h rfl)
  · rw [step, enter] at hmode ⊢
    split
    · exact Nat.zero_le 0
    · next hlt =>
      rw [if_neg hlt] at hmode
      cases hmode
  all_goals cases ht

/-- The tokens of a query keep the shape, with as many groups and negations as there are among them. -/
theorem Layered.foldl (h : σ.Layered k m g) (hlimit : σ.groups.length ≤ maxNesting)
    (hopen : σ.groups.length + σ.dropped ≤ o) (hm : min (peak openGroups o ts) maxNesting ≤ m)
    (hk : peak negationsInRow r ts ≤ k) (hts : ts.IsChain Abuts)
    (hrow : ts.head? = some (.connective .not) → σ.mode = .awaiting → σ.place.negations ≤ r) :
    ∃ g', (ts.foldl Outline.step σ).Layered k m g' := by
  induction ts generalizing σ g o r with
  | nil => exact ⟨g, h⟩
  | cons t ts ih =>
    obtain ⟨hhead, hts⟩ := List.isChain_cons.1 hts
    have hrow' : t = .connective .not → σ.mode = .awaiting → σ.place.negations ≤ r := fun ht => hrow (by rw [ht]; rfl)
    have hopen' := groups_step hopen t
    have hlimit' := groups_length_step hlimit t
    have hpeak := peak_le_peak_cons openGroups o t ts
    have hm' : min (peak openGroups (openGroups o t) ts) maxNesting ≤ m := by omega
    have hk' := Nat.le_trans (peak_le_peak_cons negationsInRow r t ts) hk
    have hlength : (σ.step t).groups.length ≤ m := by
      have := le_peak openGroups (openGroups o t) ts
      omega
    have hnegations : (σ.step t).place.negations ≤ k := by
      by_cases ht : t = .connective .not
      · subst ht
        exact Nat.le_trans (negations_step_not (hrow' rfl)) (Nat.le_trans (le_peak _ _ ts) hk')
      · exact negations_step_le h.place.negations ht
    obtain ⟨g', hstep⟩ := h.step hlength hnegations
    refine ih hstep hlimit' hopen' hm' hk' hts fun hnot hmode => ?_
    -- no `NOT` stands right behind an operand, so here the row of negations goes on or begins anew
    refine negations_step hrow' ?_ hmode
    by_contra hends
    rw [Bool.not_eq_false] at hends
    cases hhead _ hnot hends

/-- Without a group beyond the limit there is nothing to end a piece before the end of the query. -/
theorem root?_foldl (hlimit : σ.groups.length ≤ maxNesting) (hopen : σ.groups.length + σ.dropped ≤ o)
    (hdepth : peak openGroups o ts ≤ maxNesting) (hts : ts.IsChain Abuts) (hhead : ∀ t ∈ ts.head?, σ.Admits t) :
    (ts.foldl step σ).root? = σ.root? := by
  induction ts generalizing σ o with
  | nil => rfl
  | cons t ts ih =>
    have ht : σ.Admits t := hhead t rfl
    have hdepth' := Nat.le_trans (peak_le_peak_cons openGroups o t ts) hdepth
    have hcut : σ.levels.cuts t ts = false := by
      rw [Bool.eq_false_iff]
      intro hcut
      simp only [Levels.cuts, Bool.and_eq_true, beq_iff_eq] at hcut
      obtain ⟨⟨rfl, hlevel⟩, -⟩ := hcut
      have hpeak := le_peak openGroups (openGroups o .opening) ts
      change σ.groups.length = maxNesting at hlevel
      rw [openGroups] at hpeak hdepth'
      omega
    have hrest := ih (groups_length_step hlimit t) (groups_step hopen t) hdepth' (List.isChain_cons.1 hts).2
      (admits_head hlimit ht hts hcut)
    rw [List.foldl_cons, hrest, (flattened_step hlimit ht).2.2]

end Outline

/-! ### The tree of a query -/

section Parsing

variable {ts : List Token} {e : Expr}

theorem exists_layered (ts : List Token) :
    ∃ g, ((spliceAnds ts).foldl Outline.step .start).Layered (longestNegation (spliceAnds ts)) (nesting (spliceAnds ts)) g :=
  Outline.Layered.start.foldl (Nat.zero_le _) (Nat.le_refl 0) (Nat.le_refl _) (Nat.le_refl _) (isChain_spliceAnds ts)
    fun _ _ => Nat.le_refl 0

/-- However malformed a query is, its tree is a conjunction of pieces in layers. -/
theorem pieced_parse (h : (parse (spliceAnds ts)).root? = some e) :
    Pieced (longestNegation (spliceAnds ts)) (nesting (spliceAnds ts)) e := by
  obtain ⟨g, hlayered⟩ := exists_layered ts
  rw [root_parse] at h
  exact hlayered.value e h

/-- Without a group beyond the limit there is one piece. -/
theorem layered_parse (hdepth : groupDepth (spliceAnds ts) ≤ maxNesting) (h : (parse (spliceAnds ts)).root? = some e) :
    Layered (longestNegation (spliceAnds ts)) (nesting (spliceAnds ts)) .disjunction e := by
  obtain ⟨g, hlayered⟩ := exists_layered ts
  have hadmits : ∀ t ∈ (spliceAnds ts).head?, Outline.start.Admits t :=
    fun t _ _ => ⟨by simp [Outline.start], fun _ => rfl⟩
  have hroot := Outline.root?_foldl (σ := .start) (Nat.zero_le _) (Nat.le_refl 0) hdepth (isChain_spliceAnds ts) hadmits
  rw [root_parse, Outline.value, hroot] at h
  exact hlayered.piece e (by simpa [Outline.start] using h)

end Parsing

end KeywordRules
