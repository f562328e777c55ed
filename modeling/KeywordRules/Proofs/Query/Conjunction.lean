import KeywordRules.Proofs.Query.Outline
import KeywordRules.Query.Compile

/-!
# Queries that only join

A query without `OR` and `NOT` means a conjunction of its leaves, however its parentheses stand
(`isConjunction_root`): wherever an outline of it is left or flattened, only `AND` has been at work.  Such an expression
holds exactly if all its leaves do (`holds_of_isConjunction`).
-/

namespace KeywordRules

namespace Expr

/-- Whether the leaves are joined by conjunction alone. -/
def isConjunction : Expr → Bool
  | .leaf _ => true
  | .and l r => l.isConjunction && r.isConjunction
  | _ => false

theorem holds_of_isConjunction {e : Expr} (h : e.isConjunction = true) (d : Document) :
    e.holds d = e.leaves.all (·.holds d) := by
  induction e with
  | leaf l => simp [holds, leaves]
  | not e ih => cases h
  | and l r ihl ihr =>
    rw [isConjunction, Bool.and_eq_true] at h
    rw [holds, leaves, List.all_append, ihl h.1, ihr h.2]
  | or l r ihl ihr => cases h

end Expr

/-- The operand, if there is one, is a conjunction. -/
def Conjoined (e : Option Expr) : Prop := ∀ x ∈ e, x.isConjunction = true

namespace Conjoined

theorem none : Conjoined none := by simp [Conjoined]

theorem leaf (l : Leaf) : Conjoined (some (.leaf l)) := by simp [Conjoined, Expr.isConjunction]

theorem join {l r : Option Expr} (hl : Conjoined l) (hr : Conjoined r) : Conjoined (joinOperands .and l r) := by
  refine forall_mem_joinOperands hl hr id fun hx hy => ?_
  rw [Expr.isConjunction, hx, hy]
  rfl

end Conjoined

/-- Nothing has been disjoined or negated in the group. -/
structure Place.Conjunctive (s : Place) : Prop where
  disjunction : s.disjunction = none
  conjunction : Conjoined s.conjunction
  negations : s.negations = 0

namespace Place.Conjunctive

variable {s : Place}

theorem vacant : Place.vacant.Conjunctive := ⟨rfl, Conjoined.none, rfl⟩

theorem fill (h : s.Conjunctive) {e : Option Expr} (he : Conjoined e) : (s.fill e).Conjunctive where
  disjunction := h.disjunction
  conjunction := by
    rw [Place.fill, h.negations]
    exact h.conjunction.join he
  negations := rfl

theorem value (h : s.Conjunctive) : Conjoined s.value := by
  rw [Place.value, h.disjunction, joinOperands_none_left]
  exact h.conjunction

end Place.Conjunctive

theorem conjoined_leave {gs : List Place} (h : ∀ s ∈ gs, s.Conjunctive) {e : Option Expr} (he : Conjoined e) :
    Conjoined (leave gs e) := by
  induction gs generalizing e with
  | nil => exact he
  | cons s gs ih =>
    have hs := (h s List.mem_cons_self).fill he
    exact ih (fun t ht => h t (List.mem_cons_of_mem _ ht)) hs.value

/-- Nothing has been disjoined or negated anywhere. -/
structure Outline.Conjunctive (σ : Outline) : Prop where
  root : Conjoined σ.root?
  groups : ∀ s ∈ σ.groups, s.Conjunctive
  place : σ.place.Conjunctive

namespace Outline.Conjunctive

variable {σ : Outline}

theorem start : Outline.start.Conjunctive := ⟨Conjoined.none, by simp [Outline.start], Place.Conjunctive.vacant⟩

theorem value (h : σ.Conjunctive) : Conjoined σ.value := h.root.join (conjoined_leave h.groups h.place.value)

theorem resume (h : σ.Conjunctive) : σ.resume.Conjunctive := by
  unfold Outline.resume
  split
  · exact ⟨h.value, by simp [conclude], Place.Conjunctive.vacant⟩
  · exact h

theorem fill (h : σ.Conjunctive) {e : Option Expr} (he : Conjoined e) : (σ.fill e).Conjunctive :=
  ⟨h.root, h.groups, h.place.fill he⟩

theorem enter (h : σ.Conjunctive) : σ.enter.Conjunctive := by
  unfold Outline.enter
  split
  · refine ⟨h.root, fun s hs => ?_, Place.Conjunctive.vacant⟩
    rcases List.mem_cons.1 hs with rfl | hs
    · exact h.place
    · exact h.groups s hs
  · exact ⟨h.root, h.groups, h.place⟩

theorem close (h : σ.Conjunctive) : σ.close.Conjunctive := by
  obtain ⟨r, gs, s, m, d⟩ := σ
  obtain ⟨hroot, hgroups, hplace⟩ := h
  rcases d with _ | d
  · rcases gs with _ | ⟨g, gs⟩
    · exact ⟨hroot, hgroups, hplace⟩
    · have hg := (hgroups g List.mem_cons_self).fill hplace.value
      exact ⟨hroot, fun t ht => hgroups t (List.mem_cons_of_mem _ ht), hg⟩
  · exact ⟨hroot, hgroups, hplace⟩

/-- Only `OR` and `NOT` can change that. -/
theorem step {t : Token} (h : σ.Conjunctive) (hor : t ≠ .connective .or) (hnot : t ≠ .connective .not) :
    (σ.step t).Conjunctive := by
  rcases t with c | _ | _ | ⟨w, m⟩ | v
  · rcases c with _ | _ | _
    · exact ⟨h.root, h.groups, h.place.disjunction, h.place.conjunction, rfl⟩
    · exact absurd rfl hor
    · exact absurd rfl hnot
  · exact h.resume.enter
  · exact h.close
  · exact h.resume.fill (Conjoined.leaf _)
  · exact h.resume.fill (Conjoined.leaf _)

theorem foldl {ts : List Token} (h : σ.Conjunctive) (hor : .connective .or ∉ ts) (hnot : .connective .not ∉ ts) :
    (ts.foldl Outline.step σ).Conjunctive := by
  induction ts generalizing σ with
  | nil => exact h
  | cons t ts ih =>
    rw [List.mem_cons, not_or] at hor hnot
    exact ih (h.step (Ne.symm hor.1) (Ne.symm hnot.1)) hor.2 hnot.2

end Outline.Conjunctive

theorem isConjunction_root {ts : List Token} (hor : .connective .or ∉ ts) (hnot : .connective .not ∉ ts) {e : Expr}
    (h : (parse ts).root? = some e) : e.isConjunction = true := by
  rw [root_parse] at h
  exact (Outline.Conjunctive.start.foldl hor hnot).value e h

end KeywordRules
