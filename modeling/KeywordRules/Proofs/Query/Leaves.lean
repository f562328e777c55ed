import KeywordRules.Proofs.Query.Diagnosis
import KeywordRules.Proofs.Query.Outline
import KeywordRules.Proofs.Text.Normal

/-!
# The leaves of a query

However malformed a query is, no operand is lost, doubled or moved: its leaves from left to right are those of its
terms and phrases (`leaves_parse`).  An outline keeps the leaves read so far in its pieces, its open groups and its
place, and each token adds at their end the one it stands for (`Outline.leaves_step`).
-/

namespace KeywordRules

/-- The leaf that an operand stands for: the phrase between quotes or of a term with several words, the start of a word
if the term is marked, and a word otherwise. -/
def Token.leaf? : Token → Option Leaf
  | .term w m =>
    if ' ' ∈ normalise w then some (.phrase (normalise w))
    else if m then some (.stem (normalise w))
    else some (.word (normalise w))
  | .phrase v => some (.phrase (normalise v))
  | _ => none

theorem Token.leaf?_term (w : Text) (m : Bool) : (Token.term w m).leaf? = some (Leaf.ofTerm w m) := by
  simp only [Token.leaf?, Leaf.ofTerm, apply_ite some]

theorem Token.isSome_leaf? (t : Token) : t.leaf?.isSome = t.isOperand := by
  cases t with
  | term w m => rw [leaf?_term]; rfl
  | _ => rfl

theorem Leaf.value_ofTerm (w : Text) (m : Bool) : (Leaf.ofTerm w m).value = normalise w := by
  unfold Leaf.ofTerm
  dsimp only
  split
  · rfl
  · split <;> rfl

theorem Token.normalise_leaf {t : Token} {l : Leaf} (h : t.leaf? = some l) : normalise l.value = l.value := by
  cases t with
  | term w m =>
    rw [Token.leaf?_term, Option.some.injEq] at h
    rw [← h, Leaf.value_ofTerm, normalise_normalise]
  | phrase v =>
    cases h
    exact normalise_normalise v
  | _ => cases h

/-! ### Leaves of what has been read -/

/-- The leaves of an expression that may be missing. -/
def leavesOf (e : Option Expr) : List Leaf := e.elim [] Expr.leaves

@[simp] theorem leavesOf_none : leavesOf none = [] := rfl

@[simp] theorem leavesOf_some (e : Expr) : leavesOf (some e) = e.leaves := rfl

theorem Expr.leaves_ne_nil (e : Expr) : e.leaves ≠ [] := by
  induction e with
  | leaf l => simp [Expr.leaves]
  | not e ih => exact ih
  | and l r ihl ihr => simp [Expr.leaves, ihl]
  | or l r ihl ihr => simp [Expr.leaves, ihl]

theorem leavesOf_eq_nil_iff {e : Option Expr} : leavesOf e = [] ↔ e = none := by
  cases e with
  | none => simp
  | some e => simp [e.leaves_ne_nil]

private theorem leavesOf_join {build : Expr → Expr → Expr} (h : ∀ l r, (build l r).leaves = l.leaves ++ r.leaves)
    (l r : Option Expr) : leavesOf (joinOperands build l r) = leavesOf l ++ leavesOf r := by
  rcases l with _ | l
  · simp
  · rcases r with _ | r
    · simp
    · exact h l r

@[simp] theorem leavesOf_join_and (l r : Option Expr) :
    leavesOf (joinOperands .and l r) = leavesOf l ++ leavesOf r := leavesOf_join (fun _ _ => rfl) l r

@[simp] theorem leavesOf_join_or (l r : Option Expr) :
    leavesOf (joinOperands .or l r) = leavesOf l ++ leavesOf r := leavesOf_join (fun _ _ => rfl) l r

@[simp] theorem leavesOf_negate (n : Nat) (e : Option Expr) : leavesOf (negate n e) = leavesOf e := by
  induction n generalizing e with
  | zero => rfl
  | succ n ih =>
    rw [negate, ih]
    cases e <;> rfl

def Place.leaves (s : Place) : List Leaf := leavesOf s.disjunction ++ leavesOf s.conjunction

@[simp] theorem Place.leaves_vacant : vacant.leaves = [] := rfl

@[simp] theorem Place.leaves_fill (s : Place) (e : Option Expr) : (s.fill e).leaves = s.leaves ++ leavesOf e := by
  simp [Place.leaves, Place.fill]

@[simp] theorem Place.leavesOf_value (s : Place) : leavesOf s.value = s.leaves := by
  simp [Place.leaves, Place.value]

/-- The leaves of open groups, the outermost first. -/
def groupLeaves : List Place → List Leaf
  | [] => []
  | s :: gs => groupLeaves gs ++ s.leaves

@[simp] theorem groupLeaves_nil : groupLeaves [] = [] := rfl

@[simp] theorem groupLeaves_cons (s : Place) (gs : List Place) :
    groupLeaves (s :: gs) = groupLeaves gs ++ s.leaves := rfl

@[simp] theorem leavesOf_leave (gs : List Place) (e : Option Expr) :
    leavesOf (leave gs e) = groupLeaves gs ++ leavesOf e := by
  induction gs generalizing e with
  | nil => rfl
  | cons s gs ih => simp [leave, ih]

namespace Outline

def leaves (σ : Outline) : List Leaf := leavesOf σ.root? ++ (groupLeaves σ.groups ++ σ.place.leaves)

@[simp] theorem leavesOf_value (σ : Outline) : leavesOf σ.value = σ.leaves := by
  simp [value, leaves]

@[simp] theorem leaves_conclude (σ : Outline) : σ.conclude.leaves = σ.leaves := by
  rw [leaves, conclude]
  simp

@[simp] theorem leaves_resume (σ : Outline) : σ.resume.leaves = σ.leaves := by
  unfold resume
  split <;> simp

@[simp] theorem leaves_fill (σ : Outline) (e : Option Expr) : (σ.fill e).leaves = σ.leaves ++ leavesOf e := by
  simp [leaves, fill]

@[simp] theorem leaves_enter (σ : Outline) : σ.enter.leaves = σ.leaves := by
  unfold enter
  split <;> simp [leaves]

@[simp] theorem leaves_close (σ : Outline) : σ.close.leaves = σ.leaves := by
  obtain ⟨r, gs, s, m, d⟩ := σ
  rcases d with _ | d
  · rcases gs with _ | ⟨g, gs⟩
    · rfl
    · -- the leaves of the group that is left follow those before it
      simp [close, leaves]
  · rfl

@[simp] theorem leaves_negate (σ : Outline) : σ.negate.leaves = σ.leaves := rfl

/-- Each token adds its leaf after those read before. -/
theorem leaves_step (σ : Outline) (t : Token) : (σ.step t).leaves = σ.leaves ++ t.leaf?.toList := by
  rcases t with c | _ | _ | ⟨w, m⟩ | v
  · rcases c with _ | _ | _
    · simp [step, leaves, Place.leaves, Token.leaf?]
    · simp [step, leaves, Place.leaves, Token.leaf?, Place.value]
    · rw [step]
      split <;> simp [Token.leaf?]
  · simp [step, Token.leaf?]
  · simp [step, Token.leaf?]
  · simp [step, Token.leaf?_term, Expr.leaves]
  · simp [step, Token.leaf?, Expr.leaves]

theorem leaves_foldl (σ : Outline) (ts : List Token) :
    (ts.foldl step σ).leaves = σ.leaves ++ ts.filterMap Token.leaf? := by
  induction ts generalizing σ with
  | nil => simp
  | cons t ts ih =>
    rw [List.foldl_cons, ih, leaves_step, List.append_assoc]
    cases ht : t.leaf? with
    | none => rw [List.filterMap_cons_none ht, Option.toList_none, List.nil_append]
    | some l => rw [List.filterMap_cons_some ht, Option.toList_some, List.singleton_append]

end Outline

/-! ### Leaves of a query -/

/-- The leaves of a query are those of its tokens, in their order. -/
theorem leavesOf_root (ts : List Token) : leavesOf (parse ts).root? = ts.filterMap Token.leaf? := by
  rw [root_parse, Outline.leavesOf_value, Outline.leaves_foldl]
  rfl

theorem filterMap_leaf_spliceAnds (ts : List Token) :
    (spliceAnds ts).filterMap Token.leaf? = ts.filterMap Token.leaf? := filterMap_spliceAnds rfl ts

theorem root_eq_none_iff (ts : List Token) : (parse ts).root? = none ↔ ∀ t ∈ ts, t.isOperand = false := by
  rw [← leavesOf_eq_nil_iff, leavesOf_root, List.filterMap_eq_nil_iff]
  refine forall₂_congr fun t _ => ?_
  rw [← t.isSome_leaf?, Option.isSome_eq_false_iff, Option.isNone_iff_eq_none]

/-- Recovery loses no operand: the leaves of a query are those of its terms and phrases in their order, each of a value
in normal form.  A query means nothing exactly if it has no operand, and it is reported as empty or as never matching
exactly if it has no tokens, or tokens without an operand. -/
theorem leaves_parse (ts : List Token) :
    leavesOf (parse ts).root? = ts.filterMap Token.leaf? ∧
    (∀ l ∈ leavesOf (parse ts).root?, normalise l.value = l.value) ∧
    ((parse ts).root? = none ↔ ∀ t ∈ ts, t.isOperand = false) ∧
    (.emptyQuery ∈ (parse ts).warnings ↔ ts = []) ∧
    (.neverMatches ∈ (parse ts).warnings ↔ ts ≠ [] ∧ ∀ t ∈ ts, t.isOperand = false) := by
  refine ⟨leavesOf_root ts, fun l hl => ?_, root_eq_none_iff ts, emptyQuery_mem_iff ts, ?_⟩
  · rw [leavesOf_root] at hl
    obtain ⟨t, -, ht⟩ := List.mem_filterMap.1 hl
    exact Token.normalise_leaf ht
  · rw [neverMatches_mem_iff, root_eq_none_iff]

end KeywordRules
