import KeywordRules.Proofs.Query.Layers
import KeywordRules.Proofs.Query.Leaves
import KeywordRules.Proofs.Query.Spelling

/-!
# The height of a compiled tree

Printing a tree and testing it on a document both go as deep as the tree is high.  If a chain of one connective were a
single node, the height would follow the nesting of the query alone (`Expr.rank`).  But a chain is a comb that hangs to
the left, so the height grows with its operands as well: it is at most what the negations add to the number of operands,
and a query of nothing but operands is as high as it is long (`Query.height_compile`).
-/

namespace KeywordRules

namespace Expr

/-- How deep the recursion over an expression goes. -/
def height : Expr → Nat
  | .leaf _ => 1
  | .not e => e.height + 1
  | .and l r => max l.height r.height + 1
  | .or l r => max l.height r.height + 1

/-- The most negations that stand over a leaf. -/
def negationDepth : Expr → Nat
  | .leaf _ => 0
  | .not e => e.negationDepth + 1
  | .and l r => max l.negationDepth r.negationDepth
  | .or l r => max l.negationDepth r.negationDepth

def isAnd : Expr → Bool
  | .and _ _ => true
  | _ => false

def isOr : Expr → Bool
  | .or _ _ => true
  | _ => false

/-- The rank of a chain with an operand of rank `n`, or with a chain of the same connective that it goes on. -/
def chained (same : Bool) (n : Nat) : Nat := if same then n else n + 1

/-- The height if each chain of one connective, which hangs to the left, were a single node. -/
def rank : Expr → Nat
  | .leaf _ => 1
  | .not e => e.rank + 1
  | .and l r => max (chained l.isAnd l.rank) (r.rank + 1)
  | .or l r => max (chained l.isOr l.rank) (r.rank + 1)

/-- The rank of the conjunction that `e` is or begins. -/
def andRank (e : Expr) : Nat := chained e.isAnd e.rank

/-- The rank of the disjunction that `e` is or begins. -/
def orRank (e : Expr) : Nat := chained e.isOr e.rank

variable {e l r : Expr}

theorem andRank_and : (Expr.and l r).andRank = max l.andRank (r.rank + 1) := rfl

theorem orRank_or : (Expr.or l r).orRank = max l.orRank (r.rank + 1) := rfl

theorem le_chained (same : Bool) (n : Nat) : n ≤ chained same n := by
  cases same with
  | false => exact Nat.le_succ n
  | true => exact Nat.le_refl n

theorem chained_le (same : Bool) (n : Nat) : chained same n ≤ n + 1 := by
  cases same with
  | false => exact Nat.le_refl (n + 1)
  | true => exact Nat.le_succ n

theorem rank_iterate_not (n : Nat) (e : Expr) : (Expr.not^[n] e).rank = e.rank + n := by
  induction n with
  | zero => rfl
  | succ n ih => rw [Function.iterate_succ_apply', rank, ih, Nat.add_assoc]

theorem negationDepth_iterate_not (n : Nat) (e : Expr) : (Expr.not^[n] e).negationDepth = e.negationDepth + n := by
  induction n with
  | zero => rfl
  | succ n ih => rw [Function.iterate_succ_apply', negationDepth, ih, Nat.add_assoc]

theorem length_leaves_pos (e : Expr) : 0 < e.leaves.length := List.length_pos_iff.2 e.leaves_ne_nil

/-- Every level of a path is a negation or has a leaf beside it. -/
theorem height_le (e : Expr) : e.height ≤ e.negationDepth + e.leaves.length := by
  induction e with
  | leaf l => exact Nat.le_refl 1
  | not e ih =>
    rw [height, negationDepth, leaves]
    omega
  | and l r ihl ihr =>
    have hl := l.length_leaves_pos
    have hr := r.length_leaves_pos
    rw [height, negationDepth, leaves, List.length_append]
    omega
  | or l r ihl ihr =>
    have hl := l.length_leaves_pos
    have hr := r.length_leaves_pos
    rw [height, negationDepth, leaves, List.length_append]
    omega

end Expr

/-! ### Layers -/

/-- The rank of what a nonterminal stands for, as far as it may go on. -/
def Nonterminal.rank : Nonterminal → Expr → Nat
  | .primary, e => e.rank
  | .negation, e => e.rank
  | .conjunction, e => e.andRank
  | .disjunction, e => e.orRank

/-- How much a nonterminal may add to the rank of its operands, if `k` negations may stand in a row. -/
def Nonterminal.surplus (k : Nat) : Nonterminal → Nat
  | .primary => 0
  | .negation => k
  | .conjunction => k + 1
  | .disjunction => k + 2

section Layers

variable {k g : Nat} {e : Expr} {kind : Nonterminal}

/-- Each layer adds a level for its disjunction, one for its conjunctions and one for each negation. -/
theorem Layered.rank_le (h : Layered k g kind e) : kind.rank e ≤ g * (k + 2) + 1 + kind.surplus k := by
  induction h with
  | leaf l => exact Nat.le_add_left 1 _
  | @group g e inside ih =>
    have hrank : e.rank ≤ e.orRank := Expr.le_chained _ _
    simp only [Nonterminal.rank, Nonterminal.surplus] at ih ⊢
    rw [Nat.succ_mul]
    omega
  | @negation g n e hn operand ih =>
    simp only [Nonterminal.rank, Nonterminal.surplus, Expr.rank_iterate_not] at ih ⊢
    omega
  | @conjunction g e first ih =>
    have hrank : e.andRank ≤ e.rank + 1 := Expr.chained_le _ _
    simp only [Nonterminal.rank, Nonterminal.surplus] at ih ⊢
    omega
  | and hl hr ihl ihr =>
    simp only [Nonterminal.rank, Nonterminal.surplus, Expr.andRank_and] at ihl ihr ⊢
    omega
  | @disjunction g e first ih =>
    have hle : e.rank ≤ e.andRank := Expr.le_chained _ _
    have hrank : e.orRank ≤ e.rank + 1 := Expr.chained_le _ _
    simp only [Nonterminal.rank, Nonterminal.surplus] at ih ⊢
    omega
  | @or g l r hl hr ihl ihr =>
    have hrank : r.rank ≤ r.andRank := Expr.le_chained _ _
    simp only [Nonterminal.rank, Nonterminal.surplus, Expr.orRank_or] at ihl ihr ⊢
    omega

/-- Negations pile up over the layers, at most `k` in each. -/
theorem Layered.negationDepth_le (h : Layered k g kind e) :
    e.negationDepth ≤ g * k + if kind = .primary then 0 else k := by
  induction h with
  | leaf l => exact Nat.zero_le _
  | group inside ih => simpa [Nat.succ_mul] using ih
  | negation hn operand ih =>
    rw [Expr.negationDepth_iterate_not]
    simp only [reduceCtorEq, if_true, if_false] at ih ⊢
    omega
  | conjunction first ih => exact ih
  | and hl hr ihl ihr => exact max_le ihl ihr
  | disjunction first ih => exact ih
  | or hl hr ihl ihr => exact max_le ihl ihr

theorem Layered.rank_le_of_disjunction (h : Layered k g .disjunction e) : e.rank ≤ (g + 1) * (k + 2) + 1 := by
  have hrank := h.rank_le
  have hle : e.rank ≤ e.orRank := Expr.le_chained _ _
  simp only [Nonterminal.rank, Nonterminal.surplus] at hrank
  rw [Nat.succ_mul]
  omega

/-- Joining the pieces adds one level more. -/
theorem Pieced.andRank_le (h : Pieced k g e) : e.andRank ≤ (g + 1) * (k + 2) + 2 := by
  induction h with
  | @piece e h => exact Nat.le_trans (Expr.chained_le _ _) (Nat.succ_le_succ h.rank_le_of_disjunction)
  | and hl hr ih =>
    rw [Expr.andRank_and]
    exact max_le ih (Nat.succ_le_succ hr.rank_le_of_disjunction)

theorem Pieced.negationDepth_le (h : Pieced k g e) : e.negationDepth ≤ (g + 1) * k := by
  rw [Nat.succ_mul]
  induction h with
  | piece h => exact h.negationDepth_le
  | and hl hr ih => exact max_le ih hr.negationDepth_le

end Layers

/-! ### Queries of nothing but operands -/

theorem peak_eq_of_const {count : Nat → Token → Nat} {n : Nat} {ts : List Token} (h : ∀ t ∈ ts, count n t = n) :
    peak count n ts = n := by
  induction ts with
  | nil => rfl
  | cons t ts ih =>
    rw [peak, h t List.mem_cons_self, ih fun u hu => h u (List.mem_cons_of_mem t hu), max_self]

theorem nesting_eq_zero {ts : List Token} (h : ∀ t ∈ ts, t = .connective .and ∨ t.isOperand = true) :
    nesting ts = 0 := by
  have hpeak : groupDepth ts = 0 := peak_eq_of_const fun t ht => by
    rcases h t ht with rfl | hoperand
    · rfl
    · cases t with
      | term w m => rfl
      | phrase v => rfl
      | _ => cases hoperand
  rw [nesting, hpeak, Nat.zero_min]

theorem longestNegation_eq_zero {ts : List Token} (h : ∀ t ∈ ts, t = .connective .and ∨ t.isOperand = true) :
    longestNegation ts = 0 := by
  refine peak_eq_of_const fun t ht => ?_
  rcases h t ht with rfl | hoperand
  · rfl
  · cases t with
    | connective c => cases hoperand
    | _ => rfl

namespace Outline

/-- A chain of operands has been read, and nothing else. -/
def chain (e : Expr) : Outline := ⟨none, [], ⟨none, some e, 0⟩, .holding, 0⟩

theorem value_chain (e : Expr) : (chain e).value = some e := rfl

theorem feed_start {t : Token} (h : t.isOperand = true) : ∃ l, feed (start, false) t = (chain (.leaf l), true) := by
  cases t with
  | term w m => exact ⟨Leaf.ofTerm w m, rfl⟩
  | phrase v => exact ⟨.phrase (normalise v), rfl⟩
  | _ => cases h

theorem feed_chain (e : Expr) {t : Token} (h : t.isOperand = true) :
    ∃ l, feed (chain e, true) t = (chain (.and e (.leaf l)), true) := by
  cases t with
  | term w m => exact ⟨Leaf.ofTerm w m, rfl⟩
  | phrase v => exact ⟨.phrase (normalise v), rfl⟩
  | _ => cases h

/-- Each operand hangs the chain one level lower. -/
theorem height_foldl_feed (e : Expr) {ts : List Token} (h : ∀ t ∈ ts, t.isOperand = true) :
    ∃ e', ts.foldl feed (chain e, true) = (chain e', true) ∧ e'.height = e.height + ts.length := by
  induction ts generalizing e with
  | nil => exact ⟨e, rfl, rfl⟩
  | cons t ts ih =>
    obtain ⟨l, hl⟩ := feed_chain e (h t List.mem_cons_self)
    obtain ⟨e', he', hheight⟩ := ih (.and e (.leaf l)) fun u hu => h u (List.mem_cons_of_mem t hu)
    refine ⟨e', by rw [List.foldl_cons, hl, he'], ?_⟩
    have hpos : 1 ≤ e.height := by cases e <;> simp [Expr.height]
    rw [hheight, Expr.height, Expr.height, max_eq_left hpos, List.length_cons]
    omega

end Outline

/-! ### Compiled queries -/

namespace Query

def height (q : Query) : Nat := q.root?.elim 0 Expr.height

def rank (q : Query) : Nat := q.root?.elim 0 Expr.rank

private theorem height_of_operands {q : Text} (h : ∀ t ∈ tokenise q, t.isOperand = true) :
    (compile q).height = (tokenise q).length := by
  have hroot : (compile q).root? = ((tokenise q).foldl Outline.feed (.start, false)).1.value := root_spliceAnds _
  rw [height, hroot]
  rcases htokens : tokenise q with _ | ⟨t, ts⟩
  · rfl
  · rw [htokens] at h
    obtain ⟨l, hl⟩ := Outline.feed_start (h t List.mem_cons_self)
    obtain ⟨e, he, hheight⟩ := Outline.height_foldl_feed (.leaf l) fun u hu => h u (List.mem_cons_of_mem t hu)
    rw [List.foldl_cons, hl, he, Outline.value_chain, Option.elim_some, hheight, Expr.height, List.length_cons]
    omega

/-- The tree is high although nothing nests. -/
theorem flat_of_operands {q : Text} (h : ∀ t ∈ tokenise q, t.isOperand = true) :
    nesting (tokens q) = 0 ∧ longestNegation (tokens q) = 0 ∧ (compile q).height = (tokenise q).length := by
  have htokens : ∀ t ∈ tokens q, t = .connective .and ∨ t.isOperand = true :=
    fun t ht => (mem_spliceAnds ht).imp_right (h t)
  exact ⟨nesting_eq_zero htokens, longestNegation_eq_zero htokens, height_of_operands h⟩

theorem length_leaves {q : Text} {e : Expr} (h : (compile q).root? = some e) :
    e.leaves.length = (tokens q).countP Token.isOperand := by
  have hleaves : leavesOf (compile q).root? = (tokens q).filterMap Token.leaf? := leavesOf_root _
  rw [h, leavesOf_some] at hleaves
  rw [hleaves, List.length_filterMap_eq_countP]
  exact List.countP_congr fun t _ => by rw [t.isSome_leaf?]

/-- The nesting of a query bounds the rank of its tree, but not the height: that is at most what the negations add to the
number of operands, and a query of nothing but operands is as high as it is long. -/
theorem height_compile (q : Text) :
    (compile q).height ≤
      (nesting (tokens q) + 1) * longestNegation (tokens q) + (tokens q).countP Token.isOperand ∧
    (compile q).rank ≤ (nesting (tokens q) + 1) * (longestNegation (tokens q) + 2) + 2 ∧
    (groupDepth (tokens q) ≤ maxNesting →
      (compile q).rank ≤ (nesting (tokens q) + 1) * (longestNegation (tokens q) + 2) + 1) ∧
    ((∀ t ∈ tokenise q, t.isOperand = true) →
      nesting (tokens q) = 0 ∧ longestNegation (tokens q) = 0 ∧ (compile q).height = (tokenise q).length) := by
  rcases hroot : (compile q).root? with _ | e
  · have hheight : (compile q).height = 0 := by rw [height, hroot, Option.elim_none]
    have hrank : (compile q).rank = 0 := by rw [rank, hroot, Option.elim_none]
    rw [hrank]
    refine ⟨?_, Nat.zero_le _, fun _ => Nat.zero_le _, flat_of_operands⟩
    rw [hheight]
    exact Nat.zero_le _
  · have hheight : (compile q).height = e.height := by rw [height, hroot, Option.elim_some]
    have hrank : (compile q).rank = e.rank := by rw [rank, hroot, Option.elim_some]
    have hpieced : Pieced (longestNegation (tokens q)) (nesting (tokens q)) e := pieced_parse hroot
    refine ⟨?_, ?_, fun hdepth => ?_, flat_of_operands⟩
    · rw [hheight, ← length_leaves hroot]
      exact Nat.le_trans e.height_le (Nat.add_le_add_right hpieced.negationDepth_le _)
    · rw [hrank]
      exact Nat.le_trans (Expr.le_chained _ _) hpieced.andRank_le
    · rw [hrank]
      exact (layered_parse hdepth hroot).rank_le_of_disjunction

/-- A query of three words, of height three. -/
theorem height_compile_threeWords :
    groupDepth (tokens "a b c".toList) ≤ maxNesting ∧
    (compile "a b c".toList).rank ≤
      (nesting (tokens "a b c".toList) + 1) * (longestNegation (tokens "a b c".toList) + 2) + 1 ∧
    (∀ t ∈ tokenise "a b c".toList, t.isOperand = true) ∧ (compile "a b c".toList).height = 3 := by
  obtain ⟨-, -, hrank, hflat⟩ := height_compile "a b c".toList
  have hdepth : groupDepth (tokens "a b c".toList) ≤ maxNesting := by decide +kernel
  have hoperands : ∀ t ∈ tokenise "a b c".toList, t.isOperand = true := by decide +kernel
  refine ⟨hdepth, hrank hdepth, hoperands, ?_⟩
  rw [(hflat hoperands).2.2]
  decide +kernel

/-- A word, `n` times. -/
def repeated : Nat → Text
  | 0 => []
  | n + 1 => ['a', ' '] ++ repeated n

theorem tokenise_repeated (n : Nat) : tokenise (repeated n) = List.replicate n (.term ['a'] false) := by
  induction n with
  | zero => decide +kernel
  | succ n ih =>
    have hword : tokenise ['a', ' '] = [.term ['a'] false] := by decide +kernel
    have hseam : IsSeam ['a', ' '] (repeated n) := .inr (.inr (.inl ⟨' ', rfl, by decide⟩))
    rw [repeated, tokenise_append (by decide) hseam, hword, appendTokens_of_endsValue rfl, ih]
    rfl

/-- Queries without groups and negations are of any height. -/
theorem exists_height_eq (n : Nat) :
    ∃ q, nesting (tokens q) = 0 ∧ longestNegation (tokens q) = 0 ∧ (compile q).height = n := by
  have hoperands : ∀ t ∈ tokenise (repeated n), t.isOperand = true := by
    rw [tokenise_repeated]
    intro t ht
    rw [List.eq_of_mem_replicate ht]
    rfl
  obtain ⟨hnesting, hnegations, hheight⟩ := flat_of_operands hoperands
  rw [tokenise_repeated, List.length_replicate] at hheight
  exact ⟨repeated n, hnesting, hnegations, hheight⟩

/-- With one group and no negation, seven words in a chain are already higher than the nesting of the query allows; and no
bound on the height can be told from the nesting and the negations. -/
theorem height_gt_nesting_chain :
    ¬ (compile "(a) b c d e f g".toList).height ≤
      (nesting (tokens "(a) b c d e f g".toList) + 1) *
        (longestNegation (tokens "(a) b c d e f g".toList) + 2) + 1 ∧
    ¬ ∃ bound : Nat → Nat → Nat, ∀ q, (compile q).height ≤ bound (nesting (tokens q)) (longestNegation (tokens q)) := by
  constructor
  · have hroot : (compile "(a) b c d e f g".toList).root? =
        ((tokenise "(a) b c d e f g".toList).foldl Outline.feed (.start, false)).1.value := root_spliceAnds _
    rw [height, hroot]
    decide +kernel
  · rintro ⟨bound, hbound⟩
    obtain ⟨q, hnesting, hnegations, hheight⟩ := exists_height_eq (bound 0 0 + 1)
    have hle := hbound q
    rw [hnesting, hnegations, hheight] at hle
    exact Nat.not_succ_le_self _ hle

end Query

end KeywordRules
