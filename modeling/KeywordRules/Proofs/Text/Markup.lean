import KeywordRules.Proofs.Text.Normal

/-!
# Markup and folding

Folding makes and removes no `<` and no `>`, so it does not matter whether markup is stripped before a text is folded or
after (`stripMarkup_fold`), and a text and its folded form have the same normal form (`normalise_fold`).
-/

namespace KeywordRules

/-! ### The end of a span -/

theorem afterSpan?_cons_end (t : Text) : afterSpan? ('>' :: t) = some t := rfl

theorem afterSpan?_append {u : Text} (hu : '>' ∉ u) (t : Text) : afterSpan? (u ++ t) = afterSpan? t := by
  have hdrop : (u ++ t).dropWhile (· ≠ '>') = t.dropWhile (· ≠ '>') := by
    rw [List.dropWhile_append_of_pos]
    intro c hc
    exact decide_eq_true fun he => hu (he ▸ hc)
  rw [afterSpan?, hdrop, afterSpan?]

/-! ### Stripping piece by piece -/

theorem stripMarkup_of_span {t r : Text} (h : afterSpan? t = some r) :
    stripMarkup ('<' :: t) = ' ' :: stripMarkup r := by
  rw [stripMarkup, if_pos rfl]
  split
  · next r' hr =>
    rw [h] at hr
    cases hr
    rfl
  · next hnone =>
    rw [h] at hnone
    cases hnone

theorem stripMarkup_of_no_span {t : Text} (h : afterSpan? t = none) : stripMarkup ('<' :: t) = '<' :: t := by
  rw [stripMarkup, if_pos rfl]
  split
  · next r hr =>
    rw [h] at hr
    cases hr
  · rfl

theorem stripMarkup_append_of_not_mem {u : Text} (hu : '<' ∉ u) (t : Text) :
    stripMarkup (u ++ t) = u ++ stripMarkup t := by
  induction u with
  | nil => rfl
  | cons c u ih =>
    have hc : c ≠ '<' := fun he => hu (he ▸ List.mem_cons_self)
    rw [List.cons_append, stripMarkup, if_neg hc, ih (List.not_mem_of_not_mem_cons hu), List.cons_append]

/-! ### Folding -/

/-- The lowercase of a character other than `c` does not hold `c`, if `c` stands below the letters of ASCII. -/
theorem not_mem_lowercase {c d : Char} (h0 : 0 < c.toNat) (h : c.toNat < 65) (hd : d ≠ c) : c ∉ lowercase d := by
  rw [← List.count_eq_zero, count_lowercase h0 h, List.count_eq_zero, List.mem_singleton]
  exact hd.symm

theorem afterSpan?_fold (t : Text) : afterSpan? (fold t) = (afterSpan? t).map fold := by
  induction t with
  | nil => rfl
  | cons c t ih =>
    by_cases hc : c = '>'
    · subst hc
      have hfold : fold ('>' :: t) = '>' :: fold t := rfl
      rw [hfold, afterSpan?_cons_end, afterSpan?_cons_end, Option.map_some]
    · have hlower : '>' ∉ lowercase c := not_mem_lowercase (by decide) (by decide) hc
      have hhead : '>' ∉ [c] := by
        rw [List.mem_singleton]
        exact Ne.symm hc
      rw [fold_cons, afterSpan?_append hlower, ih, ← List.singleton_append, afterSpan?_append hhead]

/-- Folding and stripping markup may change places. -/
theorem stripMarkup_fold (t : Text) : stripMarkup (fold t) = fold (stripMarkup t) := by
  fun_induction stripMarkup t with
  | case1 => exact stripMarkup_of_not_mem List.not_mem_nil
  | case2 t r h ih =>
    have hfold : afterSpan? (fold t) = some (fold r) := by rw [afterSpan?_fold, h, Option.map_some]
    have hopen : fold ('<' :: t) = '<' :: fold t := rfl
    rw [hopen, stripMarkup_of_span hfold, ih]
    rfl
  | case3 t h =>
    have hfold : afterSpan? (fold t) = none := by rw [afterSpan?_fold, h, Option.map_none]
    exact stripMarkup_of_no_span hfold
  | case4 c t hc ih =>
    have hlower : '<' ∉ lowercase c := not_mem_lowercase (by decide) (by decide) hc
    rw [fold_cons, stripMarkup_append_of_not_mem hlower, ih, ← fold_cons]

theorem normalWords_fold (t : Text) : normalWords (fold t) = normalWords t := by
  rw [normalWords, stripMarkup_fold, fold_fold, normalWords]

theorem normalise_fold (t : Text) : normalise (fold t) = normalise t := by
  rw [normalise, normalWords_fold, normalise]

end KeywordRules
