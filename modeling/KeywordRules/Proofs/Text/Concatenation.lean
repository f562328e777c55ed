import KeywordRules.Proofs.Text.Markup

/-!
# Texts side by side

A markup span that begins in a text may end in the one written after it.  If every `<` of the first text has its `>`
there, no span reaches over the seam: markup is stripped from each text alone (`stripMarkup_append`), and with a blank or
a markup span between them the words are those of both (`words_append_separator`).
-/

namespace KeywordRules

/-- Every `<` of the text is followed by a `>` in it. -/
def ClosesMarkup (t : Text) : Prop := ∀ u v, t = u ++ '<' :: v → '>' ∈ v

namespace ClosesMarkup

variable {t u : Text}

theorem of_append (h : ClosesMarkup (t ++ u)) : ClosesMarkup u := by
  intro v w hu
  exact h (t ++ v) w (by rw [hu, List.append_assoc])

theorem nil : ClosesMarkup [] := by simp [ClosesMarkup]

theorem cons_iff {c : Char} : ClosesMarkup (c :: t) ↔ (c = '<' → '>' ∈ t) ∧ ClosesMarkup t := by
  constructor
  · intro h
    exact ⟨fun hc => h [] t (by rw [hc, List.nil_append]), of_append (t := [c]) h⟩
  · rintro ⟨hc, h⟩ u v hu
    rcases u with _ | ⟨a, u⟩
    · obtain ⟨rfl, rfl⟩ := List.cons.inj hu
      exact hc rfl
    · exact h u v (List.cons.inj hu).2

instance decidable : DecidablePred ClosesMarkup
  | [] => isTrue nil
  | _ :: t => @decidable_of_iff _ _ cons_iff.symm (@instDecidableAnd _ _ inferInstance (decidable t))

end ClosesMarkup

/-! ### Markup -/

theorem afterSpan?_append_end {u : Text} (hu : '>' ∉ u) (r : Text) : afterSpan? (u ++ '>' :: r) = some r := by
  rw [afterSpan?_append hu, afterSpan?_cons_end]

theorem afterSpan?_eq_none_iff {t : Text} : afterSpan? t = none ↔ '>' ∉ t := by
  constructor
  · intro h hmem
    obtain ⟨u, r, rfl, hu⟩ := List.eq_append_cons_of_mem hmem
    rw [afterSpan?_append_end hu] at h
    cases h
  · intro h
    have hnil := afterSpan?_append h []
    rwa [List.append_nil] at hnil

/-- A span ends with the first `>`. -/
theorem afterSpan?_eq_some_iff {t r : Text} : afterSpan? t = some r ↔ ∃ u, '>' ∉ u ∧ t = u ++ '>' :: r := by
  constructor
  · intro h
    by_cases hmem : '>' ∈ t
    · obtain ⟨u, v, rfl, hu⟩ := List.eq_append_cons_of_mem hmem
      rw [afterSpan?_append_end hu, Option.some.injEq] at h
      exact ⟨u, hu, by rw [h]⟩
    · rw [afterSpan?_eq_none_iff.2 hmem] at h
      cases h
  · rintro ⟨u, hu, rfl⟩
    exact afterSpan?_append_end hu r

/-- No span reaches over the end of a text that closes its markup. -/
theorem stripMarkup_append {t : Text} (h : ClosesMarkup t) (u : Text) :
    stripMarkup (t ++ u) = stripMarkup t ++ stripMarkup u := by
  fun_induction stripMarkup t with
  | case1 => rfl
  | case2 t r hr ih =>
    obtain ⟨v, hv, rfl⟩ := afterSpan?_eq_some_iff.1 hr
    have hspan : afterSpan? (v ++ '>' :: r ++ u) = some (r ++ u) :=
      afterSpan?_eq_some_iff.2 ⟨v, hv, by rw [List.append_assoc, List.cons_append]⟩
    have hrest : ClosesMarkup r := (ClosesMarkup.cons_iff.1 (ClosesMarkup.of_append (t := '<' :: v) h)).2
    rw [List.cons_append, stripMarkup_of_span hspan, ih hrest, List.cons_append]
  | case3 t hr => exact absurd (h [] t rfl) (afterSpan?_eq_none_iff.1 hr)
  | case4 c t hc ih =>
    rw [List.cons_append, stripMarkup, if_neg hc, ih (ClosesMarkup.cons_iff.1 h).2, List.cons_append]

/-! ### Separators -/

/-- What keeps words apart: one blank, or one markup span. -/
inductive IsSeparator : Text → Prop
  | blank {c : Char} (h : isBlank c = true) : IsSeparator [c]
  | span {t : Text} (h : '>' ∉ t) : IsSeparator ('<' :: (t ++ ['>']))

theorem closesMarkup_append_end (t : Text) : ClosesMarkup (t ++ ['>']) := by
  induction t with
  | nil => exact ClosesMarkup.cons_iff.2 ⟨fun hc => absurd hc (by decide), .nil⟩
  | cons c t ih => exact ClosesMarkup.cons_iff.2 ⟨fun _ => by simp, ih⟩

namespace IsSeparator

variable {s : Text}

theorem closesMarkup (h : IsSeparator s) : ClosesMarkup s := by
  cases h with
  | blank h =>
    refine ClosesMarkup.cons_iff.2 ⟨?_, .nil⟩
    rintro rfl
    exact absurd h (by decide)
  | @span t h => exact closesMarkup_append_end ('<' :: t)

/-- A separator without its markup is one blank. -/
theorem stripMarkup_eq (h : IsSeparator s) : ∃ c, isBlank c = true ∧ stripMarkup s = [c] := by
  cases h with
  | @blank c h =>
    have hc : '<' ∉ [c] := by
      rw [List.mem_singleton]
      rintro rfl
      exact absurd h (by decide)
    exact ⟨c, h, stripMarkup_of_not_mem hc⟩
  | span h => exact ⟨' ', by decide, by rw [stripMarkup_of_span (afterSpan?_append_end h []), stripMarkup]⟩

end IsSeparator

/-! ### Words -/

/-- The words of two texts with a separator between them are those of the first and then those of the second. -/
theorem normalWords_append_separator {t s : Text} (ht : ClosesMarkup t) (hs : IsSeparator s) (u : Text) :
    normalWords (t ++ (s ++ u)) = normalWords t ++ normalWords u := by
  obtain ⟨c, hc, hstrip⟩ := hs.stripMarkup_eq
  have hword : isWordChar c = false := isWordChar_of_isBlank hc
  have hfold : fold (c :: stripMarkup u) = c :: fold (stripMarkup u) := by
    rw [fold_cons, lowercase_of_isBlank hc, List.singleton_append]
  rw [normalWords, stripMarkup_append ht, stripMarkup_append hs.closesMarkup, hstrip, List.singleton_append, fold_append,
    hfold, words_append_break hword, normalWords, normalWords]

theorem normalWords_append_blank {t : Text} (h : ClosesMarkup t) (u : Text) :
    normalWords (t ++ ' ' :: u) = normalWords t ++ normalWords u :=
  normalWords_append_separator h (.blank (c := ' ') (by decide)) u

/-- Markup and blanks keep words apart and nothing else: behind a text that closes its markup, a separator ends the words
of the text, and those after it are the words of what follows.  So a markup span may be written as a blank. -/
theorem words_append_separator {t s : Text} (ht : ClosesMarkup t) (hs : IsSeparator s) (u : Text) :
    (Document.ofText (t ++ (s ++ u))).words = (Document.ofText t).words ++ (Document.ofText u).words ∧
    normalise (t ++ (s ++ u)) = normalise (t ++ ' ' :: u) := by
  have hblank : IsSeparator [' '] := .blank (by decide)
  constructor
  · rw [words_ofText, words_ofText, words_ofText, normalWords_append_separator ht hs]
  · have hline := normalWords_append_separator ht hblank u
    rw [List.singleton_append] at hline
    rw [normalise, normalWords_append_separator ht hs, normalise, hline]

def strayBrackets : Text := "a > <b <c>".toList

/-- A span with a `<` of its own, after stray brackets and before them. -/
theorem words_append_separator_strayBrackets :
    (ClosesMarkup strayBrackets ∧ IsSeparator "<t <u>".toList) ∧
    (Document.ofText (strayBrackets ++ ("<t <u>".toList ++ "> d <e".toList))).words = [['a'], ['d'], ['e']] ∧
    normalise (strayBrackets ++ ("<t <u>".toList ++ "> d <e".toList)) =
      normalise (strayBrackets ++ ' ' :: "> d <e".toList) := by
  have ht : ClosesMarkup strayBrackets := by decide
  have hs : IsSeparator "<t <u>".toList := .span (t := "t <u".toList) (by decide)
  have hword : (Document.ofText strayBrackets).words = [['a']] := by decide +kernel
  have hrest : (Document.ofText "> d <e".toList).words = [['d'], ['e']] := by decide +kernel
  obtain ⟨hwords, hline⟩ := words_append_separator ht hs "> d <e".toList
  rw [hword, hrest] at hwords
  exact ⟨⟨ht, hs⟩, hwords, hline⟩

/-! ### Lines of words -/

theorem joinWords_prefix_append (ws vs : List Text) : joinWords ws <+: joinWords (ws ++ vs) := by
  induction ws with
  | nil => exact List.nil_prefix
  | cons w ws ih =>
    rcases ws with _ | ⟨x, ws⟩
    · rcases vs with _ | ⟨v, vs⟩
      · exact List.prefix_rfl
      · rw [List.singleton_append, joinWords_singleton, joinWords_cons_cons]
        exact List.prefix_append _ _
    · rw [List.cons_append, List.cons_append, joinWords_cons_cons, joinWords_cons_cons, List.prefix_append_right_inj,
        List.cons_prefix_cons]
      exact ⟨rfl, ih⟩

theorem joinWords_suffix_append (ws vs : List Text) : joinWords vs <:+ joinWords (ws ++ vs) := by
  induction ws with
  | nil => exact List.suffix_rfl
  | cons w ws ih =>
    rw [List.cons_append]
    rcases hvs : ws ++ vs with _ | ⟨x, xs⟩
    · rw [hvs] at ih
      exact ih.trans (List.nil_suffix)
    · rw [hvs] at ih
      rw [joinWords_cons_cons]
      exact ih.trans ((List.suffix_cons _ _).trans (List.suffix_append _ _))

theorem joinWords_isInfix {ws vs : List Text} (h : ws <:+: vs) : joinWords ws <:+: joinWords vs := by
  obtain ⟨us, xs, rfl⟩ := h
  exact (joinWords_suffix_append us ws).isInfix.trans (joinWords_prefix_append (us ++ ws) xs).isInfix

theorem joinWords_append_cons (t w : Text) (ws : List Text) :
    joinWords ((t ++ w) :: ws) = t ++ joinWords (w :: ws) := by
  rcases ws with _ | ⟨v, ws⟩
  · rw [joinWords_singleton, joinWords_singleton]
  · rw [joinWords_cons_cons, joinWords_cons_cons, List.append_assoc]

theorem joinWords_concat_append (ws : List Text) (v t : Text) :
    joinWords (ws ++ [v ++ t]) = joinWords (ws ++ [v]) ++ t := by
  induction ws with
  | nil => rw [List.nil_append, List.nil_append, joinWords_singleton, joinWords_singleton]
  | cons w ws ih =>
    have hline (x : Text) : joinWords (w :: (ws ++ [x])) = w ++ ' ' :: joinWords (ws ++ [x]) := by
      obtain ⟨y, ys, hy⟩ := List.exists_cons_of_ne_nil (List.concat_ne_nil x ws)
      rw [hy, joinWords_cons_cons]
    rw [List.cons_append, List.cons_append, hline, hline, ih, List.append_assoc, List.cons_append]

end KeywordRules
