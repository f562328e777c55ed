import KeywordRules.Proofs.Text.Words

/-!
# Normal forms in one pass

The words of a text can be written on one line while its characters are read, with nothing to remember but whether a
separator has been met since the last word character: a blank is written when the next word begins and never before, so
there is none at either end and no two stand side by side (`normalise_eq_foldl`).
-/

namespace KeywordRules

/-- Reads one character.  The state holds what has been written and whether a blank is due. -/
def writeChar (s : Text × Bool) (c : Char) : Text × Bool :=
  if isWordChar c then (s.1 ++ (if s.2 && !s.1.isEmpty then [' ', c] else [c]), false) else (s.1, true)

private theorem words_eq_of_fields {t f : Text} {fs : List Text} {c : Char} (hc : isWordChar c = true)
    (h : fields (!isWordChar ·) t = f :: fs) : words (c :: t) = (c :: f) :: fs.filter (!·.isEmpty) := by
  rw [words, parts, fields, if_neg (by simp [hc]), h, List.modifyHead_cons, List.filter_cons_of_pos rfl]

/-- Behind something written the pass goes on with the word at hand, if no blank is due, and then with one blank before
each word. -/
private theorem foldl_writeChar (t out : Text) (hout : out ≠ []) :
    (∀ f fs, fields (!isWordChar ·) t = f :: fs →
      (t.foldl writeChar (out, false)).1 = out ++ (f ++ (fs.filter (!·.isEmpty)).flatMap fun w => ' ' :: w)) ∧
    (t.foldl writeChar (out, true)).1 = out ++ (words t).flatMap fun w => ' ' :: w := by
  induction t generalizing out with
  | nil =>
    refine ⟨fun f fs h => ?_, ?_⟩
    · obtain ⟨rfl, rfl⟩ := List.cons.inj h
      exact (List.append_nil out).symm
    · exact (List.append_nil out).symm
  | cons c t ih =>
    obtain ⟨g, gs, hg⟩ := List.exists_cons_of_ne_nil (fields_ne_nil (!isWordChar ·) t)
    by_cases hc : isWordChar c = true
    · have hword : writeChar (out, false) c = (out ++ [c], false) := by simp [writeChar, hc]
      have hdue : writeChar (out, true) c = (out ++ [' ', c], false) := by simp [writeChar, hc, hout]
      refine ⟨fun f fs h => ?_, ?_⟩
      · rw [fields, if_neg (by simp [hc]), hg, List.modifyHead_cons] at h
        obtain ⟨rfl, rfl⟩ := List.cons.inj h
        rw [List.foldl_cons, hword, (ih _ (by simp)).1 g gs hg, List.append_assoc, List.singleton_append,
          List.cons_append]
      · rw [List.foldl_cons, hdue, (ih _ (by simp)).1 g gs hg, words_eq_of_fields hc hg, List.flatMap_cons,
          List.append_assoc]
        rfl
    · have hbreak : isWordChar c = false := Bool.eq_false_iff.2 hc
      have hstep (due : Bool) : writeChar (out, due) c = (out, true) := by simp [writeChar, hc]
      refine ⟨fun f fs h => ?_, ?_⟩
      · rw [fields, if_pos (by simp [hbreak])] at h
        obtain ⟨rfl, rfl⟩ := List.cons.inj h
        rw [List.foldl_cons, hstep, (ih out hout).2]
        rfl
      · rw [List.foldl_cons, hstep, (ih out hout).2, words_cons_break hbreak]

theorem foldl_writeChar_nil (t : Text) (due : Bool) : (t.foldl writeChar ([], due)).1 = joinWords (words t) := by
  induction t generalizing due with
  | nil => rfl
  | cons c t ih =>
    rw [List.foldl_cons]
    by_cases hc : isWordChar c = true
    · obtain ⟨f, fs, hf⟩ := List.exists_cons_of_ne_nil (fields_ne_nil (!isWordChar ·) t)
      have hstep : writeChar ([], due) c = ([c], false) := by simp [writeChar, hc]
      rw [hstep, (foldl_writeChar t [c] (List.cons_ne_nil _ _)).1 f fs hf, words_eq_of_fields hc hf, joinWords,
        intercalate_cons, List.singleton_append, List.cons_append]
    · have hstep : writeChar ([], due) c = ([], true) := by simp [writeChar, hc]
      rw [hstep, ih, words_cons_break (Bool.eq_false_iff.2 hc)]

/-- The normal form of a text is written in one pass over its folded characters. -/
theorem normalise_eq_foldl (t : Text) : normalise t = ((fold (stripMarkup t)).foldl writeChar ([], false)).1 :=
  (foldl_writeChar_nil (fold (stripMarkup t)) false).symm

end KeywordRules
