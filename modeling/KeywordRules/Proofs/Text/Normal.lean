import KeywordRules.Document
import KeywordRules.Proofs.Text.Fold
import KeywordRules.Proofs.Text.Words

/-!
# Normal forms

The words of a normal form consist of word characters that are their own lowercase (`isNormalWord_of_mem`).  Such words
on one line are a normal form (`normalise_joinWords`), so the normal form of a normal form is itself
(`normalise_normalise`), and a document knows the very words that its text was normalised to (`words_ofText`), in its
vocabulary as well (`hasWord_ofText_iff`).
-/

namespace KeywordRules

/-- A word as normal forms hold them. -/
def IsNormalWord (w : Text) : Prop := w ≠ [] ∧ ∀ c ∈ w, isWordChar c = true ∧ lowercase c = [c]

-- the characters of the word are checked, not all characters there are
instance (w : Text) : Decidable (IsNormalWord w) := @instDecidableAnd _ _ inferInstance (List.decidableBAll _ w)

theorem isNormalWord_of_mem_words_fold {w t : Text} (h : w ∈ words (fold t)) : IsNormalWord w := by
  obtain ⟨hne, hchars⟩ := mem_words h
  exact ⟨hne, fun c hc => ⟨(hchars c hc).1, lowercase_of_mem_fold (hchars c hc).2⟩⟩

theorem isNormalWord_of_mem {w t : Text} (h : w ∈ normalWords t) : IsNormalWord w :=
  isNormalWord_of_mem_words_fold h

theorem IsNormalWord.fold_eq {w : Text} (h : IsNormalWord w) : fold w = w := fold_eq_self fun c hc => (h.2 c hc).2

theorem IsNormalWord.not_mem {w : Text} (h : IsNormalWord w) {c : Char} (hc : isWordChar c = false) : c ∉ w := by
  intro hmem
  rw [(h.2 c hmem).1] at hc
  cases hc

/-! ### Texts without markup -/

theorem stripMarkup_of_not_mem {t : Text} (h : '<' ∉ t) : stripMarkup t = t := by
  induction t with
  | nil => rw [stripMarkup]
  | cons c t ih =>
    have hc : c ≠ '<' := fun he => h (he ▸ List.mem_cons_self)
    rw [stripMarkup, if_neg hc, ih fun hmem => h (List.mem_cons_of_mem _ hmem)]

theorem normalWords_of_not_mem {t : Text} (h : '<' ∉ t) : normalWords t = words (fold t) := by
  rw [normalWords, stripMarkup_of_not_mem h]

/-! ### Normal words on one line -/

theorem lowercase_of_mem_joinWords {ws : List Text} (h : ∀ w ∈ ws, IsNormalWord w) {c : Char}
    (hc : c ∈ joinWords ws) : lowercase c = [c] := by
  rcases mem_joinWords hc with rfl | ⟨w, hw, hcw⟩
  · decide
  · exact ((h w hw).2 c hcw).2

/-- A line of normal words holds nothing but word characters and blanks. -/
theorem not_mem_joinWords {ws : List Text} (h : ∀ w ∈ ws, IsNormalWord w) {c : Char} (hc : isWordChar c = false)
    (hblank : c ≠ ' ') : c ∉ joinWords ws := by
  intro hmem
  rcases mem_joinWords hmem with rfl | ⟨w, hw, hcw⟩
  · exact hblank rfl
  · rw [((h w hw).2 c hcw).1] at hc
    cases hc

theorem normalWords_joinWords {ws : List Text} (h : ∀ w ∈ ws, IsNormalWord w) : normalWords (joinWords ws) = ws := by
  have hmarkup : '<' ∉ joinWords ws := not_mem_joinWords h (by decide) (by decide)
  rw [normalWords_of_not_mem hmarkup, fold_eq_self fun c hc => lowercase_of_mem_joinWords h hc]
  exact words_joinWords fun w hw => ⟨(h w hw).1, fun c hc => ((h w hw).2 c hc).1⟩

theorem normalise_joinWords {ws : List Text} (h : ∀ w ∈ ws, IsNormalWord w) : normalise (joinWords ws) = joinWords ws := by
  rw [normalise, normalWords_joinWords h]

/-- A normal form is its own normal form. -/
theorem normalise_normalise (t : Text) : normalise (normalise t) = normalise t :=
  normalise_joinWords fun _ hw => isNormalWord_of_mem hw

theorem normalise_of_isNormalWord {w : Text} (h : IsNormalWord w) : normalise w = w := by
  have hwords : ∀ v ∈ [w], IsNormalWord v := by
    intro v hv
    rw [List.mem_singleton.1 hv]
    exact h
  have hline := normalise_joinWords hwords
  rwa [joinWords_singleton] at hline

theorem fold_of_normal {t : Text} (h : normalise t = t) : fold t = t := by
  refine fold_eq_self fun c hc => ?_
  rw [← h] at hc
  exact lowercase_of_mem_joinWords (fun w hw => isNormalWord_of_mem hw) hc

theorem not_mem_of_normal {t : Text} (h : normalise t = t) {c : Char} (hc : isWordChar c = false) (hblank : c ≠ ' ') :
    c ∉ t := by
  rw [← h]
  exact not_mem_joinWords (fun w hw => isNormalWord_of_mem hw) hc hblank

/-! ### Documents -/

/-- The words of a document are those of its text. -/
theorem words_ofText (t : Text) : (Document.ofText t).words = normalWords t := by
  refine parts_joinWords (by decide) fun w hw => ?_
  have hword := isNormalWord_of_mem hw
  refine ⟨hword.1, fun c hc => ?_⟩
  rw [decide_eq_false_iff_not]
  rintro rfl
  exact absurd (hword.2 _ hc).1 (by decide)

namespace Document

/-- The vocabulary has the words and nothing else. -/
@[simp] theorem mem_vocabulary_ofText {t w : Text} : w ∈ (ofText t).vocabulary ↔ w ∈ (ofText t).words :=
  List.mem_eraseDups

theorem hasWord_ofText_iff {t w : Text} : (ofText t).hasWord w = true ↔ w ∈ (ofText t).words := by
  rw [hasWord, List.contains_iff_mem, mem_vocabulary_ofText]

end Document

end KeywordRules
