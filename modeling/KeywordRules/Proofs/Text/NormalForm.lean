import KeywordRules.Proofs.Text.Normal
import Mathlib.Data.List.Chain

/-!
# The shape of normal forms

Whether a text is a normal form can be read off its characters: they are lowercase word characters, and blanks that
stand one at a time between them (`IsNormalForm`).  These are the lines of normal words (`isNormalForm_iff_joinWords`),
for between single blanks the fields of a text are its words (`joinWords_parts`).  Every text is normalised to such a
line, and the lines are exactly the texts that normalising leaves alone (`normalise_onto_normalForms`).
-/

namespace KeywordRules

/-- Lowercase word characters, with single blanks between words and none at either end. -/
structure IsNormalForm (t : Text) : Prop where
  chars : ∀ c ∈ t, c = ' ' ∨ isWordChar c = true ∧ lowercase c = [c]
  starts : t.head? ≠ some ' '
  ends : t.getLast? ≠ some ' '
  apart : t.IsChain fun a b => a = ' ' → b ≠ ' '

instance : DecidablePred IsNormalForm := fun t =>
  have : Decidable (∀ c ∈ t, c = ' ' ∨ isWordChar c = true ∧ lowercase c = [c]) := List.decidableBAll _ t
  decidable_of_iff ((∀ c ∈ t, c = ' ' ∨ isWordChar c = true ∧ lowercase c = [c]) ∧ t.head? ≠ some ' ' ∧
      t.getLast? ≠ some ' ' ∧ t.IsChain fun a b => a = ' ' → b ≠ ' ')
    ⟨fun ⟨hc, hs, he, ha⟩ => ⟨hc, hs, he, ha⟩, fun h => ⟨h.chars, h.starts, h.ends, h.apart⟩⟩

/-! ### Lines of words -/

theorem IsNormalWord.isNormalForm {w : Text} (h : IsNormalWord w) : IsNormalForm w := by
  have hblank : ' ' ∉ w := h.not_mem (by decide)
  refine ⟨fun c hc => .inr (h.2 c hc), fun hhead => ?_, fun hlast => ?_, ?_⟩
  · exact hblank (List.mem_of_mem_head? hhead)
  · exact hblank (List.mem_of_mem_getLast? hlast)
  · refine List.Pairwise.isChain (List.pairwise_iff_forall_sublist.2 fun {a b} hab ha => ?_)
    subst ha
    exact absurd (hab.subset List.mem_cons_self) hblank

/-- A word may be put before a line that has one. -/
theorem IsNormalWord.isNormalForm_append {w t : Text} (hw : IsNormalWord w) (ht : IsNormalForm t) (hne : t ≠ []) :
    IsNormalForm (w ++ ' ' :: t) := by
  have hline := hw.isNormalForm
  refine ⟨fun c hc => ?_, ?_, ?_, ?_⟩
  · rcases List.mem_append.1 hc with hc | hc
    · exact hline.chars c hc
    · rcases List.mem_cons.1 hc with rfl | hc
      · exact .inl rfl
      · exact ht.chars c hc
  · rw [List.head?_append_of_ne_nil _ hw.1]
    exact hline.starts
  · rw [List.getLast?_append_of_ne_nil _ (by simp), List.getLast?_cons_of_ne_nil hne]
    exact ht.ends
  · refine hline.apart.append (List.isChain_cons.2 ⟨fun b hb _ he => ?_, ht.apart⟩) fun a ha b _ hblank => ?_
    · exact ht.starts (he ▸ hb)
    · exact absurd (hblank ▸ ha) hline.ends

theorem isNormalForm_joinWords {ws : List Text} (h : ∀ w ∈ ws, IsNormalWord w) : IsNormalForm (joinWords ws) := by
  induction ws with
  | nil => exact ⟨by simp [joinWords], by simp [joinWords], by simp [joinWords], .nil⟩
  | cons w ws ih =>
    have hw := h w List.mem_cons_self
    have hws := ih fun v hv => h v (List.mem_cons_of_mem _ hv)
    rcases ws with _ | ⟨v, ws⟩
    · rw [joinWords_singleton]
      exact hw.isNormalForm
    · have hv : v ≠ [] := (h v (List.mem_cons_of_mem _ List.mem_cons_self)).1
      rw [joinWords_cons_cons]
      exact hw.isNormalForm_append hws (joinWords_ne_nil hv ws)

/-! ### Fields of a line -/

theorem joinWords_fields (t : Text) : joinWords (fields (· = ' ') t) = t := by
  induction t with
  | nil => rfl
  | cons c t ih =>
    obtain ⟨f, fs, hf⟩ := List.exists_cons_of_ne_nil (fields_ne_nil (· = ' ') t)
    rw [hf] at ih
    rw [fields, hf]
    split
    · next hc =>
      rw [joinWords_cons_cons, ih, List.nil_append, of_decide_eq_true hc]
    · rw [List.modifyHead_cons]
      rcases fs with _ | ⟨g, fs⟩
      · rw [joinWords_singleton] at ih ⊢
        rw [ih]
      · rw [joinWords_cons_cons] at ih ⊢
        rw [List.cons_append, ih]

private theorem fields_cons_of_ne {c : Char} (hc : c ≠ ' ') (t : Text) :
    ∃ f, fields (· = ' ') (c :: t) = (c :: f) :: (fields (· = ' ') t).tail := by
  obtain ⟨f, fs, hf⟩ := List.exists_cons_of_ne_nil (fields_ne_nil (· = ' ') t)
  refine ⟨f, ?_⟩
  rw [fields, if_neg (by simpa using hc), hf, List.modifyHead_cons, List.tail_cons]

/-- Where blanks stand one at a time and none at the end, no field but the first is empty. -/
theorem nil_not_mem_tail_fields {t : Text} (hends : t.getLast? ≠ some ' ')
    (hapart : t.IsChain fun a b => a = ' ' → b ≠ ' ') : [] ∉ (fields (· = ' ') t).tail := by
  induction t with
  | nil => exact List.not_mem_nil
  | cons c t ih =>
    rcases t with _ | ⟨b, t⟩
    · by_cases hc : c = ' '
      · subst hc
        exact absurd rfl hends
      · simp [fields, hc]
    · obtain ⟨hcb, hrest⟩ := List.isChain_cons_cons.1 hapart
      rw [List.getLast?_cons_cons] at hends
      have htail := ih hends hrest
      by_cases hc : c = ' '
      · -- the field after the blank begins with the character after it
        obtain ⟨f, hf⟩ := fields_cons_of_ne (hcb hc) t
        rw [hf, List.tail_cons] at htail
        rw [fields, if_pos (by simpa using hc), List.tail_cons, hf, List.mem_cons, not_or]
        exact ⟨by simp, htail⟩
      · obtain ⟨f, hf⟩ := fields_cons_of_ne hc (b :: t)
        rwa [hf, List.tail_cons]

namespace IsNormalForm

variable {t : Text}

/-- No field of a line is empty, so the line is its words. -/
theorem joinWords_parts (h : IsNormalForm t) : joinWords (parts (· = ' ') t) = t := by
  rcases t with _ | ⟨c, t⟩
  · rfl
  · have hc : c ≠ ' ' := fun he => h.starts (by rw [he, List.head?_cons])
    have htail := nil_not_mem_tail_fields h.ends h.apart
    obtain ⟨f, hf⟩ := fields_cons_of_ne hc t
    rw [hf, List.tail_cons] at htail
    have hparts : parts (· = ' ') (c :: t) = fields (· = ' ') (c :: t) := by
      rw [parts, List.filter_eq_self]
      intro w hw
      rw [Bool.not_eq_true', List.isEmpty_eq_false_iff]
      rintro rfl
      rw [hf] at hw
      rcases List.mem_cons.1 hw with hw | hw
      · cases hw
      · exact htail hw
    rw [hparts, joinWords_fields]

theorem isNormalWord_of_mem_parts (h : IsNormalForm t) {w : Text} (hw : w ∈ parts (· = ' ') t) : IsNormalWord w := by
  obtain ⟨hne, hchars⟩ := mem_parts hw
  refine ⟨hne, fun c hc => ?_⟩
  obtain ⟨hblank, hmem⟩ := hchars c hc
  rcases h.chars c hmem with rfl | hword
  · cases hblank
  · exact hword

end IsNormalForm

/-- The normal forms are the lines of normal words. -/
theorem isNormalForm_iff_joinWords {t : Text} :
    IsNormalForm t ↔ ∃ ws, (∀ w ∈ ws, IsNormalWord w) ∧ t = joinWords ws := by
  constructor
  · intro h
    exact ⟨parts (· = ' ') t, fun w hw => h.isNormalWord_of_mem_parts hw, h.joinWords_parts.symm⟩
  · rintro ⟨ws, hws, rfl⟩
    exact isNormalForm_joinWords hws

/-! ### Normalising -/

theorem isNormalForm_normalise (t : Text) : IsNormalForm (normalise t) :=
  isNormalForm_joinWords fun _ hw => isNormalWord_of_mem hw

theorem IsNormalForm.normalise_eq {t : Text} (h : IsNormalForm t) : normalise t = t := by
  obtain ⟨ws, hws, rfl⟩ := isNormalForm_iff_joinWords.1 h
  exact normalise_joinWords hws

/-- Normalising maps onto the normal forms and leaves exactly them alone: a text is its own normal form if and only if
it is a line of lowercase words, with single blanks between them and none at either end.  A second time it changes
nothing. -/
theorem normalise_onto_normalForms (t : Text) :
    IsNormalForm (normalise t) ∧
    (normalise t = t ↔ IsNormalForm t) ∧
    (IsNormalForm t ↔ ∃ ws, (∀ w ∈ ws, IsNormalWord w) ∧ t = joinWords ws) ∧
    (IsNormalForm t ↔ ∃ u, normalise u = t) ∧
    normalise (normalise t) = normalise t := by
  refine ⟨isNormalForm_normalise t, ⟨fun h => ?_, fun h => h.normalise_eq⟩, isNormalForm_iff_joinWords,
    ⟨fun h => ⟨t, h.normalise_eq⟩, ?_⟩, normalise_normalise t⟩
  · rw [← h]
    exact isNormalForm_normalise t
  · rintro ⟨u, rfl⟩
    exact isNormalForm_normalise u

-- the dot in the lowercase of the first letter is no word character
example : normalise "<b>\u0130x--Foo ".toList = "i x foo".toList ∧ IsNormalForm "i x foo".toList ∧
    ¬ IsNormalForm "foo  bar".toList := by decide +kernel

end KeywordRules
