import KeywordRules.Text.Words

/-!
# The words of a text

A text is cut into words at the characters that belong to none, blanks and punctuation among them
(`words_append_break`, `isWordChar_of_isBlank`).  What has no such character is one word, and words on one line are
read back as they were (`words_joinWords`).  Where two texts meet without a separator, a field of the one and a field of the
other become one (`fields_append_of_eq`).
-/

namespace KeywordRules

/-! ### Parts between separators -/

section Parts

variable {sep : Char → Bool} {c : Char} {t u w : Text}

theorem parts_cons_sep (hc : sep c = true) (t : Text) : parts sep (c :: t) = parts sep t :=
  parts_append_sep hc [] t

/-- What holds no separator belongs to the first field of what follows. -/
theorem fields_append (h : ∀ a ∈ w, sep a = false) (t : Text) :
    fields sep (w ++ t) = (fields sep t).modifyHead (w ++ ·) := by
  induction w with
  | nil =>
    rw [List.nil_append]
    rcases fields sep t with _ | ⟨f, fs⟩ <;> rfl
  | cons a w ih =>
    have ha : sep a = false := h a List.mem_cons_self
    rw [List.cons_append, fields, ha, ih fun b hb => h b (List.mem_cons_of_mem _ hb)]
    rcases fields sep t with _ | ⟨f, fs⟩ <;> rfl

theorem fields_eq_singleton (h : ∀ a ∈ w, sep a = false) : fields sep w = [w] := by
  have hfields := fields_append h []
  rwa [List.append_nil, fields, List.modifyHead_cons, List.append_nil] at hfields

theorem parts_eq_singleton (hw : w ≠ []) (h : ∀ a ∈ w, sep a = false) : parts sep w = [w] := by
  rw [parts, fields_eq_singleton h]
  simp [hw]

/-- Where two texts meet, the last field of the one and the first field of the other become one field. -/
theorem fields_append_of_eq {fs gs : List Text} {f g : Text} (ht : fields sep t = fs ++ [f]) (hu : fields sep u = g :: gs) :
    fields sep (t ++ u) = fs ++ (f ++ g) :: gs := by
  induction t generalizing fs f with
  | nil =>
    rcases fs with _ | ⟨e, fs⟩
    · rw [fields, List.nil_append, List.singleton_inj] at ht
      rw [← ht, List.nil_append, hu, List.nil_append, List.nil_append]
    · simp [fields] at ht
  | cons a t ih =>
    rw [fields] at ht
    rw [List.cons_append, fields]
    by_cases ha : sep a = true
    · rw [if_pos ha] at ht ⊢
      rcases fs with _ | ⟨e, fs⟩
      · rw [List.nil_append, List.cons.injEq] at ht
        exact absurd ht.2 (fields_ne_nil sep t)
      · rw [List.cons_append, List.cons.injEq] at ht
        rw [ih ht.2, ← ht.1, List.cons_append]
    · rw [if_neg ha] at ht ⊢
      -- the character stands in front of the first field, which may be the last one as well
      obtain ⟨e, es, he⟩ := List.exists_cons_of_ne_nil (fields_ne_nil sep t)
      rw [he, List.modifyHead_cons] at ht
      rcases fs with _ | ⟨d, fs⟩
      · rw [List.nil_append, List.cons.injEq] at ht
        obtain ⟨rfl, rfl⟩ := ht
        have hrest : fields sep (t ++ u) = [] ++ (e ++ g) :: gs := ih he
        rw [hrest, List.nil_append, List.modifyHead_cons, List.nil_append, List.cons_append]
      · rw [List.cons_append, List.cons.injEq] at ht
        obtain ⟨rfl, rfl⟩ := ht
        have hrest : fields sep (t ++ u) = (e :: fs) ++ (f ++ g) :: gs := ih he
        rw [hrest, List.cons_append, List.modifyHead_cons, List.cons_append]

theorem exists_fields_eq_concat (sep : Char → Bool) (t : Text) : ∃ fs f, fields sep t = fs ++ [f] :=
  ⟨_, _, (List.dropLast_concat_getLast (fields_ne_nil sep t)).symm⟩

private theorem mem_fields (h : w ∈ fields sep t) : ∀ a ∈ w, sep a = false ∧ a ∈ t := by
  induction t generalizing w with
  | nil =>
    rw [fields, List.mem_singleton] at h
    simp [h]
  | cons a t ih =>
    unfold fields at h
    split at h
    · rcases List.mem_cons.1 h with rfl | h
      · simp
      · intro b hb
        exact ⟨(ih h b hb).1, List.mem_cons_of_mem _ (ih h b hb).2⟩
    · next ha =>
      -- the first field of the rest begins one character earlier
      obtain ⟨f, fs, hf⟩ := List.exists_cons_of_ne_nil (fields_ne_nil sep t)
      rw [hf, List.modifyHead_cons] at h
      rw [hf] at ih
      rcases List.mem_cons.1 h with rfl | h
      · intro b hb
        rcases List.mem_cons.1 hb with rfl | hb
        · exact ⟨Bool.eq_false_iff.2 ha, List.mem_cons_self⟩
        · have hin := ih List.mem_cons_self b hb
          exact ⟨hin.1, List.mem_cons_of_mem _ hin.2⟩
      · intro b hb
        have hin := ih (List.mem_cons_of_mem _ h) b hb
        exact ⟨hin.1, List.mem_cons_of_mem _ hin.2⟩

/-- A part is not empty, and its characters are characters of the text that separate nothing. -/
theorem mem_parts (h : w ∈ parts sep t) : w ≠ [] ∧ ∀ a ∈ w, sep a = false ∧ a ∈ t := by
  obtain ⟨hw, hne⟩ := List.mem_filter.1 h
  exact ⟨by simpa using hne, mem_fields hw⟩

theorem intercalate_cons (c : Char) (w : Text) (ws : List Text) :
    [c].intercalate (w :: ws) = w ++ ws.flatMap fun v => c :: v := by
  induction ws generalizing w with
  | nil => rw [List.intercalate_singleton, List.flatMap_nil, List.append_nil]
  | cons v ws ih =>
    rw [List.intercalate_cons_cons, ih v, List.flatMap_cons, List.append_assoc]
    rfl

theorem joinWords_singleton (w : Text) : joinWords [w] = w := List.intercalate_singleton

theorem joinWords_cons_cons (w v : Text) (ws : List Text) :
    joinWords (w :: v :: ws) = w ++ ' ' :: joinWords (v :: ws) := by
  rw [joinWords, List.intercalate_cons_cons, List.append_assoc, List.singleton_append, joinWords]

theorem joinWords_ne_nil {w : Text} (hw : w ≠ []) (ws : List Text) : joinWords (w :: ws) ≠ [] := by
  rcases ws with _ | ⟨v, ws⟩
  · rwa [joinWords_singleton]
  · rw [joinWords_cons_cons]
    exact List.append_ne_nil_of_left_ne_nil hw _

/-- What has no separator is a field of a line again, if a blank separates the fields. -/
theorem fields_joinWords {ws : List Text} (hblank : sep ' ' = true) (hne : ws ≠ [])
    (h : ∀ w ∈ ws, ∀ a ∈ w, sep a = false) : fields sep (joinWords ws) = ws := by
  induction ws with
  | nil => exact absurd rfl hne
  | cons w ws ih =>
    have hw := fields_eq_singleton (h w List.mem_cons_self)
    rcases ws with _ | ⟨v, ws⟩
    · rw [joinWords_singleton, hw]
    · rw [joinWords_cons_cons, fields_append_sep hblank, hw,
        ih (List.cons_ne_nil v ws) fun x hx => h x (List.mem_cons_of_mem _ hx), List.singleton_append]

/-- Parts on one line are read back, if a blank separates them. -/
theorem parts_joinWords {ws : List Text} (hblank : sep ' ' = true)
    (h : ∀ w ∈ ws, w ≠ [] ∧ ∀ a ∈ w, sep a = false) : parts sep (joinWords ws) = ws := by
  by_cases hne : ws = []
  · rw [hne]
    rfl
  · rw [parts, fields_joinWords hblank hne fun w hw => (h w hw).2, List.filter_eq_self]
    intro w hw
    rw [Bool.not_eq_true', List.isEmpty_eq_false_iff]
    exact (h w hw).1

/-- The characters of a line are those of its words, and blanks between them. -/
theorem mem_joinWords {ws : List Text} (h : c ∈ joinWords ws) : c = ' ' ∨ ∃ w ∈ ws, c ∈ w := by
  induction ws with
  | nil => cases h
  | cons w ws ih =>
    rcases ws with _ | ⟨v, ws⟩
    · rw [joinWords_singleton] at h
      exact .inr ⟨w, List.mem_cons_self, h⟩
    · rw [joinWords_cons_cons, List.mem_append, List.mem_cons] at h
      rcases h with h | h | h
      · exact .inr ⟨w, List.mem_cons_self, h⟩
      · exact .inl h
      · rcases ih h with h | ⟨x, hx, hc⟩
        · exact .inl h
        · exact .inr ⟨x, List.mem_cons_of_mem _ hx, hc⟩

end Parts

/-! ### Words -/

private theorem isWordChar_of_ascii_blank :
    ∀ n < 128, isBlank (Char.ofNat n) = true → isWordChar (Char.ofNat n) = false := by
  decide

private theorem blankRanges_apart :
    (blankRanges.all fun b => wordRanges.all fun w => b.2.blt w.1 || w.2.blt b.1) = true := by
  decide +kernel

/-- Blanks belong to no word. -/
theorem isWordChar_of_isBlank {c : Char} (h : isBlank c = true) : isWordChar c = false := by
  by_cases hascii : c.toNat < 128
  · have hchar := isWordChar_of_ascii_blank c.toNat hascii
    rw [Char.ofNat_toNat] at hchar
    exact hchar h
  · rw [isWordChar, if_neg hascii, Bool.eq_false_iff]
    intro hword
    obtain ⟨b, hb, hb₁, hb₂⟩ := inRanges_iff.1 h
    obtain ⟨w, hw, hw₁, hw₂⟩ := inRanges_iff.1 hword
    have hapart := List.all_eq_true.1 (List.all_eq_true.1 blankRanges_apart b hb) w hw
    simp only [Bool.or_eq_true, Nat.blt_eq] at hapart
    omega

theorem words_append_break {c : Char} (hc : isWordChar c = false) (t u : Text) :
    words (t ++ c :: u) = words t ++ words u :=
  parts_append_sep (by simp [hc]) t u

theorem words_cons_break {c : Char} (hc : isWordChar c = false) (t : Text) : words (c :: t) = words t :=
  parts_cons_sep (by simp [hc]) t

theorem words_eq_singleton {w : Text} (hw : w ≠ []) (h : ∀ c ∈ w, isWordChar c = true) : words w = [w] :=
  parts_eq_singleton hw fun c hc => by simp [h c hc]

/-- A word is not empty, and its characters are word characters of the text. -/
theorem mem_words {w t : Text} (h : w ∈ words t) : w ≠ [] ∧ ∀ c ∈ w, isWordChar c = true ∧ c ∈ t := by
  obtain ⟨hw, hchars⟩ := mem_parts h
  exact ⟨hw, fun c hc => ⟨by simpa using (hchars c hc).1, (hchars c hc).2⟩⟩

theorem words_joinWords {ws : List Text} (h : ∀ w ∈ ws, w ≠ [] ∧ ∀ c ∈ w, isWordChar c = true) :
    words (joinWords ws) = ws :=
  parts_joinWords (by decide) fun w hw => ⟨(h w hw).1, fun c hc => by simp [(h w hw).2 c hc]⟩

end KeywordRules
