import KeywordRules.Proofs.Text.Concatenation
import KeywordRules.Proofs.Text.OnePass

/-!
# What documents hold

The tests on a document in terms of its words and its text: a word is looked up in the vocabulary, which has the words and
nothing else (`hasWord_ofText_iff`), a stem is a non-empty prefix of one of the words (`hasStem_iff`), and a phrase is a
non-empty stretch of the normal form (`hasPhrase_iff`).  A phrase may begin and end inside words, but the blanks in it are
blanks of the document, so between them it has whole words (`hasPhrase_aligned`).  Text, words and vocabulary are views of
one document (`views_agree`).
-/

namespace KeywordRules

/-- The search finds exactly the contiguous parts of a text. -/
theorem occursIn_iff {p t : Text} : occursIn p t = true ↔ p <:+: t := by
  induction t with
  | nil => rw [occursIn, List.isEmpty_iff, List.infix_nil]
  | cons c t ih => rw [occursIn, Bool.or_eq_true, List.isPrefixOf_iff_prefix, ih, List.infix_cons_iff]

/-- A document has no words exactly if its normal form is empty. -/
theorem words_ofText_eq_nil_iff {t : Text} : (Document.ofText t).words = [] ↔ normalise t = [] := by
  constructor
  · intro h
    rw [words_ofText] at h
    rw [normalise, h]
    rfl
  · intro h
    have hparts : (Document.ofText t).words = parts (· = ' ') (normalise t) := rfl
    rw [hparts, h]
    rfl

namespace Document

variable {d : Document} {v : Text}

theorem hasStem_iff : d.hasStem v = true ↔ v ≠ [] ∧ ∃ w ∈ d.words, v <+: w := by
  simp [hasStem]

theorem hasPhrase_iff : d.hasPhrase v = true ↔ v ≠ [] ∧ v <:+: d.text := by
  rw [hasPhrase, Bool.and_eq_true, occursIn_iff]
  simp

end Document

/-! ### Phrases and words -/

/-- A word as texts hold them, in lowercase or not. -/
def IsWord (w : Text) : Prop := w ≠ [] ∧ ∀ c ∈ w, isWordChar c = true

-- the characters of the word are checked, not all characters there are
instance (w : Text) : Decidable (IsWord w) := @instDecidableAnd _ _ inferInstance (List.decidableBAll _ w)

theorem IsWord.blank_not_mem {w : Text} (h : IsWord w) : ' ' ∉ w := by
  intro hmem
  exact absurd (h.2 _ hmem) (by decide)

section

variable {us : List Text} (hus : ∀ u ∈ us, ' ' ∉ u)

private theorem not_blank_of_not_mem {w : Text} (hw : ' ' ∉ w) : ∀ c ∈ w, decide (c = ' ') = false := by
  intro c hc
  refine decide_eq_false ?_
  rintro rfl
  exact hw hc

private theorem ne_nil_of_infix_joinWords {x : Text} (hx : x ≠ []) (h : x <:+: joinWords us) : us ≠ [] := by
  rintro rfl
  exact hx (List.infix_nil.1 h)

include hus

private theorem fields_line (hne : us ≠ []) : fields (· = ' ') (joinWords us) = us :=
  fields_joinWords (by decide) hne fun u hu => not_blank_of_not_mem (hus u hu)

/-- A text without blanks stands in a line inside one of its words. -/
theorem infix_joinWords_iff {w : Text} (hne : w ≠ []) (hw : ' ' ∉ w) :
    w <:+: joinWords us ↔ ∃ u ∈ us, w <:+: u := by
  constructor
  · intro h
    have hsome := ne_nil_of_infix_joinWords hne h
    obtain ⟨s, t, hst⟩ := h
    obtain ⟨fs, f, hf⟩ := exists_fields_eq_concat (· = ' ') s
    obtain ⟨g, gs, hg⟩ := List.exists_cons_of_ne_nil (fields_ne_nil (· = ' ') t)
    have hword : fields (· = ' ') w = [w] := fields_eq_singleton (not_blank_of_not_mem hw)
    have hfields : fields (· = ' ') (s ++ w ++ t) = fs ++ (f ++ w ++ g) :: gs :=
      fields_append_of_eq (fields_append_of_eq hf hword) hg
    rw [hst, fields_line hus hsome] at hfields
    refine ⟨f ++ w ++ g, ?_, f, g, rfl⟩
    rw [hfields]
    exact List.mem_append_right _ List.mem_cons_self
  · rintro ⟨u, hu, hinfix⟩
    obtain ⟨vs, xs, rfl⟩ := List.append_of_mem hu
    have hline : joinWords [u] <:+: joinWords (vs ++ u :: xs) := joinWords_isInfix ⟨vs, xs, by simp⟩
    rw [joinWords_singleton] at hline
    exact hinfix.trans hline

/-- A line of several words stands in another one where the words between its first and its last do, behind a word that
ends with the first and before one that begins with the last. -/
theorem joinWords_infix_joinWords_iff {w v : Text} {ms : List Text} (hne : w ≠ [])
    (hws : ∀ x ∈ w :: (ms ++ [v]), ' ' ∉ x) :
    joinWords (w :: (ms ++ [v])) <:+: joinWords us ↔
      ∃ u u', u :: (ms ++ [u']) <:+: us ∧ w <:+ u ∧ v <+: u' := by
  constructor
  · intro h
    have hsome := ne_nil_of_infix_joinWords (joinWords_ne_nil hne _) h
    obtain ⟨s, t, hst⟩ := h
    obtain ⟨fs, f, hf⟩ := exists_fields_eq_concat (· = ' ') s
    obtain ⟨g, gs, hg⟩ := List.exists_cons_of_ne_nil (fields_ne_nil (· = ' ') t)
    have hline : fields (· = ' ') (joinWords (w :: (ms ++ [v]))) = w :: (ms ++ [v]) :=
      fields_line hws (List.cons_ne_nil _ _)
    -- the first word ends the field before it, and the last one begins the field behind it
    have hfront : fields (· = ' ') (s ++ joinWords (w :: (ms ++ [v]))) = (fs ++ (f ++ w) :: ms) ++ [v] := by
      rw [fields_append_of_eq hf hline, List.append_assoc, List.cons_append]
    have hfields := fields_append_of_eq hfront hg
    rw [hst, fields_line hus hsome] at hfields
    refine ⟨f ++ w, v ++ g, ⟨fs, gs, ?_⟩, List.suffix_append f w, List.prefix_append v g⟩
    rw [hfields]
    simp
  · rintro ⟨u, u', hinfix, ⟨s, rfl⟩, ⟨t, rfl⟩⟩
    have hline : joinWords ((s ++ w) :: (ms ++ [v ++ t])) = s ++ joinWords (w :: (ms ++ [v])) ++ t := by
      rw [joinWords_append_cons, ← List.cons_append, joinWords_concat_append, List.append_assoc, List.cons_append]
    refine List.IsInfix.trans ⟨s, t, ?_⟩ (joinWords_isInfix hinfix)
    rw [hline]

end

namespace Document

theorem text_ofText (t : Text) : (ofText t).text = joinWords (ofText t).words := by
  rw [words_ofText]
  rfl

theorem ofText_fold (t : Text) : ofText (fold t) = ofText t := by
  rw [ofText, normalise_fold, ofText]

theorem ofText_normalise (t : Text) : ofText (normalise t) = ofText t := by
  rw [ofText, normalise_normalise, ofText]

theorem isNormalWord_of_mem_words {t w : Text} (h : w ∈ (ofText t).words) : IsNormalWord w := by
  rw [words_ofText] at h
  exact isNormalWord_of_mem h

theorem blank_not_mem_words (t : Text) : ∀ w ∈ (ofText t).words, ' ' ∉ w := by
  intro w hw
  exact (isNormalWord_of_mem_words hw).not_mem (by decide)

theorem hasStem_of_hasWord {t w : Text} (h : (ofText t).hasWord w = true) : (ofText t).hasStem w = true := by
  rw [hasWord_ofText_iff] at h
  exact hasStem_iff.2 ⟨(isNormalWord_of_mem_words h).1, w, h, List.prefix_rfl⟩

theorem hasPhrase_of_hasStem {t v : Text} (h : (ofText t).hasStem v = true) : (ofText t).hasPhrase v = true := by
  obtain ⟨hne, w, hw, hstart⟩ := hasStem_iff.1 h
  have hblank : ' ' ∉ v := fun hmem => blank_not_mem_words t w hw (hstart.subset hmem)
  rw [hasPhrase_iff, text_ofText, infix_joinWords_iff (blank_not_mem_words t) hne hblank]
  exact ⟨hne, w, hw, hstart.isInfix⟩

/-- Phrases are aligned with words.  A document holds a phrase of one word exactly if it stands inside one of the document's
words, and a phrase of several words exactly if there are as many consecutive words in the document of which the first ends
with the first one, the last begins with the last one, and those between are the same.  Whole words are stems, and stems are
phrases. -/
theorem hasPhrase_aligned (t : Text) :
    (∀ w, IsWord w → ((ofText t).hasPhrase (joinWords [w]) = true ↔ ∃ u ∈ (ofText t).words, w <:+: u)) ∧
    (∀ w ms v, (∀ x ∈ w :: (ms ++ [v]), IsWord x) →
      ((ofText t).hasPhrase (joinWords (w :: (ms ++ [v]))) = true ↔
        ∃ u u', u :: (ms ++ [u']) <:+: (ofText t).words ∧ w <:+ u ∧ v <+: u')) ∧
    ∀ w, ((ofText t).hasWord w = true → (ofText t).hasStem w = true) ∧
      ((ofText t).hasStem w = true → (ofText t).hasPhrase w = true) := by
  refine ⟨fun w hw => ?_, fun w ms v hws => ?_, fun w => ⟨hasStem_of_hasWord, hasPhrase_of_hasStem⟩⟩
  · rw [joinWords_singleton, hasPhrase_iff, text_ofText,
      infix_joinWords_iff (blank_not_mem_words t) hw.1 hw.blank_not_mem]
    exact and_iff_right hw.1
  · have hne : w ≠ [] := (hws w List.mem_cons_self).1
    have hblanks : ∀ x ∈ w :: (ms ++ [v]), ' ' ∉ x := fun x hx => (hws x hx).blank_not_mem
    rw [hasPhrase_iff, text_ofText, joinWords_infix_joinWords_iff (blank_not_mem_words t) hne hblanks]
    exact and_iff_right (joinWords_ne_nil hne _)

/-- A document whose words are kept apart by markup and a hyphen. -/
def wallStreet : Text := "The <b>WALL</b>-Street walker".toList

theorem hasPhrase_aligned_wallStreet :
    (IsWord "alk".toList ∧ ∀ x ∈ "all".toList :: (["street".toList] ++ ["walk".toList]), IsWord x) ∧
    (ofText wallStreet).hasPhrase (joinWords ["alk".toList]) = true ∧
    (ofText wallStreet).hasPhrase (joinWords ["all".toList, "street".toList, "walk".toList]) = true ∧
    (ofText wallStreet).hasStem "wall".toList = true ∧ (ofText wallStreet).hasPhrase "wall".toList = true := by
  have hone : IsWord "alk".toList := by decide
  have hmany : ∀ x ∈ "all".toList :: (["street".toList] ++ ["walk".toList]), IsWord x := by decide
  have hwords : (ofText wallStreet).words = ["the".toList, "wall".toList, "street".toList, "walker".toList] := by
    decide +kernel
  have hword : (ofText wallStreet).hasWord "wall".toList = true := by
    rw [hasWord_ofText_iff, hwords]
    decide
  obtain ⟨hsingle, hseveral, hsteps⟩ := hasPhrase_aligned wallStreet
  have hstem := (hsteps _).1 hword
  refine ⟨⟨hone, hmany⟩, (hsingle _ hone).2 ?_, (hseveral _ _ _ hmany).2 ?_, hstem, (hsteps _).2 hstem⟩
  · rw [hwords]
    exact ⟨"walker".toList, by decide⟩
  · rw [hwords]
    exact ⟨"wall".toList, "walker".toList, by decide⟩

/-! ### The views of a document -/

/-- The views of a document agree.  Its text, which one pass over the folded characters writes, is its words on one line,
each of them a word and none empty; it has no words exactly if the text is empty; and what the vocabulary is asked for is
found exactly if it is one of the words, whether it is in normal form or not. -/
theorem views_agree (t : Text) :
    (ofText t).text = ((fold (stripMarkup t)).foldl writeChar ([], false)).1 ∧
    joinWords (ofText t).words = (ofText t).text ∧
    (∀ w ∈ (ofText t).words, w ≠ [] ∧ ∀ c ∈ w, isWordChar c = true) ∧
    ((ofText t).isEmpty = true ↔ (ofText t).text = []) ∧
    ∀ w, (ofText t).hasWord w = true ↔ w ∈ (ofText t).words := by
  refine ⟨normalise_eq_foldl t, (text_ofText t).symm, fun w hw => ?_, ?_, fun w => hasWord_ofText_iff⟩
  · have hword : IsNormalWord w := isNormalWord_of_mem_words hw
    exact ⟨hword.1, fun c hc => (hword.2 c hc).1⟩
  · rw [isEmpty, List.isEmpty_iff]
    exact words_ofText_eq_nil_iff

/-- A document that repeats a word and has an open markup span. -/
def repeated : Text := "<i></i>Nail, NAIL; the nail--system <br".toList

theorem views_agree_repeated :
    "nail".toList ∈ (ofText repeated).words ∧ ("nail".toList ≠ [] ∧ ∀ c ∈ "nail".toList, isWordChar c = true) ∧
    (ofText repeated).hasWord "nail".toList = true ∧ (ofText repeated).hasWord "Nail".toList = false := by
  have hwords : (ofText repeated).words =
      ["nail".toList, "nail".toList, "the".toList, "nail".toList, "system".toList, "br".toList] := by
    decide +kernel
  have hmem : "nail".toList ∈ (ofText repeated).words := by
    rw [hwords]
    decide
  have hnot : "Nail".toList ∉ (ofText repeated).words := by
    rw [hwords]
    decide
  obtain ⟨-, -, hword, -, hhas⟩ := views_agree repeated
  exact ⟨hmem, hword _ hmem, (hhas _).2 hmem, Bool.eq_false_iff.2 fun h => hnot ((hhas _).1 h)⟩

end Document

end KeywordRules
