import KeywordRules.Proofs.Query.Lexing
import KeywordRules.Proofs.Text.Words
import Mathlib.Data.List.Basic

/-!
# Words and marks in a query

A query outside quotes is cut into pieces first and into words then, but the pieces only end where words end: the
marked words of the pieces are those of the whole text (`flatMap_markedWords_pieces`).  Without their marks they are the
words that documents are read by (`map_fst_markedWords`), each where it stands in the text and marked if `*` comes next
(`getElem?_markedWords_iff`).
-/

namespace KeywordRules

/-! ### Characters of runs -/

/-- A run ends at no word character and at no mark. -/
theorem isWordChar_of_not_isRunChar {c : Char} (h : isRunChar c = false) : isWordChar c = false ∧ c ≠ '*' := by
  rcases isRunChar_eq_false_iff.1 h with h | rfl | rfl | rfl
  · refine ⟨isWordChar_of_isBlank h, ?_⟩
    rintro rfl
    exact absurd h (by decide)
  · decide
  · decide
  · decide

theorem isRunChar_of_isWordChar {c : Char} (h : isWordChar c = true) : isRunChar c = true := by
  by_contra hn
  rw [(isWordChar_of_not_isRunChar (Bool.eq_false_iff.2 hn)).1] at h
  cases h

/-! ### Marked words -/

theorem markedWords_nil : markedWords [] = [] := by rw [markedWords]

theorem markedWords_cons_break {c : Char} (h : isWordChar c = false) (t : Text) :
    markedWords (c :: t) = markedWords t := by
  rw [markedWords, if_neg (by simp [h])]

/-- A break that is no mark takes part in no marked word. -/
theorem markedWords_append_break {c : Char} (h : isWordChar c = false) (hmark : c ≠ '*') (t u : Text) :
    markedWords (t ++ c :: u) = markedWords t ++ markedWords u := by
  fun_induction markedWords t with
  | case1 => exact markedWords_cons_break h u
  | case2 a t ha ih =>
    rw [List.cons_append, markedWords, if_pos ha, takeWhile_append_stop h, dropWhile_append_stop h, ih]
    -- the word before the break is followed by what it was followed by, or by the break
    rcases t.dropWhile isWordChar with _ | ⟨b, v⟩
    · simp [hmark]
    · rfl
  | case3 a t ha ih => rw [List.cons_append, markedWords_cons_break (Bool.eq_false_iff.2 ha), ih]

/-- A word before a break is marked if the break is a mark. -/
theorem markedWords_append_of_word {w : Text} (hw : w ≠ []) (hall : ∀ c ∈ w, isWordChar c = true) {u : Text}
    (hu : ∀ c ∈ u.head?, isWordChar c = false) :
    markedWords (w ++ u) = (w, decide (u.head? = some '*')) :: markedWords u := by
  obtain ⟨c, w, rfl⟩ := List.exists_cons_of_ne_nil hw
  have hrest : ∀ a ∈ w, isWordChar a = true := fun a ha => hall a (List.mem_cons_of_mem _ ha)
  have hstop : u.takeWhile isWordChar = [] ∧ u.dropWhile isWordChar = u := by
    rcases u with _ | ⟨a, u⟩
    · exact ⟨rfl, rfl⟩
    · have ha : isWordChar a = false := hu a rfl
      simp [ha]
  rw [List.cons_append, markedWords, if_pos (hall c List.mem_cons_self), List.takeWhile_append_of_pos hrest,
    List.dropWhile_append_of_pos hrest, hstop.1, hstop.2, List.append_nil]

theorem words_cons_of_isWordChar {c : Char} (h : isWordChar c = true) (t : Text) :
    words (c :: t) = (c :: t.takeWhile isWordChar) :: words (t.dropWhile isWordChar) := by
  have hword : words (c :: t.takeWhile isWordChar) = [c :: t.takeWhile isWordChar] := by
    refine words_eq_singleton (by simp) fun a ha => ?_
    rcases List.mem_cons.1 ha with rfl | ha
    · exact h
    · exact List.all_eq_true.1 List.all_takeWhile a ha
  have hsplit : c :: t = c :: t.takeWhile isWordChar ++ t.dropWhile isWordChar := by
    rw [List.cons_append, List.takeWhile_append_dropWhile]
  rcases hrest : t.dropWhile isWordChar with _ | ⟨b, v⟩
  · rw [hrest, List.append_nil] at hsplit
    rw [hsplit, hword]
    rfl
  · have hb : isWordChar b = false := stop_of_dropWhile hrest
    rw [hsplit, hrest, words_append_break hb, hword, words_cons_break hb, List.singleton_append]

theorem map_fst_markedWords (t : Text) : (markedWords t).map Prod.fst = words t := by
  fun_induction markedWords t with
  | case1 => rfl
  | case2 c t hc ih => rw [List.map_cons, ih, words_cons_of_isWordChar hc]
  | case3 c t hc ih => rw [ih, words_cons_break (Bool.eq_false_iff.2 hc)]

theorem mark_eq_false {t : Text} (h : '*' ∉ t) {w : Text × Bool} (hw : w ∈ markedWords t) : w.2 = false := by
  fun_induction markedWords t with
  | case1 => cases hw
  | case2 c t hc ih =>
    have hrest : '*' ∉ t.dropWhile isWordChar := fun hmem =>
      h (List.mem_cons_of_mem _ ((List.dropWhile_suffix _).subset hmem))
    rcases List.mem_cons.1 hw with rfl | hw
    · rw [decide_eq_false_iff_not]
      intro hhead
      exact hrest (List.mem_of_mem_head? hhead)
    · exact ih hrest hw
  | case3 c t hc ih => exact ih (List.not_mem_of_not_mem_cons h) hw

/-! ### Where words stand -/

/-- The text `t` holds the word `w` whole, with `u` before it and `v` after it. -/
structure IsWordBetween (t u w v : Text) : Prop where
  eq_append : t = u ++ (w ++ v)
  ne_nil : w ≠ []
  chars : ∀ c ∈ w, isWordChar c = true
  starts : ∀ c ∈ u.getLast?, isWordChar c = false
  ends : ∀ c ∈ v.head?, isWordChar c = false

instance {t u w v : Text} : Decidable (IsWordBetween t u w v) :=
  have : Decidable (∀ c ∈ w, isWordChar c = true) := List.decidableBAll _ w
  have : Decidable (∀ c ∈ u.getLast?, isWordChar c = false) := Option.decidableForallMem _
  have : Decidable (∀ c ∈ v.head?, isWordChar c = false) := Option.decidableForallMem _
  decidable_of_iff (t = u ++ (w ++ v) ∧ w ≠ [] ∧ (∀ c ∈ w, isWordChar c = true) ∧
      (∀ c ∈ u.getLast?, isWordChar c = false) ∧ ∀ c ∈ v.head?, isWordChar c = false)
    ⟨fun ⟨ht, hne, hw, hu, hv⟩ => ⟨ht, hne, hw, hu, hv⟩, fun h => ⟨h.eq_append, h.ne_nil, h.chars, h.starts, h.ends⟩⟩

/-- Behind a break the marked words begin anew, whether the break is a mark or not. -/
theorem markedWords_append_cons {c : Char} (h : isWordChar c = false) (t u : Text) :
    markedWords (t ++ c :: u) = markedWords (t ++ [c]) ++ markedWords u := by
  fun_induction markedWords t with
  | case1 => rw [List.nil_append, List.nil_append, markedWords_cons_break h, markedWords_cons_break h, markedWords_nil,
      List.nil_append]
  | case2 a t ha ih =>
    rw [List.cons_append, List.cons_append, markedWords, if_pos ha, markedWords, if_pos ha, takeWhile_append_stop h,
      takeWhile_append_stop h, dropWhile_append_stop h, dropWhile_append_stop h, ih]
    rcases t.dropWhile isWordChar with _ | ⟨b, v⟩
    · rfl
    · rfl
  | case3 a t ha ih =>
    have ha : isWordChar a = false := Bool.eq_false_iff.2 ha
    rw [List.cons_append, List.cons_append, markedWords_cons_break ha, markedWords_cons_break ha, ih]

theorem markedWords_append {u : Text} (hu : ∀ c ∈ u.getLast?, isWordChar c = false) (x : Text) :
    markedWords (u ++ x) = markedWords u ++ markedWords x := by
  rcases List.eq_nil_or_concat' u with rfl | ⟨t, c, rfl⟩
  · rw [markedWords_nil, List.nil_append, List.nil_append]
  · have hc : isWordChar c = false := hu c List.getLast?_concat
    rw [List.append_assoc, List.singleton_append, markedWords_append_cons hc]

theorem length_markedWords (t : Text) : (markedWords t).length = (words t).length := by
  rw [← map_fst_markedWords, List.length_map]

/-- A word of the text is the marked word after as many as there are words before it. -/
theorem IsWordBetween.getElem?_markedWords {t u w v : Text} (h : IsWordBetween t u w v) :
    (markedWords t)[(words u).length]? = some (w, decide (v.head? = some '*')) := by
  rw [h.eq_append, markedWords_append h.starts, markedWords_append_of_word h.ne_nil h.chars h.ends, ← length_markedWords,
    List.getElem?_append_right (Nat.le_refl _), Nat.sub_self, List.getElem?_cons_zero]

/-- Every marked word stands somewhere in the text. -/
theorem exists_isWordBetween {t : Text} {i : Nat} {p : Text × Bool} (h : (markedWords t)[i]? = some p) :
    ∃ u v, IsWordBetween t u p.1 v ∧ (words u).length = i := by
  fun_induction markedWords t generalizing i with
  | case1 => cases h
  | case2 c t hc ih =>
    have hall : ∀ a ∈ c :: t.takeWhile isWordChar, isWordChar a = true := by
      intro a ha
      rcases List.mem_cons.1 ha with rfl | ha
      · exact hc
      · exact List.all_eq_true.1 List.all_takeWhile a ha
    have hsplit : c :: t = (c :: t.takeWhile isWordChar) ++ t.dropWhile isWordChar := by
      rw [List.cons_append, List.takeWhile_append_dropWhile]
    have hstop : ∀ a ∈ (t.dropWhile isWordChar).head?, isWordChar a = false := by
      intro a ha
      obtain ⟨r, hr⟩ := List.head?_eq_some_iff.1 ha
      exact stop_of_dropWhile hr
    rcases i with _ | i
    · cases h
      exact ⟨[], _, ⟨by rw [List.nil_append]; exact hsplit, by simp, hall, by simp, hstop⟩, rfl⟩
    · obtain ⟨u, v, hbetween, hlength⟩ := ih h
      -- the rest begins with a break, so there is something before the word
      have hu : u ≠ [] := by
        rintro rfl
        obtain ⟨a, w, hw⟩ := List.exists_cons_of_ne_nil hbetween.ne_nil
        have hrest := hbetween.eq_append
        rw [hw, List.nil_append, List.cons_append] at hrest
        have hbreak := stop_of_dropWhile hrest
        rw [hbetween.chars a (hw ▸ List.mem_cons_self)] at hbreak
        cases hbreak
      have hhead : ∀ a ∈ u.head?, isWordChar a = false := by
        intro a ha
        refine hstop a ?_
        rw [hbetween.eq_append, List.head?_append_of_ne_nil _ hu]
        exact ha
      refine ⟨(c :: t.takeWhile isWordChar) ++ u, v, ⟨?_, hbetween.ne_nil, hbetween.chars, ?_, hbetween.ends⟩, ?_⟩
      · rw [List.append_assoc, ← hbetween.eq_append]
        exact hsplit
      · rw [List.getLast?_append, List.getLast?_eq_some_getLast hu, Option.some_or,
          ← List.getLast?_eq_some_getLast hu]
        exact hbetween.starts
      · rw [← length_markedWords, markedWords_append_of_word (by simp) hall hhead, List.length_cons, length_markedWords,
          hlength]
  | case3 c t hc ih =>
    obtain ⟨u, v, hbetween, hlength⟩ := ih h
    have hc : isWordChar c = false := Bool.eq_false_iff.2 hc
    refine ⟨c :: u, v, ⟨?_, hbetween.ne_nil, hbetween.chars, ?_, hbetween.ends⟩, ?_⟩
    · rw [hbetween.eq_append, List.cons_append]
    · rcases u with _ | ⟨a, u⟩
      · simpa using hc
      · rw [List.getLast?_cons_cons]
        exact hbetween.starts
    · rw [words_cons_break hc, hlength]

/-- The marked words of a text are its words where they stand, marked if `*` comes next. -/
theorem getElem?_markedWords_iff {t w : Text} {i : Nat} {m : Bool} :
    (markedWords t)[i]? = some (w, m) ↔
      ∃ u v, IsWordBetween t u w v ∧ (words u).length = i ∧ (m = true ↔ v.head? = some '*') := by
  constructor
  · intro h
    obtain ⟨u, v, hbetween, hlength⟩ := exists_isWordBetween h
    have hget := hbetween.getElem?_markedWords
    rw [hlength, h, Option.some.injEq, Prod.mk.injEq] at hget
    exact ⟨u, v, hbetween, hlength, by rw [hget.2, decide_eq_true_iff]⟩
  · rintro ⟨u, v, hbetween, rfl, hm⟩
    have hmark : m = decide (v.head? = some '*') := by
      rw [Bool.eq_iff_iff, hm, decide_eq_true_iff]
    rw [hbetween.getElem?_markedWords, hmark]

/-! ### Pieces -/

def Piece.markedWords : Piece → List (Text × Bool)
  | .run chars => KeywordRules.markedWords chars
  | _ => []

/-- Outside quotes the pieces have the marked words of the text. -/
theorem flatMap_markedWords_pieces {t : Text} (h : '"' ∉ t) :
    (pieces t).flatMap Piece.markedWords = markedWords t := by
  fun_induction pieces t with
  | case1 => rw [markedWords_nil]; rfl
  | case2 t ih =>
    rw [List.flatMap_cons, ih (List.not_mem_of_not_mem_cons h), markedWords_cons_break (by decide)]
    rfl
  | case3 t h₁ ih =>
    rw [List.flatMap_cons, ih (List.not_mem_of_not_mem_cons h), markedWords_cons_break (by decide)]
    rfl
  | case4 t h₁ h₂ ih => exact absurd List.mem_cons_self h
  | case5 c t h₁ h₂ h₃ h₄ ih =>
    rw [ih (List.not_mem_of_not_mem_cons h), markedWords_cons_break (isWordChar_of_isBlank h₄)]
  | case6 c t h₁ h₂ h₃ h₄ ih =>
    have hrest : '"' ∉ t.dropWhile isRunChar := fun hmem =>
      h (List.mem_cons_of_mem _ ((List.dropWhile_suffix _).subset hmem))
    have hsplit : c :: t = c :: t.takeWhile isRunChar ++ t.dropWhile isRunChar := by
      rw [List.cons_append, List.takeWhile_append_dropWhile]
    rw [List.flatMap_cons, ih hrest]
    -- the run ends where the text does, or at a break that is no mark
    conv_rhs => rw [hsplit]
    rcases hdrop : t.dropWhile isRunChar with _ | ⟨b, v⟩
    · rw [markedWords_nil]
      simp [Piece.markedWords]
    · obtain ⟨hbreak, hmark⟩ := isWordChar_of_not_isRunChar (stop_of_dropWhile hdrop)
      rw [markedWords_append_break hbreak hmark, markedWords_cons_break hbreak]
      rfl

/-- The characters a piece is read from, its closing quote left out. -/
def Piece.chars : Piece → Text
  | .opening => ['(']
  | .closing => [')']
  | .quoted body => '"' :: body
  | .run chars => chars

theorem chars_subset_of_mem_pieces {t : Text} {p : Piece} (hp : p ∈ pieces t) : p.chars ⊆ t := by
  fun_induction pieces t with
  | case1 => cases hp
  | case2 t ih =>
    rcases List.mem_cons.1 hp with rfl | hp
    · exact List.cons_subset_cons _ (List.nil_subset t)
    · exact List.subset_cons_of_subset _ (ih hp)
  | case3 t h₁ ih =>
    rcases List.mem_cons.1 hp with rfl | hp
    · exact List.cons_subset_cons _ (List.nil_subset t)
    · exact List.subset_cons_of_subset _ (ih hp)
  | case4 t h₁ h₂ ih =>
    rcases List.mem_cons.1 hp with rfl | hp
    · exact List.cons_subset_cons _ (List.takeWhile_prefix _).subset
    · have hrest : (t.dropWhile (· ≠ '"')).drop 1 ⊆ t := fun _ ha =>
        (List.dropWhile_suffix _).subset ((List.drop_suffix 1 _).subset ha)
      exact List.subset_cons_of_subset _ (List.Subset.trans (ih hp) hrest)
  | case5 c t h₁ h₂ h₃ h₄ ih => exact List.subset_cons_of_subset _ (ih hp)
  | case6 c t h₁ h₂ h₃ h₄ ih =>
    rcases List.mem_cons.1 hp with rfl | hp
    · exact List.cons_subset_cons _ (List.takeWhile_prefix _).subset
    · exact List.subset_cons_of_subset _ (List.Subset.trans (ih hp) (List.dropWhile_suffix _).subset)

/-- Outside quotes a piece is a parenthesis or a run of the text's characters. -/
theorem mem_pieces {t : Text} (h : '"' ∉ t) {p : Piece} (hp : p ∈ pieces t) :
    p = .opening ∨ p = .closing ∨ ∃ chars, p = .run chars ∧ chars ⊆ t := by
  have hsub := chars_subset_of_mem_pieces hp
  cases p with
  | opening => exact .inl rfl
  | closing => exact .inr (.inl rfl)
  | quoted b => exact absurd (hsub List.mem_cons_self) h
  | run chars => exact .inr (.inr ⟨chars, rfl, hsub⟩)

/-! ### Tokens of a piece -/

theorem phraseTokens_of_normalise_eq {p v : Text} (h : normalise p = v) :
    phraseTokens p = if v = [] then [] else [.phrase v] := by
  unfold phraseTokens
  rw [h]
  cases v <;> rfl

/-- A token of a quoted span is the phrase in it. -/
theorem mem_phraseTokens {p : Text} {t : Token} (h : t ∈ phraseTokens p) : t = .phrase (normalise p) ∧ normalise p ≠ [] := by
  rw [phraseTokens_of_normalise_eq rfl] at h
  split at h
  · cases h
  · next hne => exact ⟨List.mem_singleton.1 h, hne⟩

/-- A token of a run is one of its words, or the mark that stands for none. -/
theorem mem_runTokens {run : Text} {t : Token} (h : t ∈ runTokens run) :
    (∃ w ∈ markedWords run, t = wordToken w.1 w.2) ∨ t = .term [] true ∧ '*' ∈ run := by
  unfold runTokens at h
  split at h
  · split at h
    · next hmark => exact .inr ⟨List.mem_singleton.1 h, hmark⟩
    · cases h
  · obtain ⟨w, hw, rfl⟩ := List.mem_map.1 h
    exact .inl ⟨w, hw, rfl⟩

theorem wordToken_of_ofWord? {w : Text} (h : Connective.ofWord? w = none) (m : Bool) : wordToken w m = .term w m := by
  cases m with
  | true => rfl
  | false => rw [wordToken, if_neg (by simp), h]

theorem eq_of_wordToken_eq_term {w v : Text} {m n : Bool} (h : wordToken w m = .term v n) :
    w = v ∧ m = n ∧ (m = false → Connective.ofWord? w = none) := by
  cases m with
  | true =>
    cases h
    exact ⟨rfl, rfl, fun hm => by cases hm⟩
  | false =>
    rw [wordToken, if_neg (by simp)] at h
    split at h
    · cases h
    · next hword =>
      cases h
      exact ⟨rfl, rfl, fun _ => hword⟩

theorem mem_words_of_mem_markedWords {t : Text} {w : Text × Bool} (h : w ∈ markedWords t) : w.1 ∈ words t := by
  rw [← map_fst_markedWords]
  exact List.mem_map_of_mem h

/-- Outside quotes the words of a piece are words of the text. -/
theorem mem_words_of_mem_pieces {t : Text} (hquote : '"' ∉ t) {p : Piece} (hp : p ∈ pieces t) {w : Text × Bool}
    (hw : w ∈ p.markedWords) : w.1 ∈ words t := by
  apply mem_words_of_mem_markedWords
  rw [← flatMap_markedWords_pieces hquote]
  exact List.mem_flatMap.2 ⟨p, hp, hw⟩

end KeywordRules
