import KeywordRules.Proofs.Query.MarkedWords
import KeywordRules.Proofs.Text.Markup

/-!
# Quoted spans

The quotes of a text cut it into fields, and every second field stands between quotes, or behind the last one if it is
never closed (`quotedSpans`).  The quoted pieces of a query are these spans (`filterMap_quoted_pieces`), and its phrases
are the normal forms of those that hold a word (`phrases_writtenTokens`).
-/

namespace KeywordRules

/-- Every second element of a list, the first one left out. -/
def everySecond {α : Type} : List α → List α
  | _ :: b :: l => b :: everySecond l
  | _ => []

/-- What stands between quotes, or behind a last quote that is never closed. -/
def quotedSpans (t : Text) : List Text := everySecond (fields (· = '"') t)

theorem everySecond_modifyHead {α : Type} (f : α → α) (l : List α) : everySecond (l.modifyHead f) = everySecond l := by
  rcases l with _ | ⟨a, _ | ⟨b, l⟩⟩ <;> rfl

theorem everySecond_map {α β : Type} (f : α → β) (l : List α) : everySecond (l.map f) = (everySecond l).map f := by
  fun_induction everySecond l with
  | case1 a b l ih => rw [List.map_cons, List.map_cons, everySecond, ih, List.map_cons]
  | case2 l h =>
    rcases l with _ | ⟨a, _ | ⟨b, l⟩⟩
    · rfl
    · rfl
    · exact absurd rfl (h a b l)

/-! ### Spans of a text -/

section

variable {b : Text} (hb : '"' ∉ b)

include hb

private theorem fields_append_quote (t : Text) :
    fields (· = '"') (b ++ t) = (fields (· = '"') t).modifyHead (b ++ ·) := by
  refine fields_append (fun c hc => decide_eq_false ?_) t
  rintro rfl
  exact hb hc

theorem quotedSpans_append (t : Text) : quotedSpans (b ++ t) = quotedSpans t := by
  rw [quotedSpans, fields_append_quote hb, everySecond_modifyHead, quotedSpans]

theorem quotedSpans_unclosed : quotedSpans ('"' :: b) = [b] := by
  have hfields := fields_append_quote hb []
  rw [List.append_nil] at hfields
  rw [quotedSpans, fields, if_pos (by simp), hfields]
  simp [fields, everySecond]

theorem quotedSpans_closed (t : Text) : quotedSpans ('"' :: (b ++ '"' :: t)) = b :: quotedSpans t := by
  rw [quotedSpans, fields, if_pos (by simp), fields_append_quote hb, fields, if_pos (by simp)]
  simp [everySecond, quotedSpans]

end

theorem quotedSpans_cons {c : Char} (hc : c ≠ '"') (t : Text) : quotedSpans (c :: t) = quotedSpans t :=
  quotedSpans_append (b := [c]) (by simpa using hc.symm) t

/-- Folding moves no quote. -/
theorem fields_fold (t : Text) : fields (· = '"') (fold t) = (fields (· = '"') t).map fold := by
  induction t with
  | nil => rfl
  | cons c t ih =>
    by_cases hc : c = '"'
    · subst hc
      have hself : lowercase '"' = ['"'] := by decide
      rw [fold_cons, hself, List.singleton_append, fields, if_pos (by simp), ih, fields, if_pos (by simp)]
      rfl
    · have hlower : '"' ∉ lowercase c := not_mem_lowercase (by decide) (by decide) hc
      rw [fold_cons, fields_append_quote hlower, ih, fields, if_neg (by simpa using hc)]
      rcases fields (· = '"') t with _ | ⟨f, fs⟩ <;> rfl

theorem quotedSpans_fold (t : Text) : quotedSpans (fold t) = (quotedSpans t).map fold := by
  rw [quotedSpans, fields_fold, everySecond_map, quotedSpans]

/-! ### Quoted pieces -/

def Piece.quoted? : Piece → Option Text
  | .quoted body => some body
  | _ => none

/-- The quoted pieces of a query are its quoted spans. -/
theorem filterMap_quoted_pieces (t : Text) : (pieces t).filterMap Piece.quoted? = quotedSpans t := by
  fun_induction pieces t with
  | case1 => rfl
  | case2 t ih => rw [List.filterMap_cons_none rfl, ih, quotedSpans_cons (by decide)]
  | case3 t h₁ ih => rw [List.filterMap_cons_none rfl, ih, quotedSpans_cons (by decide)]
  | case4 t h₁ h₂ ih =>
    rw [List.filterMap_cons_some (f := Piece.quoted?) rfl, ih]
    by_cases hmem : '"' ∈ t
    · obtain ⟨b, v, rfl, hb⟩ := List.eq_append_cons_of_mem hmem
      rw [takeWhile_quote hb, drop_dropWhile_quote hb, quotedSpans_closed hb]
    · rw [(span_without_quote hmem).1, (span_without_quote hmem).2, quotedSpans_unclosed hmem]
      rfl
  | case5 c t h₁ h₂ h₃ h₄ ih => rw [ih, quotedSpans_cons h₃]
  | case6 c t h₁ h₂ h₃ h₄ ih =>
    have hrun : '"' ∉ c :: t.takeWhile isRunChar := by
      intro hmem
      rcases List.mem_cons.1 hmem with rfl | hmem
      · exact h₃ rfl
      · exact absurd (List.all_eq_true.1 List.all_takeWhile _ hmem) (by decide)
    have hsplit : c :: t = (c :: t.takeWhile isRunChar) ++ t.dropWhile isRunChar := by
      rw [List.cons_append, List.takeWhile_append_dropWhile]
    rw [List.filterMap_cons_none rfl, ih, hsplit, quotedSpans_append hrun]

/-! ### Phrases -/

def Token.phrase? : Token → Option Text
  | .phrase v => some v
  | _ => none

theorem phrases_runTokens (run : Text) : (runTokens run).filterMap Token.phrase? = [] := by
  rw [List.filterMap_eq_nil_iff]
  intro t ht
  rcases mem_runTokens ht with ⟨w, -, rfl⟩ | ⟨rfl, -⟩
  · unfold wordToken
    split
    · rfl
    · split <;> rfl
  · rfl

/-- A piece gives a phrase if it is quoted and holds a word. -/
theorem phrases_tokens (p : Piece) :
    p.tokens.filterMap Token.phrase? = (p.quoted?.toList.map normalise).filter (· ≠ []) := by
  cases p with
  | opening => rfl
  | closing => rfl
  | quoted body =>
    rw [Piece.tokens, phraseTokens_of_normalise_eq rfl]
    split
    · next h => simp [Piece.quoted?, h]
    · next h => simp [Piece.quoted?, Token.phrase?, h]
  | run chars => exact phrases_runTokens chars

/-- The phrases of a query are the normal forms of its quoted spans that hold a word. -/
theorem phrases_writtenTokens (q : Text) :
    (writtenTokens q).filterMap Token.phrase? = ((quotedSpans q).map normalise).filter (· ≠ []) := by
  have hspans : (quotedSpans q).map normalise = ((pieces (fold q)).flatMap fun p => p.quoted?.toList).map normalise := by
    rw [← List.filterMap_eq_flatMap_toList, filterMap_quoted_pieces, quotedSpans_fold, List.map_map]
    exact List.map_congr_left fun b _ => (normalise_fold b).symm
  rw [writtenTokens, List.filterMap_flatMap, hspans, List.map_flatMap, List.filter_flatMap]
  exact List.flatMap_congr fun p _ => phrases_tokens p

end KeywordRules
