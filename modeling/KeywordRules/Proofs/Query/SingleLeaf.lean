import KeywordRules.Proofs.Document
import KeywordRules.Proofs.Query.Canonical
import KeywordRules.Proofs.Query.Composition
import KeywordRules.Proofs.Query.Leaves
import KeywordRules.Proofs.Text.Markup

/-!
# Queries of a single leaf

A text in quotes is found where its normal form is part of a document's, whether the second quote is there or not, and a
marked word where a word of a document begins with it.  The text of a phrase is folded before its markup is stripped and
normalised once more when it is read, a document is stripped first and folded after; since folding and stripping may
change places and normal forms stay as they are, both sides agree (`isMatch_singleLeaf`).
-/

namespace KeywordRules

/-! ### Tokens of a single leaf -/

/-- A text in double quotes. -/
def inQuotes (p : Text) : Text := '"' :: (p ++ ['"'])

section

variable {p : Text} (hp : '"' ∉ p)

include hp

theorem pieces_unclosed : pieces ('"' :: p) = [.quoted p] := by
  rw [pieces, if_neg (by decide), if_neg (by decide), if_pos rfl, (span_without_quote hp).1, (span_without_quote hp).2,
    List.drop_nil, pieces]

private theorem not_mem_fold_of_not_mem : '"' ∉ fold p := fun h => hp ((mem_fold_iff (by decide) (by decide)).1 h)

theorem writtenTokens_inQuotes : writtenTokens (inQuotes p) = phraseTokens (fold p) := by
  have hfold : fold (inQuotes p) = '"' :: (fold p ++ ['"']) := by
    rw [inQuotes, fold_cons, fold_append]
    rfl
  rw [writtenTokens, hfold, pieces_quoted (not_mem_fold_of_not_mem hp), pieces, List.flatMap_singleton, Piece.tokens]

theorem writtenTokens_unclosed : writtenTokens ('"' :: p) = phraseTokens (fold p) := by
  have hfold : fold ('"' :: p) = '"' :: fold p := rfl
  rw [writtenTokens, hfold, pieces_unclosed (not_mem_fold_of_not_mem hp), List.flatMap_singleton, Piece.tokens]

end

theorem fold_ne_nil {w : Text} (hw : w ≠ []) : fold w ≠ [] := by
  obtain ⟨c, w, rfl⟩ := List.exists_cons_of_ne_nil hw
  have hc : lowercase c ≠ [] := by
    unfold lowercase
    split
    · simp
    · split
      · simp
      · split <;> simp
  rw [fold_cons]
  exact List.append_ne_nil_of_left_ne_nil hc _

/-- A text whose lowercase holds word characters only is folded to a word. -/
theorem isNormalWord_fold {w : Text} (hw : w ≠ []) (hchars : ∀ c ∈ fold w, isWordChar c = true) :
    IsNormalWord (fold w) :=
  ⟨fold_ne_nil hw, fun c hc => ⟨hchars c hc, lowercase_of_mem_fold hc⟩⟩

theorem writtenTokens_marked {w : Text} (hw : IsNormalWord (fold w)) :
    writtenTokens (w ++ ['*']) = [.term (fold w) true] := by
  have hfold : fold (w ++ ['*']) = fold w ++ ['*'] := by
    rw [fold_append]
    rfl
  rw [← writtenTokens_fold, hfold, writtenTokens_stem (.inr hw)]

/-! ### What a single leaf compiles to -/

theorem compile_of_written_nil {q : Text} (h : writtenTokens q = []) : (Query.compile q).root? = none := by
  have htokens : Query.tokens q = [] := by
    rw [Query.tokens, tokenise, h]
    rfl
  rw [Query.compile, root_eq_none_iff, htokens]
  simp

theorem compile_of_written_singleton {q : Text} {t : Token} {e : Expr} (h : writtenTokens q = [t])
    (he : Derives maxNesting .primary [t] e) : (Query.compile q).root? = some e := by
  have hkept : dropRedundant false [t] = [t] := by
    rw [dropRedundant, if_neg (by simp), dropRedundant]
  have hderives := (Derives.primary he).conjunction_of_negation.disjunction_of_conjunction
  rw [Query.compile, Query.tokens, tokenise, h, hkept, spliceAnds_singleton]
  exact (parse_of_derives hderives).1

/-- A query that is written as a phrase matches where the phrase is found. -/
theorem isMatch_of_phraseTokens {q p : Text} (h : writtenTokens q = phraseTokens (fold p)) (d : Text) :
    isMatch d q = true ↔ normalise p ≠ [] ∧ normalise p <:+: normalise d := by
  rw [phraseTokens_of_normalise_eq (normalise_fold p)] at h
  by_cases hnil : normalise p = []
  · rw [if_pos hnil] at h
    rw [isMatch, Query.isMatch, Query.holds, compile_of_written_nil h]
    simp [hnil]
  · rw [if_neg hnil] at h
    have hphrase := Derives.phrase (n := maxNesting) (normalise p)
    rw [normalise_normalise] at hphrase
    rw [isMatch_of_root (compile_of_written_singleton h hphrase), Expr.holds, Leaf.holds, Document.hasPhrase_iff]
    rfl

theorem isMatch_of_markedToken {q w : Text} (hw : IsNormalWord w) (h : writtenTokens q = [.term w true]) (d : Text) :
    isMatch d q = true ↔ ∃ v ∈ (Document.ofText d).words, w <+: v := by
  have hterm := Derives.term (n := maxNesting) w true
  rw [hw.ofTerm, if_pos rfl] at hterm
  rw [isMatch_of_root (compile_of_written_singleton h hterm), Expr.holds, Leaf.holds, Document.hasStem_iff]
  simp [hw.1]

/-- Queries of a single leaf mean what they say.  A text between quotes, or behind a quote that is never closed, matches
the documents whose normal form holds its own, which is not empty, as a contiguous part; so a text with a word matches
itself in quotes.  A marked word matches the documents with a word that starts with its lowercase. -/
theorem isMatch_singleLeaf :
    (∀ d p, '"' ∉ p →
      (isMatch d (inQuotes p) = true ↔ normalise p ≠ [] ∧ normalise p <:+: normalise d) ∧
      (isMatch d ('"' :: p) = true ↔ normalise p ≠ [] ∧ normalise p <:+: normalise d)) ∧
    (∀ p, '"' ∉ p → (Document.ofText p).words ≠ [] → isMatch p (inQuotes p) = true) ∧
    ∀ d w, w ≠ [] → (∀ c ∈ fold w, isWordChar c = true) →
      (isMatch d (w ++ ['*']) = true ↔ ∃ v ∈ (Document.ofText d).words, fold w <+: v) := by
  refine ⟨fun d p hp => ⟨?_, ?_⟩, fun p hp hwords => ?_, fun d w hw hchars => ?_⟩
  · exact isMatch_of_phraseTokens (writtenTokens_inQuotes hp) d
  · exact isMatch_of_phraseTokens (writtenTokens_unclosed hp) d
  · rw [isMatch_of_phraseTokens (writtenTokens_inQuotes hp)]
    exact ⟨fun h => hwords (words_ofText_eq_nil_iff.2 h), List.infix_rfl⟩
  · have hword := isNormalWord_fold hw hchars
    exact isMatch_of_markedToken hword (writtenTokens_marked hword) d

/-- A phrase in capitals, with markup in place of its blank. -/
def markedUpPhrase : Text := "Wall<b>-</b>STREET".toList

theorem isMatch_markedUpPhrase :
    ('"' ∉ markedUpPhrase ∧ (Document.ofText markedUpPhrase).words ≠ [] ∧
      ∀ c ∈ fold "And".toList, isWordChar c = true) ∧
    (∀ d, isMatch d (inQuotes markedUpPhrase) = true ↔ "wall street".toList <:+: normalise d) ∧
    (∀ d, isMatch d ('"' :: markedUpPhrase) = true ↔ "wall street".toList <:+: normalise d) ∧
    isMatch markedUpPhrase (inQuotes markedUpPhrase) = true ∧
    ∀ d, isMatch d "And*".toList = true ↔ ∃ v ∈ (Document.ofText d).words, "and".toList <+: v := by
  have hquote : '"' ∉ markedUpPhrase := by decide
  have hwords : (Document.ofText markedUpPhrase).words ≠ [] := by decide +kernel
  have hchars : ∀ c ∈ fold "And".toList, isWordChar c = true := List.all_eq_true.mp (by decide +kernel)
  have hnormal : normalise markedUpPhrase = "wall street".toList := by decide +kernel
  have hword : fold "And".toList = "and".toList := by decide +kernel
  obtain ⟨hphrase, hself, hmark⟩ := isMatch_singleLeaf
  refine ⟨⟨hquote, hwords, hchars⟩, fun d => ?_, fun d => ?_, hself _ hquote hwords, fun d => ?_⟩
  · rw [(hphrase d _ hquote).1, hnormal]
    simp
  · rw [(hphrase d _ hquote).2, hnormal]
    simp
  · have hand := hmark d "And".toList (by decide) hchars
    rw [hword] at hand
    exact hand

end KeywordRules
