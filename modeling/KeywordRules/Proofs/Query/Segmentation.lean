import KeywordRules.Proofs.Query.Alternation
import KeywordRules.Proofs.Query.MarkedWords
import KeywordRules.Proofs.Text.Normal

/-!
# Queries and documents are cut into the same words

A query is cut at blanks, parentheses and quotes first and into words then; a document is folded and collapsed in one
go.  On a text without quotes, markup and connectives both find the same words: the terms of the text as a query are its
words as a document, each marked if `*` follows it where it stands (`tokenise_segments`).
-/

namespace KeywordRules

/-- The word of a term, with its mark.  A mark that stands alone has no word. -/
def Token.markedWord? : Token → Option (Text × Bool)
  | .term w m => if w = [] then none else some (w, m)
  | _ => none

/-- The terms of a query that have a word. -/
def markedTerms (ts : List Token) : List (Text × Bool) := ts.filterMap Token.markedWord?

/-! ### Terms of the pieces -/

theorem markedTerms_runTokens {run : Text} (h : ∀ w ∈ words run, Connective.ofWord? w = none) :
    markedTerms (runTokens run) = markedWords run := by
  unfold runTokens
  split
  · next hnil =>
    rw [hnil]
    split <;> rfl
  · have hterm : ∀ w ∈ markedWords run, (wordToken w.1 w.2).markedWord? = some w := by
      intro w hw
      have hmem := mem_words_of_mem_markedWords hw
      rw [wordToken_of_ofWord? (h _ hmem), Token.markedWord?, if_neg (mem_words hmem).1]
    rw [markedTerms, List.filterMap_map]
    exact (List.filterMap_congr hterm).trans List.filterMap_some

theorem markedTerms_phraseTokens (body : Text) : markedTerms (phraseTokens body) = [] := by
  unfold phraseTokens
  split <;> rfl

theorem markedTerms_tokens {p : Piece} (h : ∀ w ∈ p.markedWords, Connective.ofWord? w.1 = none) :
    markedTerms p.tokens = p.markedWords := by
  cases p with
  | opening => rfl
  | closing => rfl
  | quoted body => exact markedTerms_phraseTokens body
  | run chars =>
    refine markedTerms_runTokens fun w hw => ?_
    rw [← map_fst_markedWords] at hw
    obtain ⟨x, hx, rfl⟩ := List.mem_map.1 hw
    exact h x hx

/-- Outside quotes the terms are the words of the text, if none of these is a connective. -/
theorem markedTerms_pieces {t : Text} (hquote : '"' ∉ t) (hwords : ∀ w ∈ words t, Connective.ofWord? w = none) :
    markedTerms ((pieces t).flatMap Piece.tokens) = markedWords t := by
  have hpiece : ∀ p ∈ pieces t, markedTerms p.tokens = p.markedWords := fun p hp =>
    markedTerms_tokens fun w hw => hwords _ (mem_words_of_mem_pieces hquote hp hw)
  rw [markedTerms, List.filterMap_flatMap, ← flatMap_markedWords_pieces hquote]
  exact List.flatMap_congr hpiece

/-- A term without a word is a mark that stands alone. -/
theorem mark_of_empty_term {t : Text} {m : Bool} (h : .term [] m ∈ (pieces t).flatMap Piece.tokens) :
    m = true ∧ '*' ∈ t := by
  obtain ⟨p, hp, hmem⟩ := List.mem_flatMap.1 h
  cases p with
  | opening => cases List.mem_singleton.1 hmem
  | closing => cases List.mem_singleton.1 hmem
  | quoted body => cases (mem_phraseTokens hmem).1
  | run chars =>
    rcases mem_runTokens hmem with ⟨w, hw, hword⟩ | ⟨hterm, hmark⟩
    · have hnil := (eq_of_wordToken_eq_term hword.symm).1
      exact absurd hnil (mem_words (mem_words_of_mem_markedWords hw)).1
    · cases hterm
      exact ⟨rfl, chars_subset_of_mem_pieces hp hmark⟩

/-! ### Terms of a query -/

/-- Outside quotes, markup and connectives a text has the same words as a query and as a document: the words of its terms
are the words of the document, in their order, and a term is marked exactly if `*` comes right after its word in the
folded text.  A term without a word is a mark that stands alone. -/
theorem tokenise_segments {s : Text} (hquote : '"' ∉ s) (hmarkup : '<' ∉ s)
    (hwords : ∀ w ∈ (Document.ofText s).words, Connective.ofWord? w = none) :
    (markedTerms (tokenise s)).map Prod.fst = (Document.ofText s).words ∧
    (∀ i w m, (markedTerms (tokenise s))[i]? = some (w, m) ↔
      ∃ u v, IsWordBetween (fold s) u w v ∧ (words u).length = i ∧ (m = true ↔ v.head? = some '*')) ∧
    ∀ m, .term [] m ∈ tokenise s → m = true ∧ '*' ∈ s := by
  have hdoc : (Document.ofText s).words = words (fold s) := by
    rw [words_ofText, normalWords_of_not_mem hmarkup]
  rw [hdoc] at hwords ⊢
  have hquote' : '"' ∉ fold s := fun h => hquote ((mem_fold_iff (by decide) (by decide)).1 h)
  have hterms : markedTerms (tokenise s) = markedWords (fold s) := by
    rw [markedTerms, tokenise, filterMap_dropRedundant fun _ => rfl]
    exact markedTerms_pieces hquote' hwords
  refine ⟨by rw [hterms, map_fst_markedWords], fun i w m => by rw [hterms, getElem?_markedWords_iff], fun m hm => ?_⟩
  obtain ⟨hmark, hmem⟩ := mark_of_empty_term ((dropRedundant_sublist false _).subset hm)
  exact ⟨hmark, (mem_fold_iff (by decide) (by decide)).1 hmem⟩

/-- A letter whose lowercase ends with a combining dot, a marked word, and a mark that stands alone. -/
def dottedMarks : Text := "\u0130* B*(-*".toList

/-- The dot stands between the first word and its `*`, so only the second word is marked. -/
theorem tokenise_segments_dottedMarks :
    ('"' ∉ dottedMarks ∧ '<' ∉ dottedMarks ∧
      ∀ w ∈ (Document.ofText dottedMarks).words, Connective.ofWord? w = none) ∧
    (markedTerms (tokenise dottedMarks)).map Prod.fst = [['i'], ['b']] ∧
    (markedTerms (tokenise dottedMarks))[0]? = some (['i'], false) ∧
    (markedTerms (tokenise dottedMarks))[1]? = some (['b'], true) ∧
    ∀ m, .term [] m ∈ tokenise dottedMarks → m = true ∧ '*' ∈ dottedMarks := by
  have hquote : '"' ∉ dottedMarks := by decide
  have hmarkup : '<' ∉ dottedMarks := by decide
  have hdoc : (Document.ofText dottedMarks).words = [['i'], ['b']] := by decide +kernel
  have hwords : ∀ w ∈ (Document.ofText dottedMarks).words, Connective.ofWord? w = none := by
    rw [hdoc]
    decide
  have hfold : fold dottedMarks = "i\u0307* b*(-*".toList := by decide +kernel
  obtain ⟨hterms, hplaces, hmark⟩ := tokenise_segments hquote hmarkup hwords
  rw [hdoc] at hterms
  refine ⟨⟨hquote, hmarkup, hwords⟩, hterms, ?_, ?_, hmark⟩
  · refine (hplaces 0 ['i'] false).2 ⟨[], "\u0307* b*(-*".toList, ?_⟩
    rw [hfold]
    decide +kernel
  · refine (hplaces 1 ['b'] true).2 ⟨"i\u0307* ".toList, "*(-*".toList, ?_⟩
    rw [hfold]
    decide +kernel

end KeywordRules
