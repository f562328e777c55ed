import KeywordRules.Proofs.Document
import KeywordRules.Proofs.Query.Outline
import KeywordRules.Proofs.Text.Concatenation
import KeywordRules.Query.Compile

/-!
# Queries without negation

What such a query finds in a document it finds in every document that holds the first one as a part: a word stays among
the words, and the line of the words is a stretch of the longer line (`Expr.holds_mono`).  Two texts with a blank between
them make such a document out of each, if no markup span reaches over the seam (`isMatch_append_of_positive`).  In a
document without words it finds nothing.
-/

namespace KeywordRules

namespace Expr

/-- Whether the expression holds no negation. -/
def isPositive : Expr → Bool
  | .leaf _ => true
  | .not _ => false
  | .and l r => l.isPositive && r.isPositive
  | .or l r => l.isPositive && r.isPositive

end Expr

/-! ### Parts of documents -/

/-- All that `d` holds `e` holds as well. -/
structure Document.PartOf (d e : Document) : Prop where
  words : d.words ⊆ e.words
  vocabulary : d.vocabulary ⊆ e.vocabulary
  text : d.text <:+: e.text

theorem Document.vocabulary_subset {t u : Text} (h : (ofText t).words ⊆ (ofText u).words) :
    (ofText t).vocabulary ⊆ (ofText u).vocabulary :=
  fun _ hw => mem_vocabulary_ofText.2 (h (mem_vocabulary_ofText.1 hw))

theorem Document.ofText_append {d : Text} (h : ClosesMarkup d) (e : Text) :
    (ofText d).PartOf (ofText (d ++ ' ' :: e)) ∧ (ofText e).PartOf (ofText (d ++ ' ' :: e)) := by
  have hwords : (ofText (d ++ ' ' :: e)).words = (ofText d).words ++ (ofText e).words := by
    rw [words_ofText, words_ofText, words_ofText, normalWords_append_blank h]
  have hfront : (ofText d).words ⊆ (ofText (d ++ ' ' :: e)).words := by
    rw [hwords]
    exact List.subset_append_left _ _
  have hback : (ofText e).words ⊆ (ofText (d ++ ' ' :: e)).words := by
    rw [hwords]
    exact List.subset_append_right _ _
  refine ⟨⟨hfront, vocabulary_subset hfront, ?_⟩, ⟨hback, vocabulary_subset hback, ?_⟩⟩
  · rw [text_ofText, text_ofText, hwords]
    exact (joinWords_prefix_append _ _).isInfix
  · rw [text_ofText, text_ofText, hwords]
    exact (joinWords_suffix_append _ _).isInfix

theorem Leaf.holds_mono {d e : Document} (h : d.PartOf e) {l : Leaf} (hl : l.holds d = true) : l.holds e = true := by
  cases l with
  | word v =>
    rw [Leaf.holds, Document.hasWord, List.contains_iff_mem] at hl ⊢
    exact h.vocabulary hl
  | stem v =>
    rw [Leaf.holds, Document.hasStem_iff] at hl ⊢
    obtain ⟨hv, w, hw, hprefix⟩ := hl
    exact ⟨hv, w, h.words hw, hprefix⟩
  | phrase v =>
    rw [Leaf.holds, Document.hasPhrase_iff] at hl ⊢
    exact ⟨hl.1, hl.2.trans h.text⟩

theorem Leaf.holds_of_no_words {t : Text} (h : (Document.ofText t).words = []) (l : Leaf) :
    l.holds (Document.ofText t) = false := by
  rw [Bool.eq_false_iff]
  intro hl
  cases l with
  | word v =>
    rw [Leaf.holds, Document.hasWord_ofText_iff, h] at hl
    cases hl
  | stem v =>
    rw [Leaf.holds, Document.hasStem_iff, h] at hl
    obtain ⟨-, w, hw, -⟩ := hl
    cases hw
  | phrase v =>
    rw [Leaf.holds, Document.hasPhrase_iff] at hl
    have htext : (Document.ofText t).text = [] := words_ofText_eq_nil_iff.1 h
    rw [htext, List.infix_nil] at hl
    exact hl.1 hl.2

/-! ### Expressions without negation -/

namespace Expr

/-- What holds of a document holds of every one that it is a part of. -/
theorem holds_mono {x : Expr} (hx : x.isPositive = true) {d e : Document} (h : d.PartOf e) (hd : x.holds d = true) :
    x.holds e = true := by
  induction x with
  | leaf l => exact Leaf.holds_mono h hd
  | not x ih => cases hx
  | and l r ihl ihr =>
    rw [isPositive, Bool.and_eq_true] at hx
    rw [holds, Bool.and_eq_true] at hd ⊢
    exact ⟨ihl hx.1 hd.1, ihr hx.2 hd.2⟩
  | or l r ihl ihr =>
    rw [isPositive, Bool.and_eq_true] at hx
    rw [holds, Bool.or_eq_true] at hd ⊢
    exact hd.imp (ihl hx.1) (ihr hx.2)

theorem holds_of_no_words {x : Expr} (hx : x.isPositive = true) {t : Text} (h : (Document.ofText t).words = []) :
    x.holds (Document.ofText t) = false := by
  induction x with
  | leaf l => exact Leaf.holds_of_no_words h l
  | not x ih => cases hx
  | and l r ihl ihr =>
    rw [isPositive, Bool.and_eq_true] at hx
    rw [holds, ihl hx.1, Bool.false_and]
  | or l r ihl ihr =>
    rw [isPositive, Bool.and_eq_true] at hx
    rw [holds, ihl hx.1, ihr hx.2, Bool.false_or]

end Expr

/-- A query without an operand matches nothing. -/
theorem isMatch_eq_any (d q : Text) :
    isMatch d q = (Query.compile q).root?.any fun x => x.holds (Document.ofText d) := by
  rw [isMatch, Query.isMatch, Query.holds]
  cases (Query.compile q).root? <;> rfl

/-- A query without negation that matches one of two texts matches both side by side, if every `<` of the first has its
`>` there; and it matches no text without words. -/
theorem isMatch_append_of_positive {q : Text} (hq : ∀ x ∈ (Query.compile q).root?, x.isPositive = true) :
    (∀ d e, ClosesMarkup d → isMatch d q = true ∨ isMatch e q = true → isMatch (d ++ ' ' :: e) q = true) ∧
    ∀ d, (Document.ofText d).words = [] → isMatch d q = false := by
  constructor
  · intro d e hd h
    obtain ⟨hleft, hright⟩ := Document.ofText_append hd e
    rw [isMatch_eq_any, isMatch_eq_any, Option.any_eq_true, Option.any_eq_true] at h
    rw [isMatch_eq_any, Option.any_eq_true]
    rcases h with ⟨x, hx, hholds⟩ | ⟨x, hx, hholds⟩
    · exact ⟨x, hx, Expr.holds_mono (hq x hx) hleft hholds⟩
    · exact ⟨x, hx, Expr.holds_mono (hq x hx) hright hholds⟩
  · intro d hd
    rw [isMatch_eq_any, Option.any_eq_false]
    intro x hx
    exact Expr.holds_of_no_words (hq x hx) hd

/-- A phrase or the start of a word. -/
def phraseOrStem : Text := "\"t2 femur\" OR wri*".toList

/-- The phrase, with markup in place of its blank. -/
def markedUpFemur : Text := "The <b>T2</b>Femur".toList

theorem isMatch_append_markedUpFemur :
    ((∀ x ∈ (Query.compile phraseOrStem).root?, x.isPositive = true) ∧ ClosesMarkup markedUpFemur ∧
      isMatch markedUpFemur phraseOrStem = true ∧ (Document.ofText "<br>".toList).words = []) ∧
    (∀ e, isMatch (markedUpFemur ++ ' ' :: e) phraseOrStem = true) ∧ isMatch "<br>".toList phraseOrStem = false := by
  have hroot : (Query.compile phraseOrStem).root? =
      some (.or (.leaf (.phrase "t2 femur".toList)) (.leaf (.stem "wri".toList))) := by
    rw [Query.compile, root_parse]
    decide +kernel
  have hpositive : ∀ x ∈ (Query.compile phraseOrStem).root?, x.isPositive = true := by
    rw [hroot]
    rintro x ⟨⟩
    rfl
  have hclosed : ClosesMarkup markedUpFemur := by decide +kernel
  have hdoc : Document.ofText markedUpFemur =
      ⟨"the t2 femur".toList, ["the".toList, "t2".toList, "femur".toList],
        ["the".toList, "t2".toList, "femur".toList]⟩ := by decide +kernel
  have hmatch : isMatch markedUpFemur phraseOrStem = true := by
    rw [isMatch, Query.isMatch, Query.holds, hroot, hdoc]
    decide +kernel
  have hbreak : (Document.ofText "<br>".toList).words = [] := by decide +kernel
  obtain ⟨happend, hnone⟩ := isMatch_append_of_positive hpositive
  exact ⟨⟨hpositive, hclosed, hmatch, hbreak⟩, fun e => happend _ e hclosed (.inl hmatch), hnone _ hbreak⟩

end KeywordRules
