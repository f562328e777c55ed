import KeywordRules.Proofs.Query.Canonical
import KeywordRules.Proofs.Query.Leaves
import KeywordRules.Proofs.Query.QuotedSpans

/-!
# Tokens in normal form

What a query is cut into is in normal form from the start: its terms are normal words, connectives only if they are
marked, and its phrases are normal forms that hold a word (`isNormal_of_mem_writtenTokens`).  So the leaves of a query
have the very values of its tokens, and its phrases come from quotes alone (`tokenise_normal`).
-/

namespace KeywordRules

namespace Token

/-- The leaf of an operand, with its value as it stands. -/
def ownLeaf? : Token → Option Leaf
  | .term w false => some (.word w)
  | .term w true => some (.stem w)
  | .phrase v => some (.phrase v)
  | _ => none

/-- An operand has a value as leaves have them. -/
def IsNormal (t : Token) : Prop := ∀ l ∈ t.ownLeaf?, l.IsCanonical

theorem isNormal_of_isOperand_eq_false {t : Token} (h : t.isOperand = false) : t.IsNormal := by
  intro l hl
  cases t with
  | term w m => cases h
  | phrase v => cases h
  | _ => cases hl

/-- To normalise the value of a token in normal form again changes nothing. -/
theorem IsNormal.leaf?_eq {t : Token} (h : t.IsNormal) : t.leaf? = t.ownLeaf? := by
  cases t with
  | term w m =>
    rw [leaf?_term]
    cases m with
    | false =>
      have hword := h (.word w) rfl
      rw [hword.1.ofTerm]
      rfl
    | true =>
      rcases h (.stem w) rfl with rfl | hword
      · decide +kernel
      · rw [hword.ofTerm]
        rfl
  | phrase v =>
    have hphrase := h (.phrase v) rfl
    rw [leaf?, hphrase.2, ownLeaf?]
  | _ => rfl

end Token

/-! ### Tokens as they are written -/

theorem IsNormalWord.isNormal_wordToken {w : Text} (h : IsNormalWord w) (m : Bool) : (wordToken w m).IsNormal := by
  cases m with
  | true =>
    intro l hl
    cases hl
    exact .inr h
  | false =>
    rw [wordToken, if_neg (by simp)]
    split
    · exact Token.isNormal_of_isOperand_eq_false rfl
    · next hword =>
      intro l hl
      cases hl
      exact ⟨h, hword⟩

theorem isNormal_of_mem_writtenTokens {q : Text} {t : Token} (h : t ∈ writtenTokens q) : t.IsNormal := by
  obtain ⟨p, hp, ht⟩ := List.mem_flatMap.1 h
  cases p with
  | opening =>
    rw [List.mem_singleton.1 ht]
    exact Token.isNormal_of_isOperand_eq_false rfl
  | closing =>
    rw [List.mem_singleton.1 ht]
    exact Token.isNormal_of_isOperand_eq_false rfl
  | quoted body =>
    obtain ⟨rfl, hne⟩ := mem_phraseTokens ht
    intro l hl
    cases hl
    exact ⟨hne, normalise_normalise body⟩
  | run chars =>
    rcases mem_runTokens ht with ⟨w, hw, rfl⟩ | ⟨rfl, -⟩
    · -- the characters of the run were folded before
      obtain ⟨hne, hchars⟩ := mem_words (mem_words_of_mem_markedWords hw)
      have hfold : ∀ c ∈ w.1, lowercase c = [c] := fun c hc =>
        lowercase_of_mem_fold (chars_subset_of_mem_pieces hp (hchars c hc).2)
      exact IsNormalWord.isNormal_wordToken ⟨hne, fun c hc => ⟨(hchars c hc).1, hfold c hc⟩⟩ w.2
    · intro l hl
      cases hl
      exact .inl rfl

theorem isNormal_of_mem_tokenise {q : Text} {t : Token} (h : t ∈ tokenise q) : t.IsNormal :=
  isNormal_of_mem_writtenTokens ((dropRedundant_sublist false _).subset h)

theorem isNormal_of_mem_tokens {q : Text} {t : Token} (h : t ∈ Query.tokens q) : t.IsNormal := by
  rcases mem_spliceAnds h with rfl | h
  · exact Token.isNormal_of_isOperand_eq_false rfl
  · exact isNormal_of_mem_tokenise h

/-! ### Leaves of a query -/

theorem leavesOf_compile (q : Text) : leavesOf (Query.compile q).root? = (Query.tokens q).filterMap Token.ownLeaf? := by
  rw [Query.compile, leavesOf_root]
  exact List.filterMap_congr fun t ht => (isNormal_of_mem_tokens ht).leaf?_eq

def Leaf.phrase? : Leaf → Option Text
  | .phrase v => some v
  | _ => none

theorem Token.phrase?_eq (t : Token) : t.phrase? = t.ownLeaf?.bind Leaf.phrase? := by
  cases t with
  | term w m => cases m <;> rfl
  | _ => rfl

/-- The phrases among the leaves of a query are the normal forms of its quoted spans that hold a word. -/
theorem phrases_compile (q : Text) :
    (leavesOf (Query.compile q).root?).filterMap Leaf.phrase? = ((quotedSpans q).map normalise).filter (· ≠ []) := by
  have hphrases : (Query.tokens q).filterMap Token.phrase? = (writtenTokens q).filterMap Token.phrase? := by
    rw [Query.tokens, filterMap_spliceAnds rfl, tokenise, filterMap_dropRedundant fun _ => rfl]
  rw [leavesOf_compile, List.filterMap_filterMap, ← phrases_writtenTokens, ← hphrases]
  exact List.filterMap_congr fun t _ => (Token.phrase?_eq t).symm

/-- Every token of every query is in normal form.  Neither as it is cut nor with conjunctions spliced in does an `AND` or
`OR` stand right after a connective; an unmarked term is a normal word that spells no connective, a marked one a normal
word or empty, and a phrase a normal form that is not empty.  So the leaves of a query are its operands with their
values as they stand, and the phrases among them are those of its quoted spans. -/
theorem tokenise_normal (q : Text) :
    ((tokenise q).IsChain Kept ∧ (Query.tokens q).IsChain Kept) ∧
    ((∀ t ∈ tokenise q, t.IsNormal) ∧ ∀ t ∈ Query.tokens q, t.IsNormal) ∧
    leavesOf (Query.compile q).root? = (Query.tokens q).filterMap Token.ownLeaf? ∧
    (leavesOf (Query.compile q).root?).filterMap Leaf.phrase? = ((quotedSpans q).map normalise).filter (· ≠ []) := by
  have hchain : (tokenise q).IsChain Kept := isChain_kept_dropRedundant false _
  refine ⟨⟨hchain, isChain_kept_spliceAnds hchain⟩, ⟨fun t ht => ?_, fun t ht => ?_⟩, leavesOf_compile q,
    phrases_compile q⟩
  · exact isNormal_of_mem_tokenise ht
  · exact isNormal_of_mem_tokens ht

end KeywordRules
