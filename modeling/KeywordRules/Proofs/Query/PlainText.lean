import KeywordRules.Proofs.Query.Conjunction
import KeywordRules.Proofs.Query.Leaves
import KeywordRules.Proofs.Query.Segmentation

/-!
# Plain text as a query

A text without quotes, marks, markup and connectives is a query for its words: it is cut into the same words as a
document (`leaves_of_plain`), whatever its parentheses are they only join, and so it matches the documents that hold all
of its words (`isMatch_plain_iff`).
-/

namespace KeywordRules

/-! ### Tokens of plain text -/

section

variable {t : Text} (hquote : '"' ∉ t) (hmark : '*' ∉ t) (hwords : ∀ w ∈ words t, Connective.ofWord? w = none)

include hquote hmark hwords

/-- A token of plain text is a parenthesis or one of its words. -/
theorem mem_tokens_of_plain {a : Token} (h : a ∈ (pieces t).flatMap Piece.tokens) :
    a = .opening ∨ a = .closing ∨ ∃ w ∈ words t, a = .term w false := by
  obtain ⟨p, hp, ha⟩ := List.mem_flatMap.1 h
  rcases mem_pieces hquote hp with rfl | rfl | ⟨run, rfl, hrun⟩
  · exact .inl (List.mem_singleton.1 ha)
  · exact .inr (.inl (List.mem_singleton.1 ha))
  · have hnone : '*' ∉ run := fun hmem => hmark (hrun hmem)
    rcases mem_runTokens ha with ⟨w, hw, rfl⟩ | ⟨-, hmem⟩
    · have hmem : w.1 ∈ words t := mem_words_of_mem_pieces hquote hp hw
      refine .inr (.inr ⟨w.1, hmem, ?_⟩)
      rw [wordToken_of_ofWord? (hwords _ hmem), mark_eq_false hnone hw]
    · exact absurd hmem hnone

theorem isConnective_of_plain {a : Token} (h : a ∈ (pieces t).flatMap Piece.tokens) : a.isConnective = false := by
  rcases mem_tokens_of_plain hquote hmark hwords h with rfl | rfl | ⟨w, -, rfl⟩ <;> rfl

theorem leaves_of_plain (hnormal : ∀ w ∈ words t, IsNormalWord w) :
    ((pieces t).flatMap Piece.tokens).filterMap Token.leaf? = (words t).map .word := by
  have hleaf : ∀ a ∈ (pieces t).flatMap Piece.tokens, a.leaf? = a.markedWord?.map fun w => .word w.1 := by
    intro a ha
    rcases mem_tokens_of_plain hquote hmark hwords ha with rfl | rfl | ⟨w, hw, rfl⟩
    · rfl
    · rfl
    · have hword := hnormal w hw
      rw [Token.leaf?, normalise_of_isNormalWord hword, if_neg (hword.not_mem (by decide)), if_neg (by simp),
        Token.markedWord?, if_neg hword.1, Option.map_some]
  rw [List.filterMap_congr hleaf, ← List.map_filterMap, ← markedTerms, markedTerms_pieces hquote hwords,
    ← map_fst_markedWords, List.map_map]
  rfl

end

/-! ### Matching plain text -/

section

variable {s : Text} (hquote : '"' ∉ s) (hmark : '*' ∉ s) (hmarkup : '<' ∉ s)
  (hwords : ∀ w ∈ (Document.ofText s).words, Connective.ofWord? w = none)

include hquote hmark hmarkup hwords

/-- Plain text is compiled to a conjunction of its words. -/
theorem compile_plain :
    leavesOf (Query.compile s).root? = (Document.ofText s).words.map .word ∧ Conjoined (Query.compile s).root? := by
  have hquote' : '"' ∉ fold s := fun h => hquote ((mem_fold_iff (by decide) (by decide)).1 h)
  have hmark' : '*' ∉ fold s := fun h => hmark ((mem_fold_iff (by decide) (by decide)).1 h)
  have hdoc : (Document.ofText s).words = words (fold s) := by
    rw [words_ofText, normalWords_of_not_mem hmarkup]
  rw [hdoc] at hwords ⊢
  have hconn : ∀ t ∈ writtenTokens s, t.isConnective = false := fun t ht =>
    isConnective_of_plain hquote' hmark' hwords ht
  -- no connective is written, so none is dropped, and only `AND` is spliced
  have hkept : (writtenTokens s).IsChain Kept := by
    refine List.Pairwise.isChain (List.pairwise_iff_forall_sublist.2 fun {a b} hab ha => ?_)
    rw [hconn a (hab.subset List.mem_cons_self)] at ha
    cases ha
  have htokens : Query.tokens s = spliceAnds (writtenTokens s) := by
    rw [Query.tokens, tokenise, dropRedundant_eq_self_iff.2 hkept]
  have hjoins : ∀ c, .connective c ∈ Query.tokens s → c = .and := by
    intro c hc
    rw [htokens] at hc
    rcases mem_spliceAnds hc with hc | hc
    · cases hc
      rfl
    · cases hconn _ hc
  constructor
  · rw [Query.compile, leavesOf_root, htokens, filterMap_leaf_spliceAnds]
    exact leaves_of_plain hquote' hmark' hwords fun w hw => isNormalWord_of_mem_words_fold hw
  · intro e he
    exact isConjunction_root (fun h => by cases hjoins _ h) (fun h => by cases hjoins _ h) he

/-- A text without quotes, marks, markup and connectives matches exactly the documents that hold all of its words, and
nothing if it has none.  If it has one, it matches itself. -/
theorem isMatch_plain_iff :
    (∀ d, isMatch d s = true ↔ (Document.ofText s).words ≠ [] ∧
      ∀ w ∈ (Document.ofText s).words, w ∈ (Document.ofText d).words) ∧
    ((Document.ofText s).words ≠ [] → isMatch s s = true) := by
  obtain ⟨hleaves, hconj⟩ := compile_plain hquote hmark hmarkup hwords
  have hiff : ∀ d, isMatch d s = true ↔ (Document.ofText s).words ≠ [] ∧
      ∀ w ∈ (Document.ofText s).words, w ∈ (Document.ofText d).words := by
    intro d
    rw [isMatch, Query.isMatch, Query.holds]
    rcases hroot : (Query.compile s).root? with _ | e
    · rw [hroot, leavesOf_none, eq_comm, List.map_eq_nil_iff] at hleaves
      simp [hleaves]
    · rw [hroot, leavesOf_some] at hleaves
      have hne : (Document.ofText s).words ≠ [] := by
        intro hnil
        rw [hnil, List.map_nil] at hleaves
        exact e.leaves_ne_nil hleaves
      dsimp only
      rw [Expr.holds_of_isConjunction (hconj e hroot), hleaves, List.all_map, List.all_eq_true]
      simp [hne, Leaf.holds, Document.hasWord]
  exact ⟨hiff, fun hne => (hiff s).2 ⟨hne, fun _ hw => hw⟩⟩

end

/-- Words with stray and unclosed parentheses between them. -/
def scatteredText : Text := "B) ((a-b".toList

theorem isMatch_scatteredText :
    ('"' ∉ scatteredText ∧ '*' ∉ scatteredText ∧ '<' ∉ scatteredText ∧
      ∀ w ∈ (Document.ofText scatteredText).words, Connective.ofWord? w = none) ∧
    (∀ d, isMatch d scatteredText = true ↔ ['a'] ∈ (Document.ofText d).words ∧ ['b'] ∈ (Document.ofText d).words) ∧
    isMatch scatteredText scatteredText = true := by
  have hquote : '"' ∉ scatteredText := by decide
  have hmark : '*' ∉ scatteredText := by decide
  have hmarkup : '<' ∉ scatteredText := by decide
  have hdoc : (Document.ofText scatteredText).words = [['b'], ['a'], ['b']] := by decide +kernel
  have hwords : ∀ w ∈ (Document.ofText scatteredText).words, Connective.ofWord? w = none := by
    rw [hdoc]
    decide
  obtain ⟨hiff, hself⟩ := isMatch_plain_iff hquote hmark hmarkup hwords
  rw [hdoc] at hiff hself
  refine ⟨⟨hquote, hmark, hmarkup, hwords⟩, fun d => ?_, hself (by decide)⟩
  rw [hiff]
  simp

end KeywordRules
