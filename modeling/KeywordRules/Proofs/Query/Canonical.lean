import KeywordRules.Proofs.Query.Alternation
import KeywordRules.Proofs.Query.Diagnosis
import KeywordRules.Proofs.Query.MarkedWords
import KeywordRules.Proofs.Query.WellFormed
import KeywordRules.Proofs.Text.Normal
import KeywordRules.Query.Compile

/-!
# Canonical texts read back

The canonical text of an expression has the tokens of the expression, each conjunction and disjunction in parentheses
(`writtenTokens_render`).  These are derived from the grammar with the expression as its tree (`derives_tokens`), so
they are neither spliced nor thinned out, and the text reads back as the expression it was written from
(`compile_render`).
-/

namespace KeywordRules

namespace Leaf

/-- The leaves that queries can have: words and word starts in normal form, and phrases that hold a word.  A word that
spells a connective is none, the start of one is. -/
def IsCanonical : Leaf → Prop
  | .word v => IsNormalWord v ∧ Connective.ofWord? v = none
  | .stem v => v = [] ∨ IsNormalWord v
  | .phrase v => v ≠ [] ∧ normalise v = v

instance : DecidablePred IsCanonical
  | .word _ => inferInstanceAs (Decidable (_ ∧ _))
  | .stem _ => inferInstanceAs (Decidable (_ ∨ _))
  | .phrase _ => inferInstanceAs (Decidable (_ ∧ _))

/-- The token that a leaf is written as. -/
def token : Leaf → Token
  | .word v => .term v false
  | .stem v => .term v true
  | .phrase v => .phrase v

end Leaf

namespace Expr

/-- The tokens of the canonical text. -/
def tokens : Expr → List Token
  | .leaf l => [l.token]
  | .not e => .connective .not :: e.tokens
  | .and l r => .opening :: ((l.tokens ++ .connective .and :: r.tokens) ++ [.closing])
  | .or l r => .opening :: ((l.tokens ++ .connective .or :: r.tokens) ++ [.closing])

/-- How deep conjunctions and disjunctions nest. -/
def depth : Expr → Nat
  | .leaf _ => 0
  | .not e => e.depth
  | .and l r => max l.depth r.depth + 1
  | .or l r => max l.depth r.depth + 1

end Expr

/-! ### Lexing a leaf -/

private theorem even_count_of_not_mem {t : Text} (h : '"' ∉ t) : Even (t.count '"') := by
  rw [List.count_eq_zero.2 h]
  exact Even.zero

theorem IsNormalWord.markedWords_append {w : Text} (h : IsNormalWord w) {u : Text}
    (hu : ∀ c ∈ u.head?, isWordChar c = false) :
    markedWords (w ++ u) = (w, decide (u.head? = some '*')) :: markedWords u :=
  markedWords_append_of_word h.1 (fun c hc => (h.2 c hc).1) hu

private theorem writtenTokens_of_run {t : Text} (ht : t ≠ []) (hfold : fold t = t) (h : ∀ c ∈ t, isRunChar c = true) :
    writtenTokens t = runTokens t := by
  rw [writtenTokens, hfold, pieces_of_run ht h, List.flatMap_singleton, Piece.tokens]

theorem writtenTokens_word {v : Text} (h : IsNormalWord v) (hv : Connective.ofWord? v = none) :
    writtenTokens v = [.term v false] := by
  have hrun : ∀ c ∈ v, isRunChar c = true := fun c hc => isRunChar_of_isWordChar (h.2 c hc).1
  have hwords : markedWords v = [(v, false)] := by
    have happend := h.markedWords_append (u := []) (by simp)
    rw [List.append_nil, markedWords_nil] at happend
    exact happend
  rw [writtenTokens_of_run h.1 h.fold_eq hrun, runTokens, hwords]
  simp [wordToken, hv]

theorem writtenTokens_stem {v : Text} (h : v = [] ∨ IsNormalWord v) : writtenTokens (v ++ ['*']) = [.term v true] := by
  rcases h with rfl | h
  · decide +kernel
  · have hfold : fold (v ++ ['*']) = v ++ ['*'] := by
      rw [fold_append, h.fold_eq]
      rfl
    have hrun : ∀ c ∈ v ++ ['*'], isRunChar c = true := by
      intro c hc
      rcases List.mem_append.1 hc with hc | hc
      · exact isRunChar_of_isWordChar (h.2 c hc).1
      · rw [List.mem_singleton.1 hc]
        decide
    have hmark : markedWords ['*'] = [] := by
      rw [markedWords_cons_break (by decide), markedWords_nil]
    have hwords : markedWords (v ++ ['*']) = [(v, true)] := by
      rw [h.markedWords_append, hmark]
      · rfl
      · intro c hc
        cases hc
        decide
    rw [writtenTokens_of_run (by simp) hfold hrun, runTokens, hwords]
    simp [wordToken]

theorem writtenTokens_phrase {v : Text} (hne : v ≠ []) (hv : normalise v = v) :
    writtenTokens ('"' :: (v ++ ['"'])) = [.phrase v] := by
  have hquote : '"' ∉ v := not_mem_of_normal hv (by decide) (by decide)
  have hfold : fold ('"' :: (v ++ ['"'])) = '"' :: (v ++ ['"']) := by
    rw [fold_cons, fold_append, fold_of_normal hv]
    rfl
  have hphrase : phraseTokens v = [.phrase v] := by
    unfold phraseTokens
    rw [hv]
    split
    · exact absurd rfl hne
    · rfl
  rw [writtenTokens, hfold, pieces_quoted hquote, pieces, List.flatMap_singleton, Piece.tokens, hphrase]

/-- A leaf is written with paired quotes and read as its token. -/
theorem Leaf.IsCanonical.writtenTokens_render {l : Leaf} (h : l.IsCanonical) :
    Even (l.render.count '"') ∧ writtenTokens l.render = [l.token] := by
  cases l with
  | word v => exact ⟨even_count_of_not_mem (h.1.not_mem (by decide)), writtenTokens_word h.1 h.2⟩
  | stem v =>
    refine ⟨even_count_of_not_mem fun hmem => ?_, writtenTokens_stem h⟩
    rcases List.mem_append.1 hmem with hmem | hmem
    · rcases h with rfl | h
      · cases hmem
      · exact h.not_mem (by decide) hmem
    · exact absurd hmem (by decide)
  | phrase v =>
    refine ⟨?_, writtenTokens_phrase h.1 h.2⟩
    have hquote : '"' ∉ v := not_mem_of_normal h.2 (by decide) (by decide)
    rw [Leaf.render, List.count_cons_self, List.count_append, List.count_eq_zero.2 hquote]
    decide

/-! ### Lexing an expression -/

/-- What stands around a binary connective and within parentheses is read on its own. -/
private theorem writtenTokens_joined (c : Connective) {l r : Text} {ts us : List Token}
    (hl : Even (l.count '"') ∧ writtenTokens l = ts) (hr : Even (r.count '"') ∧ writtenTokens r = us) :
    Even (('(' :: (l ++ ' ' :: (c.text ++ ' ' :: (r ++ [')'])))).count '"') ∧
    writtenTokens ('(' :: (l ++ ' ' :: (c.text ++ ' ' :: (r ++ [')'])))) =
      .opening :: ((ts ++ .connective c :: us) ++ [.closing]) := by
  obtain ⟨hl, rfl⟩ := hl
  obtain ⟨hr, rfl⟩ := hr
  constructor
  · have hc : c.text.count '"' = 0 := by cases c <;> decide
    simp only [List.count_cons, List.count_append, hc]
    simpa using hl.add hr
  · have hend : writtenTokens [')'] = [.closing] := by decide +kernel
    rw [writtenTokens_opening, writtenTokens_append hl (.of_head (by decide)), writtenTokens_blank,
      writtenTokens_connective, writtenTokens_append hr (.of_head (by decide)), hend, List.append_assoc,
      List.cons_append]

/-- The canonical text is written with paired quotes and has the tokens of the expression. -/
theorem writtenTokens_render {e : Expr} (h : ∀ l ∈ e.leaves, l.IsCanonical) :
    Even (e.render.count '"') ∧ writtenTokens e.render = e.tokens := by
  induction e with
  | leaf l => exact (h l (by simp [Expr.leaves])).writtenTokens_render
  | not e ih =>
    obtain ⟨hcount, htokens⟩ := ih h
    refine ⟨?_, ?_⟩
    · rw [Expr.render, List.count_append]
      simpa using hcount
    · have hnot := writtenTokens_connective .not e.render
      rw [htokens] at hnot
      exact hnot
  | and l r ihl ihr =>
    have hl := ihl fun x hx => h x (List.mem_append_left _ hx)
    have hr := ihr fun x hx => h x (List.mem_append_right _ hx)
    exact writtenTokens_joined .and hl hr
  | or l r ihl ihr =>
    have hl := ihl fun x hx => h x (List.mem_append_left _ hx)
    have hr := ihr fun x hx => h x (List.mem_append_right _ hx)
    exact writtenTokens_joined .or hl hr

/-! ### Deriving the tokens -/

theorem IsNormalWord.ofTerm {v : Text} (h : IsNormalWord v) (m : Bool) :
    Leaf.ofTerm v m = if m then .stem v else .word v := by
  have hblank : ' ' ∉ v := h.not_mem (by decide)
  simp only [Leaf.ofTerm, normalise_of_isNormalWord h, if_neg hblank]

theorem Leaf.IsCanonical.derives {l : Leaf} (h : l.IsCanonical) (n : Nat) : Derives n .primary [l.token] (.leaf l) := by
  cases l with
  | word v =>
    have hterm := Derives.term (n := n) v false
    rw [h.1.ofTerm] at hterm
    exact hterm
  | stem v =>
    have hterm := Derives.term (n := n) v true
    rcases h with rfl | h
    · have hempty : Leaf.ofTerm [] true = .stem [] := by decide +kernel
      rw [hempty] at hterm
      exact hterm
    · rw [h.ofTerm] at hterm
      exact hterm
  | phrase v =>
    have hphrase := Derives.phrase (n := n) v
    rw [h.2] at hphrase
    exact hphrase

/-- The tokens of an expression are derived as an operand, with groups nested as deep as the expression. -/
theorem derives_tokens {e : Expr} (h : ∀ l ∈ e.leaves, l.IsCanonical) {n : Nat} (hn : e.depth ≤ n) :
    Derives n .negation e.tokens e := by
  induction e generalizing n with
  | leaf l => exact .primary ((h l (by simp [Expr.leaves])).derives n)
  | not e ih => exact .not (ih h hn)
  | and l r ihl ihr =>
    rw [Expr.depth] at hn
    obtain ⟨m, rfl⟩ : ∃ m, n = m + 1 := ⟨n - 1, by omega⟩
    have hl := (ihl (fun x hx => h x (List.mem_append_left _ hx)) (n := m) (by omega)).conjunction_of_negation
    have hr := ihr (fun x hx => h x (List.mem_append_right _ hx)) (n := m) (by omega)
    exact .primary (.group (hl.and hr).disjunction_of_conjunction)
  | or l r ihl ihr =>
    rw [Expr.depth] at hn
    obtain ⟨m, rfl⟩ : ∃ m, n = m + 1 := ⟨n - 1, by omega⟩
    have hl := (ihl (fun x hx => h x (List.mem_append_left _ hx)) (n := m) (by omega)).conjunction_of_negation
    have hr := (ihr (fun x hx => h x (List.mem_append_right _ hx)) (n := m) (by omega)).conjunction_of_negation
    exact .primary (.group (hl.disjunction_of_conjunction.or hr))

theorem tokens_render {e : Expr} (h : ∀ l ∈ e.leaves, l.IsCanonical) : Query.tokens e.render = e.tokens := by
  have hchain := (derives_tokens h (Nat.le_refl _)).alternates.chain
  rw [Query.tokens, tokenise, (writtenTokens_render h).2,
    dropRedundant_eq_self_iff.2 (hchain.imp fun _ _ hab => hab.kept),
    spliceAnds_of_isChain (hchain.imp fun _ _ hab => hab.abuts)]

theorem mem_tokens {e : Expr} {t : Token} (h : t ∈ e.tokens) (ht : t.isOperand = true) : ∃ l ∈ e.leaves, t = l.token := by
  induction e with
  | leaf l => exact ⟨l, List.mem_singleton.2 rfl, List.mem_singleton.1 h⟩
  | not e ih =>
    rcases List.mem_cons.1 h with rfl | h
    · cases ht
    · exact ih h
  | and l r ihl ihr | or l r ihl ihr =>
    simp only [Expr.tokens, List.mem_cons, List.mem_append, List.not_mem_nil, or_false] at h
    rcases h with rfl | (h | rfl | h) | rfl
    · cases ht
    · obtain ⟨x, hx, rfl⟩ := ihl h
      exact ⟨x, List.mem_append_left _ hx, rfl⟩
    · cases ht
    · obtain ⟨x, hx, rfl⟩ := ihr h
      exact ⟨x, List.mem_append_right _ hx, rfl⟩
    · cases ht

/-- Among the tokens of an expression a marked term without words is the empty one. -/
theorem eq_nil_of_mem_tokens {e : Expr} (h : ∀ l ∈ e.leaves, l.IsCanonical) {w : Text}
    (hw : .term w true ∈ e.tokens) (hnil : normalise w = []) : w = [] := by
  obtain ⟨l, hl, htoken⟩ := mem_tokens hw rfl
  cases l with
  | stem v =>
    cases htoken
    rcases h _ hl with hempty | hword
    · exact hempty
    · rw [normalise_of_isNormalWord hword] at hnil
      exact absurd hnil hword.1
  | word v => cases htoken
  | phrase v => cases htoken

/-- The canonical text of an expression that nests within the limit reads back as the expression.  The only warnings
about it are those about its empty word starts. -/
theorem compile_render {e : Expr} (h : ∀ l ∈ e.leaves, l.IsCanonical) (hd : e.depth ≤ maxNesting) :
    (Query.compile e.render).root? = some e ∧
    ∀ w ∈ (Query.compile e.render).warnings, ∃ p,
      w = .bareWildcard p ∧ (Query.tokens e.render)[p]? = some (.term [] true) := by
  have hderives := (derives_tokens h hd).conjunction_of_negation.disjunction_of_conjunction
  obtain ⟨hroot, hclean⟩ := parse_of_derives hderives
  rw [Query.compile, tokens_render h]
  refine ⟨hroot, fun w hw => ?_⟩
  -- a warning about a derived list is about a mark, and it points at a marked term without words
  obtain ⟨p, rfl⟩ := hclean w hw
  obtain ⟨t, q, hmem, hq, v, rfl, hv⟩ := pointsInto_parse hw rfl
  cases hq
  have hget := List.mk_mem_zipIdx_iff_getElem?.1 hmem
  have hnil := eq_nil_of_mem_tokens h (List.mem_of_getElem? hget) hv
  rw [hnil] at hget
  exact ⟨p, rfl, hget⟩

/-- A negated mark on nothing, the start of a connective, and a phrase that holds one. -/
def markedExpr : Expr := .or (.and (.not (.leaf (.stem []))) (.leaf (.stem "and".toList))) (.leaf (.phrase "a or b".toList))

theorem compile_render_markedExpr :
    ((∀ l ∈ markedExpr.leaves, l.IsCanonical) ∧ markedExpr.depth ≤ maxNesting) ∧
    (Query.compile markedExpr.render).root? = some markedExpr ∧
    ∀ w ∈ (Query.compile markedExpr.render).warnings, ∃ p,
      w = .bareWildcard p ∧ (Query.tokens markedExpr.render)[p]? = some (.term [] true) := by
  have h : ∀ l ∈ markedExpr.leaves, l.IsCanonical := by decide +kernel
  have hd : markedExpr.depth ≤ maxNesting := by decide
  exact ⟨⟨h, hd⟩, compile_render h hd⟩

end KeywordRules
