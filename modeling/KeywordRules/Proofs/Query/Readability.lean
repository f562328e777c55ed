import KeywordRules.Proofs.Query.Canonical

/-!
# Unique readability

However deep an expression nests, its canonical text is the text of no other expression (`render_eq_iff`).  Beyond the
nesting limit the text no longer reads back as a query, but its tokens are still those of the expression, and these can
be told apart from the left: `NOT` begins a negation, a parenthesis a conjunction or a disjunction, and everything else
is a leaf.  Where the left operand ends, its connective stands (`tokens_append_inj`).
-/

namespace KeywordRules

theorem Leaf.token_inj {l m : Leaf} (h : l.token = m.token) : l = m := by
  cases l <;> cases m <;> cases h <;> rfl

namespace Expr

/-- No other expression begins with the tokens of `e`, whatever follows them. -/
def IsDelimited (e : Expr) : Prop :=
  ∀ {f : Expr} {u v : List Token}, e.tokens ++ u = f.tokens ++ v → e = f ∧ u = v

/-- Two operands in parentheses are told apart by the left one, then by the connective, then by the right one. -/
private theorem joined_inj {l r l' r' : Expr} {c d : Connective} {u v : List Token} (hl : l.IsDelimited)
    (hr : r.IsDelimited)
    (h : .opening :: ((l.tokens ++ .connective c :: r.tokens) ++ [.closing]) ++ u =
      .opening :: ((l'.tokens ++ .connective d :: r'.tokens) ++ [.closing]) ++ v) :
    l = l' ∧ c = d ∧ r = r' ∧ u = v := by
  have hinside : l.tokens ++ (.connective c :: (r.tokens ++ .closing :: u)) =
      l'.tokens ++ (.connective d :: (r'.tokens ++ .closing :: v)) := by
    simpa using h
  obtain ⟨rfl, hrest⟩ := hl hinside
  obtain ⟨hc, hright⟩ := List.cons.inj hrest
  obtain ⟨rfl, hend⟩ := hr hright
  exact ⟨rfl, Token.connective.inj hc, rfl, (List.cons.inj hend).2⟩

theorem tokens_append_inj (e : Expr) : e.IsDelimited := by
  induction e with
  | leaf l =>
    intro f u v h
    cases f with
    | leaf m =>
      obtain ⟨hhead, hrest⟩ := List.cons.inj h
      exact ⟨congrArg leaf (Leaf.token_inj hhead), hrest⟩
    | not f | and f g | or f g => cases l <;> cases (List.cons.inj h).1
  | not e ih =>
    intro f u v h
    cases f with
    | leaf m => cases m <;> cases (List.cons.inj h).1
    | not f =>
      obtain ⟨rfl, hrest⟩ := ih (List.cons.inj h).2
      exact ⟨rfl, hrest⟩
    | and f g | or f g => cases (List.cons.inj h).1
  | and l r ihl ihr =>
    intro f u v h
    cases f with
    | leaf m => cases m <;> cases (List.cons.inj h).1
    | not f => cases (List.cons.inj h).1
    | and f g =>
      obtain ⟨rfl, -, rfl, hrest⟩ := joined_inj ihl ihr h
      exact ⟨rfl, hrest⟩
    | or f g =>
      obtain ⟨-, hc, -⟩ := joined_inj ihl ihr h
      cases hc
  | or l r ihl ihr =>
    intro f u v h
    cases f with
    | leaf m => cases m <;> cases (List.cons.inj h).1
    | not f => cases (List.cons.inj h).1
    | and f g =>
      obtain ⟨-, hc, -⟩ := joined_inj ihl ihr h
      cases hc
    | or f g =>
      obtain ⟨rfl, -, rfl, hrest⟩ := joined_inj ihl ihr h
      exact ⟨rfl, hrest⟩

end Expr

/-- Two expressions with leaves that queries can have are the same if their canonical texts are, however deep they nest. -/
theorem render_eq_iff {e f : Expr} (he : ∀ l ∈ e.leaves, l.IsCanonical) (hf : ∀ l ∈ f.leaves, l.IsCanonical) :
    e.render = f.render ↔ e = f := by
  constructor
  · intro h
    have htokens : e.tokens ++ [] = f.tokens ++ [] := by
      rw [List.append_nil, List.append_nil, ← (writtenTokens_render he).2, ← (writtenTokens_render hf).2, h]
    exact (e.tokens_append_inj htokens).1
  · rintro rfl
    rfl

/-- A word at the bottom of `n` conjunctions, each negated. -/
def Expr.negatedDeep (l : Leaf) : Nat → Expr
  | 0 => .leaf l
  | n + 1 => .not (.and (negatedDeep l n) (.leaf (.stem [])))

theorem Expr.isCanonical_negatedDeep {l : Leaf} (h : l.IsCanonical) (n : Nat) :
    ∀ m ∈ (negatedDeep l n).leaves, m.IsCanonical := by
  induction n with
  | zero =>
    intro m hm
    rwa [List.mem_singleton.1 hm]
  | succ n ih =>
    intro m hm
    rcases List.mem_append.1 hm with hm | hm
    · exact ih m hm
    · rw [List.mem_singleton.1 hm]
      exact .inl rfl

/-- A word and the start of a word are told apart beneath more groups than may nest. -/
theorem render_eq_iff_negatedDeep :
    let e := Expr.negatedDeep (.word ['a']) (maxNesting + 1)
    let f := Expr.negatedDeep (.stem ['a']) (maxNesting + 1)
    ((∀ l ∈ e.leaves, l.IsCanonical) ∧ ∀ l ∈ f.leaves, l.IsCanonical) ∧
    (e.render = f.render ↔ e = f) ∧ maxNesting < e.depth ∧ e ≠ f := by
  have he := Expr.isCanonical_negatedDeep (l := .word ['a']) (by decide +kernel) (maxNesting + 1)
  have hf := Expr.isCanonical_negatedDeep (l := .stem ['a']) (by decide +kernel) (maxNesting + 1)
  exact ⟨⟨he, hf⟩, render_eq_iff he hf, by decide +kernel, by decide +kernel⟩

end KeywordRules
