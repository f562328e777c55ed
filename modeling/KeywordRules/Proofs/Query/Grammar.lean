import KeywordRules.Query.Parser

/-!
# The grammar of queries

The well-formed token lists and their expressions, as a relation that does not mention the parser:

    disjunction := conjunction (OR conjunction)*
    conjunction := negation (AND negation)*
    negation    := NOT negation | primary
    primary     := '(' disjunction ')' | term | phrase

Chains associate to the left, and a bound on the nesting of groups is part of the relation.
-/

namespace KeywordRules

inductive Nonterminal where
  | disjunction
  | conjunction
  | negation
  | primary
deriving DecidableEq, Repr

/-- `Derives n k ts e`: the tokens `ts` are derived from `k` with groups nested at most `n` deep, and the derivation
has the expression `e`. -/
inductive Derives : Nat → Nonterminal → List Token → Expr → Prop where
  | disjunction {n : Nat} {ts : List Token} {e : Expr} (more : List (List Token × Expr))
      (first : Derives n .conjunction ts e) (rest : ∀ r ∈ more, Derives n .conjunction r.1 r.2) :
      Derives n .disjunction (ts ++ more.flatMap fun r => .connective .or :: r.1)
        (more.foldl (fun l r => .or l r.2) e)
  | conjunction {n : Nat} {ts : List Token} {e : Expr} (more : List (List Token × Expr))
      (first : Derives n .negation ts e) (rest : ∀ r ∈ more, Derives n .negation r.1 r.2) :
      Derives n .conjunction (ts ++ more.flatMap fun r => .connective .and :: r.1)
        (more.foldl (fun l r => .and l r.2) e)
  | not {n : Nat} {ts : List Token} {e : Expr} (operand : Derives n .negation ts e) :
      Derives n .negation (.connective .not :: ts) (.not e)
  | primary {n : Nat} {ts : List Token} {e : Expr} (operand : Derives n .primary ts e) : Derives n .negation ts e
  | group {n : Nat} {ts : List Token} {e : Expr} (inside : Derives n .disjunction ts e) :
      Derives (n + 1) .primary (.opening :: (ts ++ [.closing])) e
  | term {n : Nat} (word : Text) (marked : Bool) :
      Derives n .primary [.term word marked] (.leaf (Leaf.ofTerm word marked))
  | phrase {n : Nat} (text : Text) : Derives n .primary [.phrase text] (.leaf (.phrase (normalise text)))

namespace Derives

theorem disjunction_of_conjunction {n : Nat} {ts : List Token} {e : Expr} (h : Derives n .conjunction ts e) :
    Derives n .disjunction ts e := by
  simpa using Derives.disjunction [] h (by simp)

theorem conjunction_of_negation {n : Nat} {ts : List Token} {e : Expr} (h : Derives n .negation ts e) :
    Derives n .conjunction ts e := by
  simpa using Derives.conjunction [] h (by simp)

/-- A disjunction goes on with one more conjunction. -/
theorem or {n : Nat} {ts us : List Token} {l r : Expr} (hl : Derives n .disjunction ts l)
    (hr : Derives n .conjunction us r) : Derives n .disjunction (ts ++ .connective .or :: us) (.or l r) := by
  cases hl with
  | disjunction more first rest =>
    have h := Derives.disjunction (more ++ [(us, r)]) first (by
      intro q hq
      rcases List.mem_append.1 hq with hq | hq
      · exact rest q hq
      · rw [List.mem_singleton.1 hq]; exact hr)
    simpa using h

/-- A conjunction goes on with one more negation. -/
theorem and {n : Nat} {ts us : List Token} {l r : Expr} (hl : Derives n .conjunction ts l)
    (hr : Derives n .negation us r) : Derives n .conjunction (ts ++ .connective .and :: us) (.and l r) := by
  cases hl with
  | conjunction more first rest =>
    have h := Derives.conjunction (more ++ [(us, r)]) first (by
      intro q hq
      rcases List.mem_append.1 hq with hq | hq
      · exact rest q hq
      · rw [List.mem_singleton.1 hq]; exact hr)
    simpa using h

end Derives

end KeywordRules
