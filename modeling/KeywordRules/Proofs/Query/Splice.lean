import KeywordRules.Query.Token
import Mathlib.Data.List.Chain

/-!
# Spliced token lists

After splicing no operand begins right after a token that may end one (`isChain_spliceAnds`).  Two lists side by side are
spliced as they are alone, and between them only the tokens that meet there matter (`spliceAnds_append`).
-/

namespace KeywordRules

/-- The tokens `a` and `b` may stand side by side without a conjunction between them. -/
def Abuts (a b : Token) : Prop := a.endsValue = true → b.startsValue = false

instance : DecidableRel Abuts := fun _ _ => inferInstanceAs (Decidable (_ → _))

theorem head?_spliceAnds (ts : List Token) : (spliceAnds ts).head? = ts.head? := by
  fun_cases spliceAnds ts <;> rfl

theorem mem_spliceAnds {t : Token} {ts : List Token} (h : t ∈ spliceAnds ts) : t = .connective .and ∨ t ∈ ts := by
  fun_induction spliceAnds ts with
  | case1 a b ts hab ih =>
    rcases List.mem_cons.1 h with rfl | h
    · exact .inr List.mem_cons_self
    · rcases List.mem_cons.1 h with rfl | h
      · exact .inl rfl
      · exact (ih h).imp_right (List.mem_cons_of_mem a)
  | case2 a b ts hab ih =>
    rcases List.mem_cons.1 h with rfl | h
    · exact .inr List.mem_cons_self
    · exact (ih h).imp_right (List.mem_cons_of_mem a)
  | case3 ts hts => exact .inr h

/-- What does not look at `AND` sees the tokens as they were. -/
theorem filterMap_spliceAnds {α : Type} {f : Token → Option α} (hf : f (.connective .and) = none) (ts : List Token) :
    (spliceAnds ts).filterMap f = ts.filterMap f := by
  fun_induction spliceAnds ts with
  | case1 a b ts hab ih => rw [List.filterMap_cons, List.filterMap_cons_none hf, ih, ← List.filterMap_cons]
  | case2 a b ts hab ih => rw [List.filterMap_cons, ih, ← List.filterMap_cons]
  | case3 ts hts => rfl

/-- Splicing leaves no operand right after another. -/
theorem isChain_spliceAnds (ts : List Token) : (spliceAnds ts).IsChain Abuts := by
  fun_induction spliceAnds ts with
  | case1 a b ts h ih =>
    have hb : Abuts (.connective .and) b := fun h => absurd h (by simp [Token.endsValue])
    rw [List.isChain_cons_cons, List.isChain_cons, head?_spliceAnds]
    refine ⟨fun _ => rfl, fun c hc => ?_, ih⟩
    rw [List.head?_cons, Option.mem_some_iff] at hc
    exact hc ▸ hb
  | case2 a b ts h ih =>
    rw [List.isChain_cons, head?_spliceAnds]
    refine ⟨fun c hc => ?_, ih⟩
    rw [List.head?_cons, Option.mem_some_iff] at hc
    subst hc
    intro ha
    simpa [ha] using h
  | case3 ts h =>
    rcases ts with _ | ⟨a, _ | ⟨b, ts⟩⟩
    · exact .nil
    · exact .singleton a
    · exact absurd rfl (h a b ts)

theorem spliceAnds_of_isChain {ts : List Token} (h : ts.IsChain Abuts) : spliceAnds ts = ts := by
  fun_induction spliceAnds ts with
  | case1 a b ts hab ih =>
    rw [Bool.and_eq_true] at hab
    have habuts := (List.isChain_cons_cons.1 h).1 hab.1
    rw [hab.2] at habuts
    cases habuts
  | case2 a b ts hab ih => rw [ih (List.isChain_cons_cons.1 h).2]
  | case3 ts h => rfl

/-! ### Lists side by side -/

/-- The conjunction that is spliced between two lists, if one is. -/
def andBetween (ts us : List Token) : List Token :=
  if ts.getLast?.any Token.endsValue && us.head?.any Token.startsValue then [.connective .and] else []

theorem spliceAnds_cons (a : Token) (ts : List Token) :
    spliceAnds (a :: ts) = a :: (andBetween [a] ts ++ spliceAnds ts) := by
  rcases ts with _ | ⟨b, ts⟩
  · rw [spliceAnds_singleton, spliceAnds_nil, andBetween, List.head?_nil, Option.any_none, Bool.and_false,
      if_neg Bool.false_ne_true, List.nil_append]
  · rw [spliceAnds, andBetween, List.getLast?_singleton, List.head?_cons, Option.any_some, Option.any_some]
    split
    · rfl
    · rfl

theorem spliceAnds_append (ts us : List Token) :
    spliceAnds (ts ++ us) = spliceAnds ts ++ (andBetween ts us ++ spliceAnds us) := by
  induction ts with
  | nil =>
    rw [List.nil_append, andBetween, List.getLast?_nil, Option.any_none, Bool.false_and, if_neg Bool.false_ne_true]
    rfl
  | cons a ts ih =>
    rcases ts with _ | ⟨b, ts⟩
    · rw [List.singleton_append, spliceAnds_cons, spliceAnds_singleton, List.singleton_append]
    · -- the tokens that meet are the same without the first one
      have hlast : andBetween (a :: b :: ts) us = andBetween (b :: ts) us := by
        rw [andBetween, List.getLast?_cons_cons, andBetween]
      have hhead : andBetween [a] (b :: ts ++ us) = andBetween [a] (b :: ts) := rfl
      rw [List.cons_append, spliceAnds_cons, ih, hhead, hlast, spliceAnds_cons a, List.cons_append, List.append_assoc]

end KeywordRules
