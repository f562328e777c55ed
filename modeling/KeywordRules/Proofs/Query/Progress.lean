import KeywordRules.Proofs.Query.ScanStream

/-!
# Pieces take tokens

A piece of a query takes at least one token (`length_readPiece`): the operand it begins with, or the connective that
lacks its first operand.  So the parser never has to give up a token to go on.
-/

namespace KeywordRules

/-! ### Operands -/

theorem length_readLeaf {s : TokenStream} {t : Token} {p : Nat} {ts : List (Token × Nat)}
    (h : s.tokens = (t, p) :: ts) (ht : t.isOperand = true) : (readLeaf s).rest.length < s.length := by
  fun_cases readLeaf s with
  | case1 w m q us htoks leaf => simp [TokenStream.length, htoks]
  | case2 v q us htoks => simp [TokenStream.length, htoks]
  | case3 hterm hphrase =>
    cases t with
    | term w m => exact absurd h (hterm w m p ts)
    | phrase v => exact absurd h (hphrase v p ts)
    | _ => cases ht

theorem rest_readLeaf {s : TokenStream} {t : Token} {p : Nat} {ts : List (Token × Nat)}
    (h : s.tokens = (t, p) :: ts) (ht : t.isOperand = false) : (readLeaf s).rest = s := by
  fun_cases readLeaf s with
  | case1 w m q us htoks leaf => rw [htoks] at h; cases h; cases ht
  | case2 v q us htoks => rw [htoks] at h; cases h; cases ht
  | case3 hterm hphrase => rfl

/-- An operand takes at least the token it begins with. -/
theorem length_readNegation {group : Reading} {s : TokenStream} (hs : s.Settled false) {t : Token} {p : Nat}
    {ts : List (Token × Nat)} (h : s.tokens = (t, p) :: ts) (ht : t.startsValue = true) :
    (readNegation false (readPrimary false group) s).rest.length < s.length := by
  fun_cases readNegation false (readPrimary false group) s with
  | case1 u q us htoks inner le e he => exact Nat.lt_of_le_of_lt inner.le (TokenStream.length_lt_of_settle htoks)
  | case2 u q us htoks inner le he => exact Nat.lt_of_le_of_lt inner.le (TokenStream.length_lt_of_settle htoks)
  | case3 u operand hnot =>
    change (readPrimary false group (s.settle false)).rest.length < s.length
    rw [hs.settle_eq.1]
    fun_cases readPrimary false group s with
    | case1 u q us htoks inner lt r vs hclose =>
      simp only [TokenStream.length, hclose, List.length_cons] at lt ⊢
      omega
    | case2 u q us htoks inner lt hclose => exact lt
    | case3 u leaf hopen =>
      change (readLeaf (s.settle false)).rest.length < s.length
      rw [hs.settle_eq.1]
      have hu : u.tokens = (t, p) :: ts := by rw [← h]; exact congrArg _ hs.settle_eq.1
      apply length_readLeaf h
      cases t with
      | opening => exact absurd hu (hopen p ts)
      | closing => cases ht
      | connective c =>
        cases c with
        | not => exact absurd h (by rw [← hs.settle_eq.1]; exact hnot p ts)
        | and => cases ht
        | or => cases ht
      | _ => rfl

/-- An operand that does not begin here takes nothing. -/
theorem rest_readNegation {group : Reading} {s : TokenStream} (hs : s.Settled false) {c : Connective} {p : Nat}
    {ts : List (Token × Nat)} (h : s.tokens = (.connective c, p) :: ts) (hc : c ≠ .not) :
    (readNegation false (readPrimary false group) s).rest = s := by
  have hset := hs.settle_eq.1
  fun_cases readNegation false (readPrimary false group) s with
  | case1 u q us htoks inner le e he =>
    rw [show u = s from hset, h] at htoks
    cases htoks
    exact absurd rfl hc
  | case2 u q us htoks inner le he =>
    rw [show u = s from hset, h] at htoks
    cases htoks
    exact absurd rfl hc
  | case3 u operand hnot =>
    change (readPrimary false group (s.settle false)).rest = s
    rw [hset]
    fun_cases readPrimary false group s with
    | case1 u q us htoks inner lt r vs hclose =>
      rw [show u = s from hset, h] at htoks
      cases htoks
    | case2 u q us htoks inner lt hclose =>
      rw [show u = s from hset, h] at htoks
      cases htoks
    | case3 u leaf hopen =>
      change (readLeaf (s.settle false)).rest = s
      rw [hset]
      exact rest_readLeaf h rfl

/-! ### Chains -/

theorem length_readChain {inGroup : Bool} {c : Connective} {build : Expr → Expr → Expr} {operand : Reading}
    (left : Option Expr) {s : TokenStream} {p : Nat} {ts : List (Token × Nat)}
    (h : (s.settle inGroup).tokens = (.connective c, p) :: ts) :
    (readChain inGroup c build operand left s).rest.length < s.length := by
  fun_cases readChain inGroup c build operand left s with
  | case1 t q us right more htoks lt => exact Nat.lt_of_le_of_lt more.le lt
  | case2 t d q us htoks hd =>
    rw [show t.tokens = _ from h] at htoks
    cases htoks
    exact absurd rfl hd
  | case3 t htoks => exact absurd h (htoks c p ts)

theorem rest_readChain_of_lacks {inGroup : Bool} {c : Connective} {build : Expr → Expr → Expr}
    {operand : Reading} (left : Option Expr) {s : TokenStream} (hs : s.Settled inGroup) (h : s.Lacks c) :
    (readChain inGroup c build operand left s).rest = s := by
  fun_cases readChain inGroup c build operand left s with
  | case1 t q us right more htoks lt =>
    rw [show t = s from hs.settle_eq.1] at htoks
    exact absurd htoks (h q us)
  | case2 t d q us htoks hd => exact hs.settle_eq.1
  | case3 t htoks => exact hs.settle_eq.1

/-- A piece takes at least one token. -/
theorem length_readPiece {s : TokenStream} (hs : s.Settled false) (hne : s.tokens ≠ []) :
    (readDisjunction false maxNesting s).rest.length < s.length := by
  obtain ⟨⟨t, p⟩, ts, h⟩ := List.exists_cons_of_ne_nil hne
  let group := readDisjunction true (maxNesting - 1)
  let operand := readNegation false (readPrimary false group)
  let conj := readOperands false .and .and operand
  have hset : (s.settle false).tokens = (t, p) :: ts := by rw [hs.settle_eq.1, h]
  have hdisj : (readDisjunction false maxNesting s).rest.length ≤ (conj s).rest.length :=
    (readChain false .or .or conj (conj s).expr? (conj s).rest).le
  have hconj : (conj s).rest.length ≤ (operand s).rest.length :=
    (readChain false .and .and operand (operand s).expr? (operand s).rest).le
  cases ht : t.startsValue with
  | true => exact Nat.lt_of_le_of_lt (Nat.le_trans hdisj hconj) (length_readNegation hs h ht)
  | false =>
    cases t with
    | closing => exact absurd (hs p ts h).1 (by simp)
    | connective c =>
      cases c with
      | not => cases ht
      | and =>
        have hrest : (operand s).rest = s := rest_readNegation hs h (by simp)
        have hlt : (conj s).rest.length < s.length := by
          change (readChain false .and .and operand (operand s).expr? (operand s).rest).rest.length < s.length
          rw [hrest]
          exact length_readChain _ hset
        exact Nat.lt_of_le_of_lt hdisj hlt
      | or =>
        have hrest : (operand s).rest = s := rest_readNegation hs h (by simp)
        have hrest' : (conj s).rest = s := by
          change (readChain false .and .and operand (operand s).expr? (operand s).rest).rest = s
          rw [hrest]
          exact rest_readChain_of_lacks _ hs (fun q us h' => by rw [h] at h'; cases h')
        change (readChain false .or .or conj (conj s).expr? (conj s).rest).rest.length < s.length
        rw [hrest']
        exact length_readChain _ hset
    | _ => cases ht

end KeywordRules
