import KeywordRules.Proofs.Query.Splice

/-!
# Splicing is the least completion

A token list is complete if no operand begins right after a token that may end one.  Conjunctions can be put into a list in
many ways that complete it; splicing does so with as few as possible, so what it gives is contained in all of them
(`spliceAnds_le`).  It says of each of its conjunctions where it stands (`getElem?_spliceAnds_of_lacksAnd`), and without
those the list is as it was (`withoutPlaces_spliceAnds`).  The main statement is `spliceAnds_completes`.
-/

namespace KeywordRules

/-! ### Completions -/

/-- The second list is the first one with conjunctions put in, anywhere and any number of them. -/
inductive Inserted : List Token → List Token → Prop
  | nil : Inserted [] []
  | keep (t : Token) {ts us : List Token} : Inserted ts us → Inserted (t :: ts) (t :: us)
  | insert {ts us : List Token} : Inserted ts us → Inserted ts (.connective .and :: us)

namespace Inserted

variable {ts us : List Token}

/-- A list that begins with something else than a conjunction begins behind a conjunction that was put in. -/
theorem of_and {b : Token} (hb : b ≠ .connective .and) (h : Inserted (b :: ts) (.connective .and :: us)) :
    Inserted (b :: ts) us := by
  cases h with
  | keep _ _ => exact absurd rfl hb
  | insert h => exact h

theorem andBetween_append (ts us : List Token) {vs ws : List Token} (h : Inserted vs ws) :
    Inserted vs (andBetween ts us ++ ws) := by
  unfold andBetween
  split
  · exact h.insert
  · exact h

end Inserted

/-- Splicing puts in nothing but conjunctions. -/
theorem inserted_spliceAnds (ts : List Token) : Inserted ts (spliceAnds ts) := by
  induction ts with
  | nil => exact .nil
  | cons a ts ih =>
    rw [spliceAnds_cons]
    exact (ih.andBetween_append [a] ts).keep a

private theorem ne_and_of_startsValue {b : Token} (h : b.startsValue = true) : b ≠ .connective .and := by
  rintro rfl
  cases h

/-- Whatever completes a list by conjunctions holds those that are spliced. -/
theorem spliceAnds_le {ts us : List Token} (h : Inserted ts us) (hus : us.IsChain Abuts) :
    Inserted (spliceAnds ts) us := by
  induction h with
  | nil => exact .nil
  | insert _ ih => exact (ih hus.of_cons).insert
  | @keep a ts us h ih =>
    have hrest := ih hus.of_cons
    rw [spliceAnds_cons, andBetween, List.getLast?_singleton, Option.any_some]
    split
    · next hgap =>
      obtain ⟨ha, hb⟩ := Bool.and_eq_true_iff.1 hgap
      rcases ts with _ | ⟨b, ts⟩
      · cases hb
      · have hne : b ≠ .connective .and := ne_and_of_startsValue hb
        -- the operand may not stand right behind the token before it, so a conjunction was put in between them
        cases h with
        | keep _ _ =>
          have habuts : Abuts a b := (List.isChain_cons_cons.1 hus).1
          rw [List.head?_cons, Option.any_some, habuts ha] at hb
          cases hb
        | insert _ =>
          rw [spliceAnds_cons] at hrest ⊢
          exact ((hrest.of_and hne).keep _).keep a
    · exact hrest.keep a

/-! ### Complete lists -/

theorem spliceAnds_spliceAnds (ts : List Token) : spliceAnds (spliceAnds ts) = spliceAnds ts :=
  spliceAnds_of_isChain (isChain_spliceAnds ts)

/-! ### From left to right -/

/-- Writes a token behind what has been written, and a conjunction before it if one is missing. -/
def writeToken (written : List Token) (t : Token) : List Token := written ++ (andBetween written [t] ++ [t])

theorem getLast?_spliceAnds (ts : List Token) : (spliceAnds ts).getLast? = ts.getLast? := by
  rcases List.eq_nil_or_concat ts with rfl | ⟨ts, t, rfl⟩
  · rfl
  · rw [List.concat_eq_append, spliceAnds_append, spliceAnds_singleton, ← List.append_assoc,
      List.getLast?_concat, List.getLast?_concat]

/-- Splicing can be done in one pass that looks at no more than the last token it has written. -/
theorem spliceAnds_eq_foldl (ts : List Token) : spliceAnds ts = ts.foldl writeToken [] := by
  induction ts using List.reverseRecOn with
  | nil => rfl
  | append_singleton ts t ih =>
    rw [List.foldl_concat, ← ih, writeToken, andBetween, getLast?_spliceAnds, ← andBetween, spliceAnds_append,
      spliceAnds_singleton]

/-! ### Places -/

/-- Whether a conjunction is missing behind the token at the place `i`. -/
def lacksAnd (ts : List Token) (i : Nat) : Bool := ts[i]?.any Token.endsValue && ts[i + 1]?.any Token.startsValue

/-- The place in the spliced list of the token at the place `i`: one further on for every conjunction before it. -/
def splicedPlace (ts : List Token) (i : Nat) : Nat := i + (List.range i).countP (lacksAnd ts)

/-- Whether the conjunction at the place `k` of the spliced list is one that was spliced. -/
def isSpliced (ts : List Token) (k : Nat) : Bool :=
  (List.range ts.length).any fun i => lacksAnd ts i && k == splicedPlace ts i + 1

/-- The list without what stands at the places `p`. -/
def withoutPlaces (p : Nat → Bool) : List Token → List Token
  | [] => []
  | t :: ts => (if p 0 then [] else [t]) ++ withoutPlaces (fun k => p (k + 1)) ts

theorem andBetween_singleton (a : Token) (ts : List Token) :
    andBetween [a] ts = if lacksAnd (a :: ts) 0 then [.connective .and] else [] := by
  rcases ts with _ | ⟨b, ts⟩ <;> rfl

theorem splicedPlace_zero (ts : List Token) : splicedPlace ts 0 = 0 := rfl

theorem splicedPlace_cons_succ (a : Token) (ts : List Token) (i : Nat) :
    splicedPlace (a :: ts) (i + 1) = (andBetween [a] ts).length + splicedPlace ts i + 1 := by
  have hcount : (List.range (i + 1)).countP (lacksAnd (a :: ts)) =
      (andBetween [a] ts).length + (List.range i).countP (lacksAnd ts) := by
    rw [List.range_succ_eq_map, List.countP_cons, List.countP_map, andBetween_singleton, Nat.add_comm]
    congr 1
    split <;> rfl
  rw [splicedPlace, splicedPlace, hcount]
  omega

/-- Every token is where it was, but for the conjunctions before it. -/
theorem getElem?_spliceAnds (ts : List Token) (i : Nat) : (spliceAnds ts)[splicedPlace ts i]? = ts[i]? := by
  induction ts generalizing i with
  | nil => rfl
  | cons a ts ih =>
    rw [spliceAnds_cons]
    rcases i with _ | i
    · rfl
    · rw [splicedPlace_cons_succ, List.getElem?_cons_succ, List.getElem?_append_right (Nat.le_add_right _ _),
        Nat.add_sub_cancel_left, ih, List.getElem?_cons_succ]

theorem getElem?_spliceAnds_of_lacksAnd {ts : List Token} {i : Nat} (h : lacksAnd ts i = true) :
    (spliceAnds ts)[splicedPlace ts i + 1]? = some (.connective .and) := by
  induction ts generalizing i with
  | nil => cases h
  | cons a ts ih =>
    rw [spliceAnds_cons]
    rcases i with _ | i
    · rw [andBetween_singleton, if_pos h]
      rfl
    · rw [splicedPlace_cons_succ, List.getElem?_cons_succ, Nat.add_assoc,
        List.getElem?_append_right (Nat.le_add_right _ _), Nat.add_sub_cancel_left]
      exact ih h

theorem length_spliceAnds (ts : List Token) : (spliceAnds ts).length = splicedPlace ts ts.length := by
  induction ts with
  | nil => rfl
  | cons a ts ih =>
    rw [spliceAnds_cons, List.length_cons, List.length_append, ih, List.length_cons, splicedPlace_cons_succ]

/-! ### Taking the conjunctions out again -/

theorem isSpliced_iff {ts : List Token} {k : Nat} :
    isSpliced ts k = true ↔ ∃ i, lacksAnd ts i = true ∧ k = splicedPlace ts i + 1 := by
  rw [isSpliced, List.any_eq_true]
  constructor
  · rintro ⟨i, -, hi⟩
    obtain ⟨hlacks, hk⟩ := Bool.and_eq_true_iff.1 hi
    exact ⟨i, hlacks, beq_iff_eq.1 hk⟩
  · rintro ⟨i, hlacks, hk⟩
    refine ⟨i, List.mem_range.2 ?_, Bool.and_eq_true_iff.2 ⟨hlacks, beq_iff_eq.2 hk⟩⟩
    by_contra hlength
    rw [lacksAnd, List.getElem?_eq_none (Nat.le_of_not_lt hlength)] at hlacks
    cases hlacks

/-- Behind what follows the first token the places are those of the rest. -/
theorem isSpliced_cons_add (a : Token) (ts : List Token) (k : Nat) :
    isSpliced (a :: ts) ((andBetween [a] ts).length + k + 1) = isSpliced ts k := by
  rw [Bool.eq_iff_iff, isSpliced_iff, isSpliced_iff]
  constructor
  · rintro ⟨i, hlacks, hk⟩
    rcases i with _ | i
    · -- a conjunction right behind the first token has its place before
      rw [andBetween_singleton, if_pos hlacks, List.length_singleton, splicedPlace_zero] at hk
      omega
    · rw [splicedPlace_cons_succ] at hk
      exact ⟨i, hlacks, by omega⟩
  · rintro ⟨i, hlacks, rfl⟩
    refine ⟨i + 1, hlacks, ?_⟩
    rw [splicedPlace_cons_succ]
    omega

theorem withoutPlaces_append (p : Nat → Bool) (ts us : List Token) :
    withoutPlaces p (ts ++ us) = withoutPlaces p ts ++ withoutPlaces (fun k => p (ts.length + k)) us := by
  induction ts generalizing p with
  | nil => simp [withoutPlaces]
  | cons t ts ih =>
    have hshift : (fun k => p (ts.length + k + 1)) = fun k => p ((t :: ts).length + k) := by
      funext k
      rw [List.length_cons, Nat.add_right_comm]
    rw [List.cons_append, withoutPlaces, ih, hshift, withoutPlaces, List.append_assoc]

theorem withoutPlaces_spliceAnds (ts : List Token) : withoutPlaces (isSpliced ts) (spliceAnds ts) = ts := by
  induction ts with
  | nil => rfl
  | cons a ts ih =>
    have hfirst : isSpliced (a :: ts) 0 = false := by
      rw [Bool.eq_false_iff, Ne, isSpliced_iff]
      rintro ⟨i, -, hi⟩
      exact absurd hi (Nat.succ_ne_zero _).symm
    have hand : withoutPlaces (fun k => isSpliced (a :: ts) (k + 1)) (andBetween [a] ts) = [] := by
      rw [andBetween_singleton]
      split
      · next hgap =>
        have hspliced : isSpliced (a :: ts) 1 = true := isSpliced_iff.2 ⟨0, hgap, rfl⟩
        rw [withoutPlaces, if_pos hspliced]
        rfl
      · rfl
    have hrest : (fun k => isSpliced (a :: ts) ((andBetween [a] ts).length + k + 1)) = isSpliced ts :=
      funext (isSpliced_cons_add a ts)
    rw [spliceAnds_cons, withoutPlaces, hfirst, withoutPlaces_append, hand, hrest, ih]
    rfl

/-! ### The law of splicing -/

/-- Splicing is the least completion.  No operand stands right after the end of another one, only conjunctions have been put
in, and every list for which this is so holds the spliced one.  Every token has moved on by the conjunctions before it, one
conjunction stands behind each token that lacked one, and there is nothing else; without those conjunctions the tokens are
as they were.  A spliced list is left alone, and two lists are spliced apart, with a conjunction between them if the tokens
that meet lack one.  One pass that looks at the last token written does it. -/
theorem spliceAnds_completes (ts : List Token) :
    ((spliceAnds ts).IsChain Abuts ∧ Inserted ts (spliceAnds ts) ∧
      ∀ us, Inserted ts us → us.IsChain Abuts → Inserted (spliceAnds ts) us) ∧
    ((∀ i, (spliceAnds ts)[splicedPlace ts i]? = ts[i]?) ∧
      (∀ i, lacksAnd ts i = true → (spliceAnds ts)[splicedPlace ts i + 1]? = some (.connective .and)) ∧
      (spliceAnds ts).length = ts.length + (List.range ts.length).countP (lacksAnd ts)) ∧
    withoutPlaces (isSpliced ts) (spliceAnds ts) = ts ∧
    spliceAnds (spliceAnds ts) = spliceAnds ts ∧
    (∀ us, spliceAnds (ts ++ us) = spliceAnds ts ++ (andBetween ts us ++ spliceAnds us)) ∧
    spliceAnds ts = ts.foldl writeToken [] := by
  refine ⟨⟨isChain_spliceAnds ts, inserted_spliceAnds ts, fun us h hus => spliceAnds_le h hus⟩,
    ⟨getElem?_spliceAnds ts, fun i h => getElem?_spliceAnds_of_lacksAnd h, length_spliceAnds ts⟩,
    withoutPlaces_spliceAnds ts, spliceAnds_spliceAnds ts, spliceAnds_append ts, spliceAnds_eq_foldl ts⟩

/-- Tokens of which the second and the third lack a conjunction behind them. -/
def unjoined : List Token := [.term ['a'] false, .closing, .term ['b'] true, .connective .not]

/-- The same tokens with two conjunctions more than they need. -/
def overjoined : List Token :=
  [.term ['a'] false, .connective .and, .closing, .connective .and, .connective .and, .term ['b'] true,
    .connective .and, .connective .not]

theorem spliceAnds_completes_unjoined :
    (Inserted unjoined overjoined ∧ overjoined.IsChain Abuts ∧ lacksAnd unjoined 2 = true) ∧
    Inserted (spliceAnds unjoined) overjoined ∧
    (spliceAnds unjoined)[splicedPlace unjoined 2 + 1]? = some (.connective .and) := by
  have hinserted : Inserted unjoined overjoined :=
    (((((Inserted.nil.keep _).insert.keep _).insert).insert.keep _).insert).keep _
  have hchain : overjoined.IsChain Abuts := by decide
  have hlacks : lacksAnd unjoined 2 = true := by decide
  obtain ⟨⟨-, -, hleast⟩, ⟨-, hand, -⟩, -⟩ := spliceAnds_completes unjoined
  exact ⟨⟨hinserted, hchain, hlacks⟩, hleast _ hinserted hchain, hand 2 hlacks⟩

end KeywordRules
