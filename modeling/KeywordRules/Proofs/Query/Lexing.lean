import KeywordRules.Proofs.Text.Fold
import KeywordRules.Query.Lexer
import Mathlib.Algebra.Group.Nat.Even
import Mathlib.Data.List.Basic
import Mathlib.Data.List.TakeWhile

/-!
# Lexing of concatenations

A query whose quotes are paired is lexed on its own, whatever stands after it, if a blank, a parenthesis or a quote keeps
the two apart (`pieces_append`).  Of its neighbour it can only make the first tokens redundant, for nothing but its last
token decides on them (`dropRedundant_append`).  In parentheses it has the tokens it has alone (`dropRedundant_grouped`).
-/

namespace KeywordRules

/-! ### Runs of characters -/

theorem takeWhile_append_stop {p : Char → Bool} {c : Char} (hc : p c = false) (t u : Text) :
    (t ++ c :: u).takeWhile p = t.takeWhile p := by
  induction t with
  | nil => simp [hc]
  | cons a t ih => rw [List.cons_append, List.takeWhile_cons, List.takeWhile_cons, ih]

theorem dropWhile_append_stop {p : Char → Bool} {c : Char} (hc : p c = false) (t u : Text) :
    (t ++ c :: u).dropWhile p = t.dropWhile p ++ c :: u := by
  induction t with
  | nil => simp [hc]
  | cons a t ih =>
    rw [List.cons_append, List.dropWhile_cons, List.dropWhile_cons, ih]
    split <;> rfl

theorem span_without_quote {t : Text} (h : '"' ∉ t) : t.takeWhile (· ≠ '"') = t ∧ t.dropWhile (· ≠ '"') = [] := by
  have hall : ∀ a ∈ t, decide (a ≠ '"') = true := fun a ha => decide_eq_true fun he => h (he ▸ ha)
  exact ⟨List.takeWhile_eq_self_iff.2 hall, List.dropWhile_eq_nil_iff.2 hall⟩

/-- A quoted span goes to the next quote. -/
theorem takeWhile_quote {b : Text} (hb : '"' ∉ b) (u : Text) : (b ++ '"' :: u).takeWhile (· ≠ '"') = b := by
  rw [takeWhile_append_stop (by decide), (span_without_quote hb).1]

theorem drop_dropWhile_quote {b : Text} (hb : '"' ∉ b) (u : Text) :
    ((b ++ '"' :: u).dropWhile (· ≠ '"')).drop 1 = u := by
  rw [dropWhile_append_stop (by decide), (span_without_quote hb).2]
  rfl

/-- A quoted span ends at the first quote after it. -/
theorem pieces_quoted {b : Text} (h : '"' ∉ b) (u : Text) : pieces ('"' :: (b ++ '"' :: u)) = .quoted b :: pieces u := by
  rw [pieces, if_neg (by decide), if_neg (by decide), if_pos rfl, takeWhile_quote h, drop_dropWhile_quote h]

/-- What is left of a run begins with a character that ends the run. -/
theorem stop_of_dropWhile {p : Char → Bool} {t u : Text} {c : Char} (h : t.dropWhile p = c :: u) : p c = false := by
  have hhead := List.head?_dropWhile_not p t
  rw [h] at hhead
  simpa using hhead

/-! ### Seams -/

theorem isRunChar_eq_false_iff {c : Char} : isRunChar c = false ↔ isBlank c = true ∨ c = '(' ∨ c = ')' ∨ c = '"' := by
  rw [isRunChar, Bool.not_eq_false', Bool.or_eq_true, Bool.or_eq_true, Bool.or_eq_true, decide_eq_true_iff,
    decide_eq_true_iff, decide_eq_true_iff, or_assoc, or_assoc]

theorem lowercase_of_not_isRunChar {c : Char} (h : isRunChar c = false) : lowercase c = [c] := by
  rcases isRunChar_eq_false_iff.1 h with h | rfl | rfl | rfl
  · exact lowercase_of_isBlank h
  · decide
  · decide
  · decide

/-- The texts are kept apart: one of them is empty, or there is a blank, a parenthesis or a quote where they meet. -/
def IsSeam (t u : Text) : Prop :=
  t = [] ∨ u = [] ∨ (∃ c ∈ t.getLast?, isRunChar c = false) ∨ ∃ c ∈ u.head?, isRunChar c = false

namespace IsSeam

variable {t u : Text}

theorem of_head {c : Char} (h : isRunChar c = false) : IsSeam t (c :: u) := .inr (.inr (.inr ⟨c, rfl, h⟩))

theorem of_append {s : Text} (h : IsSeam (s ++ t) u) : IsSeam t u := by
  by_cases ht : t = []
  · exact .inl ht
  · rcases h with h | h | h | h
    · exact absurd (List.append_eq_nil_iff.1 h).2 ht
    · exact .inr (.inl h)
    · rw [List.getLast?_append_of_ne_nil _ ht] at h
      exact .inr (.inr (.inl h))
    · exact .inr (.inr (.inr h))

theorem of_cons {a : Char} (h : IsSeam (a :: t) u) : IsSeam t u := of_append (s := [a]) h

/-- Folding leaves what keeps the texts apart where it is. -/
theorem fold (h : IsSeam t u) : IsSeam (fold t) (fold u) := by
  rcases h with rfl | rfl | ⟨c, hc, hstop⟩ | ⟨c, hc, hstop⟩
  · exact .inl rfl
  · exact .inr (.inl rfl)
  · obtain ⟨s, rfl⟩ := List.getLast?_eq_some_iff.1 hc
    refine .inr (.inr (.inl ⟨c, ?_, hstop⟩))
    rw [fold_append, fold_cons, lowercase_of_not_isRunChar hstop, List.singleton_append, fold_nil]
    exact List.getLast?_concat
  · obtain ⟨s, rfl⟩ := List.head?_eq_some_iff.1 hc
    refine .inr (.inr (.inr ⟨c, ?_, hstop⟩))
    rw [fold_cons, lowercase_of_not_isRunChar hstop]
    rfl

/-- No run goes over a seam. -/
theorem run_append {a : Char} (ha : isRunChar a = true) (h : IsSeam (a :: t) u) :
    (t ++ u).takeWhile isRunChar = t.takeWhile isRunChar ∧
    (t ++ u).dropWhile isRunChar = t.dropWhile isRunChar ++ u := by
  induction t generalizing a with
  | nil =>
    rcases u with _ | ⟨c, u⟩
    · exact ⟨rfl, rfl⟩
    · have hc : isRunChar c = false := by
        rcases h with h | h | ⟨b, hb, hstop⟩ | ⟨b, hb, hstop⟩
        · cases h
        · cases h
        · rw [List.getLast?_singleton, Option.mem_some_iff] at hb
          rw [← hb, ha] at hstop
          cases hstop
        · cases hb
          exact hstop
      simp [hc]
  | cons b t ih =>
    by_cases hb : isRunChar b = true
    · obtain ⟨htake, hdrop⟩ := ih hb h.of_cons
      rw [List.cons_append, List.takeWhile_cons_of_pos hb, List.takeWhile_cons_of_pos hb, htake,
        List.dropWhile_cons_of_pos hb, List.dropWhile_cons_of_pos hb, hdrop]
      exact ⟨rfl, rfl⟩
    · rw [List.cons_append, List.takeWhile_cons_of_neg hb, List.takeWhile_cons_of_neg hb,
        List.dropWhile_cons_of_neg hb, List.dropWhile_cons_of_neg hb]
      exact ⟨rfl, rfl⟩

end IsSeam

theorem count_dropWhile_quote (t : Text) : (t.dropWhile isRunChar).count '"' = t.count '"' := by
  have hrun : (t.takeWhile isRunChar).count '"' = 0 := by
    rw [List.count_eq_zero]
    intro hmem
    exact absurd (List.all_eq_true.1 List.all_takeWhile _ hmem) (by decide)
  have hsplit : (t.takeWhile isRunChar ++ t.dropWhile isRunChar).count '"' = t.count '"' := by
    rw [List.takeWhile_append_dropWhile]
  rw [← hsplit, List.count_append, hrun, Nat.zero_add]

/-- After paired quotes the pieces of a query begin anew at a seam. -/
theorem pieces_append {t u : Text} (ht : Even (t.count '"')) (h : IsSeam t u) :
    pieces (t ++ u) = pieces t ++ pieces u := by
  fun_induction pieces t with
  | case1 => rfl
  | case2 t ih =>
    rw [List.count_cons_of_ne (by decide)] at ht
    rw [List.cons_append, pieces, if_pos rfl, ih ht h.of_cons]
    rfl
  | case3 t h₁ ih =>
    rw [List.count_cons_of_ne (by decide)] at ht
    rw [List.cons_append, pieces, if_neg h₁, if_pos rfl, ih ht h.of_cons]
    rfl
  | case4 t h₁ h₂ ih =>
    -- the quote has a partner in the text, so the span ends before what is appended
    have hmem : '"' ∈ t := by
      rw [← List.count_pos_iff]
      rw [List.count_cons_self, Nat.even_iff] at ht
      omega
    obtain ⟨b, v, rfl, hb⟩ := List.eq_append_cons_of_mem hmem
    have hv : Even (v.count '"') := by
      rw [List.count_cons_self, List.count_append, List.count_cons_self, List.count_eq_zero.2 hb, Nat.even_iff] at ht
      rw [Nat.even_iff]
      omega
    have hseam : IsSeam v u := (IsSeam.of_append h.of_cons).of_cons
    rw [drop_dropWhile_quote hb] at ih
    rw [List.cons_append, List.append_assoc, List.cons_append, pieces_quoted hb, ih hv hseam, takeWhile_quote hb,
      drop_dropWhile_quote hb, List.cons_append]
  | case5 a t h₁ h₂ h₃ h₄ ih =>
    rw [List.count_cons_of_ne h₃] at ht
    rw [List.cons_append, pieces, if_neg h₁, if_neg h₂, if_neg h₃, if_pos h₄, ih ht h.of_cons]
  | case6 a t h₁ h₂ h₃ h₄ ih =>
    have ha : isRunChar a = true := by
      rw [← Bool.not_eq_false, isRunChar_eq_false_iff]
      simp [h₁, h₂, h₃, h₄]
    have hrest : IsSeam (t.dropWhile isRunChar) u := by
      refine IsSeam.of_append (s := t.takeWhile isRunChar) ?_
      rw [List.takeWhile_append_dropWhile]
      exact h.of_cons
    obtain ⟨htake, hdrop⟩ := h.run_append ha
    -- a run holds no quote, so those after it are paired as well
    rw [List.count_cons_of_ne h₃, ← count_dropWhile_quote] at ht
    rw [List.cons_append, pieces, if_neg h₁, if_neg h₂, if_neg h₃, if_neg h₄, htake, hdrop, ih ht hrest]
    rfl

/-! ### Single pieces -/

/-- A text without blanks, parentheses and quotes is one run. -/
theorem pieces_of_run {t : Text} (ht : t ≠ []) (h : ∀ c ∈ t, isRunChar c = true) : pieces t = [.run t] := by
  obtain ⟨c, t, rfl⟩ := List.exists_cons_of_ne_nil ht
  have hc := h c List.mem_cons_self
  have ht : ∀ a ∈ t, isRunChar a = true := fun a ha => h a (List.mem_cons_of_mem _ ha)
  have hne {a : Char} (ha : isRunChar a = false) : c ≠ a := by
    rintro rfl
    rw [ha] at hc
    cases hc
  have hblank : ¬ isBlank c = true := by
    intro hb
    simp [isRunChar, hb] at hc
  rw [pieces, if_neg (hne (by decide)), if_neg (hne (by decide)), if_neg (hne (by decide)), if_neg hblank,
    List.takeWhile_eq_self_iff.2 ht, List.dropWhile_eq_nil_iff.2 ht, pieces]

/-! ### Tokens side by side -/

/-- After paired quotes the tokens of a query begin anew at a seam. -/
theorem writtenTokens_append {t u : Text} (ht : Even (t.count '"')) (h : IsSeam t u) :
    writtenTokens (t ++ u) = writtenTokens t ++ writtenTokens u := by
  have hcount : Even ((fold t).count '"') := by
    rw [count_fold (by decide) (by decide)]
    exact ht
  rw [writtenTokens, fold_append, pieces_append hcount h.fold, List.flatMap_append, writtenTokens, writtenTokens]

theorem writtenTokens_fold (q : Text) : writtenTokens (fold q) = writtenTokens q := by
  rw [writtenTokens, fold_fold, writtenTokens]

theorem writtenTokens_opening (t : Text) : writtenTokens ('(' :: t) = .opening :: writtenTokens t := by
  have hfold : fold ('(' :: t) = '(' :: fold t := rfl
  rw [writtenTokens, hfold, pieces, if_pos rfl]
  rfl

theorem writtenTokens_closing (t : Text) : writtenTokens (')' :: t) = .closing :: writtenTokens t := by
  have hfold : fold (')' :: t) = ')' :: fold t := rfl
  rw [writtenTokens, hfold, pieces, if_neg (by decide), if_pos rfl]
  rfl

/-! ### Redundant connectives -/

/-- Nothing but its last token decides what a list makes redundant behind it. -/
theorem dropRedundant_append (after : Bool) (ts us : List Token) :
    dropRedundant after (ts ++ us) =
      dropRedundant after ts ++ dropRedundant ((dropRedundant after ts).getLast?.elim after Token.isConnective) us := by
  induction ts generalizing after with
  | nil => rfl
  | cons t ts ih =>
    rw [List.cons_append, dropRedundant, dropRedundant]
    split
    · next hdrop =>
      have hafter : after = true := (Bool.and_eq_true_iff.1 hdrop).1
      rw [ih, hafter]
    · have hlast : (t :: dropRedundant t.isConnective ts).getLast?.elim after Token.isConnective =
          (dropRedundant t.isConnective ts).getLast?.elim t.isConnective Token.isConnective := by
        rcases dropRedundant t.isConnective ts with _ | ⟨u, us⟩
        · rfl
        · rw [List.getLast?_cons_cons, List.getLast?_cons]
          rfl
      rw [ih, hlast, List.cons_append]

/-- What stands after a parenthesis is not redundant because of what stands before it. -/
theorem dropRedundant_append_closing (after : Bool) (ts us : List Token) :
    dropRedundant after (ts ++ .closing :: us) = dropRedundant after ts ++ .closing :: dropRedundant false us := by
  rw [dropRedundant_append, dropRedundant, if_neg (by simp [Token.isBinary])]
  rfl

/-! ### Tokens of a query in parentheses -/

/-- A query in parentheses. -/
def grouped (q : Text) : Text := '(' :: (q ++ [')'])

theorem writtenTokens_grouped {q : Text} (hq : Even (q.count '"')) (u : Text) :
    writtenTokens (grouped q ++ u) = .opening :: (writtenTokens q ++ .closing :: writtenTokens u) := by
  rw [grouped, List.cons_append, List.append_assoc, List.singleton_append, writtenTokens_opening,
    writtenTokens_append hq (.of_head (by decide)), writtenTokens_closing]

theorem writtenTokens_blanks {s : Text} (hs : ∀ c ∈ s, isBlank c = true) (u : Text) :
    writtenTokens (s ++ u) = writtenTokens u := by
  induction s with
  | nil => rfl
  | cons c s ih =>
    have hc : isBlank c = true := hs c List.mem_cons_self
    have hne {a : Char} (ha : isBlank a = false) : c ≠ a := by
      rintro rfl
      rw [ha] at hc
      cases hc
    have hpieces : pieces (c :: fold (s ++ u)) = pieces (fold (s ++ u)) := by
      rw [pieces, if_neg (hne (by decide)), if_neg (hne (by decide)), if_neg (hne (by decide)), if_pos hc]
    rw [List.cons_append, writtenTokens, fold_cons, lowercase_of_isBlank hc, List.singleton_append, hpieces,
      ← writtenTokens, ih fun a ha => hs a (List.mem_cons_of_mem _ ha)]

theorem writtenTokens_blank (u : Text) : writtenTokens (' ' :: u) = writtenTokens u :=
  writtenTokens_blanks (s := [' ']) (List.forall_mem_singleton.2 (by decide)) u

/-- A connective before a blank is a token of its own. -/
theorem writtenTokens_connective (c : Connective) (u : Text) :
    writtenTokens (c.text ++ ' ' :: u) = .connective c :: writtenTokens u := by
  have hcount : Even (c.text.count '"') := by
    cases c <;> decide
  have hword : writtenTokens c.text = [.connective c] := by
    cases c <;> decide +kernel
  rw [writtenTokens_append hcount (.of_head (by decide)), hword, writtenTokens_blank, List.singleton_append]

theorem dropRedundant_opening (after : Bool) (ts : List Token) :
    dropRedundant after (.opening :: ts) = .opening :: dropRedundant false ts := by
  simp [dropRedundant, Token.isBinary, Token.isConnective]

/-- A query in parentheses keeps its tokens, whatever stands after it. -/
theorem dropRedundant_grouped {q : Text} (hq : Even (q.count '"')) (after : Bool) (u : Text) :
    dropRedundant after (writtenTokens (grouped q ++ u)) =
      .opening :: (tokenise q ++ .closing :: dropRedundant false (writtenTokens u)) := by
  rw [writtenTokens_grouped hq, dropRedundant_opening, dropRedundant_append_closing, tokenise]

theorem dropRedundant_grouped_last {q : Text} (hq : Even (q.count '"')) (after : Bool) :
    dropRedundant after (writtenTokens (grouped q)) = .opening :: (tokenise q ++ [.closing]) := by
  have hgrouped := dropRedundant_grouped hq after []
  have hnil : dropRedundant false (writtenTokens []) = [] := by decide +kernel
  rw [List.append_nil, hnil] at hgrouped
  exact hgrouped

/-- Two queries in parentheses, joined by a connective. -/
def connected (c : Connective) (q₁ q₂ : Text) : Text := grouped q₁ ++ ' ' :: (c.text ++ ' ' :: grouped q₂)

/-- Two queries in parentheses side by side. -/
def juxtaposed (q₁ q₂ : Text) : Text := grouped q₁ ++ ' ' :: grouped q₂

/-- The negation of a query in parentheses. -/
def negation (q : Text) : Text := Connective.not.text ++ ' ' :: grouped q

theorem tokenise_connected (c : Connective) {q₁ q₂ : Text} (h₁ : Even (q₁.count '"')) (h₂ : Even (q₂.count '"')) :
    tokenise (connected c q₁ q₂) =
      .opening :: (tokenise q₁ ++ .closing :: .connective c :: .opening :: (tokenise q₂ ++ [.closing])) := by
  rw [tokenise, connected, dropRedundant_grouped h₁, writtenTokens_blank, writtenTokens_connective, dropRedundant,
    if_neg (by simp), dropRedundant_grouped_last h₂]

theorem tokenise_juxtaposed {q₁ q₂ : Text} (h₁ : Even (q₁.count '"')) (h₂ : Even (q₂.count '"')) :
    tokenise (juxtaposed q₁ q₂) =
      .opening :: (tokenise q₁ ++ .closing :: .opening :: (tokenise q₂ ++ [.closing])) := by
  rw [tokenise, juxtaposed, dropRedundant_grouped h₁, writtenTokens_blank, dropRedundant_grouped_last h₂]

theorem tokenise_negation {q : Text} (h : Even (q.count '"')) :
    tokenise (negation q) = .connective .not :: .opening :: (tokenise q ++ [.closing]) := by
  rw [tokenise, negation, writtenTokens_connective, dropRedundant, if_neg (by simp), dropRedundant_grouped_last h]

end KeywordRules
