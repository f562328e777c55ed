import KeywordRules.Proofs.Query.Grammar
import KeywordRules.Proofs.Query.Splice
import KeywordRules.Query.Lexer

/-!
# Operands and connectives alternate

In a derived list an operand begins exactly where none has just ended (`Derives.alternates`).  So nothing is left to be
spliced into such a list (`spliceAnds_of_isChain`), and none of its connectives is redundant
(`dropRedundant_eq_self_iff`).  In what is left of any list none is, spliced or not (`isChain_kept_dropRedundant`,
`isChain_kept_spliceAnds`).
-/

namespace KeywordRules

namespace Token

theorem startsValue_of_isOperand {t : Token} (h : t.isOperand = true) : t.startsValue = true := by
  cases t with
  | term w m => rfl
  | phrase v => rfl
  | _ => cases h

theorem endsValue_of_isOperand {t : Token} (h : t.isOperand = true) : t.endsValue = true := by
  cases t with
  | term w m => rfl
  | phrase v => rfl
  | _ => cases h

theorem endsValue_of_isConnective {t : Token} (h : t.isConnective = true) : t.endsValue = false := by
  cases t with
  | connective c => rfl
  | _ => cases h

theorem isConnective_of_isBinary {t : Token} (h : t.isBinary = true) : t.isConnective = true := by
  cases t with
  | connective c => rfl
  | _ => cases h

theorem startsValue_of_isBinary {t : Token} (h : t.isBinary = true) : t.startsValue = false := by
  cases t with
  | connective c =>
    cases c with
    | not => cases h
    | _ => rfl
  | _ => cases h

end Token

/-- Between the tokens `a` and `b` an operand begins if none has just ended, and none begins otherwise. -/
def Meets (a b : Token) : Prop := b.startsValue = !a.endsValue

/-- The connective `b`, if it is one, is not redundant after `a`. -/
def Kept (a b : Token) : Prop := a.isConnective = true → b.isBinary = false

instance : DecidableRel Kept := fun _ _ => inferInstanceAs (Decidable (_ → _))

theorem Meets.abuts {a b : Token} (h : Meets a b) : Abuts a b := by
  intro ha
  rw [h, ha]
  rfl

theorem Meets.kept {a b : Token} (h : Meets a b) : Kept a b := by
  intro ha
  rw [Bool.eq_false_iff]
  intro hb
  rw [Meets, Token.endsValue_of_isConnective ha, Token.startsValue_of_isBinary hb] at h
  cases h

/-- A list that begins and ends as an operand does, with operands and connectives in turn. -/
structure Alternates (ts : List Token) : Prop where
  ne_nil : ts ≠ []
  starts : ∀ a ∈ ts.head?, a.startsValue = true
  ends : ∀ z ∈ ts.getLast?, z.endsValue = true
  chain : ts.IsChain Meets

namespace Alternates

variable {ts us : List Token}

theorem operand {t : Token} (h : t.isOperand = true) : Alternates [t] := by
  refine ⟨by simp, fun a ha => ?_, fun z hz => ?_, .singleton t⟩
  · cases ha
    exact Token.startsValue_of_isOperand h
  · cases hz
    exact Token.endsValue_of_isOperand h

theorem not (h : Alternates ts) : Alternates (.connective .not :: ts) where
  ne_nil := by simp
  starts := by
    intro a ha
    cases ha
    rfl
  ends := by
    intro z hz
    rw [List.getLast?_cons_of_ne_nil h.ne_nil] at hz
    exact h.ends z hz
  chain := List.isChain_cons.2 ⟨fun a ha => h.starts a ha, h.chain⟩

theorem group (h : Alternates ts) : Alternates (.opening :: (ts ++ [.closing])) where
  ne_nil := by simp
  starts := by
    intro a ha
    cases ha
    rfl
  ends := by
    intro z hz
    rw [← List.cons_append, List.getLast?_concat] at hz
    cases hz
    rfl
  chain := by
    refine List.isChain_cons.2 ⟨fun a ha => ?_, h.chain.append (.singleton _) fun z hz a ha => ?_⟩
    · rw [List.head?_append_of_ne_nil _ h.ne_nil] at ha
      exact h.starts a ha
    · cases ha
      rw [Meets, h.ends z hz]
      rfl

theorem join (ht : Alternates ts) (hu : Alternates us) {c : Connective} (hc : c.isBinary = true) :
    Alternates (ts ++ .connective c :: us) where
  ne_nil := by simp
  starts := by
    intro a ha
    rw [List.head?_append_of_ne_nil _ ht.ne_nil] at ha
    exact ht.starts a ha
  ends := by
    intro z hz
    rw [List.getLast?_append_of_ne_nil _ (by simp), List.getLast?_cons_of_ne_nil hu.ne_nil] at hz
    exact hu.ends z hz
  chain := by
    refine ht.chain.append (List.isChain_cons.2 ⟨fun a ha => hu.starts a ha, hu.chain⟩) fun z hz a ha => ?_
    cases ha
    have hstarts : (Token.connective c).startsValue = false := Token.startsValue_of_isBinary hc
    rw [Meets, ht.ends z hz, hstarts]
    rfl

theorem joins (ht : Alternates ts) {c : Connective} (hc : c.isBinary = true) {more : List (List Token × Expr)}
    (hmore : ∀ r ∈ more, Alternates r.1) : Alternates (ts ++ more.flatMap fun r => .connective c :: r.1) := by
  induction more generalizing ts with
  | nil => simpa using ht
  | cons r more ih =>
    have hfirst := ht.join (hmore r List.mem_cons_self) hc
    have hrest := ih hfirst fun q hq => hmore q (List.mem_cons_of_mem _ hq)
    simpa using hrest

end Alternates

/-- In a derived list operands and connectives alternate. -/
theorem Derives.alternates {n : Nat} {k : Nonterminal} {ts : List Token} {e : Expr} (h : Derives n k ts e) :
    Alternates ts := by
  induction h with
  | disjunction more first rest ihFirst ihRest => exact ihFirst.joins rfl ihRest
  | conjunction more first rest ihFirst ihRest => exact ihFirst.joins rfl ihRest
  | not operand ih => exact ih.not
  | primary operand ih => exact ih
  | group inside ih => exact ih.group
  | term word marked => exact .operand rfl
  | phrase text => exact .operand rfl

/-! ### Nothing to splice and nothing to drop -/

/-- What is spliced makes no connective redundant. -/
theorem isChain_kept_spliceAnds {ts : List Token} (h : ts.IsChain Kept) : (spliceAnds ts).IsChain Kept := by
  fun_induction spliceAnds ts with
  | case1 a b ts hab ih =>
    rw [Bool.and_eq_true] at hab
    have hand : Kept a (.connective .and) := by
      intro ha
      rw [Token.endsValue_of_isConnective ha] at hab
      cases hab.1
    have hb : Kept (.connective .and) b := by
      intro _
      rw [Bool.eq_false_iff]
      intro hbinary
      rw [Token.startsValue_of_isBinary hbinary] at hab
      cases hab.2
    refine List.isChain_cons_cons.2 ⟨hand, List.isChain_cons.2 ⟨fun c hc => ?_, ih (List.isChain_cons_cons.1 h).2⟩⟩
    rw [head?_spliceAnds, List.head?_cons, Option.mem_some_iff] at hc
    exact hc ▸ hb
  | case2 a b ts hab ih =>
    obtain ⟨hkept, hrest⟩ := List.isChain_cons_cons.1 h
    refine List.isChain_cons.2 ⟨fun c hc => ?_, ih hrest⟩
    rw [head?_spliceAnds, List.head?_cons, Option.mem_some_iff] at hc
    exact hc ▸ hkept
  | case3 ts hts => exact h

theorem dropRedundant_sublist (after : Bool) (ts : List Token) : (dropRedundant after ts).Sublist ts := by
  induction ts generalizing after with
  | nil => exact List.Sublist.refl _
  | cons t ts ih =>
    rw [dropRedundant]
    split
    · exact (ih true).cons t
    · exact (ih _).cons_cons t

/-- What does not look at connectives sees all that was written. -/
theorem filterMap_dropRedundant {α : Type} {f : Token → Option α} (hf : ∀ c, f (.connective c) = none) (after : Bool)
    (ts : List Token) : (dropRedundant after ts).filterMap f = ts.filterMap f := by
  induction ts generalizing after with
  | nil => rfl
  | cons t ts ih =>
    rw [dropRedundant]
    split
    · next hdrop =>
      rw [Bool.and_eq_true] at hdrop
      have ht : f t = none := by
        cases t with
        | connective c => exact hf c
        | _ => cases hdrop.2
      rw [ih, List.filterMap_cons_none ht]
    · rw [List.filterMap_cons, ih, List.filterMap_cons]

theorem isBinary_of_head_dropRedundant {ts : List Token} {t : Token} (h : t ∈ (dropRedundant true ts).head?) :
    t.isBinary = false := by
  induction ts with
  | nil => cases h
  | cons u ts ih =>
    rw [dropRedundant, Bool.true_and] at h
    split at h
    · exact ih h
    · next hu =>
      cases h
      exact Bool.eq_false_iff.2 hu

/-- No connective is redundant after those that are have been dropped. -/
theorem isChain_kept_dropRedundant (after : Bool) (ts : List Token) : (dropRedundant after ts).IsChain Kept := by
  induction ts generalizing after with
  | nil => exact .nil
  | cons t ts ih =>
    rw [dropRedundant]
    split
    · exact ih true
    · refine List.isChain_cons.2 ⟨fun u hu ht => ?_, ih _⟩
      rw [ht] at hu
      exact isBinary_of_head_dropRedundant hu

private theorem dropRedundant_eq_self {after : Bool} {ts : List Token} :
    dropRedundant after ts = ts ↔ (∀ t ∈ ts.head?, after = true → t.isBinary = false) ∧ ts.IsChain Kept := by
  induction ts generalizing after with
  | nil => simp [dropRedundant]
  | cons t ts ih =>
    rw [dropRedundant, List.isChain_cons]
    split
    · next hdrop =>
      rw [Bool.and_eq_true] at hdrop
      constructor
      · -- without its first token the list is shorter
        intro h
        have hle := (dropRedundant_sublist true ts).length_le
        rw [h, List.length_cons] at hle
        omega
      · rintro ⟨h, -⟩
        rw [h t rfl hdrop.1] at hdrop
        cases hdrop.2
    · next hkeep =>
      rw [List.cons.injEq, ih]
      constructor
      · rintro ⟨-, hhead, hchain⟩
        refine ⟨fun a ha hafter => ?_, fun b hb => hhead b hb, hchain⟩
        cases ha
        simpa [hafter] using hkeep
      · rintro ⟨-, hhead, hchain⟩
        exact ⟨rfl, fun b hb => hhead b hb, hchain⟩

/-- Nothing is dropped from a list exactly if no connective in it is redundant. -/
theorem dropRedundant_eq_self_iff {ts : List Token} : dropRedundant false ts = ts ↔ ts.IsChain Kept := by
  rw [dropRedundant_eq_self]
  exact ⟨fun h => h.2, fun h => ⟨fun _ _ hf => absurd hf (by simp), h⟩⟩

end KeywordRules
