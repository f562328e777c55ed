import KeywordRules.Proofs.Query.Accounting
import KeywordRules.Proofs.Query.WellFormed

/-!
# Parentheses are matched on a stack

The parser has no stack of parentheses: a group ends where its inside stops being readable, and a closing parenthesis is
passed over wherever no group is open.  Once juxtaposed operands are joined, and as long as groups keep within the nesting
limit, this comes to ordinary matching on a stack: the groups that a scan has open are the parentheses on the stack
(`Scan.Follows.step`), so those that are reported as unclosed or unmatched are the ones that matching leaves over
(`parse_matches_brackets`).
-/

namespace KeywordRules

/-- Parentheses matched on a stack: the positions of those that are open, the innermost first, and of the closing ones
that found none open. -/
structure Brackets where
  opened : List Nat
  strays : List Nat
deriving DecidableEq, Repr

namespace Brackets

def step (b : Brackets) : Token × Nat → Brackets
  | (.opening, p) => { b with opened := p :: b.opened }
  | (.closing, p) =>
    match b.opened with
    | [] => { b with strays := b.strays ++ [p] }
    | _ :: ps => { b with opened := ps }
  | _ => b

end Brackets

/-- The parentheses that matching leaves over. -/
def matchBrackets (ts : List Token) : Brackets := ts.zipIdx.foldl Brackets.step ⟨[], []⟩

namespace Warning

/-- The parenthesis that is reported as never closed. -/
def unclosed? : Warning → Option Nat
  | unclosedGroup p => some p
  | _ => none

/-- The parenthesis that is reported as closing nothing. -/
def unmatched? : Warning → Option Nat
  | unmatchedClose p => some p
  | _ => none

end Warning

/-! ### Warnings about other things -/

/-- None of the warnings is about an unclosed or unmatched parenthesis. -/
def BracketFree (ws : List Warning) : Prop := ∀ w ∈ ws, w.unclosed? = none ∧ w.unmatched? = none

namespace BracketFree

variable {ws vs : List Warning}

theorem nil : BracketFree [] := by simp [BracketFree]

theorem append (hw : BracketFree ws) (hv : BracketFree vs) : BracketFree (ws ++ vs) := by
  intro w hmem
  rcases List.mem_append.1 hmem with hmem | hmem
  · exact hw w hmem
  · exact hv w hmem

theorem filterMap_unclosed (h : BracketFree ws) : ws.filterMap Warning.unclosed? = [] :=
  List.filterMap_eq_nil_iff.2 fun w hw => (h w hw).1

theorem filterMap_unmatched (h : BracketFree ws) : ws.filterMap Warning.unmatched? = [] :=
  List.filterMap_eq_nil_iff.2 fun w hw => (h w hw).2

theorem bareWildcards (p : Nat) (l : Leaf) : BracketFree (bareWildcards p l) := by
  unfold KeywordRules.bareWildcards
  split <;> simp [BracketFree, Warning.unclosed?, Warning.unmatched?]

theorem lacks (c : Connective) (w? : Option Waiting) (e : Option Expr) : BracketFree (Waiting.lacks c w? e) := by
  rcases w? with _ | w
  · exact nil
  · rw [Waiting.lacks_some]
    unfold joinWarnings
    split <;> simp [BracketFree, Warning.unclosed?, Warning.unmatched?]

theorem negationWarnings (ns : List Nat) (e : Option Expr) : BracketFree (negationWarnings ns e) := by
  rcases e with _ | e
  · intro w hw
    obtain ⟨p, -, rfl⟩ := List.mem_map.1 hw
    exact ⟨rfl, rfl⟩
  · exact nil

theorem conjunctionWarnings (s : Slot) (e : Option Expr) : BracketFree (s.conjunctionWarnings e) :=
  (negationWarnings _ _).append (lacks _ _ _)

theorem valueWarnings (s : Slot) (e : Option Expr) : BracketFree (s.valueWarnings e) :=
  (conjunctionWarnings s e).append (lacks _ _ _)

theorem stageConjunctionWarnings (st : Stage) : BracketFree st.conjunctionWarnings := by
  cases st with
  | awaiting s flat => exact conjunctionWarnings s none
  | holding d? v => exact nil

theorem stageValueWarnings (st : Stage) : BracketFree st.valueWarnings :=
  (stageConjunctionWarnings st).append (lacks _ _ _)

theorem emptiness (ts : List Token) (e : Option Expr) : BracketFree (emptiness ts e) := by
  intro w hw
  rcases mem_emptiness.1 hw with ⟨rfl, -⟩ | ⟨rfl, -⟩
  · exact ⟨rfl, rfl⟩
  · exact ⟨rfl, rfl⟩

end BracketFree

/-- All groups that are left are reported, the innermost first. -/
theorem filterMap_leaveWarnings (gs : List (Nat × Slot)) (e : Option Expr) :
    (leaveWarnings gs e).filterMap Warning.unclosed? = gs.map Prod.fst ∧
      (leaveWarnings gs e).filterMap Warning.unmatched? = [] := by
  induction gs generalizing e with
  | nil => exact ⟨rfl, rfl⟩
  | cons g gs ih =>
    obtain ⟨hunclosed, hunmatched⟩ := ih (g.2.value e)
    have hfree := BracketFree.valueWarnings g.2 e
    have hopen : (Warning.unclosedGroup g.1).unclosed? = some g.1 := rfl
    have hother : (Warning.unclosedGroup g.1).unmatched? = none := rfl
    rw [leaveWarnings, List.filterMap_cons_some hopen, List.filterMap_cons_none hother, List.filterMap_append,
      List.filterMap_append, hfree.filterMap_unclosed, hfree.filterMap_unmatched, hunclosed, hunmatched]
    exact ⟨rfl, rfl⟩

/-! ### A scan follows the stack -/

/-- The groups of the scan are the parentheses on the stack, none is dropped, and no warning but those about the stray
ones has been given about any. -/
structure Scan.Follows (b : Brackets) (σ : Scan) : Prop where
  groups : σ.groups.map Prod.fst = b.opened
  dropped : σ.dropped = 0
  not_flat : ∀ s, σ.stage ≠ .awaiting s true
  unclosed : σ.warnings.filterMap Warning.unclosed? = []
  unmatched : σ.warnings.filterMap Warning.unmatched? = b.strays

namespace Scan.Follows

variable {b : Brackets} {σ : Scan}

theorem start : Scan.start.Follows ⟨[], []⟩ := ⟨rfl, rfl, by simp [Scan.start], rfl, rfl⟩

theorem warn (h : σ.Follows b) {ws : List Warning} (hws : BracketFree ws) : (σ.warn ws).Follows b where
  groups := h.groups
  dropped := h.dropped
  not_flat := h.not_flat
  unclosed := by rw [Scan.warn, List.filterMap_append, h.unclosed, hws.filterMap_unclosed]; rfl
  unmatched := by rw [Scan.warn, List.filterMap_append, h.unmatched, hws.filterMap_unmatched, List.append_nil]

theorem await (h : σ.Follows b) (s : Slot) : (σ.await s).Follows b :=
  ⟨h.groups, h.dropped, by simp, h.unclosed, h.unmatched⟩

theorem fill (h : σ.Follows b) (s : Slot) (e : Option Expr) : (σ.fill s e).Follows b :=
  have hwarn := h.warn (BracketFree.conjunctionWarnings s e)
  ⟨hwarn.groups, hwarn.dropped, by simp [Scan.fill], hwarn.unclosed, hwarn.unmatched⟩

/-- Where no operand has just ended, none of the pieces read so far is ended by the next operand. -/
theorem resume (h : σ.Follows b) (hst : ∀ d? v, σ.stage ≠ .holding d? v) :
    σ.resume.1 = σ ∧ σ.resumeNegation.1 = σ := by
  rcases hs : σ.stage with ⟨s, _ | _⟩ | ⟨d?, v⟩
  · simp [Scan.resume, Scan.resumeNegation, hs]
  · exact absurd hs (h.not_flat s)
  · exact absurd hs (hst d? v)

theorem enter (h : σ.Follows b) (s : Slot) {p : Nat} (hdeep : (b.step (.opening, p)).opened.length ≤ maxNesting) :
    (σ.enter s p).Follows (b.step (.opening, p)) := by
  have hlt : σ.groups.length < maxNesting := by
    rw [Brackets.step, List.length_cons, ← h.groups, List.length_map] at hdeep
    exact hdeep
  rw [Scan.enter, if_pos hlt]
  exact ⟨congrArg (p :: ·) h.groups, h.dropped, by simp, h.unclosed, h.unmatched⟩

theorem close (h : σ.Follows b) (p : Nat) : (σ.close p).Follows (b.step (.closing, p)) := by
  have hgroups := h.groups
  rcases hgs : σ.groups with _ | ⟨⟨q, s⟩, gs⟩
  · rw [hgs] at hgroups
    have hopened : b.opened = [] := hgroups.symm
    have hclose : σ.close p = σ.warn [.unmatchedClose p] := by simp [Scan.close, h.dropped, hgs]
    have hstep : b.step (.closing, p) = { b with strays := b.strays ++ [p] } := by simp [Brackets.step, hopened]
    rw [hclose, hstep]
    refine ⟨h.groups, h.dropped, h.not_flat, ?_, ?_⟩
    · rw [Scan.warn, List.filterMap_append, h.unclosed]
      rfl
    · rw [Scan.warn, List.filterMap_append, h.unmatched]
      rfl
  · rw [hgs] at hgroups
    have hopened : b.opened = q :: gs.map Prod.fst := hgroups.symm
    have hclose : σ.close p = ({ σ with groups := gs }.warn σ.stage.valueWarnings).fill s σ.stage.value := by
      simp [Scan.close, h.dropped, hgs]
    have hstep : b.step (.closing, p) = { b with opened := gs.map Prod.fst } := by simp [Brackets.step, hopened]
    have hleft : ({ σ with groups := gs } : Scan).Follows { b with opened := gs.map Prod.fst } :=
      ⟨rfl, h.dropped, h.not_flat, h.unclosed, h.unmatched⟩
    rw [hclose, hstep]
    exact (hleft.warn (BracketFree.stageValueWarnings _)).fill s _

theorem read (h : σ.Follows b) (hst : ∀ d? v, σ.stage ≠ .holding d? v) (l : Leaf) (p : Nat) :
    (σ.read l p).Follows b := by
  rw [Scan.read, (h.resume hst).1]
  exact (h.warn (BracketFree.bareWildcards p l)).fill _ _

/-- A token that may stand after the last one, and opens no group beyond the nesting limit, is followed. -/
theorem step {t : Token} {p : Nat} (h : σ.Follows b) (ht : ∀ d? v, σ.stage = .holding d? v → t.startsValue = false)
    (hdeep : (b.step (t, p)).opened.length ≤ maxNesting) : (σ.step (t, p)).Follows (b.step (t, p)) := by
  have hawait : t.startsValue = true → ∀ d? v, σ.stage ≠ .holding d? v := by
    intro hstarts d? v hst
    rw [ht d? v hst] at hstarts
    cases hstarts
  rcases t with c | _ | _ | ⟨w, m⟩ | v
  · rcases c with _ | _ | _
    · exact (h.warn (BracketFree.stageConjunctionWarnings _)).await _
    · exact (h.warn (BracketFree.stageValueWarnings _)).await _
    · rw [Scan.step, (h.resume (hawait rfl)).2]
      exact h.await _
  · rw [Scan.step, (h.resume (hawait rfl)).1]
    exact h.enter _ hdeep
  · exact h.close p
  · exact h.read (hawait rfl) _ p
  · exact h.read (hawait rfl) _ p

/-- Tokens without an operand right after another are followed, if no more groups are open at any point than the nesting
limit allows. -/
theorem foldl {ts : List Token} {p : Nat} (h : σ.Follows b) (hts : ts.IsChain Abuts)
    (hhead : ∀ t ∈ ts.head?, ∀ d? v, σ.stage = .holding d? v → t.startsValue = false)
    (hdeep : ∀ us, us <+: ts → ((us.zipIdx p).foldl Brackets.step b).opened.length ≤ maxNesting) :
    ((ts.zipIdx p).foldl Scan.step σ).Follows ((ts.zipIdx p).foldl Brackets.step b) := by
  induction ts generalizing σ b p with
  | nil => exact h
  | cons t ts ih =>
    rw [List.isChain_cons] at hts
    have hstep := h.step (p := p) (hhead t rfl) (hdeep [t] (by simp))
    rw [List.zipIdx_cons, List.foldl_cons, List.foldl_cons]
    refine ih hstep hts.2 (fun u hu d? v hst => hts.1 u hu (Scan.endsValue_of_holding hst)) fun us hus => ?_
    have hnext := hdeep (t :: us) (by rw [List.cons_prefix_cons]; exact ⟨rfl, hus⟩)
    rwa [List.zipIdx_cons, List.foldl_cons] at hnext

end Scan.Follows

/-! ### The parentheses of a query -/

theorem Warning.eq_of_unclosed? {w : Warning} {p : Nat} (h : w.unclosed? = some p) : w = .unclosedGroup p := by
  cases w <;> cases h
  rfl

theorem Warning.eq_of_unmatched? {w : Warning} {p : Nat} (h : w.unmatched? = some p) : w = .unmatchedClose p := by
  cases w <;> cases h
  rfl

/-- What is read off the warnings of a query and determines the warning is read off once. -/
theorem nodup_filterMap_parse {f : Warning → Option Nat} {g : Nat → Warning} (hf : ∀ w p, f w = some p → w = g p)
    (ts : List Token) : ((parse ts).warnings.filterMap f).Nodup :=
  (nodup_key_parse ts).of_map.filterMap fun w v p hw hv => (hf w p hw).trans (hf v p hv).symm

/-- Once juxtaposed operands are joined, and if no more groups are open at any point than the nesting limit allows, the
parentheses reported as unclosed are those that matching on a stack leaves open, the innermost first, and those reported
as unmatched the closing ones that it finds no partner for, from left to right; each is reported once. -/
theorem parse_matches_brackets {ts : List Token}
    (h : ∀ us, us <+: spliceAnds ts → (matchBrackets us).opened.length ≤ maxNesting) :
    (parse (spliceAnds ts)).warnings.filterMap Warning.unclosed? = (matchBrackets (spliceAnds ts)).opened ∧
    (parse (spliceAnds ts)).warnings.filterMap Warning.unmatched? = (matchBrackets (spliceAnds ts)).strays ∧
    ((parse (spliceAnds ts)).warnings.filterMap Warning.unclosed?).Nodup ∧
    ((parse (spliceAnds ts)).warnings.filterMap Warning.unmatched?).Nodup := by
  have hfollows := Scan.Follows.start.foldl (p := 0) (isChain_spliceAnds ts) (fun _ _ _ _ h => by cases h) h
  have hleave := filterMap_leaveWarnings ((spliceAnds ts).zipIdx.foldl Scan.step .start).groups
    ((spliceAnds ts).zipIdx.foldl Scan.step .start).stage.value
  have hvalue := BracketFree.stageValueWarnings ((spliceAnds ts).zipIdx.foldl Scan.step .start).stage
  have hempty := BracketFree.emptiness (spliceAnds ts) (parse (spliceAnds ts)).root?
  refine ⟨?_, ?_, nodup_filterMap_parse (fun _ _ => Warning.eq_of_unclosed?) _,
    nodup_filterMap_parse (fun _ _ => Warning.eq_of_unmatched?) _⟩
  · rw [warnings_parse, List.filterMap_append, hempty.filterMap_unclosed, List.append_nil, Scan.result, Scan.conclude]
    simp only [List.filterMap_append, hfollows.unclosed, hvalue.filterMap_unclosed, hleave.1, List.nil_append]
    exact hfollows.groups
  · rw [warnings_parse, List.filterMap_append, hempty.filterMap_unmatched, List.append_nil, Scan.result, Scan.conclude]
    simp only [List.filterMap_append, hfollows.unmatched, hvalue.filterMap_unmatched, hleave.2, List.append_nil]
    rfl

/-- A group and a stray parenthesis after it, and a group that is left open inside another one. -/
def lopsidedTokens : List Token :=
  [.opening, .term ['a'] false, .closing, .closing, .term ['b'] false, .opening, .term ['c'] false, .opening,
    .connective .or]

theorem parse_matches_brackets_lopsidedTokens :
    (∀ us, us <+: spliceAnds lopsidedTokens → (matchBrackets us).opened.length ≤ maxNesting) ∧
    (parse (spliceAnds lopsidedTokens)).warnings.filterMap Warning.unclosed? = [10, 7] ∧
    (parse (spliceAnds lopsidedTokens)).warnings.filterMap Warning.unmatched? = [3] := by
  have hlimit : ∀ us, us <+: spliceAnds lopsidedTokens → (matchBrackets us).opened.length ≤ maxNesting := by
    have htake : ∀ n ≤ 12, (matchBrackets ((spliceAnds lopsidedTokens).take n)).opened.length ≤ maxNesting := by
      decide +kernel
    intro us hus
    rw [List.prefix_iff_eq_take.1 hus]
    exact htake _ hus.length_le
  obtain ⟨hunclosed, hunmatched, -, -⟩ := parse_matches_brackets hlimit
  rw [hunclosed, hunmatched]
  exact ⟨hlimit, by decide +kernel, by decide +kernel⟩

end KeywordRules
