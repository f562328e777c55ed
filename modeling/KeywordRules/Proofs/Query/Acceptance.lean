import KeywordRules.Proofs.Query.Grammar
import KeywordRules.Proofs.Query.ParserScan
import KeywordRules.Proofs.Query.Splice

/-!
# Clean queries are the well-formed ones

A query is clean if the only warnings about it concern bare marks.  A derivation takes a scan from the place where it
begins to the place that holds its expression, and gives no other warning (`Derives.scans`).  Warnings are only added,
so a scan that ends clean has been clean throughout (`Scan.clean_of_foldl`).
-/

namespace KeywordRules

/-- No warnings but those about bare marks. -/
def Clean (ws : List Warning) : Prop := ∀ w ∈ ws, ∃ p, w = .bareWildcard p

namespace Clean

@[simp] theorem nil : Clean [] := by simp [Clean]

@[simp] theorem append_iff {ws vs : List Warning} : Clean (ws ++ vs) ↔ Clean ws ∧ Clean vs := by
  simp only [Clean, List.mem_append]
  exact ⟨fun h => ⟨fun w hw => h w (.inl hw), fun w hw => h w (.inr hw)⟩, fun h w hw => hw.elim (h.1 w) (h.2 w)⟩

theorem bareWildcards (p : Nat) (l : Leaf) : Clean (bareWildcards p l) := by
  unfold KeywordRules.bareWildcards
  split <;> simp [Clean]

@[simp] theorem joinWarnings_iff {c : Connective} {p : Nat} {l r : Option Expr} :
    Clean (joinWarnings c p l r) ↔ l.isSome = true ∧ r.isSome = true := by
  cases l <;> cases r <;> simp [Clean, joinWarnings]

@[simp] theorem negationWarnings_iff {ns : List Nat} {e : Option Expr} :
    Clean (negationWarnings ns e) ↔ ns = [] ∨ e.isSome = true := by
  cases ns <;> cases e <;> simp [Clean, negationWarnings]

end Clean

/-! ### Scans that stay clean -/

private theorem Scan.warnings_resume (σ : Scan) : σ.warnings <+: σ.resume.1.warnings := by
  unfold Scan.resume
  split
  · exact List.prefix_rfl
  · exact List.prefix_append _ _

private theorem Scan.warnings_resumeNegation (σ : Scan) : σ.warnings <+: σ.resumeNegation.1.warnings := by
  unfold Scan.resumeNegation
  split
  · exact List.prefix_rfl
  · exact List.prefix_append _ _

private theorem Scan.warnings_enter (σ : Scan) (s : Slot) (p : Nat) : σ.warnings <+: (σ.enter s p).warnings := by
  unfold Scan.enter
  split
  · exact List.prefix_rfl
  · exact List.prefix_append _ _

private theorem Scan.warnings_read (σ : Scan) (l : Leaf) (p : Nat) : σ.warnings <+: (σ.read l p).warnings := by
  rw [Scan.read, Scan.fill, Scan.hold, Scan.warn, Scan.warn, List.append_assoc]
  exact σ.warnings_resume.trans (List.prefix_append _ _)

private theorem Scan.warnings_close (σ : Scan) (p : Nat) : σ.warnings <+: (σ.close p).warnings := by
  unfold Scan.close
  split
  · exact List.prefix_rfl
  · exact List.prefix_append _ _
  · simp [Scan.fill]

/-- Reading a token only adds warnings. -/
theorem Scan.warnings_step (σ : Scan) (t : Token × Nat) : σ.warnings <+: (σ.step t).warnings := by
  unfold Scan.step
  split
  · exact σ.warnings_resume.trans (warnings_enter _ _ _)
  · exact warnings_close _ _
  · exact warnings_read _ _ _
  · exact warnings_read _ _ _
  · exact σ.warnings_resumeNegation
  · exact List.prefix_append _ _
  · exact List.prefix_append _ _

theorem Scan.clean_of_foldl {σ : Scan} {ts : List (Token × Nat)} (h : Clean (ts.foldl Scan.step σ).warnings) :
    Clean σ.warnings := by
  induction ts generalizing σ with
  | nil => exact h
  | cons t ts ih =>
    obtain ⟨ws, hws⟩ := σ.warnings_step t
    have hstep := ih h
    rw [← hws, Clean.append_iff] at hstep
    exact hstep.1

/-! ### Derivations are scanned without complaint -/

/-- What the tokens `ts` do to a scan, from the position `p` on, if they are derived from `k` and have the expression
`e`. -/
def Scans (n : Nat) (k : Nonterminal) (ts : List Token) (e : Expr) : Prop :=
  ∀ (p : Nat) (σ : Scan), σ.dropped = 0 → σ.groups.length + n ≤ maxNesting →
    match k with
    | .disjunction => σ.stage = .awaiting .vacant false → ∃ ws d? v, Clean ws ∧
        (ts.zipIdx p).foldl Scan.step σ = (σ.warn ws).hold d? v ∧
        Waiting.join .or d? v = some e ∧ Waiting.lacks .or d? v = []
    | .conjunction => ∀ d?, σ.stage = .awaiting ⟨d?, none, []⟩ false → ∃ ws, Clean ws ∧
        (ts.zipIdx p).foldl Scan.step σ = (σ.warn ws).hold d? (some e)
    | _ => ∀ s, σ.stage = .awaiting s false → ∃ ws, Clean ws ∧
        (ts.zipIdx p).foldl Scan.step σ = (σ.warn ws).fill s (some e)

private theorem scans_conjuncts {n : Nat} {more : List (List Token × Expr)}
    (h : ∀ r ∈ more, Scans n .negation r.1 r.2) (p : Nat) (σ : Scan) (hd : σ.dropped = 0)
    (hn : σ.groups.length + n ≤ maxNesting) (d? : Option Waiting) (l : Expr) :
    ∃ ws, Clean ws ∧ ((more.flatMap fun r => .connective .and :: r.1).zipIdx p).foldl Scan.step (σ.hold d? (some l)) =
      (σ.warn ws).hold d? (some (more.foldl (fun l r => .and l r.2) l)) := by
  induction more generalizing p σ l with
  | nil => exact ⟨[], by simp⟩
  | cons r more ih =>
    obtain ⟨ws, hws, hr⟩ := h r (by simp) (p + 1) (σ.await ⟨d?, some ⟨p, some l⟩, []⟩) hd hn _ rfl
    obtain ⟨vs, hvs, hmore⟩ := ih (fun r hr => h r (by simp [hr])) (p + 1 + r.1.length) (σ.warn ws) hd hn (.and l r.2)
    refine ⟨ws ++ vs, by simp [hws, hvs], ?_⟩
    rw [List.flatMap_cons, List.cons_append, List.zipIdx_cons, List.foldl_cons, List.zipIdx_append, List.foldl_append]
    refine Eq.trans (congrArg (List.foldl _ · _) (Eq.trans ?_ hr)) (Eq.trans ?_ (hmore.trans ?_))
    · simp [Scan.step]
    · simp [Scan.fill, Slot.conjunction, Slot.conjunctionWarnings, joinOperands, joinWarnings]
    · simp

private theorem scans_disjuncts {n : Nat} {more : List (List Token × Expr)}
    (h : ∀ r ∈ more, Scans n .conjunction r.1 r.2) (p : Nat) (σ : Scan) (hd : σ.dropped = 0)
    (hn : σ.groups.length + n ≤ maxNesting) {d? : Option Waiting} {v : Option Expr} {l : Expr}
    (hv : Waiting.join .or d? v = some l) (hl : Waiting.lacks .or d? v = []) :
    ∃ ws d'? v', Clean ws ∧
      ((more.flatMap fun r => .connective .or :: r.1).zipIdx p).foldl Scan.step (σ.hold d? v) =
        (σ.warn ws).hold d'? v' ∧
      Waiting.join .or d'? v' = some (more.foldl (fun l r => .or l r.2) l) ∧ Waiting.lacks .or d'? v' = [] := by
  induction more generalizing p σ d? v l with
  | nil => exact ⟨[], d?, v, by simp [hv, hl]⟩
  | cons r more ih =>
    obtain ⟨ws, hws, hr⟩ := h r (by simp) (p + 1) (σ.await ⟨some ⟨p, some l⟩, none, []⟩) hd hn _ rfl
    have hjoin : Waiting.join .or (some ⟨p, some l⟩) (some r.2) = some (.or l r.2) := rfl
    obtain ⟨vs, d'?, v', hvs, hmore, hv', hl'⟩ := ih (fun r hr => h r (by simp [hr])) (p + 1 + r.1.length)
      (σ.warn ws) hd hn hjoin rfl
    refine ⟨ws ++ vs, d'?, v', by simp [hws, hvs], ?_, hv', hl'⟩
    rw [List.flatMap_cons, List.cons_append, List.zipIdx_cons, List.foldl_cons, List.zipIdx_append, List.foldl_append]
    refine Eq.trans (congrArg (List.foldl _ · _) (Eq.trans ?_ hr)) (Eq.trans ?_ (hmore.trans ?_))
    · simp [Scan.step, hv, hl]
    · simp
    · simp

/-- A derivation is scanned from the place where it begins to the place that holds its expression. -/
theorem Derives.scans {n : Nat} {k : Nonterminal} {ts : List Token} {e : Expr} (h : Derives n k ts e) :
    Scans n k ts e := by
  induction h with
  | @disjunction n ts e more first rest ihFirst ihRest =>
    intro p σ hd hn hstage
    obtain ⟨ws, hws, hfirst⟩ := ihFirst p σ hd hn none hstage
    obtain ⟨vs, d?, v, hvs, hmore, hv, hl⟩ := scans_disjuncts ihRest (p + ts.length) (σ.warn ws) hd hn
      (show Waiting.join .or none (some e) = some e from rfl) rfl
    refine ⟨ws ++ vs, d?, v, by simp [hws, hvs], ?_, hv, hl⟩
    rw [List.zipIdx_append, List.foldl_append, hfirst, hmore]
    simp
  | @conjunction n ts e more first rest ihFirst ihRest =>
    intro p σ hd hn d? hstage
    obtain ⟨ws, hws, hfirst⟩ := ihFirst p σ hd hn _ hstage
    obtain ⟨vs, hvs, hmore⟩ := scans_conjuncts ihRest (p + ts.length) (σ.warn ws) hd hn d? e
    refine ⟨ws ++ vs, by simp [hws, hvs], ?_⟩
    rw [List.zipIdx_append, List.foldl_append, hfirst]
    refine Eq.trans (congrArg (List.foldl _ · _) ?_) (hmore.trans ?_)
    · simp [Scan.fill, Slot.conjunction, Slot.conjunctionWarnings]
    · simp
  | not operand ih =>
    intro p σ hd hn s hstage
    obtain ⟨ws, hws, hop⟩ := ih (p + 1) (σ.await { s with negations := p :: s.negations }) hd hn _ rfl
    refine ⟨ws, hws, ?_⟩
    rw [List.zipIdx_cons, List.foldl_cons]
    refine Eq.trans (congrArg (List.foldl _ · _) ?_) (hop.trans ?_)
    · simp [Scan.step, Scan.resumeNegation, hstage]
    · simp [Scan.fill, Slot.conjunction, Slot.conjunctionWarnings, negated, negationWarnings]
  | primary operand ih => exact ih
  | @group n ts e inside ih =>
    intro p σ hd hn s hstage
    have hlt : σ.groups.length < maxNesting := by omega
    obtain ⟨ws, d?, v, hws, hin, hv, hl⟩ :=
      ih (p + 1) (({ σ with groups := (p, s) :: σ.groups } : Scan).await .vacant) hd
        (by simp only [Scan.await, List.length_cons]; omega) rfl
    refine ⟨ws, hws, ?_⟩
    rw [List.zipIdx_cons, List.foldl_cons, List.zipIdx_append, List.foldl_append]
    have hstep : σ.step (.opening, p) = ({ σ with groups := (p, s) :: σ.groups } : Scan).await .vacant := by
      simp [Scan.step, Scan.resume, Scan.enter, hstage, hlt]
    rw [hstep, hin]
    simp [Scan.step, Scan.close, Scan.fill, hd, hv, hl]
  | term word marked =>
    intro p σ hd hn s hstage
    refine ⟨bareWildcards p (Leaf.ofTerm word marked), Clean.bareWildcards p _, ?_⟩
    simp [Scan.step, Scan.read, Scan.resume, hstage]
  | phrase text =>
    intro p σ hd hn s hstage
    refine ⟨bareWildcards p (.phrase (normalise text)), Clean.bareWildcards p _, ?_⟩
    simp [Scan.step, Scan.read, Scan.resume, hstage]

end KeywordRules
