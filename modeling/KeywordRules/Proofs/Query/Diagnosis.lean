import KeywordRules.Proofs.Query.ParserScan

/-!
# What warnings point at

A warning with a position points at a token of the query, and at one of the kind it speaks of: an opening parenthesis
that is never closed or too deep, a closing one without a group, the connective that lacks an operand, the mark on the
empty word (`pointsInto_parse`).  A scan remembers positions in its open groups and its waiting connectives; it keeps
them within the tokens it has read (`Scan.Within.step`).  The two warnings without a position tell of a query without
tokens and of one without operands (`emptyQuery_mem_iff`, `neverMatches_mem_iff`).
-/

namespace KeywordRules

namespace Warning

/-- Whether a warning with a position may speak of the token. -/
def IsAbout : Warning → Token → Prop
  | unclosedGroup _, t => t = .opening
  | unmatchedClose _, t => t = .closing
  | missingOperand c _, t => t = .connective c
  | bareWildcard _, t => ∃ w, t = .term w true ∧ normalise w = []
  | nestingTooDeep _ _, t => t = .opening
  | emptyQuery, _ => False
  | neverMatches, _ => False

/-- One of the tokens `ts` stands at the position of the warning, which may speak of it. -/
def PointsInto (ts : List (Token × Nat)) (w : Warning) : Prop :=
  ∃ t p, (t, p) ∈ ts ∧ w.position? = some p ∧ w.IsAbout t

end Warning

/-- All warnings point at tokens of `ts`. -/
def Pointed (ts : List (Token × Nat)) (ws : List Warning) : Prop := ∀ w ∈ ws, w.PointsInto ts

namespace Pointed

variable {ts : List (Token × Nat)} {ws vs : List Warning} {c : Connective} {p : Nat}

@[simp] theorem nil : Pointed ts [] := by simp [Pointed]

theorem append (hw : Pointed ts ws) (hv : Pointed ts vs) : Pointed ts (ws ++ vs) := by
  intro w hmem
  rcases List.mem_append.1 hmem with hmem | hmem
  · exact hw w hmem
  · exact hv w hmem

theorem singleton {w : Warning} (h : w.PointsInto ts) : Pointed ts [w] := by
  intro v hv
  rw [List.mem_singleton.1 hv]
  exact h

theorem joinWarnings (h : (.connective c, p) ∈ ts) (l r : Option Expr) : Pointed ts (joinWarnings c p l r) := by
  unfold KeywordRules.joinWarnings
  split
  · exact nil
  · exact singleton ⟨_, p, h, rfl, rfl⟩

theorem depthWarnings (h : (.opening, p) ∈ ts) (dropped : Nat) : Pointed ts (depthWarnings p dropped) := by
  cases dropped with
  | zero => exact singleton ⟨_, p, h, rfl, rfl⟩
  | succ d => exact nil

theorem bareWildcards {w : Text} {m : Bool} (h : (.term w m, p) ∈ ts) :
    Pointed ts (bareWildcards p (Leaf.ofTerm w m)) := by
  unfold KeywordRules.bareWildcards
  split
  · next hleaf =>
    unfold Leaf.ofTerm at hleaf
    dsimp only at hleaf
    split at hleaf
    · cases hleaf
    · split at hleaf
      · next hm =>
        subst hm
        exact singleton ⟨_, p, h, rfl, w, rfl, Leaf.stem.inj hleaf⟩
      · cases hleaf
  · exact nil

end Pointed

/-! ### Positions that a scan remembers -/

section Within

variable (ts : List (Token × Nat))

def Waiting.Within (c : Connective) (w? : Option Waiting) : Prop := ∀ w ∈ w?, (.connective c, w.position) ∈ ts

structure Slot.Within (s : Slot) : Prop where
  disjunct : Waiting.Within ts .or s.disjunct?
  conjunct : Waiting.Within ts .and s.conjunct?
  negations : ∀ p ∈ s.negations, (.connective .not, p) ∈ ts

def Stage.Within : Stage → Prop
  | .awaiting s _ => s.Within ts
  | .holding d? _ => Waiting.Within ts .or d?

/-- Every position in the scan is that of the token it stands for. -/
structure Scan.Within (σ : Scan) : Prop where
  warnings : Pointed ts σ.warnings
  groups : ∀ g ∈ σ.groups, (.opening, g.1) ∈ ts ∧ g.2.Within ts
  stage : σ.stage.Within ts

end Within

section

variable {ts : List (Token × Nat)}

theorem Waiting.within_none (c : Connective) : Waiting.Within ts c none := by simp [Waiting.Within]

theorem Waiting.within_some {c : Connective} {p : Nat} (h : (.connective c, p) ∈ ts) (e : Option Expr) :
    Waiting.Within ts c (some ⟨p, e⟩) := by
  intro w hw
  cases hw
  exact h

theorem Slot.within_vacant : Slot.vacant.Within ts := ⟨Waiting.within_none _, Waiting.within_none _, by simp [Slot.vacant]⟩

theorem Waiting.Within.lacks {c : Connective} {w? : Option Waiting} (h : Waiting.Within ts c w?) (e : Option Expr) :
    Pointed ts (Waiting.lacks c w? e) := by
  rcases w? with _ | w
  · exact Pointed.nil
  · exact Pointed.joinWarnings (h w rfl) _ _

namespace Slot.Within

variable {s : Slot} (h : s.Within ts)

include h

theorem conjunctionWarnings (e : Option Expr) : Pointed ts (s.conjunctionWarnings e) := by
  refine Pointed.append ?_ (h.conjunct.lacks _)
  rcases e with _ | e
  · intro w hw
    obtain ⟨p, hp, rfl⟩ := List.mem_map.1 hw
    exact ⟨_, p, h.negations p hp, rfl, rfl⟩
  · exact Pointed.nil

theorem valueWarnings (e : Option Expr) : Pointed ts (s.valueWarnings e) :=
  (h.conjunctionWarnings e).append (h.disjunct.lacks _)

end Slot.Within

namespace Stage.Within

variable {st : Stage} (h : st.Within ts)

include h

theorem disjunct : Waiting.Within ts .or st.disjunct? := by
  cases st with
  | awaiting s flat => exact Slot.Within.disjunct h
  | holding d? v => exact h

theorem conjunctionWarnings : Pointed ts st.conjunctionWarnings := by
  cases st with
  | awaiting s flat => exact Slot.Within.conjunctionWarnings h none
  | holding d? v => exact Pointed.nil

theorem valueWarnings : Pointed ts st.valueWarnings := h.conjunctionWarnings.append (h.disjunct.lacks _)

end Stage.Within

theorem pointed_leaveWarnings {gs : List (Nat × Slot)} (h : ∀ g ∈ gs, (.opening, g.1) ∈ ts ∧ g.2.Within ts)
    (e : Option Expr) : Pointed ts (leaveWarnings gs e) := by
  induction gs generalizing e with
  | nil => exact Pointed.nil
  | cons g gs ih =>
    obtain ⟨hp, hs⟩ := h g List.mem_cons_self
    have hopen : Pointed ts [.unclosedGroup g.1] := Pointed.singleton ⟨_, g.1, hp, rfl, rfl⟩
    exact hopen.append ((hs.valueWarnings e).append (ih (fun g' hg' => h g' (List.mem_cons_of_mem _ hg')) _))

/-! ### Each token keeps them -/

namespace Scan.Within

variable {σ : Scan} {p : Nat}

theorem start : Scan.start.Within ts := ⟨Pointed.nil, by simp [Scan.start], Slot.within_vacant⟩

theorem conclude (h : σ.Within ts) : σ.conclude.Within ts where
  warnings := h.warnings.append (h.stage.valueWarnings.append (pointed_leaveWarnings h.groups _))
  groups := by simp [Scan.conclude]
  stage := Slot.within_vacant

theorem resume (h : σ.Within ts) : σ.resume.1.Within ts ∧ σ.resume.2.Within ts := by
  have hstage := h.stage
  unfold Scan.resume
  split
  · next hst =>
    rw [hst] at hstage
    exact ⟨h, hstage⟩
  · exact ⟨h.conclude, Slot.within_vacant⟩

theorem resumeNegation (h : σ.Within ts) : σ.resumeNegation.1.Within ts ∧ σ.resumeNegation.2.Within ts := by
  have hstage := h.stage
  unfold Scan.resumeNegation
  split
  · next hst =>
    rw [hst] at hstage
    exact ⟨h, hstage⟩
  · exact ⟨h.conclude, Slot.within_vacant⟩

theorem fill {s : Slot} (h : σ.Within ts) (hs : s.Within ts) (e : Option Expr) : (σ.fill s e).Within ts :=
  ⟨h.warnings.append (hs.conjunctionWarnings e), h.groups, hs.disjunct⟩

theorem enter {s : Slot} (h : σ.Within ts) (hs : s.Within ts) (hp : (.opening, p) ∈ ts) : (σ.enter s p).Within ts := by
  unfold Scan.enter
  split
  · refine ⟨h.warnings, ?_, Slot.within_vacant⟩
    intro g hg
    rcases List.mem_cons.1 hg with rfl | hg
    · exact ⟨hp, hs⟩
    · exact h.groups g hg
  · exact ⟨h.warnings.append (Pointed.depthWarnings hp _), h.groups, hs⟩

theorem close (h : σ.Within ts) (hp : (.closing, p) ∈ ts) : (σ.close p).Within ts := by
  have hgroups := h.groups
  unfold Scan.close
  split
  · exact ⟨h.warnings, h.groups, h.stage⟩
  · exact ⟨h.warnings.append (Pointed.singleton ⟨_, p, hp, rfl, rfl⟩), h.groups, h.stage⟩
  · next q s gs _ hgs =>
    rw [hgs] at hgroups
    have hleft : ({ σ with groups := gs }.warn σ.stage.valueWarnings : Scan).Within ts :=
      ⟨h.warnings.append h.stage.valueWarnings, fun g hg => hgroups g (List.mem_cons_of_mem _ hg), h.stage⟩
    exact hleft.fill (hgroups _ List.mem_cons_self).2 _

theorem read {l : Leaf} (h : σ.Within ts) (hl : Pointed ts (bareWildcards p l)) : (σ.read l p).Within ts := by
  obtain ⟨hσ, hs⟩ := h.resume
  have hwarn : (σ.resume.1.warn (bareWildcards p l)).Within ts := ⟨hσ.warnings.append hl, hσ.groups, hσ.stage⟩
  exact hwarn.fill hs _

/-- A token of `ts` keeps the positions of a scan within `ts`. -/
theorem step {t : Token} (h : σ.Within ts) (ht : (t, p) ∈ ts) : (σ.step (t, p)).Within ts := by
  rcases t with c | _ | _ | ⟨w, m⟩ | v
  · rcases c with _ | _ | _
    · exact ⟨h.warnings.append h.stage.conjunctionWarnings, h.groups,
        h.stage.disjunct, Waiting.within_some ht _, by simp⟩
    · exact ⟨h.warnings.append h.stage.valueWarnings, h.groups,
        Waiting.within_some ht _, Waiting.within_none _, by simp⟩
    · obtain ⟨hσ, hs⟩ := h.resumeNegation
      refine ⟨hσ.warnings, hσ.groups, hs.disjunct, hs.conjunct, ?_⟩
      intro q hq
      rcases List.mem_cons.1 hq with rfl | hq
      · exact ht
      · exact hs.negations q hq
  · exact h.resume.1.enter h.resume.2 ht
  · exact h.close ht
  · exact h.read (Pointed.bareWildcards ht)
  · exact h.read Pointed.nil

theorem foldl {us : List (Token × Nat)} (h : σ.Within ts) (hus : us ⊆ ts) : (us.foldl Scan.step σ).Within ts := by
  induction us generalizing σ with
  | nil => exact h
  | cons t us ih =>
    have ht := h.step (hus List.mem_cons_self)
    exact ih ht fun u hu => hus (List.mem_cons_of_mem _ hu)

end Scan.Within

end

/-! ### The warnings about a query -/

theorem pointed_scan (ts : List Token) : Pointed ts.zipIdx (Scan.start.result ts.zipIdx).2 :=
  (Scan.Within.start.foldl fun _ h => h).conclude.warnings

theorem warnings_parse (ts : List Token) :
    (parse ts).warnings = (Scan.start.result ts.zipIdx).2 ++ emptiness ts (parse ts).root? := by
  rw [parse_eq_scan]

theorem mem_emptiness {ts : List Token} {e : Option Expr} {w : Warning} :
    w ∈ emptiness ts e ↔ w = .emptyQuery ∧ ts = [] ∨ w = .neverMatches ∧ ts ≠ [] ∧ e = none := by
  rcases ts with _ | ⟨t, ts⟩
  · simp [emptiness]
  · cases e <;> simp [emptiness]

/-- A warning with a position points at a token of the kind it speaks of. -/
theorem pointsInto_parse {ts : List Token} {w : Warning} (h : w ∈ (parse ts).warnings)
    (hp : w.position?.isSome = true) : w.PointsInto ts.zipIdx := by
  rw [warnings_parse, List.mem_append, mem_emptiness] at h
  rcases h with h | ⟨rfl, -⟩ | ⟨rfl, -⟩
  · exact pointed_scan ts w h
  · cases hp
  · cases hp

theorem emptyQuery_mem_iff (ts : List Token) : .emptyQuery ∈ (parse ts).warnings ↔ ts = [] := by
  rw [warnings_parse, List.mem_append, mem_emptiness]
  constructor
  · rintro (h | ⟨-, h⟩ | ⟨h, -⟩)
    · obtain ⟨t, p, -, hp, -⟩ := pointed_scan ts _ h
      cases hp
    · exact h
    · cases h
  · intro h
    exact .inr (.inl ⟨rfl, h⟩)

theorem neverMatches_mem_iff (ts : List Token) :
    .neverMatches ∈ (parse ts).warnings ↔ ts ≠ [] ∧ (parse ts).root? = none := by
  rw [warnings_parse, List.mem_append, mem_emptiness]
  constructor
  · rintro (h | ⟨h, -⟩ | ⟨-, h⟩)
    · obtain ⟨t, p, -, hp, -⟩ := pointed_scan ts _ h
      cases hp
    · cases h
    · exact h
  · intro h
    exact .inr (.inr ⟨rfl, h⟩)

end KeywordRules
