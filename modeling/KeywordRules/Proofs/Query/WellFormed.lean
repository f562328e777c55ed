import KeywordRules.Proofs.Query.Acceptance

/-!
# A clean scan holds derivations

As long as a scan is clean, every expression it holds is derived from the tokens it stands for (`Scan.Reads`), and
each token keeps this so (`Scan.Reads.step`).  Nothing is said of an operand that was missed: it is reported when the
connective or the group around it ends, and in a query that means nothing it is reported in the end.  With
`Derives.scans` it follows that the clean queries are the derived ones (`parse_clean_iff_derives`).
-/

namespace KeywordRules

/-- The tokens `ts` end with the connective `c` that waits, if one waits; what it holds is derived from those before
it. -/
def Waiting.Reads (n : Nat) (k : Nonterminal) (c : Connective) : Option Waiting → List Token → Prop
  | none, ts => ts = []
  | some w, ts => ∃ us, ts = us ++ [.connective c] ∧ ∀ l, w.left = some l → Derives n k us l

/-- The tokens `ts` lead from the start of a group to the place `s`. -/
def Slot.Reads (n : Nat) (s : Slot) (ts : List Token) : Prop :=
  ∃ us vs, ts = us ++ (vs ++ List.replicate s.negations.length (.connective .not)) ∧
    Waiting.Reads n .disjunction .or s.disjunct? us ∧ Waiting.Reads n .conjunction .and s.conjunct? vs

/-- The tokens `ts` lead from the start of a group to where the scan stands in it. -/
def Stage.Reads (n : Nat) : Stage → List Token → Prop
  | .awaiting s flat, ts => flat = false ∧ s.Reads n ts
  | .holding d? v, ts => ∃ us vs, ts = us ++ vs ∧ Waiting.Reads n .disjunction .or d? us ∧
      ∀ e, v = some e → Derives n .conjunction vs e

/-- The tokens `ts` open the groups `gs`. -/
def GroupsRead : List (Nat × Slot) → List Token → Prop
  | [], ts => ts = []
  | (_, s) :: gs, ts => gs.length < maxNesting ∧ ∃ us vs, ts = us ++ (vs ++ [.opening]) ∧ GroupsRead gs us ∧
      s.Reads (maxNesting - gs.length) vs

/-- The scan has read the tokens `ts` as one piece, and holds derivations of them. -/
def Scan.Reads (σ : Scan) (ts : List Token) : Prop :=
  σ.root? = none ∧ σ.dropped = 0 ∧ ∃ us vs, ts = us ++ vs ∧ GroupsRead σ.groups us ∧
    σ.stage.Reads (maxNesting - σ.groups.length) vs

/-! ### What ends cleanly is derived -/

private theorem derives_negated {n : Nat} {ts : List Token} (ns : List Nat) {e : Expr}
    (h : Derives n .negation ts e) :
    ∃ e', negated ns (some e) = some e' ∧
      Derives n .negation (List.replicate ns.length (.connective .not) ++ ts) e' := by
  induction ns generalizing ts e with
  | nil => exact ⟨e, rfl, h⟩
  | cons p ns ih =>
    obtain ⟨e', he, hd⟩ := ih h.not
    refine ⟨e', he, ?_⟩
    rw [List.length_cons, List.replicate_succ', List.append_assoc]
    exact hd

/-- An operand in its place ends a conjunction. -/
theorem Slot.Reads.fill {n : Nat} {s : Slot} {ts us : List Token} {e : Option Expr} (h : s.Reads n ts)
    (he : ∀ x, e = some x → Derives n .primary us x) (hc : Clean (s.conjunctionWarnings e)) :
    (Stage.holding s.disjunct? (s.conjunction e)).Reads n (ts ++ us) := by
  obtain ⟨ds, cs, rfl, hds, hcs⟩ := h
  refine ⟨ds, cs ++ (List.replicate s.negations.length (.connective .not) ++ us), by simp, hds, ?_⟩
  intro x hx
  rcases e with _ | e
  · -- nothing can be held without an operand unless a warning was given
    exfalso
    rcases hc' : s.conjunct? with _ | w <;>
      simp [Slot.conjunction, Slot.conjunctionWarnings, hc', negated_none] at hx hc
  · obtain ⟨e', he', hd⟩ := derives_negated s.negations (he e rfl).primary
    rcases hc' : s.conjunct? with _ | ⟨p, l⟩
    · simp only [Waiting.Reads, hc'] at hcs
      simp only [Slot.conjunction, hc', he', Waiting.join_none, Option.some.injEq] at hx
      subst hx hcs
      exact hd.conjunction_of_negation
    · obtain ⟨ls, rfl, hl⟩ := by simpa only [Waiting.Reads, hc'] using hcs
      simp only [Slot.conjunctionWarnings, hc', he', Waiting.lacks_some, Clean.append_iff,
        Clean.joinWarnings_iff] at hc
      obtain ⟨l, rfl⟩ := Option.isSome_iff_exists.1 hc.2.1
      simp only [Slot.conjunction, hc', he', Waiting.join_some, joinOperands, Option.some.injEq] at hx
      subst hx
      simpa using (hl l rfl).and hd

/-- Where a conjunction ends, it has been derived. -/
theorem Stage.Reads.conjunction {n : Nat} {st : Stage} {ts : List Token} (h : st.Reads n ts)
    (hc : Clean st.conjunctionWarnings) : (Stage.holding st.disjunct? st.conjunction).Reads n ts := by
  rcases st with ⟨s, flat⟩ | ⟨d?, v⟩
  · have hfill : (Stage.holding s.disjunct? (s.conjunction none)).Reads n (ts ++ []) :=
      h.2.fill (by simp) hc
    simpa using hfill
  · exact h

/-- Where a disjunction ends, it has been derived. -/
theorem Stage.Reads.value {n : Nat} {st : Stage} {ts : List Token} (h : st.Reads n ts)
    (hc : Clean st.valueWarnings) {e : Expr} (he : st.value = some e) : Derives n .disjunction ts e := by
  rw [Stage.valueWarnings, Clean.append_iff] at hc
  obtain ⟨ds, cs, rfl, hds, hcs⟩ := h.conjunction hc.1
  rcases hd : st.disjunct? with _ | ⟨p, l⟩
  · simp only [Waiting.Reads, hd] at hds
    simp only [Stage.value, hd, Waiting.join_none] at he
    subst hds
    exact (hcs e he).disjunction_of_conjunction
  · obtain ⟨ls, rfl, hl⟩ := by simpa only [Waiting.Reads, hd] using hds
    rw [hd, Waiting.lacks_some, Clean.joinWarnings_iff] at hc
    obtain ⟨l, rfl⟩ := Option.isSome_iff_exists.1 hc.2.1
    obtain ⟨r, hr⟩ := Option.isSome_iff_exists.1 hc.2.2
    simp only [Stage.value, hd, hr, Waiting.join_some, joinOperands, Option.some.injEq] at he
    subst he
    simpa using (hl l rfl).or (hcs r hr)

/-! ### Each token keeps what a scan holds derived -/

/-- After a token that ends no operand the scan awaits one. -/
theorem Scan.endsValue_of_holding {σ : Scan} {t : Token} {p : Nat} {d? : Option Waiting} {v : Option Expr}
    (h : (σ.step (t, p)).stage = .holding d? v) :
    t.endsValue = true := by
  rcases t with c | _ | _ | _ | _
  · rcases c <;> simp [Scan.step] at h
  · unfold Scan.step Scan.enter at h
    dsimp only at h
    split at h <;> simp at h
  all_goals rfl

private theorem Scan.Reads.fill {σ : Scan} {s : Slot} {e : Option Expr} {us vs ws : List Token} (hr : σ.root? = none)
    (hd : σ.dropped = 0) (hg : GroupsRead σ.groups us) (hs : s.Reads (maxNesting - σ.groups.length) vs)
    (he : ∀ x, e = some x → Derives (maxNesting - σ.groups.length) .primary ws x)
    (hc : Clean (σ.fill s e).warnings) : (σ.fill s e).Reads (us ++ (vs ++ ws)) := by
  simp only [Scan.fill, Scan.hold, Scan.warn, Clean.append_iff] at hc
  exact ⟨hr, hd, us, vs ++ ws, rfl, hg, hs.fill he hc.2⟩

private theorem Scan.Reads.read {σ : Scan} {ts : List Token} {t : Token} {l : Leaf} {p : Nat} (h : σ.Reads ts)
    (ht : ∀ d? v, σ.stage ≠ .holding d? v) (hl : ∀ n, Derives n .primary [t] (.leaf l))
    (hc : Clean (σ.read l p).warnings) : (σ.read l p).Reads (ts ++ [t]) := by
  obtain ⟨hr, hd, us, vs, rfl, hg, hs⟩ := h
  rcases hst : σ.stage with ⟨s, flat⟩ | ⟨d?, v⟩
  · rw [hst] at hs
    simp only [Scan.read, Scan.resume, hst] at hc ⊢
    rw [List.append_assoc]
    refine Scan.Reads.fill hr hd hg hs.2 (fun x hx => ?_) hc
    rw [← Option.some.inj hx]
    exact hl _
  · exact absurd hst (ht d? v)

private theorem Scan.Reads.opening {σ : Scan} {ts : List Token} {p : Nat} (h : σ.Reads ts)
    (ht : ∀ d? v, σ.stage ≠ .holding d? v) (hc : Clean (σ.step (.opening, p)).warnings) :
    (σ.step (.opening, p)).Reads (ts ++ [.opening]) := by
  obtain ⟨hr, hd, us, vs, rfl, hg, hs⟩ := h
  rcases hst : σ.stage with ⟨s, flat⟩ | ⟨d?, v⟩
  · rw [hst] at hs
    simp only [Scan.step, Scan.resume, hst, Scan.enter] at hc ⊢
    by_cases hlt : σ.groups.length < maxNesting
    · rw [if_pos hlt]
      exact ⟨hr, hd, us ++ (vs ++ [.opening]), [], by simp, ⟨hlt, us, vs, rfl, hg, hs.2⟩, rfl, [], [], rfl, rfl, rfl⟩
    · rw [if_neg hlt, hd] at hc
      obtain ⟨q, hq⟩ := hc (.nestingTooDeep p maxNesting) (by simp [depthWarnings])
      cases hq
  · exact absurd hst (ht d? v)

private theorem Scan.Reads.closing {σ : Scan} {ts : List Token} {p : Nat} (h : σ.Reads ts)
    (hc : Clean (σ.step (.closing, p)).warnings) : (σ.step (.closing, p)).Reads (ts ++ [.closing]) := by
  obtain ⟨hr, hd, us, vs, rfl, hg, hs⟩ := h
  rcases hgs : σ.groups with _ | ⟨⟨q, s⟩, gs⟩
  · obtain ⟨q, hq⟩ := hc (.unmatchedClose p) (by simp [Scan.step, Scan.close, hd, hgs])
    cases hq
  · rw [hgs] at hg hs
    obtain ⟨hlt, as, bs, rfl, hg, hb⟩ := hg
    have hstep : σ.step (.closing, p) =
        (({ σ with groups := gs } : Scan).warn σ.stage.valueWarnings).fill s σ.stage.value := by
      simp [Scan.step, Scan.close, hd, hgs]
    rw [hstep] at hc ⊢
    have hv : Clean σ.stage.valueWarnings := by
      simp only [Scan.fill, Scan.hold, Scan.warn, Clean.append_iff] at hc
      exact hc.1.2
    have hinside : ∀ x, σ.stage.value = some x →
        Derives (maxNesting - gs.length) .primary (.opening :: (vs ++ [.closing])) x := by
      intro x hx
      have hsucc : maxNesting - gs.length = maxNesting - (gs.length + 1) + 1 := by omega
      rw [hsucc]
      exact .group (hs.value hv hx)
    have htokens : as ++ (bs ++ [.opening]) ++ vs ++ [.closing] = as ++ (bs ++ (.opening :: (vs ++ [.closing]))) := by
      simp
    rw [htokens]
    exact Scan.Reads.fill hr hd hg hb hinside hc

/-- What a clean scan holds stays derived with each token that may stand after the last one. -/
theorem Scan.Reads.step {σ : Scan} {ts : List Token} {t : Token} {p : Nat} (h : σ.Reads ts)
    (ht : ∀ d? v, σ.stage = .holding d? v → t.startsValue = false) (hc : Clean (σ.step (t, p)).warnings) :
    (σ.step (t, p)).Reads (ts ++ [t]) := by
  have hawait : t.startsValue = true → ∀ d? v, σ.stage ≠ .holding d? v := by
    intro hstarts d? v hst
    rw [ht d? v hst] at hstarts
    cases hstarts
  rcases t with c | _ | _ | ⟨w, m⟩ | x
  · obtain ⟨hr, hd, us, vs, rfl, hg, hs⟩ := h
    rw [List.append_assoc]
    rcases c with _ | _ | _
    · simp only [Scan.step, Scan.await, Scan.warn, Clean.append_iff] at hc ⊢
      obtain ⟨ds, cs, rfl, hds, hcs⟩ := hs.conjunction hc.2
      exact ⟨hr, hd, us, _, rfl, hg, rfl, ds, cs ++ [.connective .and], by simp, hds, cs, rfl, hcs⟩
    · simp only [Scan.step, Scan.await, Scan.warn, Clean.append_iff] at hc ⊢
      exact ⟨hr, hd, us, _, rfl, hg, rfl, vs ++ [.connective .or], [], by simp,
        ⟨vs, rfl, fun l hl => hs.value hc.2 hl⟩, rfl⟩
    · rcases hst : σ.stage with ⟨s, flat⟩ | ⟨d?, v⟩
      · rw [hst] at hs
        obtain ⟨rfl, ds, cs, rfl, hds, hcs⟩ := hs
        simp only [Scan.step, Scan.resumeNegation, hst, Scan.await]
        refine ⟨hr, hd, us, _, rfl, hg, rfl, ds, cs, ?_, hds, hcs⟩
        simp [List.replicate_succ']
      · exact absurd hst (hawait rfl d? v)
  · exact h.opening (hawait rfl) hc
  · exact h.closing hc
  · exact h.read (hawait rfl) (fun n => .term w m) hc
  · exact h.read (hawait rfl) (fun n => .phrase x) hc

/-! ### Clean queries are derived -/

/-- A scan over tokens without an operand right after another holds derivations as long as it is clean. -/
theorem Scan.Reads.foldl {σ : Scan} {ts us : List Token} (p : Nat) (h : σ.Reads ts) (hus : us.IsChain Abuts)
    (hhead : ∀ t ∈ us.head?, ∀ d? v, σ.stage = .holding d? v → t.startsValue = false)
    (hc : Clean ((us.zipIdx p).foldl Scan.step σ).warnings) :
    ((us.zipIdx p).foldl Scan.step σ).Reads (ts ++ us) := by
  induction us generalizing σ ts p with
  | nil => simpa using h
  | cons t us ih =>
    rw [List.zipIdx_cons, List.foldl_cons] at hc ⊢
    rw [List.isChain_cons] at hus
    have hstep := h.step (hhead t rfl) (Scan.clean_of_foldl hc)
    have hnext := ih (p + 1) hstep hus.2
      (fun u hu d? v hst => hus.1 u hu (Scan.endsValue_of_holding hst)) hc
    simpa using hnext

theorem Scan.reads_start : Scan.start.Reads [] :=
  ⟨rfl, rfl, [], [], rfl, rfl, rfl, [], [], rfl, rfl, rfl⟩

/-- What a clean query means is derived from it. -/
theorem derives_of_clean {ts : List Token} {e : Expr} (hts : ts.IsChain Abuts) (hc : Clean (parse ts).warnings)
    (he : (parse ts).root? = some e) : Derives maxNesting .disjunction ts e := by
  rw [parse_eq_scan] at hc he
  simp only [Scan.result, Scan.conclude, Clean.append_iff] at hc he
  obtain ⟨hr, -, us, vs, hvs, hg, hs⟩ :=
    Scan.reads_start.foldl 0 hts (fun _ _ _ _ h => by cases h) hc.1.1
  rcases hgs : (ts.zipIdx.foldl Scan.step Scan.start).groups with _ | ⟨⟨p, s⟩, gs⟩
  · rw [hgs] at hg hs he
    rw [hr, leaveGroups, joinOperands_none_left] at he
    have hus : us = [] := hg
    rw [hus, List.nil_append, List.nil_append] at hvs
    rw [hvs]
    exact hs.value hc.1.2.1 he
  · rw [hgs] at hc
    obtain ⟨q, hq⟩ := hc.1.2.2 (.unclosedGroup p) (by simp [leaveWarnings])
    cases hq

/-- A query with a derivation is clean and means what the derivation says. -/
theorem parse_of_derives {ts : List Token} {e : Expr} (h : Derives maxNesting .disjunction ts e) :
    (parse ts).root? = some e ∧ Clean (parse ts).warnings := by
  obtain ⟨ws, d?, v, hws, hfold, hv, hl⟩ := h.scans 0 Scan.start rfl (by simp [Scan.start]) rfl
  have hne : ts.isEmpty = false := by
    rcases ts with _ | ⟨t, ts⟩
    · simp [Scan.start] at hfold
    · rfl
  rw [parse_eq_scan, Scan.result, hfold]
  simp [Scan.conclude, hv, hl, leaveGroups, leaveWarnings, Scan.start, hws, emptiness, hne]

/-- A query that means nothing is not clean. -/
theorem isSome_of_clean {ts : List Token} (h : Clean (parse ts).warnings) : (parse ts).root?.isSome = true := by
  by_contra hn
  rw [Bool.not_eq_true, Option.isSome_eq_false_iff, Option.isNone_iff_eq_none] at hn
  rw [parse_eq_scan] at h hn
  simp only [Clean.append_iff] at h hn
  rw [hn] at h
  rcases ts with _ | ⟨t, ts⟩ <;> simp [emptiness, Clean] at h

/-- Once its juxtaposed operands are joined, a query is clean exactly if it is well-formed with groups within the
nesting limit, and then it means what its derivation says. -/
theorem parse_clean_iff_derives (ts : List Token) :
    (Clean (parse (spliceAnds ts)).warnings ↔ ∃ e, Derives maxNesting .disjunction (spliceAnds ts) e) ∧
    ∀ e, Derives maxNesting .disjunction (spliceAnds ts) e ↔
      Clean (parse (spliceAnds ts)).warnings ∧ (parse (spliceAnds ts)).root? = some e := by
  have hiff : ∀ e, Derives maxNesting .disjunction (spliceAnds ts) e ↔
      Clean (parse (spliceAnds ts)).warnings ∧ (parse (spliceAnds ts)).root? = some e := by
    intro e
    constructor
    · intro h
      exact (parse_of_derives h).symm
    · intro h
      exact derives_of_clean (isChain_spliceAnds ts) h.1 h.2
  refine ⟨⟨fun h => ?_, fun ⟨e, h⟩ => ((hiff e).1 h).1⟩, hiff⟩
  obtain ⟨e, he⟩ := Option.isSome_iff_exists.1 (isSome_of_clean h)
  exact ⟨e, (hiff e).2 ⟨h, he⟩⟩

end KeywordRules
