import KeywordRules.Proofs.Query.Progress

/-!
# The parser is a scan

Reading a query by recursion on its grammar and scanning it token by token give the same expression and the same
warnings in the same order (`parse_eq_scan`).  Each reading of the parser takes a scan from the place where the
reading begins to the place where it ends.  The continuation of the query is arbitrary throughout, since a group or a
piece may end early at a token that its callers then see as well.
-/

namespace KeywordRules

/-! ### Operands -/

/-- A reading takes every scan inside the groups `gs` from a place that awaits an operand to that place filled with
what was read. -/
def Fills (gs : List (Nat × Slot)) (read : Reading) (s : TokenStream) : Prop :=
  ∀ (σ : Scan) (slot : Slot), σ.groups = gs → σ.stage = .awaiting slot false →
    σ.on s = ((σ.warn (read s).warnings).fill slot (read s).expr?).on (read s).rest

/-- A reading takes every scan inside the groups `gs` from the start of a group or a piece to what it means, and stops
at a token that goes on with neither a conjunction nor a disjunction. -/
structure Ends (inGroup : Bool) (gs : List (Nat × Slot)) (read : Reading) (s : TokenStream) : Prop where
  settled : (read s).rest.Settled inGroup
  lacks_and : (read s).rest.Lacks .and
  lacks_or : (read s).rest.Lacks .or
  on_eq : ∀ σ : Scan, σ.groups = gs → σ.stage = .awaiting .vacant false →
    σ.on s = ((σ.warn (read s).warnings).hold none (read s).expr?).on (read s).rest

/-- What follows a group or a piece, a closing parenthesis apart, begins an operand. -/
theorem Ends.startsValue_of_tokens {inGroup : Bool} {gs : List (Nat × Slot)} {read : Reading} {s : TokenStream}
    (h : Ends inGroup gs read s) (hclose : ∀ p us, (read s).rest.tokens ≠ (.closing, p) :: us) :
    ∀ t us, (read s).rest.tokens = t :: us → t.1.startsValue = true := by
  rintro ⟨t, p⟩ us htoks
  cases t with
  | closing => exact absurd htoks (hclose p us)
  | connective c =>
    cases c with
    | not => rfl
    | and => exact absurd htoks (h.lacks_and p us)
    | or => exact absurd htoks (h.lacks_or p us)
  | _ => rfl

private theorem on_opening {σ : Scan} {slot : Slot} {flat : Bool} {s : TokenStream} {p : Nat}
    {ts : List (Token × Nat)} (htoks : s.tokens = (.opening, p) :: ts) (h : σ.stage = .awaiting slot flat)
    (hlt : σ.groups.length < maxNesting) {ws : List Warning} :
    (σ.warn ws).on s =
      (({ σ.warn ws with groups := (p, slot) :: σ.groups } : Scan).await .vacant).on ⟨ts, s.dropped⟩ := by
  rw [Scan.on_of_tokens htoks, Scan.result_cons]
  simp [Scan.step, Scan.resume, Scan.enter, Scan.on, h, hlt]

private theorem on_not {σ : Scan} {slot : Slot} {s : TokenStream} {p : Nat} {ts : List (Token × Nat)}
    (htoks : s.tokens = (.connective .not, p) :: ts) (h : σ.stage = .awaiting slot false) {ws : List Warning} :
    (σ.warn ws).on s =
      ((σ.warn ws).await { slot with negations := p :: slot.negations }).on ⟨ts, s.dropped⟩ := by
  rw [Scan.on_of_tokens htoks, Scan.result_cons]
  simp [Scan.step, Scan.resumeNegation, Scan.on, h]

private theorem on_readLeaf {σ : Scan} {slot : Slot} {flat : Bool} (h : σ.stage = .awaiting slot flat)
    {s : TokenStream} (hs : ∀ t p us, s.tokens = (t, p) :: us →
      (t = .connective .not → flat = true) ∧ t ≠ .opening ∧ (t = .closing → s.dropped = 0 ∧ σ.groups ≠ [])) :
    σ.on s = ((σ.warn (readLeaf s).warnings).fill slot (readLeaf s).expr?).on (readLeaf s).rest := by
  unfold readLeaf
  split
  · rename_i w m p ts htoks
    rw [Scan.on_of_tokens htoks, Scan.result_cons]
    simp [Scan.step, Scan.read, Scan.resume, h, Scan.on, Scan.fill]
  · rename_i v p ts htoks
    rw [Scan.on_of_tokens htoks, Scan.result_cons]
    simp [Scan.step, Scan.read, Scan.resume, h, Scan.on, Scan.fill, bareWildcards]
  · rename_i hterm hphrase
    have hstage : ({ σ with dropped := s.dropped } : Scan).stage = .awaiting slot flat := h
    have key := Scan.result_fill_none hstage (fun t p us htoks => by
        obtain ⟨hnot, hopen, hclose⟩ := hs t p us htoks
        refine ⟨hnot, hopen, ?_, hclose⟩
        cases t with
        | term w m => exact absurd htoks (hterm w m p us)
        | phrase v => exact absurd htoks (hphrase v p us)
        | _ => rfl)
    simpa [Scan.on, Scan.fill] using key

private theorem result_flattenFrom (σ : Scan) {slot : Slot} (h : σ.stage = .awaiting slot true)
    (hg : ¬ σ.groups.length < maxNesting) (ts : List (Token × Nat)) (d : Nat) :
    ({ σ with dropped := d } : Scan).result ts =
      (σ.warn (TokenStream.tooDeepFrom ts d)).on (TokenStream.flattenFrom ts d) := by
  fun_induction TokenStream.flattenFrom ts d generalizing σ with
  | case1 p ts d ih =>
    have hstep : ({ σ with dropped := d } : Scan).step (.opening, p) =
        { σ.warn (depthWarnings p d) with dropped := d + 1 } := by
      simp [Scan.step, Scan.resume, Scan.enter, h, hg]
    rw [Scan.result_cons, hstep, ih (σ.warn _) h hg]
    cases d <;> simp [TokenStream.tooDeepFrom, depthWarnings]
  | case2 p ts d ih =>
    rw [Scan.result_cons, TokenStream.tooDeepFrom, ← ih σ h hg]
    rfl
  | case3 ts d h₁ h₂ =>
    have : TokenStream.tooDeepFrom ts d = [] := by
      unfold TokenStream.tooDeepFrom
      split
      · exact absurd rfl (h₁ _ _)
      · exact absurd rfl (h₁ _ _)
      · exact absurd rfl (h₂ _ _ _ rfl)
      · rfl
    simp [Scan.on, this]

/-- At the nesting limit an operand is a leaf, with the parentheses before it dropped. -/
theorem fills_readFlat {gs : List (Nat × Slot)} (hg : ¬ gs.length < maxNesting) {s : TokenStream}
    (hs : s.Settled true) (hnot : s.Lacks .not) : Fills gs readFlat s := by
  intro σ slot hσ hstage
  subst hσ
  have hne : σ.groups ≠ [] := by
    intro h
    rw [h] at hg
    exact hg (by decide)
  by_cases hopen : ∃ p us, s.tokens = (.opening, p) :: us
  · obtain ⟨p, us, htoks⟩ := hopen
    -- the first parenthesis sets the flag, and from there on the flag is set
    have hstep : σ.on s = (({ σ with stage := .awaiting slot true } : Scan).warn s.tooDeep).on s.flatten := by
      have key := result_flattenFrom { σ with stage := .awaiting slot true } rfl hg s.tokens s.dropped
      rw [Scan.on_of_tokens htoks]
      rw [htoks] at key
      rw [TokenStream.tooDeep, TokenStream.flatten, htoks, ← key, Scan.result_cons, Scan.result_cons]
      simp [Scan.step, Scan.resume, Scan.enter, hstage, hg]
    have hflat : (({ σ with stage := .awaiting slot true } : Scan).warn s.tooDeep).stage = .awaiting slot true := rfl
    rw [hstep, on_readLeaf hflat]
    · simp [readFlat, Scan.fill]
    · intro t q vs h
      obtain ⟨h₁, h₂⟩ := TokenStream.flattenFrom_head h
      exact ⟨fun _ => rfl, h₁, fun ht => ⟨h₂ ht, hne⟩⟩
  · have hflat : s.flatten = s ∧ s.tooDeep = [] := by
      obtain ⟨ts, d⟩ := s
      rcases ts with _ | ⟨⟨t, p⟩, us⟩
      · exact ⟨rfl, rfl⟩
      · cases t with
        | opening => exact absurd ⟨p, us, rfl⟩ hopen
        | closing =>
          obtain rfl : d = 0 := (hs p us rfl).2
          exact ⟨rfl, rfl⟩
        | _ => exact ⟨rfl, rfl⟩
    have key := on_readLeaf (s := s) hstage (fun t p us htoks => by
      refine ⟨fun ht => absurd htoks (ht ▸ hnot p us), fun ht => hopen ⟨p, us, ht ▸ htoks⟩, fun ht => ?_⟩
      exact ⟨(hs p us (ht ▸ htoks)).2, hne⟩)
    rw [readFlat]
    dsimp only
    rw [hflat.1, hflat.2]
    exact key

/-- Where groups may still be opened an operand is a group or a leaf. -/
theorem fills_readPrimary {gs : List (Nat × Slot)} {inGroup : Bool} (hg : inGroup = !gs.isEmpty)
    (hlt : gs.length < maxNesting) {group : Reading}
    (hgroup : ∀ p slot s, Ends true ((p, slot) :: gs) group s) {s : TokenStream} (hs : s.Settled inGroup)
    (hnot : s.Lacks .not) : Fills gs (readPrimary inGroup group) s := by
  intro σ slot hσ hstage
  subst hσ
  rw [σ.on_settle hg s]
  fun_cases readPrimary inGroup group s with
  | case1 t p ts htoks inner lt q us hclose =>
    have hend := hgroup p slot ⟨ts, t.dropped⟩
    have hd : inner.rest.dropped = 0 := (hend.settled q us hclose).2
    rw [on_opening htoks hstage hlt, hend.on_eq _ rfl rfl, Scan.on_of_tokens hclose, Scan.result_cons]
    simp [Scan.step, Scan.close, Scan.on, Scan.fill, hd, inner]
  | case2 t p ts htoks inner lt hclose =>
    have hend := hgroup p slot ⟨ts, t.dropped⟩
    have hstart := hend.startsValue_of_tokens hclose
    rw [on_opening htoks hstage hlt, hend.on_eq _ rfl rfl, Scan.on_conclude rfl hstart, Scan.conclude_of_group rfl,
      ← Scan.on_conclude rfl hstart]
    simp [Scan.fill, inner]
  | case3 t leaf hopen =>
    have hwarn : (σ.warn (s.strays inGroup)).stage = .awaiting slot false := hstage
    rw [on_readLeaf hwarn]
    · simp [Scan.fill, leaf, t]
    · intro t' p us htoks
      refine ⟨?_, fun ht => hopen p us (ht ▸ htoks), fun ht => ?_⟩
      · intro ht
        rw [hs.settle_eq.1] at htoks
        exact absurd htoks (ht ▸ hnot p us)
      · obtain ⟨h₁, h₂⟩ := TokenStream.settled_settle inGroup s p us (ht ▸ htoks)
        exact ⟨h₂, fun h => by simp at h; simp [h, h₁] at hg⟩

/-! ### Chains -/

/-- Negations before an operand. -/
theorem fills_readNegation {gs : List (Nat × Slot)} {inGroup : Bool} (hg : inGroup = !gs.isEmpty) {primary : Reading}
    (hprimary : ∀ s, s.Settled inGroup → s.Lacks .not → Fills gs primary s) (s : TokenStream) :
    Fills gs (readNegation inGroup primary) s := by
  intro σ slot hσ hstage
  -- the negations met on the way are gathered in the place, so the place is arbitrary in the induction
  fun_induction readNegation inGroup primary s generalizing σ slot with
  | case1 s t p ts htoks inner le e he ih =>
    rw [σ.on_settle (hσ ▸ hg) s, on_not htoks hstage, ih ((σ.warn _).await _) _ hσ rfl, he]
    simp [Scan.fill, inner, Slot.conjunction, Slot.conjunctionWarnings, negated, negationWarnings]
  | case2 s t p ts htoks inner le he ih =>
    rw [σ.on_settle (hσ ▸ hg) s, on_not htoks hstage, ih ((σ.warn _).await _) _ hσ rfl, he]
    simp [Scan.fill, inner, Slot.conjunction, Slot.conjunctionWarnings, negated, negationWarnings]
  | case3 s t operand hnot =>
    rw [σ.on_settle (hσ ▸ hg) s,
      hprimary t (TokenStream.settled_settle inGroup s) (fun p us h => hnot p us h) (σ.warn _) slot hσ hstage]
    simp [Scan.fill, operand]

/-- A chain leaves what an operand leaves, or what there was before it. -/
theorem rest_readChain {inGroup : Bool} {c : Connective} {build : Expr → Expr → Expr} {operand : Reading}
    {P : TokenStream → Prop} (hoperand : ∀ s, P ((operand s).rest.settle inGroup)) (left : Option Expr)
    {s : TokenStream} (hs : P (s.settle inGroup)) : P (readChain inGroup c build operand left s).rest := by
  fun_induction readChain inGroup c build operand left s with
  | case1 left s t p ts right more htoks lt ih => exact ih (hoperand _)
  | case2 left s t d p ts htoks hd => exact hs
  | case3 left s t htoks => exact hs

/-- The rest of a chain, if one connective with its operand can be read as the chain reads them. -/
theorem on_readChain {gs : List (Nat × Slot)} {inGroup : Bool} (hg : inGroup = !gs.isEmpty) (c : Connective)
    (build : Expr → Expr → Expr) (operand : Reading) (d? : Option Waiting)
    (hjoin : ∀ (σ : Scan) (left : Option Expr) (p : Nat) (ts : List (Token × Nat)) (d : Nat), σ.groups = gs →
      (σ.hold d? left).on ⟨(.connective c, p) :: ts, d⟩ =
        ((σ.warn ((operand ⟨ts, d⟩).warnings ++ joinWarnings c p left (operand ⟨ts, d⟩).expr?)).hold d?
          (joinOperands build left (operand ⟨ts, d⟩).expr?)).on (operand ⟨ts, d⟩).rest)
    (left : Option Expr) (s : TokenStream) :
    (readChain inGroup c build operand left s).rest.Lacks c ∧ ∀ σ : Scan, σ.groups = gs →
      (σ.hold d? left).on s =
        ((σ.warn (readChain inGroup c build operand left s).warnings).hold d?
          (readChain inGroup c build operand left s).expr?).on (readChain inGroup c build operand left s).rest := by
  fun_induction readChain inGroup c build operand left s with
  | case1 left s t p ts right more htoks lt ih =>
    obtain ⟨hlacks, hmore⟩ := ih
    refine ⟨hlacks, fun σ hσ => ?_⟩
    rw [(σ.hold d? left).on_settle (hσ ▸ hg) s, Scan.on_of_tokens htoks]
    refine (hjoin (σ.warn (s.strays inGroup)) left p ts t.dropped hσ).trans ?_
    refine (hmore ((σ.warn (s.strays inGroup)).warn _) hσ).trans ?_
    simp [more, right, t]
  | case2 left s t d p ts htoks hd =>
    refine ⟨fun q us h => ?_, fun σ hσ => (σ.hold d? left).on_settle (hσ ▸ hg) s⟩
    rw [htoks] at h
    cases h
    exact hd rfl
  | case3 left s t htoks =>
    exact ⟨fun q us h => htoks c q us h, fun σ hσ => (σ.hold d? left).on_settle (hσ ▸ hg) s⟩

/-- What a reading of conjunctions does to a scan that awaits one, behind the `OR` of `d?`. -/
structure Conjoins (inGroup : Bool) (gs : List (Nat × Slot)) (read : Reading) (s : TokenStream) : Prop where
  settled : (read s).rest.Settled inGroup
  lacks_and : (read s).rest.Lacks .and
  on_eq : ∀ (σ : Scan) (d? : Option Waiting), σ.groups = gs → σ.stage = .awaiting ⟨d?, none, []⟩ false →
    σ.on s = ((σ.warn (read s).warnings).hold d? (read s).expr?).on (read s).rest

theorem conjoins_readOperands {gs : List (Nat × Slot)} {inGroup : Bool} (hg : inGroup = !gs.isEmpty)
    {operand : Reading} (hoperand : ∀ s, Fills gs operand s) (s : TokenStream) :
    Conjoins inGroup gs (readOperands inGroup .and .and operand) s := by
  have hchain (d? : Option Waiting) := on_readChain hg .and .and operand d?
    (fun σ left p ts d hσ => by
      have hslot := hoperand ⟨ts, d⟩ (σ.await ⟨d?, some ⟨p, left⟩, []⟩) _ hσ rfl
      rw [Scan.on_of_tokens rfl, Scan.result_cons]
      refine Eq.trans ?_ (hslot.trans ?_)
      · simp [Scan.step, Scan.on]
      · simp [Scan.fill, Slot.conjunction, Slot.conjunctionWarnings])
    (operand s).expr? (operand s).rest
  refine ⟨?_, (hchain none).1, fun σ d? hσ hstage => ?_⟩
  · exact rest_readChain (fun s => TokenStream.settled_settle inGroup _) _ (TokenStream.settled_settle inGroup _)
  · rw [hoperand s σ _ hσ hstage]
    refine Eq.trans ?_ (((hchain d?).2 (σ.warn (operand s).warnings) hσ).trans ?_)
    · simp [Scan.fill, Slot.conjunction, Slot.conjunctionWarnings]
    · simp [readOperands]

/-- The `OR` before a conjunction is joined to it at once, since no other conjunction follows. -/
private theorem Conjoins.on_hold {inGroup : Bool} {gs : List (Nat × Slot)} {read : Reading} {s : TokenStream}
    (h : Conjoins inGroup gs read s) (hg : inGroup = !gs.isEmpty) {σ : Scan} (hσ : σ.groups = gs) (p : Nat)
    (left : Option Expr) :
    (σ.hold (some ⟨p, left⟩) (read s).expr?).on (read s).rest =
      ((σ.warn (joinWarnings .or p left (read s).expr?)).hold none
        (joinOperands .or left (read s).expr?)).on (read s).rest := by
  subst hσ
  apply Scan.on_hold
  intro t q us htoks
  refine ⟨fun ht => h.lacks_and q us (ht ▸ htoks), fun ht => ?_⟩
  obtain ⟨hin, hd⟩ := h.settled q us (ht ▸ htoks)
  exact ⟨hd, fun hnil => by simp [hnil, hin] at hg⟩

theorem ends_readOperands {gs : List (Nat × Slot)} {inGroup : Bool} (hg : inGroup = !gs.isEmpty)
    {conjunction : Reading} (hconj : ∀ s, Conjoins inGroup gs conjunction s) (s : TokenStream) :
    Ends inGroup gs (readOperands inGroup .or .or conjunction) s := by
  -- the streams between two conjunctions are settled and go on with no conjunction
  have hrest (s : TokenStream) : ((conjunction s).rest.settle inGroup).Settled inGroup ∧
      ((conjunction s).rest.settle inGroup).Lacks .and :=
    ⟨TokenStream.settled_settle inGroup _, by rw [(hconj s).settled.settle_eq.1]; exact (hconj s).lacks_and⟩
  have hchain := on_readChain hg .or .or conjunction none
    (fun σ left p ts d hσ => by
      have hnext := (hconj ⟨ts, d⟩).on_eq (σ.await ⟨some ⟨p, left⟩, none, []⟩) _ hσ rfl
      rw [Scan.on_of_tokens rfl, Scan.result_cons]
      refine Eq.trans ?_ (hnext.trans (((hconj ⟨ts, d⟩).on_hold hg (by exact hσ) p left).trans ?_))
      · simp [Scan.step, Scan.on]
      · simp)
    (conjunction s).expr? (conjunction s).rest
  have hboth : (readOperands inGroup .or .or conjunction s).rest.Settled inGroup ∧
      (readOperands inGroup .or .or conjunction s).rest.Lacks .and :=
    rest_readChain (P := fun s => s.Settled inGroup ∧ s.Lacks .and) hrest (conjunction s).expr? (hrest s)
  refine ⟨hboth.1, hboth.2, hchain.1, fun σ hσ hstage => ?_⟩
  rw [(hconj s).on_eq σ none hσ hstage]
  refine (hchain.2 (σ.warn (conjunction s).warnings) hσ).trans ?_
  simp [readOperands]

/-! ### The whole query -/

theorem ends_readLevel {gs : List (Nat × Slot)} {inGroup : Bool} (hg : inGroup = !gs.isEmpty) {primary : Reading}
    (hprimary : ∀ s, s.Settled inGroup → s.Lacks .not → Fills gs primary s) (s : TokenStream) :
    Ends inGroup gs (readLevel inGroup primary) s :=
  ends_readOperands hg (conjoins_readOperands hg (fills_readNegation hg hprimary)) s

theorem ends_readDisjunction (levels : Nat) (gs : List (Nat × Slot)) {inGroup : Bool} (hg : inGroup = !gs.isEmpty)
    (hlevels : gs.length + levels = maxNesting) (s : TokenStream) :
    Ends inGroup gs (readDisjunction inGroup levels) s := by
  induction levels generalizing gs inGroup s with
  | zero =>
    have hin : inGroup = true := by
      cases gs with
      | nil => exact absurd hlevels (by decide)
      | cons g gs => exact hg
    subst hin
    exact ends_readLevel hg (fun s hs hnot => fills_readFlat (by omega) hs hnot) s
  | succ levels ih =>
    have hgroup (p : Nat) (slot : Slot) (s : TokenStream) :
        Ends true ((p, slot) :: gs) (readDisjunction true levels) s :=
      ih ((p, slot) :: gs) rfl (by simp only [List.length_cons]; omega) s
    exact ends_readLevel hg (fun s hs hnot => fills_readPrimary hg (by omega) hgroup hs hnot) s

/-- A scan from the start of a piece reads the rest of the query as the parser does. -/
theorem on_eq_readPieces (root : Option Expr) (s : TokenStream) (ws : List Warning) (d : Nat) :
    (⟨root, ws, [], .awaiting .vacant false, d⟩ : Scan).on s =
      ((readPieces root s).1, ws ++ (readPieces root s).2) := by
  have hsettle (σ : Scan) (h : σ.groups = []) (s : TokenStream) :
      σ.on s = (σ.warn (s.strays false)).on (s.settle false) := σ.on_settle (by simp [h]) s
  fun_induction readPieces root s generalizing ws d with
  | case1 root s t htoks =>
    rw [hsettle _ rfl s, Scan.on_of_tokens htoks]
    simp [Scan.result, Scan.conclude, leaveGroups, leaveWarnings]
  | case2 root s t a ts htoks piece rest lt more ih =>
    have hset : t.Settled false := TokenStream.settled_settle false s
    have hend : Ends false [] (readDisjunction false maxNesting) t := ends_readDisjunction maxNesting [] rfl rfl t
    have hstart := hend.startsValue_of_tokens (fun p us h => absurd (hend.settled p us h).1 (by simp))
    have hrest : piece.rest = rest := by
      have hlt : piece.rest.length < t.length := length_readPiece hset (by simp [htoks])
      simp [rest, hlt]
    rw [hsettle _ rfl s, hend.on_eq _ rfl rfl, Scan.on_conclude rfl hstart]
    refine Eq.trans ?_ ((ih (ws ++ (s.strays false ++ piece.warnings)) d).trans ?_)
    · rw [← hrest]
      simp [Scan.conclude, Scan.on, leaveGroups, leaveWarnings, piece, t]
    · simp [more]

/-- Parsing a query is scanning it. -/
theorem parse_eq_scan (ts : List Token) :
    parse ts = ⟨(Scan.start.result ts.zipIdx).1,
      (Scan.start.result ts.zipIdx).2 ++ emptiness ts (Scan.start.result ts.zipIdx).1⟩ := by
  have h : Scan.start.result ts.zipIdx = readPieces none (TokenStream.ofTokens ts) :=
    on_eq_readPieces none (TokenStream.ofTokens ts) [] 0
  rw [h]
  rfl

end KeywordRules
