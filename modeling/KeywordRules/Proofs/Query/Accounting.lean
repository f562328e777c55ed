import KeywordRules.Proofs.Query.Diagnosis
import Mathlib.Data.List.Nodup

/-!
# An account of the connectives

Every `OR` and every `NOT` of a query ends either in the expression or in a warning, and no token is reported twice for
the same reason (`parse_accounts`).  Both are seen by charging for what a query is turned into: each warning and each node
of the expression has its cost, and a scan owes in advance for the connectives that wait and the groups that are open.  If
a node costs no more than the warning its connective is spared, no token raises the total by more than the cost of the
warnings it may cause (`Charge.scan_step`).  A charge for one sort of warning at one position shows that it is given at
most once; a charge for one connective, and the opposite of it, that none of them is lost or counted twice.
-/

namespace KeywordRules

namespace Warning

/-- What a warning is about, its position and data apart. -/
inductive Kind where
  | emptyQuery
  | unclosedGroup
  | unmatchedClose
  | missingOperand
  | bareWildcard
  | nestingTooDeep
  | neverMatches
deriving DecidableEq, Repr

def kind : Warning → Kind
  | emptyQuery => .emptyQuery
  | unclosedGroup _ => .unclosedGroup
  | unmatchedClose _ => .unmatchedClose
  | missingOperand _ _ => .missingOperand
  | bareWildcard _ => .bareWildcard
  | nestingTooDeep _ _ => .nestingTooDeep
  | neverMatches => .neverMatches

/-- The kind of a warning and where it points. -/
def key (w : Warning) : Kind × Option Nat := (w.kind, w.position?)

/-- Whether the warning tells that an operand of the connective `c` is missing. -/
def misses (c : Connective) : Warning → Bool
  | missingOperand d _ => d == c
  | _ => false

end Warning

/-- The connectives of an expression from left to right. -/
def Expr.connectives : Expr → List Connective
  | .leaf _ => []
  | .not e => .not :: e.connectives
  | .and l r => l.connectives ++ .and :: r.connectives
  | .or l r => l.connectives ++ .or :: r.connectives

/-- The connectives of an expression that may be missing. -/
def connectivesOf (e : Option Expr) : List Connective := e.elim [] Expr.connectives

/-- The warnings that a token may cause. -/
def mayCause : Token × Nat → List Warning
  | (.opening, p) => [.unclosedGroup p, .nestingTooDeep p maxNesting]
  | (.closing, p) => [.unmatchedClose p]
  | (.connective c, p) => [.missingOperand c p]
  | (.term _ _, p) => [.bareWildcard p]
  | (.phrase _, _) => []

/-! ### Charges -/

/-- What a warning costs, and what a node of an expression. -/
structure Charge where
  warning : Warning → Int
  node : Connective → Int

namespace Charge

/-- A node costs no more than the warning that its connective lacks an operand, and one for `AND` costs nothing, since a
query may hold conjunctions that were not written.  Only such warnings may be paid for. -/
structure Fair (k : Charge) : Prop where
  node_le : ∀ c p, k.node c ≤ k.warning (.missingOperand c p)
  node_and : k.node .and = 0
  nonneg : ∀ w, (∀ c, w.misses c = false) → 0 ≤ k.warning w

variable (k : Charge)

def warnings : List Warning → Int
  | [] => 0
  | w :: ws => k.warning w + warnings ws

def nodes : Expr → Int
  | .leaf _ => 0
  | .not e => k.node .not + nodes e
  | .and l r => nodes l + (k.node .and + nodes r)
  | .or l r => nodes l + (k.node .or + nodes r)

def expr (e : Option Expr) : Int := e.elim 0 k.nodes

/-- The cost of a connective that waits, and of what stands on its left. -/
def waiting (c : Connective) : Option Waiting → Int
  | none => 0
  | some w => k.expr w.left + k.warning (.missingOperand c w.position)

def slot (s : Slot) : Int :=
  k.waiting .or s.disjunct? + (k.waiting .and s.conjunct? + k.warnings (s.negations.map (.missingOperand .not)))

def stage : Stage → Int
  | .awaiting s _ => k.slot s
  | .holding d? v => k.waiting .or d? + k.expr v

def groups : List (Nat × Slot) → Int
  | [] => 0
  | (p, s) :: gs => k.warning (.unclosedGroup p) + (k.slot s + groups gs)

/-- The cost of a scan without what stands in its innermost group. -/
def around (σ : Scan) : Int := k.expr σ.root? + (k.warnings σ.warnings + k.groups σ.groups)

def scan (σ : Scan) : Int := k.around σ + k.stage σ.stage

@[simp] theorem warnings_nil : k.warnings [] = 0 := rfl

@[simp] theorem warnings_cons (w : Warning) (ws : List Warning) :
    k.warnings (w :: ws) = k.warning w + k.warnings ws := rfl

@[simp] theorem warnings_append (ws vs : List Warning) : k.warnings (ws ++ vs) = k.warnings ws + k.warnings vs := by
  induction ws with
  | nil => simp
  | cons w ws ih =>
    rw [List.cons_append, warnings_cons, warnings_cons, ih]
    omega

@[simp] theorem expr_none : k.expr none = 0 := rfl

@[simp] theorem expr_leaf (l : Leaf) : k.expr (some (.leaf l)) = 0 := rfl

@[simp] theorem expr_not (e : Expr) : k.expr (some (.not e)) = k.node .not + k.expr (some e) := rfl

@[simp] theorem expr_and (l r : Expr) :
    k.expr (some (.and l r)) = k.expr (some l) + (k.node .and + k.expr (some r)) := rfl

@[simp] theorem expr_or (l r : Expr) :
    k.expr (some (.or l r)) = k.expr (some l) + (k.node .or + k.expr (some r)) := rfl

@[simp] theorem waiting_none (c : Connective) : k.waiting c none = 0 := rfl

@[simp] theorem waiting_some (c : Connective) (w : Waiting) :
    k.waiting c (some w) = k.expr w.left + k.warning (.missingOperand c w.position) := rfl

@[simp] theorem slot_vacant : k.slot .vacant = 0 := rfl

@[simp] theorem stage_awaiting (s : Slot) (flat : Bool) : k.stage (.awaiting s flat) = k.slot s := rfl

@[simp] theorem stage_holding (d? : Option Waiting) (v : Option Expr) :
    k.stage (.holding d? v) = k.waiting .or d? + k.expr v := rfl

theorem scan_await (σ : Scan) (s : Slot) : k.scan (σ.await s) = k.around σ + k.slot s := rfl

theorem around_warn (σ : Scan) (ws : List Warning) : k.around (σ.warn ws) = k.around σ + k.warnings ws := by
  simp only [around, Scan.warn, warnings_append]
  omega

variable {k} (hk : k.Fair)

include hk

/-! ### What ends is paid for -/

theorem expr_join_and (l r : Option Expr) : k.expr (joinOperands .and l r) = k.expr l + k.expr r := by
  rcases l with _ | l
  · simp
  · rcases r with _ | r
    · simp
    · simp [joinOperands, hk.node_and]

/-- A connective that gets its right operand, or none, costs what it owed. -/
private theorem joined_le {c : Connective} {build : Expr → Expr → Expr}
    (hbuild : ∀ l r, k.expr (some (build l r)) = k.expr (some l) + (k.node c + k.expr (some r)))
    (w? : Option Waiting) (e : Option Expr) :
    k.expr (Waiting.join build w? e) + k.warnings (Waiting.lacks c w? e) ≤ k.waiting c w? + k.expr e := by
  rcases w? with _ | ⟨p, l⟩
  · simp
  · have hle := hk.node_le c p
    rw [Waiting.join_some, Waiting.lacks_some, waiting_some]
    rcases l with _ | l
    · rcases e with _ | e
      · simp [joinOperands, joinWarnings]
      · simp [joinOperands, joinWarnings, Int.add_comm]
    · rcases e with _ | e
      · simp [joinOperands, joinWarnings]
      · simp only [joinOperands, joinWarnings, hbuild, warnings_nil]
        omega

private theorem negated_le (ns : List Nat) (e : Option Expr) :
    k.expr (negated ns e) + k.warnings (negationWarnings ns e) ≤
      k.warnings (ns.map (.missingOperand .not)) + k.expr e := by
  rcases e with _ | e
  · simp [negated_none, negationWarnings]
  · induction ns generalizing e with
    | nil => simp
    | cons n ns ih =>
      have hnext := ih (.not e)
      have hle := hk.node_le .not n
      simp only [negationWarnings, negated, Option.map_some, List.map_cons, warnings_cons, warnings_nil,
        expr_not] at hnext ⊢
      omega

theorem conjunction_le (s : Slot) (e : Option Expr) :
    k.expr (s.conjunction e) + k.warnings (s.conjunctionWarnings e) + k.waiting .or s.disjunct? ≤ k.slot s + k.expr e := by
  have hneg := negated_le hk s.negations e
  have hjoin := joined_le hk k.expr_and s.conjunct? (negated s.negations e)
  rw [Slot.conjunction, Slot.conjunctionWarnings, warnings_append, slot]
  omega

theorem value_le (s : Slot) (e : Option Expr) :
    k.expr (s.value e) + k.warnings (s.valueWarnings e) ≤ k.slot s + k.expr e := by
  have hconj := conjunction_le hk s e
  have hjoin := joined_le hk k.expr_or s.disjunct? (s.conjunction e)
  rw [Slot.value, Slot.valueWarnings, warnings_append]
  omega

theorem stage_conjunction_le (st : Stage) :
    k.expr st.conjunction + k.warnings st.conjunctionWarnings + k.waiting .or st.disjunct? ≤ k.stage st := by
  cases st with
  | awaiting s flat =>
    have hconj := conjunction_le hk s none
    rw [expr_none, Int.add_zero] at hconj
    exact hconj
  | holding d? v =>
    rw [Stage.conjunction_holding, Stage.conjunctionWarnings_holding, Stage.disjunct?_holding, warnings_nil,
      stage_holding]
    omega

theorem stage_value_le (st : Stage) : k.expr st.value + k.warnings st.valueWarnings ≤ k.stage st := by
  have hconj := stage_conjunction_le hk st
  have hjoin := joined_le hk k.expr_or st.disjunct? st.conjunction
  rw [Stage.value, Stage.valueWarnings, warnings_append]
  omega

theorem leave_le (gs : List (Nat × Slot)) (e : Option Expr) :
    k.expr (leaveGroups gs e) + k.warnings (leaveWarnings gs e) ≤ k.groups gs + k.expr e := by
  induction gs generalizing e with
  | nil => simp [leaveGroups, leaveWarnings, groups]
  | cons g gs ih =>
    have hvalue := value_le hk g.2 e
    have hrest := ih (g.2.value e)
    rw [leaveGroups, leaveWarnings, warnings_cons, warnings_append, groups]
    omega

/-! ### Each token is paid for -/

theorem scan_conclude (σ : Scan) : k.scan σ.conclude ≤ k.scan σ := by
  have hvalue := stage_value_le hk σ.stage
  have hleave := leave_le hk σ.groups σ.stage.value
  simp only [scan, around, Scan.conclude, stage_awaiting, slot_vacant, groups, expr_join_and hk, warnings_append]
  omega

/-- Where an operand may begin, the account is no higher than before. -/
theorem around_resume (σ : Scan) : k.around σ.resume.1 + k.slot σ.resume.2 ≤ k.scan σ := by
  unfold Scan.resume
  split
  · next hst =>
    have hscan : k.around σ + k.stage σ.stage = k.scan σ := rfl
    rw [hst, stage_awaiting] at hscan
    exact Int.le_of_eq hscan
  · exact scan_conclude hk σ

theorem around_resumeNegation (σ : Scan) :
    k.around σ.resumeNegation.1 + k.slot σ.resumeNegation.2 ≤ k.scan σ := by
  unfold Scan.resumeNegation
  split
  · next hst =>
    have hscan : k.around σ + k.stage σ.stage = k.scan σ := rfl
    rw [hst, stage_awaiting] at hscan
    exact Int.le_of_eq hscan
  · exact scan_conclude hk σ

theorem scan_fill (σ : Scan) (s : Slot) (e : Option Expr) :
    k.scan (σ.fill s e) ≤ k.around σ + (k.slot s + k.expr e) := by
  have hconj := conjunction_le hk s e
  simp only [scan, around, Scan.fill, Scan.hold, Scan.warn, stage_holding, warnings_append]
  omega

theorem scan_enter (σ : Scan) (s : Slot) (p : Nat) :
    k.scan (σ.enter s p) ≤ k.around σ + (k.slot s + k.warnings (mayCause (.opening, p))) := by
  have hopen := hk.nonneg (.unclosedGroup p) fun _ => rfl
  have hdeep := hk.nonneg (.nestingTooDeep p maxNesting) fun _ => rfl
  have hdepth : k.warnings (depthWarnings p σ.dropped) ≤ k.warning (.nestingTooDeep p maxNesting) := by
    rcases σ.dropped with _ | d
    · simp [depthWarnings]
    · exact hdeep
  unfold Scan.enter
  split
  · simp only [scan, around, Scan.await, stage_awaiting, slot_vacant, groups, mayCause, warnings_cons, warnings_nil]
    omega
  · simp only [scan, around, stage_awaiting, mayCause, warnings_cons, warnings_nil, warnings_append]
    omega

theorem scan_close (σ : Scan) (p : Nat) : k.scan (σ.close p) ≤ k.scan σ + k.warnings (mayCause (.closing, p)) := by
  have hstray := hk.nonneg (.unmatchedClose p) fun _ => rfl
  unfold Scan.close
  split
  · simp only [scan, around, mayCause, warnings_cons, warnings_nil]
    omega
  · simp only [scan, around, Scan.warn, mayCause, warnings_append, warnings_cons, warnings_nil]
    omega
  · next q s gs _ hgs =>
    have hopen := hk.nonneg (.unclosedGroup q) fun _ => rfl
    have hvalue := stage_value_le hk σ.stage
    have hfill := scan_fill hk ({ σ with groups := gs }.warn σ.stage.valueWarnings) s σ.stage.value
    have haround : k.around σ =
        k.around { σ with groups := gs } + (k.warning (.unclosedGroup q) + k.slot s) := by
      simp only [around, hgs, groups]
      omega
    rw [around_warn] at hfill
    rw [scan.eq_def k σ, haround, mayCause, warnings_cons, warnings_nil]
    omega

theorem scan_read (σ : Scan) (l : Leaf) (p : Nat) :
    k.scan (σ.read l p) ≤ k.scan σ + k.warnings (bareWildcards p l) := by
  have hresume := around_resume hk σ
  have hfill := scan_fill hk (σ.resume.1.warn (bareWildcards p l)) σ.resume.2 (some (.leaf l))
  rw [around_warn, expr_leaf] at hfill
  rw [Scan.read]
  omega

theorem bareWildcards_le (p : Nat) (l : Leaf) : k.warnings (bareWildcards p l) ≤ k.warning (.bareWildcard p) := by
  have hbare := hk.nonneg (.bareWildcard p) fun _ => rfl
  unfold bareWildcards
  split
  · simp
  · exact hbare

/-- A token costs no more than the warnings it may cause. -/
theorem scan_step (σ : Scan) (t : Token × Nat) : k.scan (σ.step t) ≤ k.scan σ + k.warnings (mayCause t) := by
  obtain ⟨t, p⟩ := t
  rcases t with c | _ | _ | ⟨w, m⟩ | v
  · rcases c with _ | _ | _
    · have hconj := stage_conjunction_le hk σ.stage
      rw [Scan.step, scan_await, around_warn, scan]
      simp only [slot, waiting_some, List.map_nil, mayCause, warnings_cons, warnings_nil]
      omega
    · have hvalue := stage_value_le hk σ.stage
      rw [Scan.step, scan_await, around_warn, scan]
      simp only [slot, waiting_some, waiting_none, List.map_nil, mayCause, warnings_cons, warnings_nil]
      omega
    · have hresume := around_resumeNegation hk σ
      rw [slot] at hresume
      simp only [Scan.step, scan_await, slot, List.map_cons, mayCause, warnings_cons, warnings_nil]
      omega
  · have hresume := around_resume hk σ
    have henter := scan_enter hk σ.resume.1 σ.resume.2 p
    rw [Scan.step]
    omega
  · exact scan_close hk σ p
  · have hread := scan_read hk σ (Leaf.ofTerm w m) p
    have hbare := bareWildcards_le hk p (Leaf.ofTerm w m)
    rw [Scan.step, mayCause, warnings_cons, warnings_nil]
    omega
  · exact scan_read hk σ (.phrase (normalise v)) p

theorem scan_foldl (σ : Scan) (ts : List (Token × Nat)) :
    k.scan (ts.foldl Scan.step σ) ≤ k.scan σ + k.warnings (ts.flatMap mayCause) := by
  induction ts generalizing σ with
  | nil => simp
  | cons t ts ih =>
    have hstep := scan_step hk σ t
    have hrest := ih (σ.step t)
    rw [List.foldl_cons, List.flatMap_cons, warnings_append]
    omega

/-- What a query means and the warnings about it cost no more than the warnings that its tokens may cause. -/
theorem result_le (ts : List (Token × Nat)) :
    k.expr (Scan.start.result ts).1 + k.warnings (Scan.start.result ts).2 ≤ k.warnings (ts.flatMap mayCause) := by
  have hconclude := scan_conclude hk (ts.foldl Scan.step .start)
  have hfold := scan_foldl hk .start ts
  have hstart : k.scan .start = 0 := rfl
  have hend : k.scan (ts.foldl Scan.step .start).conclude =
      k.expr (Scan.start.result ts).1 + k.warnings (Scan.start.result ts).2 := by
    simp only [scan, around, Scan.result, Scan.conclude, groups, stage_awaiting, slot_vacant]
    omega
  omega

omit hk

/-! ### Charges that count -/

/-- If some warnings cost `a` and the others nothing, then together they cost `a` for each of these. -/
theorem warnings_eq_countP {p : Warning → Bool} {a : Int} (h : ∀ w, k.warning w = if p w then a else 0)
    (ws : List Warning) : k.warnings ws = a * ws.countP p := by
  induction ws with
  | nil => simp
  | cons w ws ih =>
    rw [warnings_cons, ih, h, List.countP_cons]
    split
    · simp [Int.mul_add, Int.add_comm]
    · simp

theorem expr_eq_count {c : Connective} {a : Int} (h : ∀ d, k.node d = if d == c then a else 0) (e : Option Expr) :
    k.expr e = a * (connectivesOf e).count c := by
  have hnode (d : Connective) (ds : List Connective) :
      k.node d + a * (ds.count c : Nat) = a * ((d :: ds).count c : Nat) := by
    rw [h, List.count_cons]
    split
    · simp [Int.mul_add, Int.add_comm]
    · simp
  rcases e with _ | e
  · simp [connectivesOf]
  · induction e with
    | leaf l => simp [connectivesOf, Expr.connectives]
    | not e ih =>
      rw [expr_not, ih, hnode]
      rfl
    | and l r ihl ihr =>
      rw [expr_and, ihl, ihr, hnode, ← Int.mul_add, ← Int.natCast_add, ← List.count_append]
      rfl
    | or l r ihl ihr =>
      rw [expr_or, ihl, ihr, hnode, ← Int.mul_add, ← Int.natCast_add, ← List.count_append]
      rfl

/-- Warnings of one kind at one position cost one each, and all else is free. -/
def ofKey (x : Warning.Kind × Option Nat) : Charge where
  warning w := if w.key == x then 1 else 0
  node _ := 0

variable (x : Warning.Kind × Option Nat)

theorem fair_ofKey : (ofKey x).Fair where
  node_le c p := by
    rw [ofKey]
    dsimp only
    split <;> decide
  node_and := rfl
  nonneg w _ := by
    rw [ofKey]
    dsimp only
    split <;> decide

theorem warnings_ofKey (ws : List Warning) : (ofKey x).warnings ws = (ws.map Warning.key).count x := by
  rw [warnings_eq_countP (p := fun w => w.key == x) fun _ => rfl, List.count_eq_countP, List.countP_map, Int.one_mul]
  rfl

theorem expr_ofKey (e : Option Expr) : (ofKey x).expr e = 0 := by
  rw [expr_eq_count (c := .and) (a := 0) fun _ => (ite_self _).symm, Int.zero_mul]

/-- Nodes for `c` and warnings that an operand of `c` is missing cost `a` each, and all else is free. -/
def ofConnective (c : Connective) (a : Int) : Charge where
  warning w := if w.misses c then a else 0
  node d := if d == c then a else 0

variable {c : Connective} (a : Int)

theorem fair_ofConnective (hc : c ≠ .and) : (ofConnective c a).Fair where
  node_le d p := Int.le_refl _
  node_and := by simp [ofConnective, hc.symm]
  nonneg w hw := by simp [ofConnective, hw c]

theorem warnings_ofConnective (ws : List Warning) :
    (ofConnective c a).warnings ws = a * ws.countP (·.misses c) := warnings_eq_countP (fun _ => rfl) ws

theorem expr_ofConnective (e : Option Expr) : (ofConnective c a).expr e = a * (connectivesOf e).count c :=
  expr_eq_count (fun _ => rfl) e

end Charge

/-! ### What tokens may cause -/

theorem position?_of_mayCause {w : Warning} {t : Token × Nat} (h : w ∈ mayCause t) : w.position? = some t.2 := by
  obtain ⟨t, p⟩ := t
  rcases t with c | _ | _ | _ | _ <;> simp only [mayCause, List.mem_cons, List.not_mem_nil, or_false] at h
  · subst h
    rfl
  · rcases h with rfl | rfl <;> rfl
  · subst h
    rfl
  · subst h
    rfl

theorem nodup_key_mayCause (t : Token × Nat) : ((mayCause t).map Warning.key).Nodup := by
  obtain ⟨t, p⟩ := t
  rcases t with c | _ | _ | _ | _ <;> simp [mayCause, Warning.key, Warning.kind]

/-- Tokens at different positions cause warnings with different keys. -/
theorem nodup_key_flatMap_mayCause {ts : List (Token × Nat)} (h : (ts.map Prod.snd).Nodup) :
    ((ts.flatMap mayCause).map Warning.key).Nodup := by
  induction ts with
  | nil => simp
  | cons t ts ih =>
    rw [List.map_cons, List.nodup_cons] at h
    rw [List.flatMap_cons, List.map_append, List.nodup_append]
    refine ⟨nodup_key_mayCause t, ih h.2, ?_⟩
    intro x hx y hy hxy
    obtain ⟨w, hw, rfl⟩ := List.mem_map.1 hx
    obtain ⟨v, hv, rfl⟩ := List.mem_map.1 hy
    obtain ⟨u, hu, hvu⟩ := List.mem_flatMap.1 hv
    have hpos : w.position? = v.position? := congrArg Prod.snd hxy
    rw [position?_of_mayCause hw, position?_of_mayCause hvu, Option.some.injEq] at hpos
    exact h.1 (List.mem_map.2 ⟨u, hu, hpos.symm⟩)

theorem countP_misses_mayCause (c : Connective) (ts : List (Token × Nat)) :
    (ts.flatMap mayCause).countP (·.misses c) = (ts.map Prod.fst).count (.connective c) := by
  induction ts with
  | nil => rfl
  | cons t ts ih =>
    obtain ⟨t, p⟩ := t
    rw [List.flatMap_cons, List.countP_append, ih, List.map_cons, List.count_cons]
    rcases t with d | _ | _ | _ | _ <;> simp [mayCause, Warning.misses, Nat.add_comm]

/-! ### The account of a query -/

/-- A scan gives no two warnings of one kind at one position. -/
theorem nodup_key_scan (ts : List Token) : ((Scan.start.result ts.zipIdx).2.map Warning.key).Nodup := by
  rw [List.nodup_iff_count_le_one]
  intro x
  have hdistinct : (ts.zipIdx.map Prod.snd).Nodup := by
    rw [List.zipIdx_map_snd]
    exact List.nodup_range' 1
  have hone := List.nodup_iff_count_le_one.1 (nodup_key_flatMap_mayCause hdistinct) x
  have hle := Charge.result_le (Charge.fair_ofKey x) ts.zipIdx
  rw [Charge.expr_ofKey, Charge.warnings_ofKey, Charge.warnings_ofKey] at hle
  omega

theorem nodup_key_parse (ts : List Token) : ((parse ts).warnings.map Warning.key).Nodup := by
  rw [warnings_parse, List.map_append, List.nodup_append]
  refine ⟨nodup_key_scan ts, ?_, ?_⟩
  · unfold emptiness
    split
    · simp
    · split <;> simp
  · -- only the closing warnings have no position
    intro x hx y hy hxy
    obtain ⟨w, hw, rfl⟩ := List.mem_map.1 hx
    obtain ⟨v, hv, rfl⟩ := List.mem_map.1 hy
    obtain ⟨t, p, -, hp, -⟩ := pointed_scan ts w hw
    have hpos : w.position? = v.position? := congrArg Prod.snd hxy
    rw [hp] at hpos
    rcases mem_emptiness.1 hv with ⟨rfl, -⟩ | ⟨rfl, -⟩ <;> cases hpos

/-- A connective other than `AND` becomes a node of the expression, or it is reported that its operand is missing. -/
theorem count_connective {c : Connective} (hc : c ≠ .and) (ts : List Token) :
    ts.count (.connective c) = (connectivesOf (parse ts).root?).count c + (parse ts).warnings.countP (·.misses c) := by
  have hle := Charge.result_le (Charge.fair_ofConnective 1 hc) ts.zipIdx
  have hge := Charge.result_le (Charge.fair_ofConnective (-1) hc) ts.zipIdx
  rw [Charge.expr_ofConnective, Charge.warnings_ofConnective, Charge.warnings_ofConnective, countP_misses_mayCause,
    List.zipIdx_map_fst] at hle hge
  have hclosing : (emptiness ts (parse ts).root?).countP (·.misses c) = 0 := by
    rw [List.countP_eq_zero]
    intro w hw
    rcases mem_emptiness.1 hw with ⟨rfl, -⟩ | ⟨rfl, -⟩ <;> simp [Warning.misses]
  have hroot : (parse ts).root? = (Scan.start.result ts.zipIdx).1 := by rw [parse_eq_scan]
  rw [warnings_parse, List.countP_append, hclosing, hroot]
  omega

/-- A warning with a position points at a token of the kind it speaks of, and no two warnings are of one kind at one
position.  As many `OR`s as a query has are nodes of its expression or reported to lack an operand, and so for `NOT`. -/
theorem parse_accounts (ts : List Token) :
    (∀ w ∈ (parse ts).warnings, ∀ p, w.position? = some p → ∃ t, ts[p]? = some t ∧ w.IsAbout t) ∧
    ((parse ts).warnings.map fun w => (w.kind, w.position?)).Nodup ∧
    ts.count (.connective .or) =
      (connectivesOf (parse ts).root?).count .or + (parse ts).warnings.countP (·.misses .or) ∧
    ts.count (.connective .not) =
      (connectivesOf (parse ts).root?).count .not + (parse ts).warnings.countP (·.misses .not) := by
  refine ⟨fun w hw p hp => ?_, nodup_key_parse ts, count_connective (by decide) ts, count_connective (by decide) ts⟩
  obtain ⟨t, q, ht, hq, habout⟩ := pointsInto_parse hw (by rw [hp]; rfl)
  rw [hp, Option.some.injEq] at hq
  subst hq
  exact ⟨t, List.mem_zipIdx_iff_getElem?.1 ht, habout⟩

/-- An `OR` without operands, and a negation before a stray parenthesis and an open group. -/
def untidyTokens : List Token := [.connective .or, .connective .not, .closing, .opening, .term ['a'] false]

theorem parse_accounts_untidyTokens :
    (.missingOperand .or 0 ∈ (parse untidyTokens).warnings ∧ .unclosedGroup 3 ∈ (parse untidyTokens).warnings) ∧
    (∃ t, untidyTokens[3]? = some t ∧ Warning.IsAbout (.unclosedGroup 3) t) ∧
    ((parse untidyTokens).warnings.map fun w => (w.kind, w.position?)).Nodup ∧
    (connectivesOf (parse untidyTokens).root?).count .not + (parse untidyTokens).warnings.countP (·.misses .not) = 1 := by
  have hor : .missingOperand .or 0 ∈ (parse untidyTokens).warnings := by
    rw [parse_eq_scan]
    decide +kernel
  have hgroup : .unclosedGroup 3 ∈ (parse untidyTokens).warnings := by
    rw [parse_eq_scan]
    decide +kernel
  obtain ⟨habout, hnodup, -, hnot⟩ := parse_accounts untidyTokens
  exact ⟨⟨hor, hgroup⟩, habout _ hgroup 3 rfl, hnodup, hnot.symm⟩

end KeywordRules
