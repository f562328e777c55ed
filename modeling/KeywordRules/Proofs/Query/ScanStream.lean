import KeywordRules.Proofs.Query.Scan

/-!
# Scans over token streams

How a scan goes on over what the parser has left to read: it passes the parentheses that the parser leaves out, it
may conclude wherever an operand begins that none awaits, and it may join a missing operand or a waiting `OR` as soon
as the next token makes clear that nothing else can come (`on_settle`, `result_conclude`, `result_fill_none`,
`result_hold`).
-/

namespace KeywordRules

@[simp] theorem joinOperands_none_left (build : Expr → Expr → Expr) (e : Option Expr) :
    joinOperands build none e = e := by
  cases e <;> rfl

@[simp] theorem joinOperands_none_right (build : Expr → Expr → Expr) (e : Option Expr) :
    joinOperands build e none = e := by
  cases e <;> rfl

/-- What holds of both operands, and passes to their composition, holds of the operands joined. -/
theorem forall_mem_joinOperands {build : Expr → Expr → Expr} {P Q : Expr → Prop} {l r : Option Expr}
    (hl : ∀ x ∈ l, P x) (hr : ∀ x ∈ r, Q x) (hright : ∀ {y}, Q y → P y)
    (hbuild : ∀ {x y}, P x → Q y → P (build x y)) : ∀ x ∈ joinOperands build l r, P x := by
  rcases l with _ | l
  · rw [joinOperands_none_left]
    exact fun x hx => hright (hr x hx)
  · rcases r with _ | r
    · rwa [joinOperands_none_right]
    · intro x hx
      cases hx
      exact hbuild (hl l rfl) (hr r rfl)

theorem negated_none (ns : List Nat) : negated ns none = none := by
  induction ns with
  | nil => rfl
  | cons n ns ih => exact ih

/-! ### Scans over streams -/

namespace Scan

/-- What a query means if the stream `s` is what is left of it. -/
def on (σ : Scan) (s : TokenStream) : Option Expr × List Warning := ({ σ with dropped := s.dropped }).result s.tokens

theorem result_cons (σ : Scan) (t : Token × Nat) (ts : List (Token × Nat)) :
    σ.result (t :: ts) = (σ.step t).result ts := rfl

theorem on_of_tokens {σ : Scan} {s : TokenStream} {ts : List (Token × Nat)} (h : s.tokens = ts) :
    σ.on s = ({ σ with dropped := s.dropped }).result ts := by
  rw [on, h]

private theorem result_settleFrom {inGroup : Bool} (σ : Scan) (hg : inGroup = !σ.groups.isEmpty)
    (ts : List (Token × Nat)) (d : Nat) :
    ({ σ with dropped := d }).result ts =
      (σ.warn (TokenStream.straysFrom inGroup ts d)).on (TokenStream.settleFrom inGroup ts d) := by
  fun_induction TokenStream.settleFrom inGroup ts d generalizing σ with
  | case1 p ts d ih =>
    rw [result_cons, TokenStream.straysFrom, ← ih σ hg]
    rfl
  | case2 p ts h =>
    simp [on, TokenStream.straysFrom, h]
  | case3 p ts h ih =>
    have hnil : σ.groups = [] := by simpa [h] using hg
    have hstep : ({ σ with dropped := 0 } : Scan).step (.closing, p) =
        { σ.warn [.unmatchedClose p] with dropped := 0 } := by
      simp [step, close, hnil]
    rw [result_cons, hstep, ih (σ.warn [.unmatchedClose p]) hg, TokenStream.straysFrom]
    simp [h]
  | case4 ts d h₁ h₂ =>
    have : TokenStream.straysFrom inGroup ts d = [] := by
      unfold TokenStream.straysFrom
      split
      · exact absurd rfl (h₁ _ _ _ rfl)
      · exact absurd rfl (h₂ _ _ rfl)
      · rfl
    simp [on, this]

/-- The closing parentheses that end no group change nothing but the warnings. -/
theorem on_settle {inGroup : Bool} (σ : Scan) (hg : inGroup = !σ.groups.isEmpty) (s : TokenStream) :
    σ.on s = (σ.warn (s.strays inGroup)).on (s.settle inGroup) :=
  result_settleFrom σ hg s.tokens s.dropped

/-- A scan that holds a conjunction concludes at the end of the query and at every token that begins an operand. -/
theorem result_conclude {σ : Scan} {d? : Option Waiting} {v : Option Expr} (h : σ.stage = .holding d? v)
    {ts : List (Token × Nat)} (hts : ∀ t us, ts = t :: us → t.1.startsValue = true) :
    σ.result ts = σ.conclude.result ts := by
  cases ts with
  | nil => simp [result, conclude, leaveGroups, leaveWarnings]
  | cons t us =>
    obtain ⟨t, p⟩ := t
    rw [result_cons, result_cons]
    cases t with
    | opening => simp [step, resume, h, conclude]
    | closing => exact absurd (hts _ _ rfl) (by simp [Token.startsValue])
    | term w m => simp [step, read, resume, h, conclude]
    | phrase v => simp [step, read, resume, h, conclude]
    | connective c =>
      cases c with
      | not => simp [step, resumeNegation, h, conclude]
      | and => exact absurd (hts _ _ rfl) (by simp [Token.startsValue])
      | or => exact absurd (hts _ _ rfl) (by simp [Token.startsValue])

theorem on_conclude {σ : Scan} {d? : Option Waiting} {v : Option Expr} (h : σ.stage = .holding d? v)
    {s : TokenStream} (hs : ∀ t us, s.tokens = t :: us → t.1.startsValue = true) : σ.on s = σ.conclude.on s :=
  result_conclude (σ := { σ with dropped := s.dropped }) h hs

/-- Leaving the innermost group unclosed is the first step of concluding. -/
theorem conclude_of_group {σ : Scan} {p : Nat} {s : Slot} {gs : List (Nat × Slot)} (h : σ.groups = (p, s) :: gs) :
    σ.conclude = ((({ σ with groups := gs } : Scan).warn (σ.stage.valueWarnings ++ [.unclosedGroup p])).fill s
      σ.stage.value).conclude := by
  simp [conclude, h, fill, leaveGroups, leaveWarnings, Slot.value, Slot.valueWarnings]

/-- Joining the conjunction at hand to the one before it is the first step of concluding. -/
theorem conclude_hold (σ : Scan) (p : Nat) (left v : Option Expr) :
    (σ.hold (some ⟨p, left⟩) v).conclude =
      ((σ.warn (joinWarnings .or p left v)).hold none (joinOperands .or left v)).conclude := by
  simp [conclude]

/-- A place whose operand is missing is the same as one that is filled with nothing, unless a negation or a leaf
comes next. -/
theorem result_fill_none {σ : Scan} {s : Slot} {flat : Bool} (h : σ.stage = .awaiting s flat)
    {ts : List (Token × Nat)} (hts : ∀ t p us, ts = (t, p) :: us →
      (t = .connective .not → flat = true) ∧ t ≠ .opening ∧ t.isOperand = false ∧
        (t = .closing → σ.dropped = 0 ∧ σ.groups ≠ [])) :
    σ.result ts = (σ.fill s none).result ts := by
  cases ts with
  | nil => simp [result, conclude, fill, h, Slot.value, Slot.valueWarnings]
  | cons t us =>
    obtain ⟨t, p⟩ := t
    obtain ⟨hnot, hopen, hleaf, hclose⟩ := hts t p us rfl
    rw [result_cons, result_cons]
    cases t with
    | opening => exact absurd rfl hopen
    | term w m => exact absurd hleaf (by simp [Token.isOperand])
    | phrase v => exact absurd hleaf (by simp [Token.isOperand])
    | closing =>
      obtain ⟨hd, hg⟩ := hclose rfl
      obtain ⟨⟨q, s'⟩, gs, hgs⟩ := List.exists_cons_of_ne_nil hg
      simp [step, close, fill, h, hd, hgs, Slot.value, Slot.valueWarnings]
    | connective c =>
      cases c with
      | not => simp [step, resumeNegation, fill, conclude, h, hnot rfl, Slot.value, Slot.valueWarnings]
      | and => simp [step, fill, h]
      | or => simp [step, fill, h, Slot.value, Slot.valueWarnings]

/-- At a token that goes on with no conjunction, the `OR` before the conjunction at hand is joined at once. -/
theorem result_hold {σ : Scan} {p : Nat} {left v : Option Expr} {ts : List (Token × Nat)}
    (hts : ∀ t q us, ts = (t, q) :: us →
      t ≠ .connective .and ∧ (t = .closing → σ.dropped = 0 ∧ σ.groups ≠ [])) :
    (σ.hold (some ⟨p, left⟩) v).result ts =
      ((σ.warn (joinWarnings .or p left v)).hold none (joinOperands .or left v)).result ts := by
  have hstart (h : ∀ t us, ts = t :: us → t.1.startsValue = true) :
      (σ.hold (some ⟨p, left⟩) v).result ts =
        ((σ.warn (joinWarnings .or p left v)).hold none (joinOperands .or left v)).result ts := by
    have h₁ : (σ.hold (some ⟨p, left⟩) v).result ts = _ := result_conclude rfl h
    have h₂ : ((σ.warn (joinWarnings .or p left v)).hold none (joinOperands .or left v)).result ts = _ :=
      result_conclude rfl h
    rw [h₁, h₂, conclude_hold]
  cases ts with
  | nil => exact hstart (fun _ _ h => absurd h (by simp))
  | cons t us =>
    obtain ⟨t, q⟩ := t
    obtain ⟨hand, hclose⟩ := hts t q us rfl
    cases ht : t.startsValue with
    | true => exact hstart (fun _ _ h => by cases h; exact ht)
    | false =>
      rw [result_cons, result_cons]
      cases t with
      | opening => cases ht
      | term w m => cases ht
      | phrase v => cases ht
      | closing =>
        obtain ⟨hd, hg⟩ := hclose rfl
        obtain ⟨⟨q, s'⟩, gs, hgs⟩ := List.exists_cons_of_ne_nil hg
        simp [step, close, fill, hd, hgs]
      | connective c =>
        cases c with
        | not => cases ht
        | and => exact absurd rfl hand
        | or => simp [step]

theorem on_hold {σ : Scan} {p : Nat} {s : TokenStream} (left v : Option Expr)
    (hs : ∀ t q us, s.tokens = (t, q) :: us →
      t ≠ .connective .and ∧ (t = .closing → s.dropped = 0 ∧ σ.groups ≠ [])) :
    (σ.hold (some ⟨p, left⟩) v).on s =
      ((σ.warn (joinWarnings .or p left v)).hold none (joinOperands .or left v)).on s :=
  result_hold (σ := { σ with dropped := s.dropped }) hs

end Scan

/-! ### Heads of streams -/

namespace TokenStream

/-- At the head of the stream stands no closing parenthesis that `settle` would leave out. -/
def Settled (inGroup : Bool) (s : TokenStream) : Prop :=
  ∀ p us, s.tokens = (.closing, p) :: us → inGroup = true ∧ s.dropped = 0

theorem settled_settle (inGroup : Bool) (s : TokenStream) : (s.settle inGroup).Settled inGroup := by
  have key : ∀ ts d, (settleFrom inGroup ts d).Settled inGroup := by
    intro ts d
    fun_induction settleFrom inGroup ts d with
    | case1 p ts d ih => exact ih
    | case2 p ts h => exact fun _ _ _ => ⟨h, rfl⟩
    | case3 p ts h ih => exact ih
    | case4 ts d h₁ h₂ =>
      intro p us htoks
      cases d with
      | zero => exact absurd htoks (h₂ p us · rfl)
      | succ d => exact absurd htoks (h₁ p us d · rfl)
  exact key s.tokens s.dropped

/-- `settle` changes nothing in a settled stream. -/
theorem Settled.settle_eq {inGroup : Bool} {s : TokenStream} (h : s.Settled inGroup) :
    s.settle inGroup = s ∧ s.strays inGroup = [] := by
  obtain ⟨ts, d⟩ := s
  rcases ts with _ | ⟨⟨t, p⟩, us⟩
  · exact ⟨rfl, rfl⟩
  · cases t with
    | closing =>
      obtain ⟨rfl, rfl⟩ : inGroup = true ∧ d = 0 := h p us rfl
      exact ⟨rfl, rfl⟩
    | _ => exact ⟨rfl, rfl⟩

/-- What `flatten` leaves begins neither with an opening parenthesis nor with a closing one it would leave out. -/
theorem flattenFrom_head {ts us : List (Token × Nat)} {d p : Nat} {t : Token}
    (h : (flattenFrom ts d).tokens = (t, p) :: us) :
    t ≠ .opening ∧ (t = .closing → (flattenFrom ts d).dropped = 0) := by
  fun_induction flattenFrom ts d with
  | case1 p ts d ih => exact ih h
  | case2 p ts d ih => exact ih h
  | case3 ts d h₁ h₂ =>
    change ts = (t, p) :: us at h
    subst h
    refine ⟨fun ht => h₁ p us (by rw [ht]), fun ht => ?_⟩
    cases d with
    | zero => rfl
    | succ d => exact absurd rfl (h₂ p us d (by rw [ht]))

/-- No connective of the given kind comes next. -/
def Lacks (c : Connective) (s : TokenStream) : Prop := ∀ p us, s.tokens ≠ (.connective c, p) :: us

end TokenStream

end KeywordRules
