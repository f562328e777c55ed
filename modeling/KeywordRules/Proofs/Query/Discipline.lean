import KeywordRules.Proofs.Query.Cursor
import KeywordRules.Proofs.Query.Progress

/-!
# The cursor is kept in order

The parser with a cursor (`Run.ofTokens`) does what `parse` does (`parse_disciplined`): it ends, with the root and the
warnings of `parse`, and its cursor ends behind the last token.  Every call on the way returns, with as many groups open as
it found and with the cursor no further back, and no call is made inside more groups than may be nested.

A reading of the parser takes a stream of tokens to one that is no longer, and that is the measure which the routines of
the cursor lack.  So a routine is compared with the reading of its rule.  `Session.Reaches` says how a session continues
another when a reading has been done; the steps and then the loops are shown to do so one by one.  A routine that
`Performs` a reading does it from every session inside a given number of groups.  It goes down four levels for each token
at most, one for each rule of the grammar, and a few more at the end.  What a group holds is read one group further in, so
`Run.performs_call` goes by induction on how many more groups may be opened.  In the outermost loop a turn takes a token
because a piece of the readings does (`length_readPiece`).
-/

namespace KeywordRules

/-! ### What is left at a cursor -/

namespace Cursor

variable {ts : List Token} {c : Cursor} {t : Token} {p : Nat} {us : List (Token × Nat)}

/-- What is left of the tokens at the cursor. -/
def stream (ts : List Token) (c : Cursor) : TokenStream := ⟨ts.zipIdx.drop c.position, c.dropped⟩

/-- The cursor stands on the tokens or right behind them, inside no more groups than may be nested. -/
structure InBounds (ts : List Token) (c : Cursor) : Prop where
  position : c.position ≤ ts.length
  depth : c.depth ≤ maxNesting

theorem tokens_stream_of_getElem? (h : ts[c.position]? = some t) :
    (c.stream ts).tokens = (t, c.position) :: ts.zipIdx.drop (c.position + 1) := by
  obtain ⟨hlt, rfl⟩ := List.getElem?_eq_some_iff.1 h
  have hlt' : c.position < ts.zipIdx.length := by rwa [List.length_zipIdx]
  rw [stream, List.drop_eq_getElem_cons hlt', List.getElem_zipIdx, Nat.zero_add]

theorem tokens_stream_of_none (h : ts[c.position]? = none) : (c.stream ts).tokens = [] := by
  rw [stream, List.drop_eq_nil_iff, List.length_zipIdx]
  exact List.getElem?_eq_none_iff.1 h

theorem getElem?_of_tokens (h : (c.stream ts).tokens = (t, p) :: us) :
    ts[c.position]? = some t ∧ c.position = p ∧ ts.zipIdx.drop (c.position + 1) = us := by
  rcases hget : ts[c.position]? with _ | u
  · rw [tokens_stream_of_none hget] at h
    cases h
  · rw [tokens_stream_of_getElem? hget] at h
    cases h
    exact ⟨rfl, rfl, rfl⟩

theorem getElem?_of_tokens_nil (h : (c.stream ts).tokens = []) : ts[c.position]? = none := by
  rcases hget : ts[c.position]? with _ | u
  · rfl
  · rw [tokens_stream_of_getElem? hget] at h
    cases h

theorem getElem?_ne {s : TokenStream} (hs : c.stream ts = s) (h : ∀ p us, s.tokens ≠ (t, p) :: us) :
    ts[c.position]? ≠ some t := by
  subst hs
  intro hget
  exact h _ _ (tokens_stream_of_getElem? hget)

theorem length_stream (ts : List Token) (c : Cursor) : (c.stream ts).length = ts.length - c.position := by
  rw [TokenStream.length, stream, List.length_drop, List.length_zipIdx]

end Cursor

/-! ### Sessions -/

/-- Between the calls `before` and `after` more calls have been made, all of them within bounds. -/
def MadeInBounds (ts : List Token) (before after : List Call) : Prop :=
  ∃ cs, after = before ++ cs ∧ ∀ c ∈ cs, c.cursor.InBounds ts

namespace MadeInBounds

variable {ts : List Token} {cs ds es : List Call}

theorem refl (cs : List Call) : MadeInBounds ts cs cs :=
  ⟨[], (List.append_nil _).symm, fun _ hc => absurd hc List.not_mem_nil⟩

theorem snoc (cs : List Call) {c : Call} (h : c.cursor.InBounds ts) : MadeInBounds ts cs (cs ++ [c]) :=
  ⟨[c], rfl, fun d hd => by rw [List.mem_singleton.1 hd]; exact h⟩

theorem trans (h : MadeInBounds ts cs ds) (h' : MadeInBounds ts ds es) : MadeInBounds ts cs es := by
  obtain ⟨as, rfl, has⟩ := h
  obtain ⟨bs, rfl, hbs⟩ := h'
  exact ⟨as ++ bs, List.append_assoc _ _ _, fun c hc => (List.mem_append.1 hc).elim (has c) (hbs c)⟩

end MadeInBounds

/-- The session `τ` comes from `σ` by reading on to the stream `s` with the warnings `ws`: the cursor has not moved
backwards, the number of open groups is what it was, and all calls made have been made within bounds. -/
structure Session.Reaches (ts : List Token) (σ : Session) (ws : List Warning) (s : TokenStream) (τ : Session) : Prop where
  stream : τ.stream ts = s
  inBounds : τ.InBounds ts
  depth : τ.depth = σ.depth
  le : σ.position ≤ τ.position
  warnings : τ.warnings = σ.warnings ++ ws
  turns : τ.turns = σ.turns
  calls : MadeInBounds ts σ.calls τ.calls

namespace Session.Reaches

variable {ts : List Token} {σ ρ τ : Session} {ws ws' : List Warning} {s s' : TokenStream}

theorem refl (h : σ.InBounds ts) (hs : σ.stream ts = s) : σ.Reaches ts [] s σ where
  stream := hs
  inBounds := h
  depth := rfl
  le := Nat.le_refl _
  warnings := (List.append_nil _).symm
  turns := rfl
  calls := .refl _

/-- A call is recorded where it is made. -/
theorem record (r : Routine) (h : σ.InBounds ts) (hs : σ.stream ts = s) :
    σ.Reaches ts [] s { σ with calls := σ.calls ++ [⟨r, σ.toCursor⟩] } where
  stream := hs
  inBounds := h
  depth := rfl
  le := Nat.le_refl _
  warnings := (List.append_nil _).symm
  turns := rfl
  calls := .snoc _ h

theorem trans (h : σ.Reaches ts ws s ρ) (h' : ρ.Reaches ts ws' s' τ) : σ.Reaches ts (ws ++ ws') s' τ where
  stream := h'.stream
  inBounds := h'.inBounds
  depth := h'.depth.trans h.depth
  le := Nat.le_trans h.le h'.le
  warnings := by rw [h'.warnings, h.warnings, List.append_assoc]
  turns := h'.turns.trans h.turns
  calls := h.calls.trans h'.calls

theorem warn (h : σ.Reaches ts ws s τ) (ws' : List Warning) :
    σ.Reaches ts (ws ++ ws') s { τ with warnings := τ.warnings ++ ws' } where
  stream := h.stream
  inBounds := h.inBounds
  depth := h.depth
  le := h.le
  warnings := by rw [h.warnings, List.append_assoc]
  turns := h.turns
  calls := h.calls

/-- The cursor moves over the next token, and `d` dropped parentheses wait from there on. -/
theorem move (h : σ.Reaches ts ws s τ) {t : Token} {p : Nat} {us : List (Token × Nat)} (hs : s.tokens = (t, p) :: us)
    (d : Nat) : σ.Reaches ts ws ⟨us, d⟩ { τ with position := τ.position + 1, dropped := d } := by
  obtain ⟨hget, -, hrest⟩ := Cursor.getElem?_of_tokens (h.stream ▸ hs)
  exact {
    stream := by rw [← hrest]; rfl
    inBounds := ⟨(List.getElem?_eq_some_iff.1 hget).1, h.inBounds.depth⟩
    depth := h.depth
    le := Nat.le_succ_of_le h.le
    warnings := h.warnings
    turns := h.turns
    calls := h.calls }

theorem advance (h : σ.Reaches ts ws s τ) {t : Token} {p : Nat} {us : List (Token × Nat)} (hs : s.tokens = (t, p) :: us) :
    σ.Reaches ts ws ⟨us, s.dropped⟩ { τ with position := τ.position + 1 } := by
  rw [← h.stream]
  exact h.move hs τ.dropped

/-- What is read inside a group counts for the place the group stands in. -/
theorem ascend (hσ : σ.depth ≤ maxNesting) (h : Session.Reaches ts { σ with depth := σ.depth + 1 } ws s τ) :
    σ.Reaches ts ws s { τ with depth := τ.depth - 1 } := by
  have hdepth : τ.depth - 1 = σ.depth := by rw [h.depth, Nat.add_sub_cancel]
  exact {
    stream := h.stream
    inBounds := ⟨h.inBounds.position, hdepth ▸ hσ⟩
    depth := hdepth
    le := h.le
    warnings := h.warnings
    turns := h.turns
    calls := h.calls }

end Session.Reaches

/-! ### Negations -/

theorem negationWarnings_cons (n : Nat) (ns : List Nat) (e : Option Expr) :
    negationWarnings (n :: ns) e = negationWarnings [n] e ++ negationWarnings ns (e.map .not) := by
  cases e <;> rfl

section

variable {inGroup : Bool} (primary : Reading) {s : TokenStream}

/-- A negation is read with what stands under it. -/
theorem readNegation_of_not {p : Nat} {us : List (Token × Nat)}
    (h : (s.settle inGroup).tokens = (.connective .not, p) :: us) {under : Outcome ⟨us, (s.settle inGroup).dropped⟩}
    (hunder : readNegation inGroup primary ⟨us, (s.settle inGroup).dropped⟩ = under) :
    (readNegation inGroup primary s).expr? = under.expr?.map .not ∧
      (readNegation inGroup primary s).warnings =
        s.strays inGroup ++ (under.warnings ++ negationWarnings [p] under.expr?) ∧
      (readNegation inGroup primary s).rest = under.rest := by
  subst hunder
  fun_cases readNegation inGroup primary s with
  | case1 t q vs htoks inner le e he =>
    rw [show t.tokens = _ from h] at htoks
    cases htoks
    rw [show (readNegation inGroup primary ⟨us, (s.settle inGroup).dropped⟩).expr? = some e from he]
    exact ⟨rfl, by rw [negationWarnings, List.append_nil], rfl⟩
  | case2 t q vs htoks inner le he =>
    rw [show t.tokens = _ from h] at htoks
    cases htoks
    rw [show (readNegation inGroup primary ⟨us, (s.settle inGroup).dropped⟩).expr? = none from he]
    exact ⟨rfl, rfl, rfl⟩
  | case3 t operand hnot => exact absurd h (hnot p us)

theorem readNegation_of_lacks (h : (s.settle inGroup).Lacks .not) :
    (readNegation inGroup primary s).expr? = (primary (s.settle inGroup)).expr? ∧
      (readNegation inGroup primary s).warnings = s.strays inGroup ++ (primary (s.settle inGroup)).warnings ∧
      (readNegation inGroup primary s).rest = (primary (s.settle inGroup)).rest := by
  fun_cases readNegation inGroup primary s with
  | case1 t q vs htoks inner le e he => exact absurd htoks (h q vs)
  | case2 t q vs htoks inner le he => exact absurd htoks (h q vs)
  | case3 t operand hnot => exact ⟨rfl, rfl, rfl⟩

end

namespace Run

variable {ts : List Token} {α β : Type}

theorem run_bind {m : Run α} {f : α → Run β} {σ ρ : Session} {a : α} (h : m.run σ = some (a, ρ)) :
    (m >>= f).run σ = (f a).run ρ := by
  rw [StateT.run_bind, h]
  rfl

/-- With at least `k` levels the run gives `a` and goes from `σ` to `τ`. -/
def Returns (k : Nat) (m : Nat → Run α) (σ : Session) (a : α) (τ : Session) : Prop := ∀ n, k ≤ n → (m n).run σ = some (a, τ)

theorem Returns.mono {k k' : Nat} {m : Nat → Run α} {σ τ : Session} {a : α} (h : Returns k m σ a τ) (hk : k ≤ k') :
    Returns k' m σ a τ := fun n hn => h n (Nat.le_trans hk hn)

/-- One level is taken, and the others do. -/
theorem Returns.of_succ {k : Nat} {m : Nat → Run α} {σ τ : Session} {a : α}
    (h : ∀ n, k ≤ n → (m (n + 1)).run σ = some (a, τ)) : Returns (k + 1) m σ a τ
  | 0, hn => absurd hn (Nat.not_succ_le_zero k)
  | n + 1, hn => h n (Nat.le_of_succ_le_succ hn)

theorem run_get (σ : Session) : (get : Run Session).run σ = some (σ, σ) := rfl

theorem run_set (σ τ : Session) : (set τ : Run Unit).run σ = some ((), τ) := rfl

theorem run_position (σ : Session) : position.run σ = some (σ.position, σ) := rfl

theorem run_advance (σ : Session) : advance.run σ = some ((), { σ with position := σ.position + 1 }) := rfl

theorem run_descend (σ : Session) : descend.run σ = some ((), { σ with depth := σ.depth + 1 }) := rfl

theorem run_ascend (σ : Session) : ascend.run σ = some ((), { σ with depth := σ.depth - 1 }) := rfl

theorem run_warn (ws : List Warning) (σ : Session) :
    (warn ws).run σ = some ((), { σ with warnings := σ.warnings ++ ws }) := rfl

theorem run_recordCall (r : Routine) (σ : Session) :
    (recordCall r).run σ = some ((), { σ with calls := σ.calls ++ [⟨r, σ.toCursor⟩] }) := rfl

theorem run_close_of_closing {σ : Session} (h : ts[σ.position]? = some .closing) (p : Nat) :
    (close ts p).run σ = some ((), { σ with position := σ.position + 1 }) := by
  rw [close, run_bind (run_position σ), if_pos h, run_advance]

theorem run_close_of_ne {σ : Session} (h : ts[σ.position]? ≠ some .closing) (p : Nat) :
    (close ts p).run σ = some ((), { σ with warnings := σ.warnings ++ [.unclosedGroup p] }) := by
  rw [close, run_bind (run_position σ), if_neg h, run_warn]

theorem run_join (c : Connective) (p : Nat) (build : Expr → Expr → Expr) (left right : Option Expr) (σ : Session) :
    (join c p build left right).run σ =
      some (joinOperands build left right, { σ with warnings := σ.warnings ++ joinWarnings c p left right }) := rfl

/-! ### Peeking -/

theorem run_peek_of_ne {σ : Session} (h : ts[σ.position]? ≠ some .closing) (n : Nat) :
    (peek ts (n + 1)).run σ = some (ts[σ.position]?, σ) := by
  rw [peek, run_bind (run_get σ), if_neg h]
  rfl

theorem run_peek_of_end {σ : Session} (h : ts[σ.position]? = some .closing) (hd : σ.dropped = 0) (hin : σ.depth ≠ 0)
    (n : Nat) : (peek ts (n + 1)).run σ = some (ts[σ.position]?, σ) := by
  rw [peek, run_bind (run_get σ), if_pos h, if_neg (by omega), if_neg hin, h]
  rfl

theorem run_peek_of_dropped {σ : Session} (h : ts[σ.position]? = some .closing) {d : Nat} (hd : σ.dropped = d + 1)
    (n : Nat) : (peek ts (n + 1)).run σ = (peek ts n).run { σ with position := σ.position + 1, dropped := d } := by
  rw [peek, run_bind (run_get σ), if_pos h, if_pos (by omega), run_bind (run_set σ _), hd]
  rfl

theorem run_peek_of_stray {σ : Session} (h : ts[σ.position]? = some .closing) (hd : σ.dropped = 0) (hin : σ.depth = 0)
    (n : Nat) : (peek ts (n + 1)).run σ = (peek ts n).run
      { σ with position := σ.position + 1, warnings := σ.warnings ++ [.unmatchedClose σ.position] } := by
  rw [peek, run_bind (run_get σ), if_pos h, if_neg (by omega), if_pos hin, run_bind (run_set σ _)]

/-- Peeking leaves out the closing parentheses that end no group. -/
theorem run_peek {inGroup : Bool} {σ : Session} (hσ : σ.InBounds ts) (hin : inGroup = decide (σ.depth ≠ 0))
    {s : TokenStream} (hs : σ.stream ts = s) :
    ∃ τ, Returns (s.length + 1) (peek ts) σ ts[τ.position]? τ ∧ σ.Reaches ts (s.strays inGroup) (s.settle inGroup) τ := by
  have hrefl : σ.Reaches ts [] s σ := .refl hσ hs
  obtain ⟨us, d⟩ := s
  rw [TokenStream.strays, TokenStream.settle, TokenStream.length]
  dsimp only
  fun_induction TokenStream.settleFrom inGroup us d generalizing σ with
  | case1 p us d ih =>
    have hget := (Cursor.getElem?_of_tokens (congrArg TokenStream.tokens hs)).1
    have hd : σ.dropped = d + 1 := congrArg TokenStream.dropped hs
    have hmove := hrefl.move rfl d
    obtain ⟨τ, hrun, hτ⟩ := ih hmove.inBounds hin hmove.stream (.refl hmove.inBounds hmove.stream)
    refine ⟨τ, .of_succ fun n hn => (run_peek_of_dropped hget hd n).trans (hrun n hn), ?_⟩
    exact hmove.trans hτ
  | case2 p us h =>
    have hget := (Cursor.getElem?_of_tokens (congrArg TokenStream.tokens hs)).1
    have hd : σ.dropped = 0 := congrArg TokenStream.dropped hs
    refine ⟨σ, .of_succ fun n _ => run_peek_of_end hget hd (by simpa [h] using hin) n, ?_⟩
    rw [TokenStream.straysFrom, if_pos h]
    exact hrefl
  | case3 p us h ih =>
    obtain ⟨hget, hp, -⟩ := Cursor.getElem?_of_tokens (congrArg TokenStream.tokens hs)
    have hd : σ.dropped = 0 := congrArg TokenStream.dropped hs
    have hmove := (hrefl.warn [.unmatchedClose p]).advance rfl
    obtain ⟨τ, hrun, hτ⟩ := ih hmove.inBounds hin hmove.stream (.refl hmove.inBounds hmove.stream)
    refine ⟨τ, .of_succ fun n hn => (run_peek_of_stray hget hd (by simpa [h] using hin) n).trans (hp ▸ hrun n hn), ?_⟩
    rw [TokenStream.straysFrom, if_neg h]
    exact hmove.trans hτ
  | case4 us d h₁ h₂ =>
    have hne : ts[σ.position]? ≠ some .closing := by
      refine Cursor.getElem?_ne hs fun p vs htokens => ?_
      rcases d with _ | d
      · exact h₂ p vs htokens rfl
      · exact h₁ p vs d htokens rfl
    have hstrays : TokenStream.straysFrom inGroup us d = [] := by
      unfold TokenStream.straysFrom
      split
      · exact absurd rfl (h₁ _ _ _ rfl)
      · exact absurd rfl (h₂ _ _ rfl)
      · rfl
    refine ⟨σ, .of_succ fun n _ => run_peek_of_ne hne n, ?_⟩
    rw [hstrays]
    exact hrefl

/-! ### Connectives -/

section

variable {inGroup : Bool} {σ : Session} {s : TokenStream} {c : Connective}
  (hσ : σ.InBounds ts) (hin : inGroup = decide (σ.depth ≠ 0)) (hs : σ.stream ts = s)

include hσ hin hs

theorem run_eat {p : Nat} {us : List (Token × Nat)} (h : (s.settle inGroup).tokens = (.connective c, p) :: us) :
    ∃ τ, Returns (s.length + 1) (eat ts c) σ (some p) τ ∧
      σ.Reaches ts (s.strays inGroup) ⟨us, (s.settle inGroup).dropped⟩ τ := by
  obtain ⟨τ, hrun, hτ⟩ := run_peek hσ hin hs
  obtain ⟨hget, hp, -⟩ := Cursor.getElem?_of_tokens (hτ.stream ▸ h)
  refine ⟨_, fun n hn => ?_, hτ.advance h⟩
  rw [eat, run_bind (hrun n hn), run_bind (run_position τ), if_pos hget, run_bind (run_advance τ), hp]
  rfl

theorem run_eat_of_lacks (h : (s.settle inGroup).Lacks c) :
    ∃ τ, Returns (s.length + 1) (eat ts c) σ none τ ∧ σ.Reaches ts (s.strays inGroup) (s.settle inGroup) τ := by
  obtain ⟨τ, hrun, hτ⟩ := run_peek hσ hin hs
  have hne : ts[τ.position]? ≠ some (.connective c) := Cursor.getElem?_ne hτ.stream h
  refine ⟨τ, fun n hn => ?_, hτ⟩
  rw [eat, run_bind (hrun n hn), run_bind (run_position τ), if_neg hne]
  rfl

end

/-! ### Operands -/

/-- What stands at the cursor is read if it is a leaf. -/
theorem run_leaf {σ : Session} (hσ : σ.InBounds ts) {s : TokenStream} (hs : σ.stream ts = s) :
    ∃ τ, (leaf ts[σ.position]?).run σ = some ((readLeaf s).expr?, τ) ∧
      σ.Reaches ts (readLeaf s).warnings (readLeaf s).rest τ := by
  have hrefl : σ.Reaches ts [] s σ := .refl hσ hs
  fun_cases readLeaf s with
  | case1 w m p us htoks value =>
    obtain ⟨hget, hp, -⟩ := Cursor.getElem?_of_tokens (hs ▸ htoks)
    refine ⟨_, ?_, (hrefl.advance htoks).warn (bareWildcards p value)⟩
    rw [leaf, run_bind (run_position σ), hget]
    dsimp only
    rw [run_bind (run_advance σ), run_bind (run_warn _ _), hp]
    rfl
  | case2 v p us htoks =>
    obtain ⟨hget, -, -⟩ := Cursor.getElem?_of_tokens (hs ▸ htoks)
    refine ⟨_, ?_, hrefl.advance htoks⟩
    rw [leaf, run_bind (run_position σ), hget]
    dsimp only
    rw [run_bind (run_advance σ)]
    rfl
  | case3 hterm hphrase =>
    refine ⟨σ, ?_, hrefl⟩
    rw [leaf, run_bind (run_position σ)]
    split
    · next w m hget => exact absurd (hs ▸ Cursor.tokens_stream_of_getElem? hget) (hterm w m _ _)
    · next v hget => exact absurd (hs ▸ Cursor.tokens_stream_of_getElem? hget) (hphrase v _ _)
    · rfl

theorem run_dropOpenings_of_opening {σ : Session} {t? : Option Token} (h : t? = some .opening)
    (hd : maxNesting ≤ σ.depth) (n : Nat) :
    (dropOpenings ts t? (n + 1)).run σ = (do dropOpenings ts (← peek ts n) n : Run _).run
      { σ with
        position := σ.position + 1
        dropped := σ.dropped + 1
        warnings := σ.warnings ++ depthWarnings σ.position σ.dropped } := by
  rw [dropOpenings, run_bind (run_get σ), if_pos ⟨h, hd⟩, run_bind (run_set σ _)]

theorem run_dropOpenings_of_not {σ : Session} {t? : Option Token} (h : ¬ (t? = some .opening ∧ maxNesting ≤ σ.depth))
    (n : Nat) : (dropOpenings ts t? (n + 1)).run σ = some (t?, σ) := by
  rw [dropOpenings, run_bind (run_get σ), if_neg h]
  rfl

/-- Where groups may still be opened no parenthesis is dropped. -/
theorem run_operandStart {inGroup : Bool} {σ : Session} (hσ : σ.InBounds ts) (hin : inGroup = decide (σ.depth ≠ 0))
    {s : TokenStream} (hs : σ.stream ts = s) (hlt : σ.depth < maxNesting) :
    ∃ τ, Returns (s.length + 1) (operandStart ts) σ ts[τ.position]? τ ∧
      σ.Reaches ts (s.strays inGroup) (s.settle inGroup) τ := by
  obtain ⟨τ, hrun, hτ⟩ := run_peek hσ hin hs
  have hdepth : ¬ maxNesting ≤ τ.depth := by
    rw [hτ.depth]
    omega
  refine ⟨τ, .of_succ fun n hn => ?_, hτ⟩
  rw [operandStart, run_bind (hrun (n + 1) (Nat.succ_le_succ hn)), run_dropOpenings_of_not fun h => hdepth h.2]

private theorem tooDeepFrom_opening (p : Nat) (us : List (Token × Nat)) (k : Nat) :
    TokenStream.tooDeepFrom ((.opening, p) :: us) k = depthWarnings p k ++ TokenStream.tooDeepFrom us (k + 1) := by
  cases k <;> rfl

/-- At the nesting limit all parentheses before the operand are dropped.  A closing one takes a level of the peeking only,
so the levels of the two loops are told apart. -/
theorem run_dropOpenings {σ : Session} (hσ : σ.InBounds ts) (us : List (Token × Nat)) (k : Nat)
    (hs : σ.stream ts = ⟨us, k⟩) (hd : σ.depth = maxNesting) :
    ∃ τ, (∀ n m, us.length < n → us.length < m →
        (do dropOpenings ts (← peek ts n) m : Run _).run σ = some (ts[τ.position]?, τ)) ∧
      σ.Reaches ts (TokenStream.tooDeepFrom us k) (TokenStream.flattenFrom us k) τ := by
  have hrefl : σ.Reaches ts [] ⟨us, k⟩ σ := .refl hσ hs
  fun_induction TokenStream.flattenFrom us k generalizing σ with
  | case1 p us k ih =>
    obtain ⟨hget, hp, -⟩ := Cursor.getElem?_of_tokens (congrArg TokenStream.tokens hs)
    have hk : σ.dropped = k := congrArg TokenStream.dropped hs
    have hmove := (hrefl.warn (depthWarnings p k)).move rfl (k + 1)
    obtain ⟨τ, hrun, hτ⟩ := ih hmove.inBounds hmove.stream hd (.refl hmove.inBounds hmove.stream)
    have hne : ts[σ.position]? ≠ some .closing := by simp [hget]
    refine ⟨τ, fun n m hn hm => ?_, ?_⟩
    · obtain ⟨n, rfl⟩ := Nat.exists_eq_succ_of_ne_zero (Nat.ne_zero_of_lt hn)
      obtain ⟨m, rfl⟩ := Nat.exists_eq_succ_of_ne_zero (Nat.ne_zero_of_lt hm)
      have hm' : us.length < m := Nat.lt_of_succ_lt_succ hm
      rw [run_bind (run_peek_of_ne hne n), run_dropOpenings_of_opening hget (Nat.le_of_eq hd.symm), hp, hk]
      exact hp ▸ hrun m m hm' hm'
    · rw [tooDeepFrom_opening]
      exact hmove.trans hτ
  | case2 p us k ih =>
    have hget := (Cursor.getElem?_of_tokens (congrArg TokenStream.tokens hs)).1
    have hmove := hrefl.move rfl k
    obtain ⟨τ, hrun, hτ⟩ := ih hmove.inBounds hmove.stream hd (.refl hmove.inBounds hmove.stream)
    refine ⟨τ, fun n m hn hm => ?_, ?_⟩
    · obtain ⟨n, rfl⟩ := Nat.exists_eq_succ_of_ne_zero (Nat.ne_zero_of_lt hn)
      rw [StateT.run_bind, run_peek_of_dropped hget (congrArg TokenStream.dropped hs)]
      exact hrun n m (Nat.lt_of_succ_lt_succ hn) (Nat.lt_of_succ_lt hm)
    · exact hmove.trans hτ
  | case3 us k h₁ h₂ =>
    have hne : ts[σ.position]? ≠ some .opening := Cursor.getElem?_ne hs h₁
    have hpeek (n : Nat) : (peek ts (n + 1)).run σ = some (ts[σ.position]?, σ) := by
      by_cases hget : ts[σ.position]? = some .closing
      · have htokens := Cursor.tokens_stream_of_getElem? hget
        rw [hs] at htokens
        rcases k with _ | k
        · exact run_peek_of_end hget (congrArg TokenStream.dropped hs) (by rw [hd]; decide) n
        · exact absurd rfl (h₂ _ _ _ htokens)
      · exact run_peek_of_ne hget n
    have hnone : TokenStream.tooDeepFrom us k = [] := by
      unfold TokenStream.tooDeepFrom
      split
      · exact absurd rfl (h₁ _ _)
      · exact absurd rfl (h₁ _ _)
      · exact absurd rfl (h₂ _ _ _ rfl)
      · rfl
    refine ⟨σ, fun n m hn hm => ?_, ?_⟩
    · obtain ⟨n, rfl⟩ := Nat.exists_eq_succ_of_ne_zero (Nat.ne_zero_of_lt hn)
      obtain ⟨m, rfl⟩ := Nat.exists_eq_succ_of_ne_zero (Nat.ne_zero_of_lt hm)
      rw [run_bind (hpeek n), run_dropOpenings_of_not fun h => hne h.1]
    · rw [hnone]
      exact hrefl

theorem run_operandStart_flat {σ : Session} (hσ : σ.InBounds ts) {s : TokenStream} (hs : σ.stream ts = s)
    (hd : σ.depth = maxNesting) :
    ∃ τ, Returns (s.length + 1) (operandStart ts) σ ts[τ.position]? τ ∧ σ.Reaches ts s.tooDeep s.flatten τ := by
  obtain ⟨τ, hrun, hτ⟩ := run_dropOpenings hσ s.tokens s.dropped hs hd
  exact ⟨τ, fun n hn => hrun n n hn hn, hτ⟩

/-! ### Routines -/

/-- From every session inside `d` groups the run comes to an end with four levels for each token that is left and `k` more,
and it has read what the reading reads. -/
def Performs (ts : List Token) (d k : Nat) (m : Nat → Run (Option Expr)) (read : Reading) : Prop :=
  ∀ (σ : Session) (s : TokenStream), σ.InBounds ts → σ.depth = d → σ.stream ts = s →
    ∃ τ, Returns (4 * s.length + k) m σ (read s).expr? τ ∧ σ.Reaches ts (read s).warnings (read s).rest τ

section

variable {d : Nat} {inGroup : Bool} (hin : inGroup = decide (d ≠ 0))

include hin

theorem performs_chain {operand : Routine} {read : Reading} {k : Nat} (hread : Performs ts d k (call ts operand) read)
    (hk : k ≤ 6) (c : Connective) (build : Expr → Expr → Expr) (left : Option Expr) :
    Performs ts d 3 (chain ts c build operand left) (readChain inGroup c build read left) := by
  intro σ s hσ hd hs
  fun_induction readChain inGroup c build read left s generalizing σ with
  | case1 left s t p us right more htoks lt ih =>
    obtain ⟨ρ, hrunρ, hρ⟩ := run_eat hσ (hd ▸ hin) hs htoks
    obtain ⟨υ, hrunυ, hυ⟩ := hread ρ _ hρ.inBounds (hρ.depth.trans hd) hρ.stream
    have hjoin := (hρ.trans hυ).warn (joinWarnings c p left right.expr?)
    obtain ⟨τ, hrunτ, hτ⟩ := ih _ hjoin.inBounds (hjoin.depth.trans hd) hjoin.stream
    have hless : TokenStream.length ⟨us, (s.settle inGroup).dropped⟩ < s.length := TokenStream.length_lt_of_settle htoks
    refine ⟨τ, .of_succ fun n hn => ?_, ?_⟩
    · rw [chain, run_bind (hrunρ n (by omega))]
      dsimp only
      rw [run_bind (hrunυ n (by omega)), run_bind (run_join c p build left right.expr? υ)]
      exact hrunτ n (by omega)
    · have hall := hjoin.trans hτ
      simpa only [List.append_assoc] using hall
  | case2 left s t c' p us htoks hc =>
    obtain ⟨τ, hrunτ, hτ⟩ := run_eat_of_lacks (c := c) hσ (hd ▸ hin) hs (fun q vs h => by
      rw [show (s.settle inGroup).tokens = _ from htoks] at h
      cases h
      exact hc rfl)
    refine ⟨τ, .of_succ fun n hn => ?_, hτ⟩
    rw [chain, run_bind (hrunτ n (by omega))]
    rfl
  | case3 left s t htoks =>
    obtain ⟨τ, hrunτ, hτ⟩ := run_eat_of_lacks (c := c) hσ (hd ▸ hin) hs (fun q vs h => htoks c q vs h)
    refine ⟨τ, .of_succ fun n hn => ?_, hτ⟩
    rw [chain, run_bind (hrunτ n (by omega))]
    rfl

theorem performs_operands {r operand : Routine} {read : Reading} {k : Nat} (hread : Performs ts d k (call ts operand) read)
    (hk : 3 ≤ k) (hk' : k ≤ 6) (c : Connective) (build : Expr → Expr → Expr)
    (hcall : ∀ n, call ts r (n + 1) = do recordCall r; chain ts c build operand (← call ts operand n) n) :
    Performs ts d (k + 1) (call ts r) (readOperands inGroup c build read) := by
  intro σ s hσ hd hs
  have hrecord : σ.Reaches ts [] s _ := .record r hσ hs
  obtain ⟨ρ, hrunρ, hρ⟩ := hread _ s hrecord.inBounds hd hs
  obtain ⟨τ, hrunτ, hτ⟩ := performs_chain hin hread hk' c build (read s).expr? ρ (read s).rest hρ.inBounds
    (hρ.depth.trans hd) hρ.stream
  have hle : (read s).rest.length ≤ s.length := (read s).le
  refine ⟨τ, .of_succ (k := 4 * s.length + k) fun n hn => ?_, (hrecord.trans hρ).trans hτ⟩
  rw [hcall, run_bind (run_recordCall r σ), run_bind (hrunρ n hn)]
  exact hrunτ n (by omega)

/-- The negations that come next, and then the operand under them. -/
theorem run_negations {primary : Reading} (hprimary : Performs ts d 3 (call ts .primary) primary) {σ : Session}
    {s : TokenStream} (hσ : σ.InBounds ts) (hd : σ.depth = d) (hs : σ.stream ts = s) (ns : List Nat) :
    ∃ ns' ρ e τ ws, Returns (s.length + 2) (negations ts ns) σ ns' ρ ∧
      Returns (4 * s.length + 3) (call ts .primary) ρ e τ ∧
      σ.Reaches ts ws (readNegation inGroup primary s).rest τ ∧
      negated ns' e = negated ns (readNegation inGroup primary s).expr? ∧
      ws ++ negationWarnings ns' e = (readNegation inGroup primary s).warnings ++
        negationWarnings ns (readNegation inGroup primary s).expr? := by
  induction hlength : s.length using Nat.strongRecOn generalizing σ s ns with
  | ind n ih =>
    by_cases hnot : ∃ p us, (s.settle inGroup).tokens = (.connective .not, p) :: us
    · obtain ⟨p, us, htoks⟩ := hnot
      obtain ⟨hexpr, hwarn, hrest⟩ := readNegation_of_not primary htoks rfl
      obtain ⟨ρ, hrunρ, hρ⟩ := run_eat hσ (hd ▸ hin) hs htoks
      have hless : TokenStream.length ⟨us, (s.settle inGroup).dropped⟩ < s.length := TokenStream.length_lt_of_settle htoks
      obtain ⟨ns', υ, e, τ, ws, hrun, hcall, hτ, hvalue, hwarnings⟩ :=
        ih _ (hlength ▸ hless) hρ.inBounds (hρ.depth.trans hd) hρ.stream (p :: ns) rfl
      refine ⟨ns', υ, e, τ, _, .of_succ fun m hm => ?_, hcall.mono (by omega), hrest ▸ hρ.trans hτ, ?_, ?_⟩
      · rw [negations, run_bind (hrunρ m (by omega))]
        exact hrun m (by omega)
      · rw [hvalue, hexpr]
        rfl
      · rw [List.append_assoc, hwarnings, hwarn, hexpr, negationWarnings_cons]
        simp only [List.append_assoc]
    · have hlacks : (s.settle inGroup).Lacks .not := fun p us h => hnot ⟨p, us, h⟩
      obtain ⟨hexpr, hwarn, hrest⟩ := readNegation_of_lacks primary hlacks
      obtain ⟨ρ, hrunρ, hρ⟩ := run_eat_of_lacks hσ (hd ▸ hin) hs hlacks
      obtain ⟨τ, hrunτ, hτ⟩ := hprimary ρ _ hρ.inBounds (hρ.depth.trans hd) hρ.stream
      have hle := s.length_settle inGroup
      refine ⟨ns, ρ, _, τ, _, .of_succ fun m hm => ?_, hrunτ.mono (by omega), hrest ▸ hρ.trans hτ, by rw [hexpr],
        by rw [hwarn, hexpr]⟩
      rw [negations, run_bind (hrunρ m (by omega))]
      rfl

theorem performs_negation {primary : Reading} (hprimary : Performs ts d 3 (call ts .primary) primary) :
    Performs ts d 4 (call ts .negation) (readNegation inGroup primary) := by
  intro σ s hσ hd hs
  have hrecord : σ.Reaches ts [] s _ := .record .negation hσ hs
  obtain ⟨ns, ρ, e, τ, ws, hnegations, hcall, hτ, hvalue, hwarnings⟩ :=
    run_negations hin hprimary hrecord.inBounds hd hs []
  rw [negationWarnings_nil, List.append_nil] at hwarnings
  refine ⟨_, .of_succ fun n hn => ?_, hwarnings ▸ (hrecord.trans hτ).warn (negationWarnings ns e)⟩
  rw [call, run_bind (run_recordCall .negation σ), run_bind (hnegations n (by omega)), run_bind (hcall n hn),
    run_bind (run_warn _ τ), hvalue]
  rfl

end

/-- The group that is opened where the cursor stands, up to where it should be closed. -/
theorem run_group {d : Nat} {group : Reading} (hgroup : Performs ts (d + 1) 6 (call ts .disjunction) group)
    (hlt : d < maxNesting) {σ : Session} {s : TokenStream} (hσ : σ.InBounds ts) (hd : σ.depth = d) (hs : σ.stream ts = s)
    {p : Nat} {us : List (Token × Nat)} (htoks : s.tokens = (.opening, p) :: us) {inner : Outcome ⟨us, s.dropped⟩}
    (hinner : group ⟨us, s.dropped⟩ = inner) :
    ∃ ρ τ, Returns (4 * s.length + 2) (call ts .disjunction) { σ with position := σ.position + 1, depth := σ.depth + 1 }
        inner.expr? ρ ∧
      ascend.run ρ = some ((), τ) ∧ σ.Reaches ts inner.warnings inner.rest τ := by
  subst hinner
  have hfirst := (Session.Reaches.refl hσ hs).advance htoks
  obtain ⟨ρ, hrun, hρ⟩ := hgroup { σ with position := σ.position + 1, depth := σ.depth + 1 } ⟨us, s.dropped⟩
    ⟨hfirst.inBounds.position, hd ▸ hlt⟩ (congrArg (· + 1) hd) hfirst.stream
  have hlength : s.length = us.length + 1 := by rw [TokenStream.length, htoks, List.length_cons]
  have hinside : (⟨us, s.dropped⟩ : TokenStream).length = us.length := rfl
  exact ⟨ρ, _, hrun.mono (by omega), run_ascend ρ, hfirst.trans (.ascend hfirst.inBounds.depth hρ)⟩

section

variable {σ ρ τ υ φ : Session} {e : Option Expr} {n : Nat}
  (hstart : (operandStart ts n).run { σ with calls := σ.calls ++ [⟨.primary, σ.toCursor⟩] } = some (ts[ρ.position]?, ρ))

include hstart

theorem run_primary_of_opening (hopen : ts[ρ.position]? = some .opening)
    (hgroup : (call ts .disjunction n).run { ρ with position := ρ.position + 1, depth := ρ.depth + 1 } = some (e, υ))
    (hascend : ascend.run υ = some ((), φ)) (hclose : (close ts ρ.position).run φ = some ((), τ)) :
    (call ts .primary (n + 1)).run σ = some (e, τ) := by
  rw [call, run_bind (run_recordCall .primary σ), run_bind hstart, if_pos hopen, run_bind (run_position ρ),
    run_bind (run_advance ρ), run_bind (run_descend _), run_bind hgroup, run_bind hascend, run_bind hclose]
  rfl

theorem run_primary_of_ne (hne : ts[ρ.position]? ≠ some .opening)
    (hleaf : (leaf ts[ρ.position]?).run ρ = some (e, τ)) : (call ts .primary (n + 1)).run σ = some (e, τ) := by
  rw [call, run_bind (run_recordCall .primary σ), run_bind hstart, if_neg hne]
  exact hleaf

end

/-- A group, or else a leaf. -/
theorem performs_primary {d : Nat} {inGroup : Bool} (hin : inGroup = decide (d ≠ 0)) {group : Reading}
    (hgroup : Performs ts (d + 1) 6 (call ts .disjunction) group) (hlt : d < maxNesting) :
    Performs ts d 3 (call ts .primary) (readPrimary inGroup group) := by
  intro σ s hσ hd hs
  have hrecord : σ.Reaches ts [] s _ := .record .primary hσ hs
  obtain ⟨ρ, hrunρ, hρ⟩ := run_operandStart hrecord.inBounds (hd ▸ hin) hs (hd ▸ hlt)
  have hstart : σ.Reaches ts (s.strays inGroup) (s.settle inGroup) ρ := hrecord.trans hρ
  fun_cases readPrimary inGroup group s with
  | case1 t p us htoks inner lt q vs hclosing =>
    have hstream : ρ.stream ts = t := hρ.stream
    have hle : t.length ≤ s.length := s.length_settle inGroup
    obtain ⟨hopen, -, -⟩ := Cursor.getElem?_of_tokens (hstream ▸ htoks)
    obtain ⟨υ, φ, hrunυ, hrunφ, hφ⟩ := run_group hgroup hlt hρ.inBounds (hρ.depth.trans hd) hstream htoks rfl
    have hend : ts[φ.position]? = some .closing := (Cursor.getElem?_of_tokens (hφ.stream ▸ hclosing)).1
    refine ⟨_, .of_succ fun n hn => ?_, (hstart.trans hφ).advance hclosing⟩
    exact run_primary_of_opening (hrunρ n (by omega)) hopen (hrunυ n (by omega)) hrunφ (run_close_of_closing hend _)
  | case2 t p us htoks inner lt hnone =>
    have hstream : ρ.stream ts = t := hρ.stream
    have hle : t.length ≤ s.length := s.length_settle inGroup
    obtain ⟨hopen, rfl, -⟩ := Cursor.getElem?_of_tokens (hstream ▸ htoks)
    obtain ⟨υ, φ, hrunυ, hrunφ, hφ⟩ := run_group hgroup hlt hρ.inBounds (hρ.depth.trans hd) hstream htoks rfl
    have hend : ts[φ.position]? ≠ some .closing := Cursor.getElem?_ne hφ.stream hnone
    refine ⟨_, .of_succ fun n hn => ?_, hstart.trans (hφ.warn [.unclosedGroup ρ.position])⟩
    exact run_primary_of_opening (hrunρ n (by omega)) hopen (hrunυ n (by omega)) hrunφ (run_close_of_ne hend _)
  | case3 t leaf hnone =>
    have hne : ts[ρ.position]? ≠ some .opening := Cursor.getElem?_ne hρ.stream hnone
    obtain ⟨τ, hrunτ, hτ⟩ := run_leaf hρ.inBounds hρ.stream
    exact ⟨τ, .of_succ fun n hn => run_primary_of_ne (hrunρ n (by omega)) hne hrunτ, hstart.trans hτ⟩

/-- At the nesting limit a leaf. -/
theorem performs_flat : Performs ts maxNesting 3 (call ts .primary) readFlat := by
  intro σ s hσ hd hs
  have hrecord : σ.Reaches ts [] s _ := .record .primary hσ hs
  obtain ⟨ρ, hrunρ, hρ⟩ := run_operandStart_flat hrecord.inBounds hs hd
  obtain ⟨τ, hrunτ, hτ⟩ := run_leaf hρ.inBounds hρ.stream
  have hne : ts[ρ.position]? ≠ some .opening :=
    Cursor.getElem?_ne hρ.stream fun p us h => (TokenStream.flattenFrom_head h).1 rfl
  exact ⟨τ, .of_succ fun n hn => run_primary_of_ne (hrunρ n (by omega)) hne hrunτ, (hrecord.trans hρ).trans hτ⟩

end Run

/-- The reading of a group or a leaf inside `d` groups. -/
def primaryReading (d : Nat) : Reading :=
  if d < maxNesting then readPrimary (decide (d ≠ 0)) (readDisjunction true (maxNesting - (d + 1))) else readFlat

/-- What a routine reads inside `d` groups. -/
def Routine.reading (d : Nat) : Routine → Reading
  | .disjunction => readLevel (decide (d ≠ 0)) (primaryReading d)
  | .conjunction => readOperands (decide (d ≠ 0)) .and .and (readNegation (decide (d ≠ 0)) (primaryReading d))
  | .negation => readNegation (decide (d ≠ 0)) (primaryReading d)
  | .primary => primaryReading d

/-- How many levels a routine goes down beyond those that the tokens pay for. -/
def Routine.levels : Routine → Nat
  | .primary => 3
  | .negation => 4
  | .conjunction => 5
  | .disjunction => 6

theorem Routine.levels_le (r : Routine) : r.levels ≤ 6 := by cases r <;> decide

theorem readDisjunction_eq_reading {d : Nat} (h : d ≤ maxNesting) :
    readDisjunction (decide (d ≠ 0)) (maxNesting - d) = Routine.reading d .disjunction := by
  rw [Routine.reading, primaryReading]
  by_cases hlt : d < maxNesting
  · obtain ⟨k, hk⟩ : ∃ k, maxNesting - d = k + 1 := ⟨maxNesting - d - 1, by omega⟩
    have hk' : maxNesting - (d + 1) = k := by omega
    rw [if_pos hlt, hk, hk', readDisjunction]
  · rw [if_neg hlt, show maxNesting - d = 0 by omega, readDisjunction]

namespace Run

variable {ts : List Token}

theorem performs_routine {d : Nat} (hprimary : Performs ts d 3 (call ts .primary) (primaryReading d)) (r : Routine) :
    Performs ts d r.levels (call ts r) (r.reading d) := by
  have hnegation : Performs ts d 4 (call ts .negation) (Routine.reading d .negation) := performs_negation rfl hprimary
  have hconjunction : Performs ts d 5 (call ts .conjunction) (Routine.reading d .conjunction) :=
    performs_operands rfl hnegation (by decide) (by decide) .and .and fun n => by rw [call]
  cases r with
  | disjunction => exact performs_operands rfl hconjunction (by decide) (by decide) .or .or fun n => by rw [call]
  | conjunction => exact hconjunction
  | negation => exact hnegation
  | primary => exact hprimary

/-- By induction on how many more groups may be opened: what a group holds is read one group further in. -/
theorem performs_primaryReading {d k : Nat} (hk : d + k = maxNesting) :
    Performs ts d 3 (call ts .primary) (primaryReading d) := by
  induction k generalizing d with
  | zero =>
    obtain rfl : d = maxNesting := hk
    rw [primaryReading, if_neg (Nat.lt_irrefl _)]
    exact performs_flat
  | succ k ih =>
    have hlt : d < maxNesting := by omega
    have hgroup : Performs ts (d + 1) 6 (call ts .disjunction) (Routine.reading (d + 1) .disjunction) :=
      performs_routine (ih (by omega)) .disjunction
    rw [← readDisjunction_eq_reading hlt] at hgroup
    rw [primaryReading, if_pos hlt]
    exact performs_primary rfl hgroup hlt

/-- Inside as many groups as may be nested every routine ends, and reads what its rule says. -/
theorem performs_call {d : Nat} (hd : d ≤ maxNesting) (r : Routine) : Performs ts d r.levels (call ts r) (r.reading d) :=
  performs_routine (performs_primaryReading (k := maxNesting - d) (by omega)) r

end Run

/-! ### Whole queries -/

/-- The session `τ` comes from `σ` by reading the rest of the tokens in turns of which each takes a token. -/
structure Session.Finishes (ts : List Token) (σ : Session) (ws : List Warning) (τ : Session) : Prop where
  position : τ.position = ts.length
  depth : τ.depth = σ.depth
  warnings : τ.warnings = σ.warnings ++ ws
  turns : ∃ ks, τ.turns = σ.turns ++ ks ∧ ∀ k ∈ ks, k.start < k.stop
  calls : MadeInBounds ts σ.calls τ.calls

namespace Session

variable {ts : List Token} {σ ρ τ : Session} {ws ws' : List Warning} {s : TokenStream}

theorem Reaches.finishes (h : σ.Reaches ts ws s τ) (hs : s.tokens = []) : σ.Finishes ts ws τ where
  position := by
    have hend := List.getElem?_eq_none_iff.1 (Cursor.getElem?_of_tokens_nil (h.stream ▸ hs))
    exact Nat.le_antisymm h.inBounds.position hend
  depth := h.depth
  warnings := h.warnings
  turns := ⟨[], by rw [h.turns, List.append_nil], fun _ hk => absurd hk List.not_mem_nil⟩
  calls := h.calls

/-- A turn that takes a token, and then those that follow it. -/
theorem Reaches.turn (h : σ.Reaches ts ws s ρ) {k : Turn} (hk : k.start < k.stop)
    (h' : Session.Finishes ts { ρ with turns := ρ.turns ++ [k] } ws' τ) : σ.Finishes ts (ws ++ ws') τ where
  position := h'.position
  depth := h'.depth.trans h.depth
  warnings := by rw [h'.warnings, h.warnings, List.append_assoc]
  turns := by
    obtain ⟨ks, hks, hlt⟩ := h'.turns
    refine ⟨k :: ks, by rw [hks, h.turns, List.append_assoc, List.singleton_append], fun l hl => ?_⟩
    rcases List.mem_cons.1 hl with rfl | hl
    · exact hk
    · exact hlt l hl
  calls := h.calls.trans h'.calls

end Session

namespace Run

variable {ts : List Token}

theorem run_recordTurn (k : Turn) (σ : Session) :
    (recordTurn k).run σ = some ((), { σ with turns := σ.turns ++ [k] }) := rfl

/-- Outside groups the outermost loop reads the rest of the query. -/
theorem run_pieces (root : Option Expr) (s : TokenStream) (σ : Session) (hσ : σ.InBounds ts) (hd : σ.depth = 0)
    (hs : σ.stream ts = s) :
    ∃ τ, Returns (4 * s.length + 7) (pieces ts root) σ (readPieces root s).1 τ ∧
      σ.Finishes ts (readPieces root s).2 τ := by
  have hin (ρ : Session) (h : ρ.depth = 0) : false = decide (ρ.depth ≠ 0) := by rw [h]; rfl
  fun_induction readPieces root s generalizing σ with
  | case1 root s t htoks =>
    obtain ⟨τ, hrun, hτ⟩ := run_peek hσ (hin σ hd) hs
    refine ⟨τ, .of_succ fun n hn => ?_, hτ.finishes htoks⟩
    rw [pieces, run_bind (hrun n (by omega)), Cursor.getElem?_of_tokens_nil (hτ.stream ▸ htoks)]
    rfl
  | case2 root s t a us htoks piece rest lt more ih =>
    obtain ⟨ρ, hrunρ, hρ⟩ := run_peek hσ (hin σ hd) hs
    have htokens : (ρ.stream ts).tokens = a :: us := by
      rw [hρ.stream]
      exact htoks
    have hget := (Cursor.getElem?_of_tokens htokens).1
    have hd' : ρ.depth = 0 := hρ.depth.trans hd
    obtain ⟨υ, hrunυ, hυ⟩ := performs_call (Nat.zero_le _) .disjunction ρ t hρ.inBounds hd' hρ.stream
    have hpiece : Routine.reading 0 .disjunction t = piece :=
      congrFun (readDisjunction_eq_reading (Nat.zero_le _)).symm t
    rw [hpiece] at hrunυ hυ
    have hshort : piece.rest.length < t.length :=
      length_readPiece (TokenStream.settled_settle false s) (by rw [htoks]; exact List.cons_ne_nil _ _)
    have hlt : ρ.position < υ.position := by
      rw [← hυ.stream, ← show ρ.stream ts = t from hρ.stream, Cursor.length_stream, Cursor.length_stream] at hshort
      omega
    have hrest : piece.rest = rest := (if_pos hshort).symm
    have hnext := hρ.trans hυ
    obtain ⟨τ, hrunτ, hτ⟩ := ih { υ with turns := υ.turns ++ [⟨ρ.position, υ.position⟩] } hnext.inBounds
      (hnext.depth.trans hd) (hυ.stream.trans hrest)
    have hle : t.length ≤ s.length := s.length_settle false
    have hlevels := Routine.levels_le .disjunction
    refine ⟨τ, .of_succ fun n hn => ?_, ?_⟩
    · rw [pieces, run_bind (hrunρ n (by omega)), hget]
      dsimp only
      rw [run_bind (run_position ρ), run_bind (hrunυ n (by omega)), run_bind (run_position υ),
        run_bind (run_recordTurn _ υ), if_neg (Nat.ne_of_gt hlt)]
      exact hrunτ n (by omega)
    · have hall := hnext.turn hlt hτ
      simpa only [List.append_assoc] using hall

end Run

/-- What a call reads where it is made. -/
def Call.outcome (ts : List Token) (c : Call) : Outcome (c.cursor.stream ts) :=
  c.routine.reading c.cursor.depth (c.cursor.stream ts)

/-- A parser with a cursor does what parsing says, and keeps its cursor in order.  It ends, behind the last token, with the
root and the warnings of the query.  Every call that is made while it runs is made inside no more groups than may be
nested; the call returns, with as many groups open as it was entered with, with the cursor not before where it was, and
with what the reading of its rule reads there.  And every turn of the outermost loop takes a token before it could be given
up.  Four levels for each token and seven more are enough. -/
theorem parse_disciplined (ts : List Token) :
    ∃ τ, (∀ n, 4 * ts.length + 7 ≤ n → Run.ofTokens ts n = some ((parse ts).root?, τ)) ∧
      (parse ts).warnings = τ.warnings ++ emptiness ts (parse ts).root? ∧
      (∀ c ∈ τ.calls, c.cursor.depth ≤ maxNesting ∧ ∀ σ : Session, σ.toCursor = c.cursor →
        ∃ υ, (∀ n, 4 * ts.length + 7 ≤ n → (Run.call ts c.routine n).run σ = some ((c.outcome ts).expr?, υ)) ∧
          υ.depth = σ.depth ∧ σ.position ≤ υ.position ∧ υ.stream ts = (c.outcome ts).rest) ∧
      (∀ k ∈ τ.turns, k.start < k.stop) ∧
      τ.position = ts.length ∧ τ.depth = 0 := by
  have hstart : (Session.at ⟨0, 0, 0⟩).InBounds ts := ⟨Nat.zero_le _, Nat.zero_le _⟩
  obtain ⟨τ, hrun, hτ⟩ := Run.run_pieces none (TokenStream.ofTokens ts) (.at ⟨0, 0, 0⟩) hstart rfl rfl
  have hlength : (TokenStream.ofTokens ts).length = ts.length := List.length_zipIdx
  obtain ⟨cs, hcs, hin⟩ := hτ.calls
  obtain ⟨ks, hks, hlt⟩ := hτ.turns
  -- The session starts with empty records, so what has been added to them is all there is.
  change τ.calls = cs at hcs
  change τ.turns = ks at hks
  have hwarnings : τ.warnings = (readPieces none (TokenStream.ofTokens ts)).2 := hτ.warnings
  refine ⟨τ, hlength ▸ hrun, ?_, fun c hc => ?_, fun k hk => hlt k (hks ▸ hk), hτ.position, hτ.depth⟩
  · rw [hwarnings]
    rfl
  · have hbounds : c.cursor.InBounds ts := hin c (hcs ▸ hc)
    refine ⟨hbounds.depth, fun σ hσ => ?_⟩
    obtain ⟨υ, hcall, hυ⟩ := Run.performs_call hbounds.depth c.routine σ _ (hσ ▸ hbounds) (by rw [hσ]) (by rw [hσ])
    have hlevels : 4 * (c.cursor.stream ts).length + c.routine.levels ≤ 4 * ts.length + 7 := by
      rw [Cursor.length_stream]
      have := c.routine.levels_le
      omega
    exact ⟨υ, hcall.mono hlevels, hυ.depth, hυ.le, hυ.stream⟩

/-- A group with a stray parenthesis behind it. -/
def strayBehindGroup : List Token :=
  [.opening, .connective .not, .term ['a'] false, .closing, .closing, .term ['b'] false]

theorem parse_disciplined_strayBehindGroup :
    ∃ τ, Run.ofTokens strayBehindGroup 31 = some ((parse strayBehindGroup).root?, τ) ∧
      ((⟨.primary, ⟨2, 1, 0⟩⟩ : Call) ∈ τ.calls ∧ (⟨0, 5⟩ : Turn) ∈ τ.turns) ∧
      (∃ υ, (Run.call strayBehindGroup .primary 31).run (.at ⟨2, 1, 0⟩) = some (some (.leaf (.word ['a'])), υ) ∧
        υ.depth = 1 ∧ 2 ≤ υ.position) ∧
      0 < 5 ∧ τ.position = 6 := by
  obtain ⟨τ, hrun, -, hcalls, hturns, hposition, -⟩ := parse_disciplined strayBehindGroup
  have hrecords : (Run.ofTokens strayBehindGroup 31).map (fun r =>
      (decide ((⟨.primary, ⟨2, 1, 0⟩⟩ : Call) ∈ r.2.calls), decide ((⟨0, 5⟩ : Turn) ∈ r.2.turns))) =
      some (true, true) := by decide
  rw [hrun 31 (Nat.le_refl _), Option.map_some, Option.some.injEq, Prod.mk.injEq, decide_eq_true_iff,
    decide_eq_true_iff] at hrecords
  obtain ⟨hcall, hturn⟩ := hrecords
  have hvalue : (Call.outcome strayBehindGroup ⟨.primary, ⟨2, 1, 0⟩⟩).expr? = some (.leaf (.word ['a'])) := by decide +kernel
  obtain ⟨-, hreturns⟩ := hcalls _ hcall
  obtain ⟨υ, hυ, hdepth, hle, -⟩ := hreturns (.at ⟨2, 1, 0⟩) rfl
  exact ⟨τ, hrun 31 (Nat.le_refl _), ⟨hcall, hturn⟩, ⟨υ, hvalue ▸ hυ 31 (Nat.le_refl _), hdepth, hle⟩, hturns _ hturn,
    hposition⟩

end KeywordRules
