import KeywordRules.Query.Token
import KeywordRules.Query.Warning

/-!
# Token streams

The parser reads tokens with their positions.  Groups beyond the nesting limit lose their parentheses: a dropped
opening parenthesis waits for the next closing one, which is dropped with it.  Outside groups every other closing
parenthesis is a stray and is left out with a warning.  No step on a stream makes it longer.
-/

namespace KeywordRules

/-- How deep groups nest as written. -/
def maxNesting : Nat := 128

/-- The tokens still to be read, and how many dropped opening parentheses wait for their closing ones. -/
structure TokenStream where
  tokens : List (Token × Nat)
  dropped : Nat
deriving DecidableEq, Repr

namespace TokenStream

def ofTokens (ts : List Token) : TokenStream := ⟨ts.zipIdx, 0⟩

def length (s : TokenStream) : Nat := s.tokens.length

/-- What is left of the tokens without the closing parentheses at their head that end no group, while `d` dropped
opening parentheses wait. -/
def settleFrom (inGroup : Bool) : List (Token × Nat) → Nat → TokenStream
  | (.closing, _) :: ts, d + 1 => settleFrom inGroup ts d
  | (.closing, p) :: ts, 0 => if inGroup then ⟨(.closing, p) :: ts, 0⟩ else settleFrom inGroup ts 0
  | ts, d => ⟨ts, d⟩

/-- The warnings about those that `settleFrom` leaves out and no dropped opening parenthesis waits for. -/
def straysFrom (inGroup : Bool) : List (Token × Nat) → Nat → List Warning
  | (.closing, _) :: ts, d + 1 => straysFrom inGroup ts d
  | (.closing, p) :: ts, 0 => if inGroup then [] else .unmatchedClose p :: straysFrom inGroup ts 0
  | _, _ => []

/-- The stream without the closing parentheses at its head that end no group: those that a dropped opening
parenthesis waits for and, outside groups, all others. -/
def settle (inGroup : Bool) (s : TokenStream) : TokenStream := settleFrom inGroup s.tokens s.dropped

/-- The warnings about the closing parentheses that `settle` leaves out. -/
def strays (inGroup : Bool) (s : TokenStream) : List Warning := straysFrom inGroup s.tokens s.dropped

/-- What is left of the tokens without the parentheses at their head that are beyond the nesting limit, while `d` dropped
opening parentheses wait. -/
def flattenFrom : List (Token × Nat) → Nat → TokenStream
  | (.opening, _) :: ts, d => flattenFrom ts (d + 1)
  | (.closing, _) :: ts, d + 1 => flattenFrom ts d
  | ts, d => ⟨ts, d⟩

/-- The warnings about the opening parentheses that `flattenFrom` leaves out while none waits. -/
def tooDeepFrom : List (Token × Nat) → Nat → List Warning
  | (.opening, p) :: ts, 0 => .nestingTooDeep p maxNesting :: tooDeepFrom ts 1
  | (.opening, _) :: ts, d + 1 => tooDeepFrom ts (d + 2)
  | (.closing, _) :: ts, d + 1 => tooDeepFrom ts d
  | _, _ => []

/-- The stream without the parentheses at its head that open groups beyond the nesting limit or close them. -/
def flatten (s : TokenStream) : TokenStream := flattenFrom s.tokens s.dropped

/-- The warnings about the opening parentheses that `flatten` leaves out: one for each that finds none waiting. -/
def tooDeep (s : TokenStream) : List Warning := tooDeepFrom s.tokens s.dropped

theorem length_settleFrom (inGroup : Bool) (ts : List (Token × Nat)) (d : Nat) :
    (settleFrom inGroup ts d).length ≤ ts.length := by
  fun_induction settleFrom inGroup ts d with
  | case1 p ts d ih => simp only [List.length_cons]; omega
  | case2 p ts h => exact Nat.le_refl _
  | case3 p ts h ih => simp only [List.length_cons]; omega
  | case4 ts d => exact Nat.le_refl _

theorem length_settle (inGroup : Bool) (s : TokenStream) : (s.settle inGroup).length ≤ s.length :=
  length_settleFrom inGroup s.tokens s.dropped

theorem length_flattenFrom (ts : List (Token × Nat)) (d : Nat) :
    (flattenFrom ts d).length ≤ ts.length := by
  fun_induction flattenFrom ts d with
  | case1 p ts d ih => simp only [List.length_cons]; omega
  | case2 p ts d ih => simp only [List.length_cons]; omega
  | case3 ts d => exact Nat.le_refl _

theorem length_flatten (s : TokenStream) : s.flatten.length ≤ s.length :=
  length_flattenFrom s.tokens s.dropped

/-- What follows the first token of a settled stream is shorter than the stream was. -/
theorem length_lt_of_settle {inGroup : Bool} {s : TokenStream} {t : Token × Nat} {ts : List (Token × Nat)}
    (h : (s.settle inGroup).tokens = t :: ts) : ts.length < s.length := by
  have := length_settle inGroup s
  rw [length, h, List.length_cons] at this
  omega

end TokenStream

end KeywordRules
