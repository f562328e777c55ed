import KeywordRules.Json.Error

/-!
# Numbers in JSON texts

A number without point or exponent is an integer if it fits 64 bits; every other number is binary64.  Digits are kept
as long as the significand fits 64 bits; the digits after those only count towards the exponent or, behind the point,
for nothing.  The significand is then scaled by powers of ten that are themselves rounded.
-/

namespace KeywordRules.Json

/-- The value of an ASCII digit. -/
def digitValue (c : Char) : Nat := c.toNat - 48

/-- Reads digits while the significand fits 64 bits: the significand, how many digits were read, and what follows. -/
def takeDigits (significand taken : Nat) : Text → Nat × Nat × Text
  | [] => (significand, taken, [])
  | c :: t =>
    if c.isDigit ∧ significand * 10 + digitValue c ≤ maxWord then
      takeDigits (significand * 10 + digitValue c) (taken + 1) t
    else (significand, taken, c :: t)

/-- The head of a text, if it is an ASCII digit. -/
def leadingDigit? : Text → Option Nat
  | c :: _ => if c.isDigit then some (digitValue c) else none
  | [] => none

def pow10 (n : Nat) : Float := Float.ofScientific 1 false n

/-- Scales `x` by the power of ten `exponent`, no more than 308 powers at a time. -/
def scale (x : Float) (exponent : Int) : Except Error Float :=
  if exponent.natAbs ≤ 308 then
    if 0 ≤ exponent then
      let y := x * pow10 exponent.natAbs
      if y.isInf then .error .numberOutOfRange else .ok y
    else .ok (x / pow10 exponent.natAbs)
  else if x == 0 then .ok x
  else if 0 ≤ exponent then .error .numberOutOfRange
  else scale (x / pow10 308) (exponent + 308)
termination_by exponent.natAbs
decreasing_by omega

/-- The number `± significand · 10 ^ exponent`. -/
def floatFound (negative : Bool) (significand : Nat) (exponent : Int) : Except Error Found := do
  let x ← scale (UInt64.ofNat significand).toFloat exponent
  return .float (if negative then -x else x)

/-- The greatest exponent that is read digit by digit. -/
def maxExponent : Nat := 2147483647

/-- The number whose exponent, of the given sign, has the digits of a text to follow those read into `e`. -/
def exponentDigits (negative : Bool) (significand : Nat) (start : Int) (down : Bool) (e : Nat) :
    Text → Except Error Found
  | [] => floatFound negative significand (if down then start - e else start + e)
  | c :: t =>
    if c.isDigit then
      if e * 10 + digitValue c ≤ maxExponent then
        exponentDigits negative significand start down (e * 10 + digitValue c) t
      else if significand ≠ 0 ∧ !down then .error .numberOutOfRange
      else .ok (.float (if negative then -0.0 else 0.0))
    else floatFound negative significand (if down then start - e else start + e)

/-- The number with the exponent that a text begins with, behind the `e`. -/
def withExponent (negative : Bool) (significand : Nat) (start : Int) (t : Text) : Except Error Found :=
  let (down, digits) := match t with
    | '+' :: r => (false, r)
    | '-' :: r => (true, r)
    | r => (false, r)
  match digits with
  | [] => .error (.eof .value)
  | c :: r =>
    if c.isDigit then exponentDigits negative significand start down (digitValue c) r else .error .invalidNumber

/-- The number with the exponent at the head of a text, if there is one. -/
def floatBefore (negative : Bool) (significand : Nat) (exponent : Int) (t : Text) : Except Error Found :=
  match t with
  | 'e' :: r => withExponent negative significand exponent r
  | 'E' :: r => withExponent negative significand exponent r
  | _ => floatFound negative significand exponent

/-- The number with the places that a text begins with, behind the point. -/
def withPlaces (negative : Bool) (significand : Nat) (exponent : Int) (t : Text) : Except Error Found :=
  let (s, taken, r) := takeDigits significand 0 t
  if taken = 0 ∧ (leadingDigit? r).isNone then .error (if r.isEmpty then .eof .value else .invalidNumber)
  else floatBefore negative s (exponent - taken) (r.dropWhile Char.isDigit)

/-- The number with the integer part `significand`, all of whose digits were kept. -/
def afterInteger (negative : Bool) (significand : Nat) (t : Text) : Except Error Found :=
  match t with
  | '.' :: r => withPlaces negative significand 0 r
  | 'e' :: r => withExponent negative significand 0 r
  | 'E' :: r => withExponent negative significand 0 r
  | _ =>
    if !negative then .ok (.integer significand)
    else if significand = 0 ∨ Nat.pow 2 63 < significand then floatFound true significand 0
    else .ok (.integer (-significand))

/-- The number with the integer part `significand` and `dropped` more digits. -/
def afterLongInteger (negative : Bool) (significand dropped : Nat) (t : Text) : Except Error Found :=
  match t with
  | '.' :: r => withPlaces negative significand dropped r
  | t => floatBefore negative significand dropped t

/-- The number at the head of a text, behind its sign. -/
def unsignedFound (negative : Bool) (t : Text) : Except Error Found :=
  match t with
  | [] => .error (.eof .value)
  | c :: r =>
    if !c.isDigit then .error .invalidNumber
    else if c = '0' then
      if (leadingDigit? r).isSome then .error .invalidNumber else afterInteger negative 0 r
    else
      let (s, _, r') := takeDigits (digitValue c) 0 r
      if (leadingDigit? r').isSome then
        afterLongInteger negative s (r'.takeWhile Char.isDigit).length (r'.dropWhile Char.isDigit)
      else afterInteger negative s r'

/-- The number at the head of a text. -/
def numberFound (t : Text) : Except Error Found :=
  match t with
  | '-' :: r => unsignedFound true r
  | t => unsignedFound false t

end KeywordRules.Json
