import KeywordRules.Text.CharClass

/-!
# Numbers in texts

Counts are written in decimal.  A limit is read from an optional `+` and ASCII digits, and has to fit 64 bits.

A binary64 number is written with the fewest digits that read back as the same number, and among those as near to it
as they allow.  Numbers whose decimal point falls from four zeros before the first digit to sixteen places after it
are written positionally, with at least one place after the point; all others with an exponent, which has its sign.
-/

namespace KeywordRules

/-! ### Whole numbers -/

/-- The decimal digits of `n`. -/
def decimal (n : Nat) : Text := Nat.toDigits 10 n

/-- The number that a text of ASCII digits spells, reading on from `n`. -/
def digitsValue (n : Nat) (t : Text) : Nat := t.foldl (fun v c => v * 10 + (c.toNat - 48)) n

/-- The greatest number of 64 bits. -/
def maxWord : Nat := 18446744073709551615

/-- Reads a number of at most 64 bits: an optional `+`, then one or more ASCII digits. -/
def parseWord? (t : Text) : Option Nat :=
  let digits := match t with
    | '+' :: r => r
    | t => t
  if digits ≠ [] ∧ digits.all Char.isDigit ∧ digitsValue 0 digits ≤ maxWord then some (digitsValue 0 digits)
  else none

/-! ### Shortest decimals -/

/-- A decimal number `digits · 10 ^ exponent`. -/
structure DecimalFloat where
  digits : Nat
  exponent : Int
deriving DecidableEq, Repr

/-- The numbers `low / den`, `mid / den` and `high / den`: a binary number between the ends of the interval that reads
back as it.  `closed` says whether the ends do too. -/
structure Rounding where
  low : Nat
  mid : Nat
  high : Nat
  den : Nat
  closed : Bool
deriving DecidableEq, Repr

/-- The interval that reads back as the positive binary64 number with the bits `bits`, sign aside. -/
def Rounding.ofBits (bits : Nat) : Rounding :=
  let e : Nat := bits / Nat.pow 2 52 % Nat.pow 2 11
  let frac : Nat := bits % Nat.pow 2 52
  let m : Nat := if e = 0 then frac else frac + Nat.pow 2 52
  let q : Int := if e = 0 then -1076 else (e : Int) - 1077
  let below := if frac = 0 ∧ 1 < e then 1 else 2
  let scale := Nat.pow 2 q.toNat
  ⟨(4 * m - below) * scale, 4 * m * scale, (4 * m + 2) * scale, Nat.pow 2 (-q).toNat, m % 2 = 0⟩

/-- Whether `d · 10 ^ e` reads back. -/
def Rounding.holds (r : Rounding) (d : Nat) (e : Int) : Bool :=
  let value := d * Nat.pow 10 e.toNat * r.den
  let unit := Nat.pow 10 (-e).toNat
  if r.closed then r.low * unit ≤ value && value ≤ r.high * unit else r.low * unit < value && value < r.high * unit

/-- The decimal exponent of the first digit. -/
def Rounding.magnitude (r : Rounding) : Int :=
  if r.den ≤ r.mid then ((Nat.toDigits 10 (r.mid / r.den)).length : Int) - 1
  else -((((List.range 400).find? fun j => r.den ≤ r.mid * Nat.pow 10 j).getD 400 : Nat) : Int)

/-- The nearer of the two decimals of `n` digits around the number that read back, if one does.  Of two equally near
ones it is the even one. -/
def Rounding.nearest? (r : Rounding) (n : Nat) : Option DecimalFloat :=
  let e : Int := r.magnitude - n + 1
  let num := r.mid * Nat.pow 10 (-e).toNat
  let den := r.den * Nat.pow 10 e.toNat
  let d := num / den
  let twice := 2 * (num % den)
  let above : DecimalFloat := if d + 1 = Nat.pow 10 n then ⟨1, e + n⟩ else ⟨d + 1, e⟩
  match r.holds d e, r.holds (d + 1) e with
  | true, true => if twice < den ∨ (twice = den ∧ d % 2 = 0) then some ⟨d, e⟩ else some above
  | true, false => some ⟨d, e⟩
  | false, true => some above
  | false, false => none

/-- The shortest decimal that reads back. -/
def Rounding.shortest (r : Rounding) : DecimalFloat :=
  ((List.range 17).findSome? fun n => r.nearest? (n + 1)).getD ⟨0, 0⟩

/-- A decimal number in digits, with its point or exponent. -/
def DecimalFloat.text (x : DecimalFloat) : Text :=
  let digits := decimal x.digits
  let point : Int := digits.length + x.exponent
  let zeros (n : Int) : Text := List.replicate n.toNat '0'
  if 0 ≤ x.exponent ∧ point ≤ 16 then digits ++ zeros x.exponent ++ ['.', '0']
  else if 0 < point ∧ point ≤ 16 then digits.take point.toNat ++ '.' :: digits.drop point.toNat
  else if -5 < point ∧ point ≤ 0 then '0' :: '.' :: (zeros (-point) ++ digits)
  else
    let e := point - 1
    let exponent := 'e' :: ((if e < 0 then '-' else '+') :: decimal e.natAbs)
    match digits with
    | d :: rest => d :: ((if rest.isEmpty then [] else '.' :: rest) ++ exponent)
    | [] => exponent

/-- A finite binary64 number in the fewest digits. -/
def shortestText (x : Float) : Text :=
  let bits := x.toBits.toNat
  let sign : Text := if bits / Nat.pow 2 63 = 1 then ['-'] else []
  let magnitude := bits % Nat.pow 2 63
  if magnitude = 0 then sign ++ ['0', '.', '0'] else sign ++ (Rounding.ofBits magnitude).shortest.text

end KeywordRules
