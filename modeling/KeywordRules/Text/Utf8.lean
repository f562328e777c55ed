import KeywordRules.Text.CharClass

/-!
# Bytes read as text

Files hold UTF-8.  Where the bytes are not well formed, every longest start of a character that does not go on as one
becomes the replacement character, and so does every byte that starts none.
-/

namespace KeywordRules

abbrev Bytes := List UInt8

/-- How a character goes on after its first byte: the bits that byte gives, how many bytes follow, and the range of
the next one. -/
structure Lead where
  bits : Nat
  more : Nat
  low : Nat
  high : Nat
deriving DecidableEq, Repr

/-- What the first byte of a character says about the rest of it. -/
def Lead.ofByte? (b : UInt8) : Option Lead :=
  let n := b.toNat
  if n < 0x80 then some ⟨n, 0, 0, 0⟩
  else if n < 0xC2 then none
  else if n < 0xE0 then some ⟨n % 32, 1, 0x80, 0xBF⟩
  else if n < 0xF0 then
    some ⟨n % 16, 2, if n = 0xE0 then 0xA0 else 0x80, if n = 0xED then 0x9F else 0xBF⟩
  else if n < 0xF5 then
    some ⟨n % 8, 3, if n = 0xF0 then 0x90 else 0x80, if n = 0xF4 then 0x8F else 0xBF⟩
  else none

/-- The code point that `more` further bytes complete, if they do, and the bytes that are left.  The first of them lies
between `low` and `high`. -/
def continued (bits low high : Nat) : (more : Nat) → Bytes → Option Nat × Bytes
  | 0, bs => (some bits, bs)
  | _ + 1, [] => (none, [])
  | more + 1, b :: bs =>
    if low ≤ b.toNat ∧ b.toNat ≤ high then continued (bits * 64 + b.toNat % 64) 0x80 0xBF more bs
    else (none, b :: bs)

theorem length_continued (bits low high more : Nat) (bs : Bytes) :
    (continued bits low high more bs).2.length ≤ bs.length := by
  fun_induction continued bits low high more bs with
  | case1 => exact Nat.le_refl _
  | case2 => exact Nat.le_refl _
  | case3 bits low high more b bs h ih => simp only [List.length_cons]; omega
  | case4 => exact Nat.le_refl _

/-- The text that bytes hold. -/
def decodeLossy : Bytes → Text
  | [] => []
  | b :: bs =>
    match Lead.ofByte? b with
    | none => '\ufffd' :: decodeLossy bs
    | some lead =>
      let r := continued lead.bits lead.low lead.high lead.more bs
      (match r.1 with
        | some n => Char.ofNat n
        | none => '\ufffd') :: decodeLossy r.2
termination_by bs => bs.length
decreasing_by
  · simp
  · have := length_continued lead.bits lead.low lead.high lead.more bs
    simp only [List.length_cons]; omega

end KeywordRules
