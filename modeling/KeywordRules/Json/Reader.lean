import KeywordRules.Json.Number

/-!
# Reading JSON texts

A reader takes a value of a wanted type from the front of a text, or gives the first error on the way.  Strings,
lists and records are all a rule set needs; a value of another type is looked at just far enough to name it.  A
record is an object whose fields come in any order, each at most once and none unknown, or a list of its fields in
order.  An unknown or repeated field is an error as soon as its name is read, a missing one at the end of the object.

Every reader takes at least one character, so lists and objects come to an end.
-/

namespace KeywordRules.Json

/-- A value read from the front of `s`, and what follows it. -/
structure Read (α : Type) (s : Text) where
  value : α
  rest : Text
  lt : rest.length < s.length

abbrev Reader (α : Type) := (s : Text) → Except Error (Read α s)

/-- A value read from a text at the end of `s`. -/
def Read.within {α : Type} {s t : Text} (r : Read α t) (h : t.length ≤ s.length) : Read α s :=
  ⟨r.value, r.rest, Nat.lt_of_lt_of_le r.lt h⟩

/-! ### White space -/

def isSpace (c : Char) : Bool := c = ' ' || c = '\n' || c = '\t' || c = '\r'

def skipSpace (s : Text) : Text := s.dropWhile isSpace

theorem length_skipSpace (s : Text) : (skipSpace s).length ≤ s.length :=
  (List.dropWhile_suffix isSpace).length_le

theorem length_lt_of_skipSpace {s t : Text} {c : Char} (h : skipSpace s = c :: t) : t.length < s.length := by
  have := length_skipSpace s
  rw [h, List.length_cons] at this
  omega

/-! ### Strings -/

def hexValue? (c : Char) : Option Nat :=
  if c.isDigit then some (c.toNat - 48)
  else if 'a' ≤ c ∧ c ≤ 'f' then some (c.toNat - 87)
  else if 'A' ≤ c ∧ c ≤ 'F' then some (c.toNat - 55)
  else none

/-- A number of four hexadecimal digits. -/
def readHex : Reader Nat := fun s =>
  match s with
  | a :: b :: c :: d :: t =>
    match hexValue? a, hexValue? b, hexValue? c, hexValue? d with
    | some w, some x, some y, some z =>
      .ok ⟨((w * 16 + x) * 16 + y) * 16 + z, t, by simp only [List.length_cons]; omega⟩
    | _, _, _, _ => .error .invalidEscape
  | s => .error (if s.foldl (fun n c => n + c.utf8Size) 0 < 4 then .eof .string else .invalidEscape)

/-- The escape that has to follow a high surrogate, up to its digits. -/
def readEscapeMark : Reader Unit := fun s =>
  match s with
  | [] => .error (.eof .string)
  | '\\' :: [] => .error (.eof .string)
  | '\\' :: 'u' :: t => .ok ⟨(), t, by simp only [List.length_cons]; omega⟩
  | _ => .error .unexpectedEndOfHexEscape

/-- The character whose code, or pair of surrogates, begins after `\u`. -/
def readCode : Reader Char := fun s => do
  let high ← readHex s
  if 0xDC00 ≤ high.value ∧ high.value ≤ 0xDFFF then throw .loneSurrogate
  if high.value < 0xD800 ∨ 0xDBFF < high.value then return ⟨Char.ofNat high.value, high.rest, high.lt⟩
  let mark ← readEscapeMark high.rest
  let low ← readHex mark.rest
  if low.value < 0xDC00 ∨ 0xDFFF < low.value then throw .loneSurrogate
  return ⟨Char.ofNat ((high.value - 0xD800) * 0x400 + (low.value - 0xDC00) + 0x10000), low.rest,
    Nat.lt_trans low.lt (Nat.lt_trans mark.lt high.lt)⟩

/-- The character that the letter of an escape stands for. -/
def escapeLetter? (c : Char) : Option Char :=
  match c with
  | '"' => some '"'
  | '\\' => some '\\'
  | '/' => some '/'
  | 'b' => some '\x08'
  | 'f' => some '\x0c'
  | 'n' => some '\n'
  | 'r' => some '\r'
  | 't' => some '\t'
  | _ => none

/-- The character an escape stands for, behind its backslash. -/
def readEscape : Reader Char := fun s =>
  match s with
  | [] => .error (.eof .string)
  | c :: t =>
    if c = 'u' then (readCode t).map (·.within (by simp))
    else
      match escapeLetter? c with
      | some d => .ok ⟨d, t, by simp⟩
      | none => .error .invalidEscape

/-- The rest of a string and its closing quote. -/
def readChars (s : Text) : Except Error (Read Text s) :=
  match s with
  | [] => .error (.eof .string)
  | c :: t =>
    if c = '"' then .ok ⟨[], t, by simp⟩
    else if c = '\\' then do
      let escape ← readEscape t
      have lt : escape.rest.length < (c :: t).length := by have := escape.lt; simp only [List.length_cons]; omega
      let more ← readChars escape.rest
      return ⟨escape.value :: more.value, more.rest, Nat.lt_trans more.lt lt⟩
    else if c.toNat < 32 then .error .controlCharacter
    else do
      let more ← readChars t
      return ⟨c :: more.value, more.rest, by have := more.lt; simp only [List.length_cons]; omega⟩
termination_by s.length
decreasing_by
  · exact lt
  · simp

/-! ### Values of another type -/

/-- What stands at the head of a text that spells `word` on, if it does. -/
def literal (found : Found) : (word : Text) → (t : Text) → Except Error Found
  | [], _ => .ok found
  | _ :: _, [] => .error (.eof .value)
  | w :: ws, c :: t => if w = c then literal found ws t else .error .expectedIdent

/-- The value at the head of a text, as far as its type needs it. -/
def foundAt (s : Text) : Except Error Found :=
  match s with
  | [] => .error (.eof .value)
  | c :: t =>
    if c = 'n' then literal .null ['u', 'l', 'l'] t
    else if c = 't' then literal (.boolean true) ['r', 'u', 'e'] t
    else if c = 'f' then literal (.boolean false) ['a', 'l', 's', 'e'] t
    else if c = '-' ∨ c.isDigit then numberFound (c :: t)
    else if c = '"' then (readChars t).map fun r => .string r.value
    else if c = '[' then .ok .sequence
    else if c = '\x7b' then .ok .map
    else .error .expectedValue

/-- The error about the value at the head of a text when `wanted` was wanted there. -/
def typeError (wanted s : Text) : Error :=
  match foundAt s with
  | .ok found => .invalidType found wanted
  | .error e => e

/-! ### Strings and lists -/

/-- A string. -/
def readString : Reader Text := fun s =>
  match h : skipSpace s with
  | [] => .error (.eof .value)
  | c :: t =>
    if c = '"' then (readChars t).map (·.within (Nat.le_of_lt (length_lt_of_skipSpace h)))
    else .error (typeError "a string".toList (c :: t))

/-- Where the next element of a list begins, or `none` before the closing bracket.  `first` says whether no element
came before. -/
def nextElement (first : Bool) (s : Text) : Except Error (Option { t : Text // t.length ≤ s.length }) :=
  match h : skipSpace s with
  | [] => .error (.eof .list)
  | c :: t =>
    if c = ']' then .ok none
    else if first then .ok (some ⟨c :: t, h ▸ length_skipSpace s⟩)
    else if c = ',' then
      match h' : skipSpace t with
      | [] => .error (.eof .value)
      | d :: u =>
        if d = ']' then .error .trailingComma
        else .ok (some ⟨d :: u, by
          have h1 := length_skipSpace t
          have h2 := length_lt_of_skipSpace h
          rw [h'] at h1; omega⟩)
    else .error .expectedCommaOrBracket

/-- The closing bracket of a list. -/
def endList : Reader Unit := fun s =>
  match h : skipSpace s with
  | [] => .error (.eof .list)
  | c :: t =>
    if c = ']' then .ok ⟨(), t, length_lt_of_skipSpace h⟩
    else if c = ',' then
      match skipSpace t with
      | ']' :: _ => .error .trailingComma
      | _ => .error .trailingCharacters
    else .error .trailingCharacters

/-- The elements of a list, or those left after the first, with the closing bracket. -/
def readElements {α : Type} (element : Reader α) (first : Bool) (s : Text) : Except Error (Read (List α) s) := do
  match ← nextElement first s with
  | none =>
    let close ← endList s
    return ⟨[], close.rest, close.lt⟩
  | some t =>
    let head ← element t.1
    have lt : head.rest.length < s.length := Nat.lt_of_lt_of_le head.lt t.2
    let tail ← readElements element false head.rest
    return ⟨head.value :: tail.value, tail.rest, Nat.lt_trans tail.lt lt⟩
termination_by s.length

/-- A list. -/
def readList {α : Type} (element : Reader α) : Reader (List α) := fun s =>
  match h : skipSpace s with
  | [] => .error (.eof .value)
  | c :: t =>
    if c = '[' then (readElements element true t).map (·.within (Nat.le_of_lt (length_lt_of_skipSpace h)))
    else .error (typeError "a sequence".toList (c :: t))

/-! ### Records -/

/-- A field of a record: how it is named, whether a record read so far has it, and how to add it. -/
structure Field (δ : Type) where
  name : Text
  optional : Bool
  isSet : δ → Bool
  read : δ → Reader δ

/-- Reads a field's value and adds it to the fields read so far. -/
def readInto {α δ : Type} (reader : Reader α) (add : α → δ) : Reader δ := fun s =>
  (reader s).map fun r => ⟨add r.value, r.rest, r.lt⟩

/-- A type of records: `δ` holds the fields read so far, and `build` makes a record once none is missing. -/
structure Shape (δ α : Type) where
  /-- The type as errors name it. -/
  title : Text
  fields : List (Field δ)
  empty : δ
  build : δ → α

namespace Shape

variable {δ α : Type}

/-- The type of a record and how many fields it has. -/
def titleWithLength (shape : Shape δ α) : Text :=
  let n := shape.fields.length
  shape.title ++ " with ".toList ++ decimal n ++ (if n = 1 then " element".toList else " elements".toList)

/-- The record, unless a field is missing. -/
def finish (shape : Shape δ α) (d : δ) : Except Error α :=
  match shape.fields.find? fun f => !f.optional && !f.isSet d with
  | some f => .error (.missingField f.name)
  | none => .ok (shape.build d)

/-- The fields of a record written as a list, from the one at `index` on. -/
def readListed (shape : Shape δ α) : (fields : List (Field δ)) → (index : Nat) → (d : δ) → (s : Text) →
    Except Error { r : δ × Text // r.2.length ≤ s.length }
  | [], _, d, s => .ok ⟨(d, s), Nat.le_refl _⟩
  | f :: fields, index, d, s => do
    match ← nextElement (index = 0) s with
    | none =>
      if f.optional then readListed shape fields (index + 1) d s
      else throw (.invalidLength index shape.titleWithLength)
    | some t =>
      let head ← f.read d t.1
      let tail ← readListed shape fields (index + 1) head.value head.rest
      return ⟨tail.1, Nat.le_trans tail.2 (Nat.le_of_lt (Nat.lt_of_lt_of_le head.lt t.2))⟩

end Shape

/-- Where the name of the next field of an object begins, behind its quote, or `none` before the closing brace. -/
def nextKey (first : Bool) (s : Text) : Except Error (Option { t : Text // t.length < s.length }) :=
  match h : skipSpace s with
  | [] => .error (.eof .object)
  | c :: t =>
    if c = '\x7d' then .ok none
    else if first then
      if c = '"' then .ok (some ⟨t, length_lt_of_skipSpace h⟩) else .error .keyMustBeString
    else if c = ',' then
      match h' : skipSpace t with
      | [] => .error (.eof .value)
      | d :: u =>
        if d = '"' then .ok (some ⟨u, Nat.lt_trans (length_lt_of_skipSpace h') (length_lt_of_skipSpace h)⟩)
        else if d = '\x7d' then .error .trailingComma
        else .error .keyMustBeString
    else .error .expectedCommaOrBrace

/-- The colon behind the name of a field. -/
def readColon : Reader Unit := fun s =>
  match h : skipSpace s with
  | [] => .error (.eof .object)
  | c :: t => if c = ':' then .ok ⟨(), t, length_lt_of_skipSpace h⟩ else .error .expectedColon

/-- The closing brace of an object. -/
def endObject : Reader Unit := fun s =>
  match h : skipSpace s with
  | [] => .error (.eof .object)
  | c :: t =>
    if c = '\x7d' then .ok ⟨(), t, length_lt_of_skipSpace h⟩
    else if c = ',' then .error .trailingComma
    else .error .trailingCharacters

namespace Shape

variable {δ α : Type}

/-- The fields of a record written as an object, added to `d`, up to the closing brace. -/
def readNamed (shape : Shape δ α) (first : Bool) (d : δ) (s : Text) :
    Except Error { r : δ × Text // r.2.length ≤ s.length } := do
  match ← nextKey first s with
  | none => return ⟨(d, s), Nat.le_refl _⟩
  | some t =>
    let key ← readChars t.1
    match shape.fields.find? (·.name = key.value) with
    | none => throw (.unknownField key.value (shape.fields.map Field.name))
    | some f =>
      if f.isSet d then throw (.duplicateField f.name)
      let colon ← readColon key.rest
      let value ← f.read d colon.rest
      have lt : value.rest.length < s.length :=
        Nat.lt_trans value.lt (Nat.lt_trans colon.lt (Nat.lt_trans key.lt t.2))
      let more ← readNamed shape false value.value value.rest
      return ⟨more.1, Nat.le_trans more.2 (Nat.le_of_lt lt)⟩
termination_by s.length

/-- A record. -/
def read (shape : Shape δ α) : Reader α := fun s =>
  match h : skipSpace s with
  | [] => .error (.eof .value)
  | c :: t =>
    if c = '[' then do
      let listed ← shape.readListed shape.fields 0 shape.empty t
      let record ← shape.finish listed.1.1
      let close ← endList listed.1.2
      return ⟨record, close.rest,
        Nat.lt_trans (Nat.lt_of_lt_of_le close.lt listed.2) (length_lt_of_skipSpace h)⟩
    else if c = '\x7b' then do
      let named ← shape.readNamed true shape.empty t
      let record ← shape.finish named.1.1
      let close ← endObject named.1.2
      return ⟨record, close.rest,
        Nat.lt_trans (Nat.lt_of_lt_of_le close.lt named.2) (length_lt_of_skipSpace h)⟩
    else .error (typeError shape.title (c :: t))

end Shape

/-- Reads a whole text: a value with nothing but white space around it. -/
def readAll {α : Type} (reader : Reader α) (s : Text) : Except Error α := do
  let r ← reader s
  match skipSpace r.rest with
  | [] => return r.value
  | _ => throw .trailingCharacters

end KeywordRules.Json
