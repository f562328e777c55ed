import KeywordRules.Json.Writer
import KeywordRules.Proofs.Json.Reading
import KeywordRules.Proofs.Text.Words
import Mathlib.Data.List.Forall2

/-!
# Layouts of JSON values

A value may be written in many ways: white space stands around every token, and each character of a string stands for
itself, behind a backslash, or as its code.  `Writes v t` is the grammar of JSON texts with the value as an index, apart
from any reader.  `ValueAt v s rest` says that `v` stands at the front of `s`.  What a reader meets inside is told by
`ItemsAt` and `EntriesAt`, which leave the layout behind: `ValueAt.string`, `ValueAt.list`, `ValueAt.object`.
-/

namespace KeywordRules.Json

/-! ### The grammar -/

/-- What a JSON text says, apart from its layout.  Numbers are kept as they are written. -/
inductive Value where
  | null
  | boolean (b : Bool)
  | number (t : Text)
  | string (t : Text)
  | list (items : List Value)
  | object (entries : List (Text × Value))

/-- White space between tokens. -/
def Spaces (w : Text) : Prop := ∀ c ∈ w, c ∈ [' ', '\t', '\r', '\n']

instance (w : Text) : Decidable (Spaces w) := List.decidableBAll _ w

/-- The letters that stand for characters behind a backslash, with those characters. -/
def escapeLetters : List (Char × Char) :=
  [('"', '"'), ('\\', '\\'), ('/', '/'), ('b', '\x08'), ('f', '\x0c'), ('n', '\n'), ('r', '\r'), ('t', '\t')]

/-- `c` is the hexadecimal digit of `n`, in lower or in upper case. -/
def IsHexDigit (n : Nat) (c : Char) : Prop := n < 16 ∧ (c = Nat.digitChar n ∨ c = (Nat.digitChar n).toUpper)

/-- The code `n` in four hexadecimal digits. -/
inductive SpellsCode : Nat → Text → Prop where
  | digits {w x y z : Nat} {a b c d : Char} : IsHexDigit w a → IsHexDigit x b → IsHexDigit y c → IsHexDigit z d →
    SpellsCode (((w * 16 + x) * 16 + y) * 16 + z) [a, b, c, d]

/-- How a character may stand in a string. -/
inductive SpellsChar : Char → Text → Prop where
  | plain {c : Char} : c ≠ '"' → c ≠ '\\' → 32 ≤ c.toNat → SpellsChar c [c]
  | letter {l c : Char} : (l, c) ∈ escapeLetters → SpellsChar c ['\\', l]
  | code {c : Char} {t : Text} : SpellsCode c.toNat t → SpellsChar c ('\\' :: 'u' :: t)
  /-- A character beyond the first plane in two halves. -/
  | pair {c : Char} {high low : Text} : 0x10000 ≤ c.toNat → SpellsCode (0xD800 + (c.toNat - 0x10000) / 0x400) high →
    SpellsCode (0xDC00 + (c.toNat - 0x10000) % 0x400) low →
    SpellsChar c ('\\' :: 'u' :: (high ++ '\\' :: 'u' :: low))

/-- How a text may stand between the quotes of a string. -/
inductive Spells : Text → Text → Prop where
  | nil : Spells [] []
  | cons {c : Char} {t s u : Text} : SpellsChar c s → Spells t u → Spells (c :: t) (s ++ u)

/-- One digit or more. -/
def IsDigits (t : Text) : Prop := t ≠ [] ∧ ∀ c ∈ t, c.isDigit = true

/-- A number: sign, digits without a leading zero, places and exponent. -/
inductive IsNumber : Text → Prop where
  | parts {sign digits places exponent : Text} : sign ∈ [[], ['-']] → IsDigits digits →
    (digits.head? = some '0' → digits = ['0']) →
    (places = [] ∨ ∃ ds, places = '.' :: ds ∧ IsDigits ds) →
    (exponent = [] ∨ ∃ e s ds, exponent = e :: (s ++ ds) ∧ e ∈ ['e', 'E'] ∧ s ∈ [[], ['+'], ['-']] ∧ IsDigits ds) →
    IsNumber (sign ++ (digits ++ (places ++ exponent)))

section Sequences

variable {α : Type} (writes : α → Text → Prop)

/-- What follows the first items of a sequence: further items, each behind a comma, and the bracket that closes it. -/
inductive Listed (close : Char) : List α → Text → Prop where
  | last {w : Text} : Spaces w → Listed close [] (w ++ [close])
  | next {w₁ w₂ s u : Text} {a : α} {as : List α} : Spaces w₁ → Spaces w₂ → writes a s → Listed close as u →
    Listed close (a :: as) (w₁ ++ ',' :: (w₂ ++ (s ++ u)))

/-- A sequence of items between brackets. -/
inductive Enclosed (opening close : Char) : List α → Text → Prop where
  | empty {w : Text} : Spaces w → Enclosed opening close [] (opening :: (w ++ [close]))
  | items {w s u : Text} {a : α} {as : List α} : Spaces w → writes a s → Listed writes close as u →
    Enclosed opening close (a :: as) (opening :: (w ++ (s ++ u)))

end Sequences

/-- A field of an object: its name, a colon and its value. -/
inductive WritesEntry (writes : Value → Text → Prop) : Text × Value → Text → Prop where
  | colon {name s w₁ w₂ t : Text} {v : Value} : Spells name s → Spaces w₁ → Spaces w₂ → writes v t →
    WritesEntry writes (name, v) ('"' :: (s ++ '"' :: (w₁ ++ ':' :: (w₂ ++ t))))

/-- The text `t` writes the value. -/
inductive Writes : Value → Text → Prop where
  | null : Writes .null ['n', 'u', 'l', 'l']
  | yes : Writes (.boolean true) ['t', 'r', 'u', 'e']
  | no : Writes (.boolean false) ['f', 'a', 'l', 's', 'e']
  | number {t : Text} : IsNumber t → Writes (.number t) t
  | string {t s : Text} : Spells t s → Writes (.string t) ('"' :: (s ++ ['"']))
  | list {items : List Value} {t : Text} : Enclosed Writes '[' ']' items t → Writes (.list items) t
  | object {entries : List (Text × Value)} {t : Text} :
    Enclosed (WritesEntry Writes) '\x7b' '\x7d' entries t → Writes (.object entries) t

/-- The whole text says the value, with nothing but white space around it. -/
def IsTextOf (v : Value) (t : Text) : Prop := ∃ w₁ s w₂, t = w₁ ++ (s ++ w₂) ∧ Spaces w₁ ∧ Writes v s ∧ Spaces w₂

/-! ### White space -/

theorem isSpace_iff {c : Char} : isSpace c = true ↔ c ∈ [' ', '\t', '\r', '\n'] := by
  simp only [isSpace, Bool.or_eq_true, decide_eq_true_eq, List.mem_cons, List.not_mem_nil, or_false]
  grind

theorem skipSpace_spaces {w : Text} (h : Spaces w) (t : Text) : skipSpace (w ++ t) = skipSpace t :=
  List.dropWhile_append_of_pos fun c hc => isSpace_iff.2 (h c hc)

theorem skipSpace_spaces_cons {w : Text} (h : Spaces w) {c : Char} (hc : isSpace c = false) (t : Text) :
    skipSpace (w ++ c :: t) = c :: t := by
  rw [skipSpace_spaces h, skipSpace_cons hc]

/-! ### Strings -/

private theorem hexValue?_lower : ∀ n < 16, hexValue? (Nat.digitChar n) = some n := by decide

private theorem hexValue?_upper : ∀ n < 16, hexValue? (Nat.digitChar n).toUpper = some n := by decide

theorem IsHexDigit.hexValue?_eq {n : Nat} {c : Char} (h : IsHexDigit n c) : hexValue? c = some n := by
  obtain ⟨hn, rfl | rfl⟩ := h
  · exact hexValue?_lower n hn
  · exact hexValue?_upper n hn

theorem SpellsCode.reads_hex {n : Nat} {t : Text} (h : SpellsCode n t) (rest : Text) :
    Reads readHex (t ++ rest) n rest := by
  obtain ⟨ha, hb, hc, hd⟩ := h
  exact Json.reads_hex ha.hexValue?_eq hb.hexValue?_eq hc.hexValue?_eq hd.hexValue?_eq rest

theorem escapeLetter?_of_mem : ∀ p ∈ escapeLetters, p.1 ≠ 'u' ∧ escapeLetter? p.1 = some p.2 := by decide

/-- A character has a code of its own, or a pair of surrogates does. -/
theorem SpellsChar.reads {c : Char} {s t v rest : Text} (h : SpellsChar c s) (hv : Reads readChars t v rest) :
    Reads readChars (s ++ t) (c :: v) rest := by
  cases h with
  | plain hquote hslash hcontrol => exact reads_chars_plain hquote hslash (Nat.not_lt.2 hcontrol) hv
  | letter hmem =>
    obtain ⟨hu, hletter⟩ := escapeLetter?_of_mem _ hmem
    exact reads_chars_escape (reads_escape_letter hu hletter t) hv
  | code hcode =>
    have hvalid : c.toNat < 0xD800 ∨ 0xDFFF < c.toNat := c.valid.imp id And.left
    have hread := reads_code (hcode.reads_hex t) hvalid
    rw [Char.ofNat_toNat] at hread
    exact reads_chars_escape (reads_escape_code hread) hv
  | @pair _ high low hbeyond hhigh hlow =>
    have hlt : c.toNat < 0x110000 := by
      rcases c.valid with h | h
      · exact Nat.lt_trans h (by decide)
      · exact h.2
    have hread := reads_code_pair (hhigh.reads_hex ('\\' :: 'u' :: (low ++ t))) (hlow.reads_hex t) (by omega) (by omega)
    have hsum : (0xD800 + (c.toNat - 0x10000) / 0x400 - 0xD800) * 0x400 +
        (0xDC00 + (c.toNat - 0x10000) % 0x400 - 0xDC00) + 0x10000 = c.toNat := by omega
    rw [hsum, Char.ofNat_toNat] at hread
    have hescape := reads_escape_code hread
    rw [List.cons_append, List.cons_append, List.append_assoc]
    exact reads_chars_escape hescape hv

theorem Spells.reads {t s : Text} (h : Spells t s) (rest : Text) : Reads readChars (s ++ '"' :: rest) t rest := by
  induction h with
  | nil => exact reads_chars_end rest
  | cons hc _ ih =>
    rw [List.append_assoc]
    exact hc.reads ih

/-! ### Texts as they are written -/

theorem spells_plain {t : Text} (h : t.all (fun c => c ≠ '"' ∧ c ≠ '\\' ∧ 32 ≤ c.toNat) = true) : Spells t t := by
  induction t with
  | nil => exact .nil
  | cons c t ih =>
    rw [List.all_cons, Bool.and_eq_true, decide_eq_true_eq] at h
    obtain ⟨⟨hquote, hslash, hcontrol⟩, ht⟩ := h
    exact .cons (.plain hquote hslash hcontrol) (ih ht)

theorem spellsChar_escapeChar (c : Char) : SpellsChar c (escapeChar c) := by
  unfold escapeChar
  split
  case h_8 _ hquote hslash _ _ _ _ _ =>
    by_cases hcontrol : c.toNat < 32
    · rw [if_pos hcontrol]
      have hcode : SpellsCode (((0 * 16 + 0) * 16 + c.toNat / 16) * 16 + c.toNat % 16)
          ['0', '0', Nat.digitChar (c.toNat / 16), Nat.digitChar (c.toNat % 16)] :=
        .digits ⟨by decide, .inl rfl⟩ ⟨by decide, .inl rfl⟩ ⟨by omega, .inl rfl⟩ ⟨by omega, .inl rfl⟩
      have hsum : ((0 * 16 + 0) * 16 + c.toNat / 16) * 16 + c.toNat % 16 = c.toNat := by omega
      rw [hsum] at hcode
      exact .code hcode
    · rw [if_neg hcontrol]
      exact .plain hquote hslash (Nat.not_lt.mp hcontrol)
  -- The others are escaped by a letter.
  all_goals exact .letter (by decide)

theorem spells_escaped (t : Text) : Spells t (t.flatMap escapeChar) := by
  induction t with
  | nil => exact .nil
  | cons c t ih => exact .cons (spellsChar_escapeChar c) ih

theorem writes_writeString (t : Text) : Writes (.string t) (writeString t) := .string (spells_escaped t)

section Sequences

variable {α β : Type} {writes : β → Text → Prop} {write : α → Text} {as : List α} {bs : List β}

theorem spaces_nil : Spaces [] := fun _ hc => absurd hc List.not_mem_nil

theorem listed_written (close : Char) (h : List.Forall₂ (fun a b => writes b (write a)) as bs) :
    Listed writes close bs (((as.map write).flatMap fun u => ',' :: u) ++ [close]) := by
  induction h with
  | nil => exact .last spaces_nil
  | cons ha _ ih =>
    rw [List.map_cons, List.flatMap_cons, List.append_assoc, List.cons_append]
    show Listed writes close _ ([] ++ ',' :: ([] ++ (write _ ++ _)))
    exact .next spaces_nil spaces_nil ha ih

theorem enclosed_written (opening close : Char) (h : List.Forall₂ (fun a b => writes b (write a)) as bs) :
    Enclosed writes opening close bs (opening :: ([','].intercalate (as.map write) ++ [close])) := by
  cases h with
  | nil => exact .empty spaces_nil
  | cons ha h =>
    rw [List.map_cons, intercalate_cons, List.append_assoc]
    show Enclosed writes opening close _ (opening :: ([] ++ (write _ ++ _)))
    exact .items spaces_nil ha (listed_written close h)

theorem writes_writeList {as : List α} {items : List Value}
    (h : List.Forall₂ (fun a v => Writes v (write a)) as items) : Writes (.list items) (writeList write as) :=
  .list (enclosed_written '[' ']' h)

theorem writes_writeObject {fields : List (Text × Text)} {entries : List (Text × Value)}
    (h : List.Forall₂ (fun f e => e.1 = f.1 ∧ Writes e.2 f.2) fields entries) :
    Writes (.object entries) (writeObject fields) := by
  refine .object (enclosed_written _ _ (h.imp ?_))
  rintro ⟨_, t⟩ ⟨name, v⟩ ⟨rfl, hv⟩
  have hfield : writeField (name, t) = '"' :: (name.flatMap escapeChar ++ '"' :: ([] ++ ':' :: ([] ++ t))) := by
    simp [writeField, writeString]
  rw [hfield]
  exact .colon (spells_escaped name) spaces_nil spaces_nil hv

end Sequences

theorem Writes.isTextOf {v : Value} {t : Text} (h : Writes v t) : IsTextOf v t :=
  ⟨[], t, [], (List.append_nil t).symm, spaces_nil, h, spaces_nil⟩

/-! ### What a reader meets -/

/-- Whether a value of this kind may begin with the character. -/
def Value.opens : Value → Char → Bool
  | .null, c => c = 'n'
  | .boolean b, c => c = if b then 't' else 'f'
  | .number _, c => c = '-' || c.isDigit
  | .string _, c => c = '"'
  | .list _, c => c = '['
  | .object _, c => c = '\x7b'

theorem IsNumber.opens {t : Text} (h : IsNumber t) (v : Text) :
    ∃ c s, t = c :: s ∧ (Value.number v).opens c = true := by
  obtain @⟨sign, digits, places, exponent, hsign, ⟨hne, hdigits⟩, -, -, -⟩ := h
  rw [List.mem_cons, List.mem_singleton] at hsign
  obtain rfl | rfl := hsign
  · obtain ⟨c, ds, rfl⟩ := List.exists_cons_of_ne_nil hne
    refine ⟨c, _, rfl, ?_⟩
    rw [Value.opens, hdigits c List.mem_cons_self, Bool.or_true]
  · exact ⟨'-', _, rfl, rfl⟩

theorem Writes.opens {v : Value} {t : Text} (h : Writes v t) : ∃ c s, t = c :: s ∧ v.opens c = true := by
  cases h with
  | number h => exact h.opens _
  | list h => cases h <;> exact ⟨_, _, rfl, rfl⟩
  | object h => cases h <;> exact ⟨_, _, rfl, rfl⟩
  | _ => exact ⟨_, _, rfl, rfl⟩

namespace Value

variable {v : Value} {c : Char}

theorem not_opens (v : Value) : ∀ c ∈ [' ', '\t', '\r', '\n', ']'], v.opens c = false := by
  have hall : [' ', '\t', '\r', '\n', ']'].all (fun c => !v.opens c) = true := by
    rcases v with _ | ⟨_ | _⟩ | _ | _ | _ | _ <;> rfl
  intro c hc
  exact (Bool.not_eq_true' _).mp (List.all_eq_true.mp hall c hc)

theorem isSpace_of_opens (h : v.opens c = true) : isSpace c = false := by
  rw [← Bool.not_eq_true, isSpace_iff]
  intro hc
  have hnot := v.not_opens c (List.mem_append_left [']'] hc)
  rw [h] at hnot
  cases hnot

theorem ne_of_opens (h : v.opens c = true) : c ≠ ']' := by
  rintro rfl
  have hnot := v.not_opens ']' (by simp)
  rw [h] at hnot
  cases hnot

theorem eq_string_of_opens (h : v.opens '"' = true) : ∃ t, v = .string t := by
  rcases v with _ | ⟨_ | _⟩ | _ | t | _ | _
  case string => exact ⟨t, rfl⟩
  all_goals cases h

theorem eq_list_of_opens (h : v.opens '[' = true) : ∃ items, v = .list items := by
  rcases v with _ | ⟨_ | _⟩ | _ | _ | items | _
  case list => exact ⟨items, rfl⟩
  all_goals cases h

theorem eq_object_of_opens (h : v.opens '\x7b' = true) : ∃ entries, v = .object entries := by
  rcases v with _ | ⟨_ | _⟩ | _ | _ | _ | entries
  case object => exact ⟨entries, rfl⟩
  all_goals cases h

end Value

/-- The value stands at the front of `s`, perhaps behind white space, and `rest` follows it. -/
def ValueAt (v : Value) (s rest : Text) : Prop := ∃ w t, Spaces w ∧ Writes v t ∧ s = w ++ (t ++ rest)

/-- The values stand at the front of `s` as the elements of a list, or as those left after the first, and `rest` follows
the bracket that closes it. -/
inductive ItemsAt : (first : Bool) → List Value → Text → Text → Prop where
  | nil {first : Bool} {s rest : Text} : skipSpace s = ']' :: rest → ItemsAt first [] s rest
  | cons {first : Bool} {v : Value} {items : List Value} {s s₁ s₂ rest : Text} : ElementAt first s s₁ →
    ValueAt v s₁ s₂ → ItemsAt false items s₂ rest → ItemsAt first (v :: items) s rest

/-- The same for the fields of an object. -/
inductive EntriesAt : (first : Bool) → List (Text × Value) → Text → Text → Prop where
  | nil {first : Bool} {s rest : Text} : skipSpace s = '\x7d' :: rest → EntriesAt first [] s rest
  | cons {first : Bool} {name : Text} {v : Value} {entries : List (Text × Value)} {s s₁ s₂ s₃ s₄ rest : Text} :
    KeyAt first s s₁ → Reads readChars s₁ name s₂ → skipSpace s₂ = ':' :: s₃ → ValueAt v s₃ s₄ →
    EntriesAt false entries s₄ rest → EntriesAt first ((name, v) :: entries) s rest

theorem Writes.valueAt {v : Value} {t : Text} (h : Writes v t) (rest : Text) : ValueAt v (t ++ rest) rest :=
  ⟨[], t, spaces_nil, h, rfl⟩

/-- The next element of a list after the comma. -/
theorem Writes.elementAt_next {v : Value} {t w₁ w₂ : Text} (h : Writes v t) (hw₁ : Spaces w₁) (hw₂ : Spaces w₂)
    (rest : Text) : ElementAt false (w₁ ++ ',' :: (w₂ ++ (t ++ rest))) (t ++ rest) := by
  obtain ⟨c, u, rfl, hc⟩ := h.opens
  refine Json.elementAt_next (skipSpace_spaces_cons hw₁ (by decide) _) ?_ (Value.ne_of_opens hc)
  exact skipSpace_spaces_cons hw₂ (Value.isSpace_of_opens hc) _

theorem Writes.elementAt_first {v : Value} {t w : Text} (h : Writes v t) (hw : Spaces w) (rest : Text) :
    ElementAt true (w ++ (t ++ rest)) (t ++ rest) := by
  obtain ⟨c, u, rfl, hc⟩ := h.opens
  exact Json.elementAt_first (skipSpace_spaces_cons hw (Value.isSpace_of_opens hc) _) (Value.ne_of_opens hc)

theorem itemsAt_of_listed {items : List Value} {t : Text} (h : Listed Writes ']' items t) (rest : Text) :
    ItemsAt false items (t ++ rest) rest := by
  induction h with
  | last hw =>
    rw [List.append_assoc]
    exact .nil (skipSpace_spaces_cons hw (by decide) rest)
  | @next w₁ w₂ s u v vs hw₁ hw₂ hv _ ih =>
    have happend : (w₁ ++ ',' :: (w₂ ++ (s ++ u))) ++ rest = w₁ ++ ',' :: (w₂ ++ (s ++ (u ++ rest))) := by
      simp only [List.append_assoc, List.cons_append]
    rw [happend]
    exact .cons (hv.elementAt_next hw₁ hw₂ _) (hv.valueAt _) ih

theorem entriesAt_of_listed {entries : List (Text × Value)} {t : Text}
    (h : Listed (WritesEntry Writes) '\x7d' entries t) (rest : Text) : EntriesAt false entries (t ++ rest) rest := by
  induction h with
  | last hw =>
    rw [List.append_assoc]
    exact .nil (skipSpace_spaces_cons hw (by decide) rest)
  | @next w₁ w₂ s u v vs hw₁ hw₂ hv _ ih =>
    obtain @⟨name, s, w₃, w₄, t, v, hname, hw₃, hw₄, hv⟩ := hv
    have happend : (w₁ ++ ',' :: (w₂ ++ ('"' :: (s ++ '"' :: (w₃ ++ ':' :: (w₄ ++ t))) ++ u))) ++ rest =
        w₁ ++ ',' :: (w₂ ++ '"' :: (s ++ '"' :: (w₃ ++ ':' :: (w₄ ++ (t ++ (u ++ rest)))))) := by
      simp only [List.append_assoc, List.cons_append]
    rw [happend]
    refine .cons (keyAt_next (skipSpace_spaces_cons hw₁ (by decide) _) (skipSpace_spaces_cons hw₂ (by decide) _))
      (hname.reads _) (skipSpace_spaces_cons hw₃ (by decide) _) ?_ ih
    exact ⟨w₄, t, hw₄, hv, rfl⟩

namespace ValueAt

variable {s rest : Text}

theorem opens {v : Value} (h : ValueAt v s rest) : ∃ c t, skipSpace s = c :: t ∧ v.opens c = true := by
  obtain ⟨w, t, hw, ht, rfl⟩ := h
  obtain ⟨c, u, rfl, hc⟩ := ht.opens
  exact ⟨c, u ++ rest, skipSpace_spaces_cons hw (Value.isSpace_of_opens hc) _, hc⟩

theorem string {t : Text} (h : ValueAt (.string t) s rest) :
    ∃ u, skipSpace s = '"' :: u ∧ Reads readChars u t rest := by
  obtain ⟨w, t, hw, ht, rfl⟩ := h
  cases ht with
  | @string _ u hu =>
    refine ⟨u ++ '"' :: rest, ?_, hu.reads rest⟩
    rw [List.cons_append, List.append_assoc, skipSpace_spaces_cons hw (by decide)]
    rfl

theorem list {items : List Value} (h : ValueAt (.list items) s rest) :
    ∃ u, skipSpace s = '[' :: u ∧ ItemsAt true items u rest := by
  obtain ⟨w, t, hw, ht, rfl⟩ := h
  cases ht with
  | list ht =>
    cases ht with
    | @empty w' hw' =>
      refine ⟨w' ++ ']' :: rest, ?_, .nil (skipSpace_spaces_cons hw' (by decide) rest)⟩
      rw [List.cons_append, List.append_assoc, skipSpace_spaces_cons hw (by decide)]
      rfl
    | @items w' u u' v items hw' hv hmore =>
      refine ⟨w' ++ (u ++ (u' ++ rest)), ?_, ?_⟩
      · rw [List.cons_append, List.append_assoc, List.append_assoc, skipSpace_spaces_cons hw (by decide)]
      · exact .cons (hv.elementAt_first hw' _) (hv.valueAt _) (itemsAt_of_listed hmore rest)

theorem object {entries : List (Text × Value)} (h : ValueAt (.object entries) s rest) :
    ∃ u, skipSpace s = '\x7b' :: u ∧ EntriesAt true entries u rest := by
  obtain ⟨w, t, hw, ht, rfl⟩ := h
  cases ht with
  | object ht =>
    cases ht with
    | @empty w' hw' =>
      refine ⟨w' ++ '\x7d' :: rest, ?_, .nil (skipSpace_spaces_cons hw' (by decide) rest)⟩
      rw [List.cons_append, List.append_assoc, skipSpace_spaces_cons hw (by decide)]
      rfl
    | @items w' u u' e entries hw' he hmore =>
      obtain @⟨name, t, w₁, w₂, u, v, hname, hw₁, hw₂, hv⟩ := he
      refine ⟨w' ++ '"' :: (t ++ '"' :: (w₁ ++ ':' :: (w₂ ++ (u ++ (u' ++ rest))))), ?_, ?_⟩
      · rw [List.cons_append, skipSpace_spaces_cons hw (by decide)]
        simp only [List.append_assoc, List.cons_append]
      · refine .cons (keyAt_first (skipSpace_spaces_cons hw' (by decide) _)) (hname.reads _)
          (skipSpace_spaces_cons hw₁ (by decide) _) ?_ (entriesAt_of_listed hmore rest)
        exact ⟨w₂, u, hw₂, hv, rfl⟩

end ValueAt

end KeywordRules.Json
