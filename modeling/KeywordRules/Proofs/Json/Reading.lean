import KeywordRules.Json.Reader

/-!
# What readers take from a text

`Reads reader s a rest` says that a reader takes the value `a` from the front of `s` and leaves `rest`.  There is one rule
for each way in which the parts of a string, of a list and of a record go on, with any white space that may stand between
them.
-/

namespace KeywordRules.Json

/-- The reader takes `a` from the front of `s` and leaves `rest`. -/
def Reads {α : Type} (reader : Reader α) (s : Text) (a : α) (rest : Text) : Prop :=
  ∃ lt, reader s = .ok ⟨a, rest, lt⟩

variable {α β δ : Type}

theorem Reads.map_within {reader : Reader α} {s t rest : Text} {a : α} (h : Reads reader t a rest)
    (hle : t.length ≤ s.length) : ∃ lt, (reader t).map (·.within hle) = .ok (⟨a, rest, lt⟩ : Read α s) := by
  obtain ⟨lt, h⟩ := h
  rw [h]
  exact ⟨Nat.lt_of_lt_of_le lt hle, rfl⟩

/-! ### White space -/

theorem skipSpace_cons {c : Char} (hc : isSpace c = false) (t : Text) : skipSpace (c :: t) = c :: t := by
  rw [skipSpace, List.dropWhile_cons_of_neg (by simp [hc])]

/-- The branch a reader takes at the first character behind white space.  It uses the equation of its own scrutinee, so
`skipSpace s` cannot be rewritten in place. -/
theorem match_skipSpace {s t : Text} {c : Char} (hs : skipSpace s = c :: t) (e : β)
    (f : (c : Char) → (t : Text) → skipSpace s = c :: t → β) :
    (match h : skipSpace s with
      | [] => e
      | c :: t => f c t h) = f c t hs := by
  split
  · next hnil =>
    rw [hs] at hnil
    cases hnil
  · next hcons =>
    have heq := hs.symm.trans hcons
    cases heq
    rfl

/-! ### Characters of strings -/

theorem reads_hex {a b c d : Char} {w x y z : Nat} (ha : hexValue? a = some w) (hb : hexValue? b = some x)
    (hc : hexValue? c = some y) (hd : hexValue? d = some z) (t : Text) :
    Reads readHex (a :: b :: c :: d :: t) (((w * 16 + x) * 16 + y) * 16 + z) t := by
  refine ⟨by simp only [List.length_cons]; omega, ?_⟩
  simp only [readHex, ha, hb, hc, hd]

/-- A code that is no surrogate stands for its character. -/
theorem reads_code {s t : Text} {n : Nat} (h : Reads readHex s n t) (hn : n < 0xD800 ∨ 0xDFFF < n) :
    Reads readCode s (Char.ofNat n) t := by
  obtain ⟨lt, h⟩ := h
  refine ⟨lt, ?_⟩
  rw [readCode, h]
  have hlow : ¬ (0xDC00 ≤ n ∧ n ≤ 0xDFFF) := by omega
  have hhigh : n < 0xD800 ∨ 0xDBFF < n := by omega
  simp [bind, Except.bind, pure, Except.pure, hlow, hhigh]

/-- Two surrogates stand for the character whose code they share. -/
theorem reads_code_pair {s t u : Text} {high low : Nat} (hhigh : Reads readHex s high ('\\' :: 'u' :: t))
    (hlow : Reads readHex t low u) (hh : 0xD800 ≤ high ∧ high ≤ 0xDBFF) (hl : 0xDC00 ≤ low ∧ low ≤ 0xDFFF) :
    Reads readCode s (Char.ofNat ((high - 0xD800) * 0x400 + (low - 0xDC00) + 0x10000)) u := by
  obtain ⟨lt, hhigh⟩ := hhigh
  obtain ⟨lt', hlow⟩ := hlow
  have hfirst : ¬ (0xDC00 ≤ high ∧ high ≤ 0xDFFF) := by omega
  have hsecond : ¬ (high < 0xD800 ∨ 0xDBFF < high) := by omega
  have hthird : ¬ (low < 0xDC00 ∨ 0xDFFF < low) := by omega
  have hle : u.length < s.length := by
    simp only [List.length_cons] at lt
    omega
  refine ⟨hle, ?_⟩
  rw [readCode, hhigh]
  simp only [bind, Except.bind, pure, Except.pure, if_neg hfirst, if_neg hsecond, readEscapeMark, hlow, if_neg hthird]

theorem reads_escape_letter {c d : Char} (hc : c ≠ 'u') (h : escapeLetter? c = some d) (t : Text) :
    Reads readEscape (c :: t) d t := by
  refine ⟨by simp, ?_⟩
  simp only [readEscape, if_neg hc, h]

theorem reads_escape_code {s t : Text} {c : Char} (h : Reads readCode s c t) : Reads readEscape ('u' :: s) c t := by
  rw [Reads, readEscape, if_pos rfl]
  exact h.map_within _

theorem reads_chars_end (t : Text) : Reads readChars ('"' :: t) [] t := by
  rw [Reads, readChars, if_pos rfl]
  exact ⟨by simp, rfl⟩

theorem reads_chars_escape {s t rest : Text} {c : Char} {v : Text} (hc : Reads readEscape s c t)
    (hv : Reads readChars t v rest) : Reads readChars ('\\' :: s) (c :: v) rest := by
  obtain ⟨lt, hc⟩ := hc
  obtain ⟨lt', hv⟩ := hv
  rw [Reads, readChars, if_neg (by decide), if_pos rfl, hc]
  simp only [bind, Except.bind, hv]
  exact ⟨by simp only [List.length_cons]; omega, rfl⟩

theorem reads_chars_plain {s rest : Text} {c : Char} {v : Text} (hquote : c ≠ '"') (hslash : c ≠ '\\')
    (hcontrol : ¬ c.toNat < 32) (hv : Reads readChars s v rest) : Reads readChars (c :: s) (c :: v) rest := by
  obtain ⟨lt, hv⟩ := hv
  rw [Reads, readChars, if_neg hquote, if_neg hslash, if_neg hcontrol, hv]
  exact ⟨by simp only [List.length_cons]; omega, rfl⟩

theorem reads_string {s t rest v : Text} (hs : skipSpace s = '"' :: t) (hv : Reads readChars t v rest) :
    Reads readString s v rest := by
  have hhead : readString s = _ := match_skipSpace hs _ _
  rw [Reads, hhead, if_pos rfl]
  exact hv.map_within _

/-! ### Elements of lists -/

section Lists

variable {element : Reader α} {s t u rest : Text} {a : α} {as : List α} {c : Char} {first : Bool}

theorem reads_elements_end (first : Bool) (hs : skipSpace s = ']' :: rest) :
    Reads (readElements element first) s [] rest := by
  have hnext : nextElement first s = .ok none := (match_skipSpace hs _ _).trans (if_pos rfl)
  have hend : endList s = .ok ⟨(), rest, length_lt_of_skipSpace hs⟩ := (match_skipSpace hs _ _).trans (if_pos rfl)
  rw [Reads, readElements, hnext]
  simp only [bind, Except.bind, hend]
  exact ⟨length_lt_of_skipSpace hs, rfl⟩

/-- The next element of a list begins at `t`. -/
def ElementAt (first : Bool) (s t : Text) : Prop := ∃ le, nextElement first s = .ok (some ⟨t, le⟩)

theorem elementAt_first (hs : skipSpace s = c :: t) (hc : c ≠ ']') : ElementAt true s (c :: t) := by
  refine ⟨hs ▸ length_skipSpace s, (match_skipSpace hs _ _).trans ?_⟩
  rw [if_neg hc, if_pos rfl]

theorem elementAt_next (hs : skipSpace s = ',' :: t) (ht : skipSpace t = c :: u) (hc : c ≠ ']') :
    ElementAt false s (c :: u) := by
  have hle : (c :: u).length ≤ s.length :=
    Nat.le_trans (ht ▸ length_skipSpace t) (Nat.le_of_lt (length_lt_of_skipSpace hs))
  refine ⟨hle, (match_skipSpace hs _ _).trans ?_⟩
  rw [if_neg (by decide), if_neg (by decide), if_pos rfl]
  exact (match_skipSpace ht _ _).trans (if_neg hc)

theorem reads_elements_head (hs : ElementAt first s t) (ha : Reads element t a u)
    (has : Reads (readElements element false) u as rest) : Reads (readElements element first) s (a :: as) rest := by
  obtain ⟨le, hs⟩ := hs
  obtain ⟨lt, ha⟩ := ha
  obtain ⟨lt', has⟩ := has
  rw [Reads, readElements, hs]
  simp only [bind, Except.bind, ha, has]
  exact ⟨by omega, rfl⟩

theorem reads_list (hs : skipSpace s = '[' :: t) (has : Reads (readElements element true) t as rest) :
    Reads (readList element) s as rest := by
  have hhead : readList element s = _ := match_skipSpace hs _ _
  rw [Reads, hhead, if_pos rfl]
  exact has.map_within _

end Lists

/-! ### Fields of records -/

section Records

variable {shape : Shape δ α} {s t u v rest : Text} {key : Text} {f : Field δ} {d d₁ d₂ : δ} {first : Bool}

/-- The fields of a record at the front of `s` make `d₂` of what was read before, and leave `rest`, which begins with the
closing brace. -/
def ReadsNamed (shape : Shape δ α) (first : Bool) (d : δ) (s : Text) (d₂ : δ) (rest : Text) : Prop :=
  ∃ le, shape.readNamed first d s = .ok ⟨(d₂, rest), le⟩

/-- The name of the next field begins at `t`, behind its quote. -/
def KeyAt (first : Bool) (s t : Text) : Prop := ∃ lt, nextKey first s = .ok (some ⟨t, lt⟩)

theorem keyAt_first (hs : skipSpace s = '"' :: t) : KeyAt true s t := by
  refine ⟨length_lt_of_skipSpace hs, ?_⟩
  refine (match_skipSpace hs _ _).trans ?_
  rw [if_neg (by decide), if_pos rfl, if_pos rfl]

theorem keyAt_next (hs : skipSpace s = ',' :: t) (ht : skipSpace t = '"' :: u) : KeyAt false s u := by
  refine ⟨Nat.lt_trans (length_lt_of_skipSpace ht) (length_lt_of_skipSpace hs), ?_⟩
  refine (match_skipSpace hs _ _).trans ?_
  rw [if_neg (by decide), if_neg (by decide), if_pos rfl]
  exact (match_skipSpace ht _ _).trans (if_pos rfl)

theorem reads_colon (hs : skipSpace s = ':' :: t) : Reads readColon s () t :=
  ⟨length_lt_of_skipSpace hs, (match_skipSpace hs _ _).trans (if_pos rfl)⟩

theorem reads_endObject (hs : skipSpace s = '\x7d' :: t) : Reads endObject s () t :=
  ⟨length_lt_of_skipSpace hs, (match_skipSpace hs _ _).trans (if_pos rfl)⟩

theorem readsNamed_end (hs : skipSpace s = '\x7d' :: t) : ReadsNamed shape first d s d s := by
  have hnext : nextKey first s = .ok none := (match_skipSpace hs _ _).trans (if_pos rfl)
  rw [ReadsNamed, Shape.readNamed, hnext]
  exact ⟨Nat.le_refl _, rfl⟩

/-- A known field that has not been read yet is added to the fields read so far. -/
theorem readsNamed_field (hkey : KeyAt first s t) (hname : Reads readChars t key u)
    (hf : shape.fields.find? (·.name = key) = some f) (hset : f.isSet d = false) (hcolon : skipSpace u = ':' :: v)
    {w : Text} (hvalue : Reads (f.read d) v d₁ w) (hmore : ReadsNamed shape false d₁ w d₂ rest) :
    ReadsNamed shape first d s d₂ rest := by
  obtain ⟨_, hkey⟩ := hkey
  obtain ⟨_, hname⟩ := hname
  obtain ⟨_, hcolon⟩ := reads_colon hcolon
  obtain ⟨_, hvalue⟩ := hvalue
  obtain ⟨hle, hmore⟩ := hmore
  rw [ReadsNamed, Shape.readNamed, hkey]
  simp only [bind, Except.bind, hname, hf, hset, hcolon, hvalue, hmore]
  exact ⟨by dsimp only at hle ⊢; omega, rfl⟩

theorem reads_record {a : α} (hs : skipSpace s = '\x7b' :: t) (hfields : ReadsNamed shape true shape.empty t d u)
    (hbuild : shape.finish d = .ok a) (hend : skipSpace u = '\x7d' :: rest) : Reads shape.read s a rest := by
  obtain ⟨hle, hfields⟩ := hfields
  obtain ⟨_, hend⟩ := reads_endObject hend
  have hlt := length_lt_of_skipSpace hs
  have hhead : shape.read s = _ := match_skipSpace hs _ _
  rw [Reads, hhead, if_neg (by decide), if_pos rfl]
  simp only [bind, Except.bind, hfields, hbuild, hend]
  exact ⟨by dsimp only at hle; omega, rfl⟩

end Records

end KeywordRules.Json
