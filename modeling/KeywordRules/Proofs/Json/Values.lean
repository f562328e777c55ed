import KeywordRules.Proofs.Json.Layout

/-!
# Readers and the values they meet

A reader that meets a value, in whatever layout, takes the text of that value and nothing more, or it fails: it is
`Whole`.  So what a reader makes of a text is decided value by value.  A list is accepted if its elements are, and
refused if one of them is.  An object is read as a record only if the record `Takes` its fields: each is known, none
stands twice and each value can be read (`Shape.Lawful.reads_object`).  Its fields may come in any order
(`Shape.Lawful.accepts_record`); in a fixed order it is enough to follow the record from field to field
(`accepts_gathered`).  A shape is lawful if each of its fields has a slot of its own (`lawful_of_hasSlot`).
-/

namespace KeywordRules.Json

variable {α β δ : Type}

/-- The reader makes `a` of the value, however it is written. -/
def Accepts (reader : Reader α) (v : Value) (a : α) : Prop := ∀ s rest, ValueAt v s rest → Reads reader s a rest

/-- The reader makes nothing of the value, however it is written. -/
def Rejects (reader : Reader α) (v : Value) : Prop := ∀ s rest a rest', ValueAt v s rest → ¬ Reads reader s a rest'

/-- Where the reader makes something of a value it takes the whole of its text and no more. -/
def Whole (reader : Reader α) : Prop :=
  ∀ v s rest a rest', ValueAt v s rest → Reads reader s a rest' → rest' = rest

/-! ### What a successful reading says -/

theorem bind_eq_ok {x : Except Error α} {f : α → Except Error β} {b : β} :
    (x >>= f) = .ok b ↔ ∃ a, x = .ok a ∧ f a = .ok b := by
  cases x <;> simp [bind, Except.bind]

section Inversion

variable {reader : Reader α} {a a' : α} {as : List α} {s t u v rest rest' : Text} {c : Char} {first : Bool}

theorem Reads.unique (h : Reads reader s a rest) (h' : Reads reader s a' rest') : a = a' ∧ rest = rest' := by
  obtain ⟨lt, h⟩ := h
  obtain ⟨lt', h'⟩ := h'
  rw [h] at h'
  cases h'
  exact ⟨rfl, rfl⟩

theorem Reads.of_map_within {hle : t.length ≤ s.length} {lt : rest.length < s.length}
    (h : (reader t).map (·.within hle) = .ok (⟨a, rest, lt⟩ : Read α s)) : Reads reader t a rest := by
  cases hread : reader t with
  | error e =>
    rw [hread] at h
    cases h
  | ok r =>
    rw [hread] at h
    cases h
    exact ⟨r.lt, hread⟩

theorem Reads.string_inv {w : Text} (hs : skipSpace s = c :: t) (h : Reads readString s w rest) :
    c = '"' ∧ Reads readChars t w rest := by
  obtain ⟨lt, h⟩ := h
  have hhead : readString s = _ := match_skipSpace hs _ _
  rw [hhead] at h
  split at h
  · next hc => exact ⟨hc, .of_map_within h⟩
  · cases h

theorem Reads.list_inv (hs : skipSpace s = c :: t) (h : Reads (readList reader) s as rest) :
    c = '[' ∧ Reads (readElements reader true) t as rest := by
  obtain ⟨lt, h⟩ := h
  have hhead : readList reader s = _ := match_skipSpace hs _ _
  rw [hhead] at h
  split at h
  · next hc => exact ⟨hc, .of_map_within h⟩
  · cases h

theorem Reads.elements_inv (hs : ElementAt first s t) (h : Reads (readElements reader first) s as rest) :
    ∃ a u as', as = a :: as' ∧ Reads reader t a u ∧ Reads (readElements reader false) u as' rest := by
  obtain ⟨le, hs⟩ := hs
  obtain ⟨lt, h⟩ := h
  rw [readElements] at h
  obtain ⟨next, hnext, h⟩ := bind_eq_ok.mp h
  rw [hs] at hnext
  cases hnext
  obtain ⟨head, hhead, h⟩ := bind_eq_ok.mp h
  obtain ⟨tail, htail, h⟩ := bind_eq_ok.mp h
  cases h
  exact ⟨head.value, head.rest, tail.value, rfl, ⟨head.lt, hhead⟩, ⟨tail.lt, htail⟩⟩

theorem Reads.endList_inv (h : Reads endList s () rest) : skipSpace s = ']' :: rest := by
  obtain ⟨lt, h⟩ := h
  unfold endList at h
  split at h
  · cases h
  · next c t hs =>
    split at h
    · next hc =>
      cases h
      rw [hs, hc]
    · split at h
      · split at h <;> cases h
      · cases h

theorem Reads.endObject_inv (h : Reads endObject s () rest) : skipSpace s = '\x7d' :: rest := by
  obtain ⟨lt, h⟩ := h
  unfold endObject at h
  split at h
  · cases h
  · next c t hs =>
    split at h
    · next hc =>
      cases h
      rw [hs, hc]
    · split at h <;> cases h

/-- A list does not end where an element begins. -/
theorem ElementAt.not_endList (hs : ElementAt first s t) : ¬ Reads endList s () rest := by
  intro h
  obtain ⟨le, hs⟩ := hs
  have hnone : nextElement first s = .ok none := (match_skipSpace h.endList_inv _ _).trans (if_pos rfl)
  rw [hs] at hnone
  cases hnone

end Inversion

/-! ### Strings and lists -/

theorem accepts_string (t : Text) : Accepts readString (.string t) t := by
  intro s rest hv
  obtain ⟨u, hs, hu⟩ := hv.string
  exact reads_string hs hu

theorem whole_string : Whole readString := by
  intro v s rest a rest' hv h
  obtain ⟨c, t, hs, hc⟩ := hv.opens
  obtain ⟨rfl, -⟩ := h.string_inv hs
  obtain ⟨w, rfl⟩ := Value.eq_string_of_opens hc
  exact (h.unique (accepts_string w s rest hv)).2

section Lists

variable {element : Reader α} {items : List Value} {as : List α} {s rest rest' : Text} {first : Bool}

theorem ItemsAt.reads (h : ItemsAt first items s rest) (hitems : List.Forall₂ (Accepts element) items as) :
    Reads (readElements element first) s as rest := by
  induction h generalizing as with
  | nil hs =>
    cases hitems
    exact reads_elements_end _ hs
  | cons hs hv _ ih =>
    cases hitems with
    | cons ha has => exact reads_elements_head hs (ha _ _ hv) (ih has)

/-- The elements are read one by one, so none of them is one that the reader rejects. -/
theorem ItemsAt.reads_inv (hwhole : Whole element) (h : ItemsAt first items s rest)
    (hread : Reads (readElements element first) s as rest') : rest' = rest ∧ ∀ v ∈ items, ¬ Rejects element v := by
  induction h generalizing as with
  | nil hs => exact ⟨(hread.unique (reads_elements_end _ hs)).2, fun _ hv => absurd hv List.not_mem_nil⟩
  | @cons _ v _ _ _ _ _ hs hv _ ih =>
    obtain ⟨a, u, as', rfl, ha, has⟩ := hread.elements_inv hs
    obtain rfl := hwhole v _ _ _ _ hv ha
    obtain ⟨hrest, hmore⟩ := ih has
    exact ⟨hrest, List.forall_mem_cons.mpr ⟨fun hrejects => hrejects _ _ _ _ hv ha, hmore⟩⟩

theorem accepts_list (h : List.Forall₂ (Accepts element) items as) : Accepts (readList element) (.list items) as := by
  intro s rest hv
  obtain ⟨u, hs, hu⟩ := hv.list
  exact reads_list hs (hu.reads h)

theorem reads_list_inv (hwhole : Whole element) (hv : ValueAt (.list items) s rest)
    (h : Reads (readList element) s as rest') : rest' = rest ∧ ∀ v ∈ items, ¬ Rejects element v := by
  obtain ⟨u, hs, hu⟩ := hv.list
  exact hu.reads_inv hwhole (h.list_inv hs).2

theorem whole_list (hwhole : Whole element) : Whole (readList element) := by
  intro v s rest as rest' hv h
  obtain ⟨c, t, hs, hc⟩ := hv.opens
  obtain ⟨rfl, -⟩ := h.list_inv hs
  obtain ⟨items, rfl⟩ := Value.eq_list_of_opens hc
  exact (reads_list_inv hwhole hv h).1

theorem rejects_list (hwhole : Whole element) {v : Value} (hmem : v ∈ items) (hv : Rejects element v) :
    Rejects (readList element) (.list items) :=
  fun _ _ _ _ hlist h => (reads_list_inv hwhole hlist h).2 v hmem hv

end Lists

/-! ### Records -/

namespace Shape

/-- A record's fields start unset, and reading one sets it and no other. -/
structure Lawful (shape : Shape δ α) : Prop where
  unset : ∀ f ∈ shape.fields, f.isSet shape.empty = false
  sets : ∀ f ∈ shape.fields, ∀ d s d' rest, Reads (f.read d) s d' rest →
    ∀ g ∈ shape.fields, (g.isSet d' = true ↔ g.isSet d = true ∨ g.name = f.name)
  whole : ∀ f ∈ shape.fields, ∀ d, Whole (f.read d)

/-- What the fields of an object are like if they make `d'` of what was read before. -/
structure Takes (shape : Shape δ α) (d : δ) (entries : List (Text × Value)) (d' : δ) : Prop where
  readable : ∀ e ∈ entries, ∃ f, shape.fields.find? (·.name = e.1) = some f ∧ f.isSet d = false ∧
    ∃ d₁, ¬ Rejects (f.read d₁) e.2
  distinct : (entries.map Prod.fst).Nodup
  isSet : ∀ f ∈ shape.fields, (f.isSet d' = true ↔ f.isSet d = true ∨ f.name ∈ entries.map Prod.fst)

/-- The fields of an object make `d'` of what was read before, one after the other: each is known, it was not set before
and its value is accepted. -/
inductive Gathers (shape : Shape δ α) : δ → List (Text × Value) → δ → Prop where
  | done (d : δ) : Gathers shape d [] d
  | field {d d₁ d₂ : δ} {f : Field δ} {name : Text} {v : Value} {entries : List (Text × Value)} :
    shape.fields.find? (·.name = name) = some f → f.isSet d = false → Accepts (f.read d) v d₁ →
    Gathers shape d₁ entries d₂ → Gathers shape d ((name, v) :: entries) d₂

/-- The entry has a field whose reader makes of every draft that is right so far, and of the entry's value, another one. -/
def Advances (shape : Shape δ α) (Right : δ → Prop) (e : Text × Value) : Prop :=
  ∃ f, shape.fields.find? (·.name = e.1) = some f ∧ ∀ d, Right d → ∃ d', Right d' ∧ Accepts (f.read d) e.2 d'

variable {shape : Shape δ α} {key : Text} {f : Field δ} {d d' d₁ : δ} {entries : List (Text × Value)}

theorem mem_of_find (h : shape.fields.find? (·.name = key) = some f) : f ∈ shape.fields ∧ f.name = key := by
  have hname := List.find?_some h
  exact ⟨List.mem_of_find?_eq_some h, of_decide_eq_true hname⟩

theorem Takes.nil (d : δ) : shape.Takes d [] d where
  readable _ he := absurd he List.not_mem_nil
  distinct := List.nodup_nil
  isSet f _ := by rw [List.map_nil, or_iff_left List.not_mem_nil]

/-- A field that was just read does not come again, for it is set now. -/
theorem Takes.cons (lawful : shape.Lawful) {v : Value} {s rest rest' : Text}
    (hf : shape.fields.find? (·.name = key) = some f) (hset : f.isSet d = false) (hv : ValueAt v s rest)
    (hread : Reads (f.read d) s d₁ rest') (hmore : shape.Takes d₁ entries d') :
    shape.Takes d ((key, v) :: entries) d' := by
  obtain ⟨hmem, rfl⟩ := mem_of_find hf
  have hsets := lawful.sets f hmem d s d₁ rest' hread
  constructor
  case readable =>
    refine List.forall_mem_cons.mpr ⟨⟨f, hf, hset, d, fun hrejects => hrejects _ _ _ _ hv hread⟩, fun e he => ?_⟩
    obtain ⟨g, hg, hunset, hreadable⟩ := hmore.readable e he
    refine ⟨g, hg, eq_false_of_ne_true fun hd => ?_, hreadable⟩
    rw [(hsets g (mem_of_find hg).1).mpr (.inl hd)] at hunset
    cases hunset
  case distinct =>
    refine List.nodup_cons.mpr ⟨fun hagain => ?_, hmore.distinct⟩
    obtain ⟨e, he, hname⟩ := List.mem_map.mp hagain
    obtain ⟨g, hg, hunset, -⟩ := hmore.readable e he
    rw [hname, hf] at hg
    cases hg
    rw [(hsets f hmem).mpr (.inr rfl)] at hunset
    cases hunset
  case isSet =>
    intro g hg
    rw [hmore.isSet g hg, hsets g hg, List.map_cons, List.mem_cons, or_assoc]

theorem isSet_of_finish {a : α} (h : shape.finish d = .ok a) :
    ∀ f ∈ shape.fields, f.optional = false → f.isSet d = true := by
  intro f hf hoptional
  unfold finish at h
  split at h
  · cases h
  · next hnone =>
    have hfield := List.find?_eq_none.mp hnone f hf
    rw [hoptional] at hfield
    simpa using hfield

theorem Takes.finish (h : shape.Takes shape.empty entries d)
    (hcomplete : ∀ f ∈ shape.fields, f.optional = false → f.name ∈ entries.map Prod.fst) :
    shape.finish d = .ok (shape.build d) := by
  have hnone : shape.fields.find? (fun f => !f.optional && !f.isSet d) = none := by
    refine List.find?_eq_none.mpr fun f hf hmissing => ?_
    rw [Bool.and_eq_true, Bool.not_eq_true', Bool.not_eq_true'] at hmissing
    have hset := (h.isSet f hf).mpr (.inr (hcomplete f hf hmissing.1))
    rw [hmissing.2] at hset
    cases hset
  rw [Shape.finish, hnone]

end Shape

section Objects

variable {shape : Shape δ α} {s t u v rest rest' : Text} {key : Text} {d d' : δ} {first : Bool}
  {entries : List (Text × Value)}

theorem ReadsNamed.inv (hkey : KeyAt first s t) (hname : Reads readChars t key u) (hcolon : skipSpace u = ':' :: v)
    (h : ReadsNamed shape first d s d' rest) :
    ∃ f d₁ w, shape.fields.find? (·.name = key) = some f ∧ f.isSet d = false ∧ Reads (f.read d) v d₁ w ∧
      ReadsNamed shape false d₁ w d' rest := by
  obtain ⟨_, hkey⟩ := hkey
  obtain ⟨_, hname⟩ := hname
  obtain ⟨_, hcolon⟩ := reads_colon hcolon
  obtain ⟨le, h⟩ := h
  rw [Shape.readNamed] at h
  obtain ⟨next, hnext, h⟩ := bind_eq_ok.mp h
  rw [hkey] at hnext
  cases hnext
  obtain ⟨name, hname', h⟩ := bind_eq_ok.mp h
  rw [hname] at hname'
  cases hname'
  dsimp only at h
  split at h
  · cases h
  · next f hf =>
    split at h
    · cases h
    · next hset =>
      obtain ⟨colon, hcolon', h⟩ := bind_eq_ok.mp h
      rw [hcolon] at hcolon'
      cases hcolon'
      obtain ⟨value, hvalue, h⟩ := bind_eq_ok.mp h
      obtain ⟨⟨⟨d₂, w⟩, hle⟩, hmore, h⟩ := bind_eq_ok.mp h
      cases h
      exact ⟨f, value.value, value.rest, hf, eq_false_of_ne_true hset, ⟨_, hvalue⟩, ⟨hle, hmore⟩⟩

theorem ReadsNamed.end_inv (hs : skipSpace s = '\x7d' :: t) (h : ReadsNamed shape first d s d' rest) :
    d' = d ∧ rest = s := by
  obtain ⟨_, h⟩ := h
  obtain ⟨_, hend⟩ : ReadsNamed shape first d s d s := readsNamed_end hs
  rw [hend] at h
  cases h
  exact ⟨rfl, rfl⟩

/-- What was read as the fields of an object are its fields, up to the closing brace. -/
theorem EntriesAt.reads_inv (lawful : shape.Lawful) (h : EntriesAt first entries s rest)
    (hread : ReadsNamed shape first d s d' u) : skipSpace u = '\x7d' :: rest ∧ shape.Takes d entries d' := by
  induction h generalizing d with
  | nil hs =>
    obtain ⟨rfl, rfl⟩ := hread.end_inv hs
    exact ⟨hs, .nil _⟩
  | cons hkey hname hcolon hv _ ih =>
    obtain ⟨f, d₁, w, hf, hset, hvalue, hmore⟩ := hread.inv hkey hname hcolon
    -- The field's reader stops where its value does, which is where the other entries begin.
    obtain rfl := lawful.whole f (Shape.mem_of_find hf).1 d _ _ _ _ _ hv hvalue
    obtain ⟨hend, htakes⟩ := ih hmore
    exact ⟨hend, .cons lawful hf hset hv hvalue htakes⟩

theorem EntriesAt.reads_gathered (h : EntriesAt first entries s rest) (hgathers : shape.Gathers d entries d') :
    ∃ u, ReadsNamed shape first d s d' u ∧ skipSpace u = '\x7d' :: rest := by
  induction h generalizing d with
  | nil hs =>
    cases hgathers
    exact ⟨_, readsNamed_end hs, hs⟩
  | cons hkey hname hcolon hv _ ih =>
    cases hgathers with
    | field hf hset haccepts hmore =>
      obtain ⟨u, hmore, hend⟩ := ih hmore
      exact ⟨u, readsNamed_field hkey hname hf hset hcolon (haccepts _ _ hv) hmore, hend⟩

/-- Fields can be read, in whatever order, if none comes twice. -/
theorem EntriesAt.reads (lawful : shape.Lawful) {Right : δ → Prop} (hstep : ∀ e ∈ entries, shape.Advances Right e)
    (hdistinct : (entries.map Prod.fst).Nodup) (h : EntriesAt first entries s rest) (hright : Right d)
    (hfresh : ∀ f ∈ shape.fields, f.isSet d = true → f.name ∉ entries.map Prod.fst) :
    ∃ d' u, ReadsNamed shape first d s d' u ∧ Right d' := by
  induction h generalizing d with
  | nil hs => exact ⟨d, _, readsNamed_end hs, hright⟩
  | @cons _ name v entries _ _ _ _ _ _ hkey hname hcolon hv _ ih =>
    obtain ⟨⟨f, hf, haccepts⟩, hstep⟩ := List.forall_mem_cons.mp hstep
    obtain ⟨hnew, hdistinct⟩ := List.nodup_cons.mp hdistinct
    obtain ⟨d₁, hright₁, haccepts⟩ := haccepts d hright
    obtain ⟨hmem, hkeyname⟩ := Shape.mem_of_find hf
    have hvalue := haccepts _ _ hv
    have hset : f.isSet d = false :=
      eq_false_of_ne_true fun hset => hfresh f hmem hset (hkeyname ▸ List.mem_cons_self)
    -- Only the field just read was set, and its name does not come again.
    have hfresh₁ : ∀ g ∈ shape.fields, g.isSet d₁ = true → g.name ∉ entries.map Prod.fst := by
      intro g hg hgset hagain
      obtain hgset | hgname := (lawful.sets f hmem _ _ _ _ hvalue g hg).mp hgset
      · exact hfresh g hg hgset (List.mem_cons_of_mem _ hagain)
      · exact hnew (by rw [← hkeyname, ← hgname]; exact hagain)
    obtain ⟨d', u, hmore, hright'⟩ := ih hstep hdistinct hright₁ hfresh₁
    exact ⟨d', u, readsNamed_field hkey hname hf hset hcolon hvalue hmore, hright'⟩

end Objects

section Records

variable {shape : Shape δ α} {s t u rest rest' : Text} {d d' : δ} {a : α} {c : Char} {items : List Value}
  {entries : List (Text × Value)} {fields : List (Field δ)} {index : Nat}

/-- The fields of a record written as a list make `d'` of `d` and leave `rest`. -/
def ReadsListed (shape : Shape δ α) (fields : List (Field δ)) (index : Nat) (d : δ) (s : Text) (d' : δ) (rest : Text) :
    Prop :=
  ∃ le, shape.readListed fields index d s = .ok ⟨(d', rest), le⟩

/-- A record written as a list takes its elements one by one, so what it leaves begins with further elements. -/
theorem ItemsAt.listed_inv (hwhole : ∀ f ∈ fields, ∀ d, Whole (f.read d)) (h : ItemsAt (index = 0) items s rest)
    (hread : ReadsListed shape fields index d s d' u) : ∃ first items', ItemsAt first items' u rest := by
  induction fields generalizing index d s items with
  | nil =>
    obtain ⟨_, hread⟩ := hread
    cases hread
    exact ⟨_, _, h⟩
  | cons f fields ih =>
    obtain ⟨hf, hfields⟩ := List.forall_mem_cons.mp hwhole
    have hlater : decide (index + 1 = 0) = false := decide_eq_false (Nat.succ_ne_zero index)
    obtain ⟨le, hread⟩ := hread
    rw [Shape.readListed] at hread
    obtain ⟨next, hnext, hread⟩ := bind_eq_ok.mp hread
    cases h with
    | nil hs =>
      have hnone : nextElement (index = 0) s = .ok none := (match_skipSpace hs _ _).trans (if_pos rfl)
      rw [hnone] at hnext
      cases hnext
      dsimp only at hread
      split at hread
      · have hdone : ItemsAt (index + 1 = 0) [] s rest := .nil hs
        exact ih hfields hdone ⟨le, hread⟩
      · cases hread
    | cons hs hv hmore =>
      obtain ⟨_, hs⟩ := hs
      rw [hs] at hnext
      cases hnext
      obtain ⟨head, hhead, hread⟩ := bind_eq_ok.mp hread
      obtain ⟨⟨⟨d₂, w⟩, hle⟩, htail, hread⟩ := bind_eq_ok.mp hread
      cases hread
      obtain rfl := hf d _ _ _ _ _ hv ⟨head.lt, hhead⟩
      exact ih hfields (hlater ▸ hmore) ⟨hle, htail⟩

theorem Reads.record_inv (hs : skipSpace s = c :: t) (h : Reads shape.read s a rest) :
    (c = '[' ∧ ∃ d u, ReadsListed shape shape.fields 0 shape.empty t d u ∧ Reads endList u () rest) ∨
      (c = '\x7b' ∧ ∃ d u, ReadsNamed shape true shape.empty t d u ∧ shape.finish d = .ok a ∧
        Reads endObject u () rest) := by
  obtain ⟨lt, h⟩ := h
  have hhead : shape.read s = _ := match_skipSpace hs _ _
  rw [hhead] at h
  split at h
  · next hc =>
    obtain ⟨⟨⟨d, u⟩, hle⟩, hlisted, h⟩ := bind_eq_ok.mp h
    obtain ⟨record, -, h⟩ := bind_eq_ok.mp h
    obtain ⟨close, hclose, h⟩ := bind_eq_ok.mp h
    cases h
    exact .inl ⟨hc, d, u, ⟨hle, hlisted⟩, ⟨close.lt, hclose⟩⟩
  · split at h
    · next hc =>
      obtain ⟨⟨⟨d, u⟩, hle⟩, hnamed, h⟩ := bind_eq_ok.mp h
      obtain ⟨record, hfinish, h⟩ := bind_eq_ok.mp h
      obtain ⟨close, hclose, h⟩ := bind_eq_ok.mp h
      cases h
      exact .inr ⟨hc, d, u, ⟨hle, hnamed⟩, hfinish, ⟨close.lt, hclose⟩⟩
    · cases h

/-- A record is read from an object if its fields make one in the order in which they come. -/
theorem accepts_gathered (hgathers : shape.Gathers shape.empty entries d) (hfinish : shape.finish d = .ok a) :
    Accepts shape.read (.object entries) a := by
  intro s rest hv
  obtain ⟨t, hs, ht⟩ := hv.object
  obtain ⟨u, hnamed, hend⟩ := ht.reads_gathered hgathers
  exact reads_record hs hnamed hfinish hend

namespace Shape.Lawful

/-- What is read from an object is a record of its fields. -/
theorem reads_object (lawful : shape.Lawful) (hv : ValueAt (.object entries) s rest) (h : Reads shape.read s a rest') :
    rest' = rest ∧ ∃ d, shape.Takes shape.empty entries d ∧ shape.finish d = .ok a := by
  obtain ⟨t, hs, ht⟩ := hv.object
  obtain ⟨hc, -⟩ | ⟨-, d, u, hnamed, hfinish, hend⟩ := h.record_inv hs
  · cases hc
  · obtain ⟨hclose, htakes⟩ := ht.reads_inv lawful hnamed
    refine ⟨?_, d, htakes, hfinish⟩
    have heq := hend.endObject_inv.symm.trans hclose
    cases heq
    rfl

theorem whole_record (lawful : shape.Lawful) : Whole shape.read := by
  intro v s rest a rest' hv h
  obtain ⟨c, t, hs, hc⟩ := hv.opens
  obtain ⟨rfl, d, u, hlisted, hend⟩ | ⟨rfl, -⟩ := h.record_inv hs
  · obtain ⟨items, rfl⟩ := Value.eq_list_of_opens hc
    obtain ⟨t', hs', ht'⟩ := hv.list
    rw [hs] at hs'
    cases hs'
    have hstart : ItemsAt (decide (0 = 0)) items t rest := ht'
    obtain ⟨first, items', hleft⟩ := hstart.listed_inv lawful.whole hlisted
    -- If there are more elements than fields, the bracket does not follow where it is wanted.
    cases hleft with
    | nil hclose =>
      have heq := hend.endList_inv.symm.trans hclose
      cases heq
      rfl
    | cons hs _ _ => exact absurd hend hs.not_endList
  · obtain ⟨entries, rfl⟩ := Value.eq_object_of_opens hc
    exact (lawful.reads_object hv h).1

/-- A record is read from an object in whatever order its fields come. -/
theorem accepts_record (lawful : shape.Lawful) {Right : δ → Prop} (hempty : Right shape.empty)
    (hstep : ∀ e ∈ entries, shape.Advances Right e) (hdistinct : (entries.map Prod.fst).Nodup)
    (hcomplete : ∀ f ∈ shape.fields, f.optional = false → f.name ∈ entries.map Prod.fst)
    (hbuild : ∀ d, Right d → shape.Takes shape.empty entries d → shape.build d = a) :
    Accepts shape.read (.object entries) a := by
  intro s rest hv
  obtain ⟨t, hs, ht⟩ := hv.object
  have hfresh : ∀ f ∈ shape.fields, f.isSet shape.empty = true → f.name ∉ entries.map Prod.fst := by
    intro f hf hset
    rw [lawful.unset f hf] at hset
    cases hset
  obtain ⟨d, u, hnamed, hright⟩ := ht.reads lawful hstep hdistinct hempty hfresh
  obtain ⟨hclose, htakes⟩ := ht.reads_inv lawful hnamed
  have hfinish := htakes.finish hcomplete
  rw [hbuild d hright htakes] at hfinish
  exact reads_record hs hnamed hfinish hclose

variable {name : Text} {v : Value}

theorem rejects_unknown (lawful : shape.Lawful) (hmem : (name, v) ∈ entries)
    (hname : name ∉ shape.fields.map Field.name) : Rejects shape.read (.object entries) := by
  intro s rest a rest' hv h
  obtain ⟨-, d, htakes, -⟩ := lawful.reads_object hv h
  obtain ⟨f, hf, -⟩ := htakes.readable _ hmem
  obtain ⟨hmem, hfname⟩ := mem_of_find hf
  exact hname (List.mem_map.mpr ⟨f, hmem, hfname⟩)

theorem rejects_repeated (lawful : shape.Lawful) (h : ¬ (entries.map Prod.fst).Nodup) :
    Rejects shape.read (.object entries) := by
  intro s rest a rest' hv hread
  obtain ⟨-, d, htakes, -⟩ := lawful.reads_object hv hread
  exact h htakes.distinct

theorem rejects_missing (lawful : shape.Lawful) {f : Field δ} (hf : f ∈ shape.fields) (hoptional : f.optional = false)
    (hname : f.name ∉ entries.map Prod.fst) : Rejects shape.read (.object entries) := by
  intro s rest a rest' hv h
  obtain ⟨-, d, htakes, hfinish⟩ := lawful.reads_object hv h
  obtain hset | hmem := (htakes.isSet f hf).mp (isSet_of_finish hfinish f hf hoptional)
  · rw [lawful.unset f hf] at hset
    cases hset
  · exact hname hmem

/-- An object is refused if the value of one of its fields is. -/
theorem rejects_value (lawful : shape.Lawful) (hmem : (name, v) ∈ entries)
    (h : ∀ f ∈ shape.fields, f.name = name → ∀ d, Rejects (f.read d) v) : Rejects shape.read (.object entries) := by
  intro s rest a rest' hv hread
  obtain ⟨-, d, htakes, -⟩ := lawful.reads_object hv hread
  obtain ⟨f, hf, -, d₁, hreadable⟩ := htakes.readable _ hmem
  obtain ⟨hf, hname⟩ := mem_of_find hf
  exact hreadable (h f hf hname d₁)

end Shape.Lawful

end Records

/-! ### Fields -/

section Fields

variable {reader : Reader α} {f : Field δ} {add : δ → α → δ} {v : Value} {d d' : δ} {shape : Shape δ β}

theorem accepts_into {a : α} (h : Accepts reader v a) (add : α → δ) : Accepts (readInto reader add) v (add a) := by
  intro s rest hv
  obtain ⟨lt, h⟩ := h s rest hv
  rw [Reads, readInto, h]
  exact ⟨lt, rfl⟩

/-- The field's value is read by `reader` and added to the fields read so far. -/
def FilledBy (f : Field δ) (reader : Reader α) (add : δ → α → δ) : Prop := ∀ d, f.read d = readInto reader (add d)

theorem filledBy {name : Text} {optional : Bool} {isSet : δ → Bool} {read : δ → Reader δ}
    (h : ∀ d, read d = readInto reader (add d)) : FilledBy ⟨name, optional, isSet, read⟩ reader add := h

theorem FilledBy.accepts {a : α} (hf : FilledBy f reader add) (h : Accepts reader v a) (d : δ) :
    Accepts (f.read d) v (add d a) := by
  rw [hf]
  exact accepts_into h (add d)

theorem FilledBy.reads_inv {s rest : Text} (hf : FilledBy f reader add) (h : Reads (f.read d) s d' rest) :
    ∃ a, d' = add d a ∧ Reads reader s a rest := by
  obtain ⟨lt, h⟩ := h
  rw [hf, readInto] at h
  cases hread : reader s with
  | error e =>
    rw [hread] at h
    cases h
  | ok r =>
    rw [hread] at h
    cases h
    exact ⟨r.value, rfl, r.lt, hread⟩

theorem FilledBy.rejects (hf : FilledBy f reader add) (h : Rejects reader v) (d : δ) : Rejects (f.read d) v := by
  intro s rest d' rest' hv hread
  obtain ⟨a, -, hread⟩ := hf.reads_inv hread
  exact h s rest a rest' hv hread

/-- The field has a place of its own among the fields of the shape. -/
inductive HasSlot (shape : Shape δ β) (f : Field δ) : Prop where
  | slot {α : Type} {reader : Reader α} {add : δ → α → δ} : FilledBy f reader add → Whole reader →
    (∀ d a, ∀ g ∈ shape.fields, (g.isSet (add d a) = true ↔ g.isSet d = true ∨ g.name = f.name)) → HasSlot shape f

theorem lawful_of_hasSlot (unset : ∀ f ∈ shape.fields, f.isSet shape.empty = false)
    (h : ∀ f ∈ shape.fields, HasSlot shape f) : shape.Lawful where
  unset := unset
  sets := by
    intro f hf d s d' rest hread
    obtain ⟨hfilled, -, hsets⟩ := h f hf
    obtain ⟨a, rfl, -⟩ := hfilled.reads_inv hread
    exact hsets d a
  whole := by
    intro f hf d v s rest d' rest' hv hread
    obtain ⟨hfilled, hwhole, -⟩ := h f hf
    obtain ⟨a, -, hread⟩ := hfilled.reads_inv hread
    exact hwhole v s rest a rest' hv hread

end Fields

/-! ### Whole texts -/

section Texts

variable {reader : Reader α} {v : Value} {t : Text}

theorem IsTextOf.valueAt (h : IsTextOf v t) : ∃ w, Spaces w ∧ ValueAt v t w := by
  obtain ⟨w₁, s, w₂, rfl, hw₁, hs, hw₂⟩ := h
  exact ⟨w₂, hw₂, w₁, s, hw₁, hs, rfl⟩

theorem readAll_of_accepts {a : α} (h : Accepts reader v a) (ht : IsTextOf v t) : readAll reader t = .ok a := by
  obtain ⟨w, hw, hv⟩ := ht.valueAt
  obtain ⟨lt, hread⟩ := h t w hv
  have hskip : skipSpace w = [] := by
    have := skipSpace_spaces hw []
    rwa [List.append_nil] at this
  rw [readAll, hread]
  simp only [bind, Except.bind, hskip]
  rfl

theorem readAll_of_rejects (h : Rejects reader v) (ht : IsTextOf v t) : ∃ e, readAll reader t = .error e := by
  obtain ⟨w, hw, hv⟩ := ht.valueAt
  cases hread : reader t with
  | error e =>
    rw [readAll, hread]
    exact ⟨e, rfl⟩
  | ok r => exact absurd ⟨r.lt, hread⟩ (h t w r.value r.rest hv)

end Texts

end KeywordRules.Json
