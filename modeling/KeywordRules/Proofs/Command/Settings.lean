import KeywordRules.Command.Run
import Mathlib.Data.Nat.Digits.Defs

/-!
# Settings

A command takes each setting from its option, else from its variable, else from the standard.  The variables are read
first, whatever the options say: the level is named by one of six words in any case (`decides_parseLevel`), and the limit
is a positive number of 64 bits (`decides_parseLimit`).  If a variable says nothing of the kind, the first that does not
is reported and no command is run (`Config.settings_resolved`).
-/

namespace KeywordRules

/-! ### Variables -/

section Variables

variable {α : Type} {reads : Text → α → Prop} {standard : α} {parse : Text → Except ConfigError α}
  {fault : Text → ConfigError} {raw? : Option Text}

/-- What a variable says: what its text reads as, and the standard if it is not set. -/
def Says (reads : Text → α → Prop) (standard : α) (raw? : Option Text) (a : α) : Prop :=
  match raw? with
  | some raw => reads raw a
  | none => a = standard

/-- The variable is set to a text that reads as nothing. -/
def IsBad (reads : Text → α → Prop) (raw? : Option Text) : Prop := ∃ raw, raw? = some raw ∧ ∀ a, ¬ reads raw a

/-- The value of a variable that may not be set. -/
def parseVariable (parse : Text → Except ConfigError α) (standard : α) (raw? : Option Text) : Except ConfigError α :=
  match raw? with
  | some raw => parse raw
  | none => pure standard

/-- `parse` finds what a text reads as, and fault with a text that reads as nothing. -/
structure Decides (parse : Text → Except ConfigError α) (fault : Text → ConfigError) (reads : Text → α → Prop) : Prop where
  ok : ∀ {raw a}, parse raw = .ok a → reads raw a
  error : ∀ {raw e}, parse raw = .error e → e = fault raw ∧ ∀ a, ¬ reads raw a

/-- A variable has a value, or it is bad and so is reported. -/
theorem Decides.parseVariable (h : Decides parse fault reads) (standard : α) (raw? : Option Text) :
    (∃ a, parseVariable parse standard raw? = .ok a ∧ Says reads standard raw? a ∧ ¬ IsBad reads raw?) ∨
    ∃ raw, raw? = some raw ∧ parseVariable parse standard raw? = .error (fault raw) ∧ ∀ a, ¬ reads raw a := by
  cases raw? with
  | none => exact .inl ⟨standard, rfl, rfl, fun ⟨_, hraw, _⟩ => by cases hraw⟩
  | some raw =>
    cases hparse : parse raw with
    | ok a =>
      refine .inl ⟨a, hparse, h.ok hparse, ?_⟩
      rintro ⟨_, hraw, hnone⟩
      cases hraw
      exact hnone a (h.ok hparse)
    | error e =>
      obtain ⟨rfl, hnone⟩ := h.error hparse
      exact .inr ⟨raw, rfl, hparse, hnone⟩

end Variables

/-! ### Levels -/

/-- The lowercase words for a level: its own name, and `warning` for `warn`. -/
def Level.IsNamed (w : Text) (level : Level) : Prop := w = level.name ∨ level = .warn ∧ w = "warning".toList

instance (w : Text) (level : Level) : Decidable (level.IsNamed w) := inferInstanceAs (Decidable (_ ∨ _))

/-- The text names a level, in any case.  Folding goes character by character, which for these words is no restriction:
only a capital sigma is lowercased by what stands around it. -/
def Level.IsText (raw : Text) (level : Level) : Prop := level.IsNamed (fold raw)

theorem Level.ofText?_eq_some_iff {raw : Text} {level : Level} : ofText? raw = some level ↔ IsText raw level := by
  rw [ofText?, IsText]
  generalize fold raw = w
  constructor
  · intro h
    obtain ⟨before, after, hsplit, -⟩ := List.lookup_eq_some_iff.1 h
    have hmem : (w, level) ∈ spellings := by
      rw [hsplit]
      exact List.mem_append_right _ List.mem_cons_self
    have hall : ∀ p ∈ spellings, p.2.IsNamed p.1 := by decide
    exact hall _ hmem
  · rintro (rfl | ⟨rfl, rfl⟩)
    · cases level <;> decide
    · decide

theorem decides_parseLevel : Decides parseLevel .unknownLevel Level.IsText where
  ok {raw a} h := by
    unfold parseLevel at h
    split at h
    · next level hlevel =>
      cases h
      exact Level.ofText?_eq_some_iff.1 hlevel
    · cases h
  error {raw e} h := by
    unfold parseLevel at h
    split at h
    · cases h
    · next hnone =>
      cases h
      refine ⟨rfl, fun a ha => ?_⟩
      rw [Level.ofText?_eq_some_iff.2 ha] at hnone
      cases hnone

/-! ### Limits -/

/-- The text is the number `n` in decimal: an optional `+` and one or more ASCII digits. -/
def IsDecimal (t : Text) (n : Nat) : Prop :=
  ∃ digits, (t = digits ∨ t = '+' :: digits) ∧ digits ≠ [] ∧ (∀ c ∈ digits, c.isDigit = true) ∧
    n = Nat.ofDigits 10 (digits.reverse.map fun c => c.toNat - '0'.toNat)

/-- The text is a limit: a positive number of 64 bits with blanks around it. -/
def IsLimitText (raw : Text) (n : Nat) : Prop := IsDecimal (trim raw) n ∧ 1 ≤ n ∧ n < 2 ^ 64

theorem digitsValue_eq_ofDigits (t : Text) :
    digitsValue 0 t = Nat.ofDigits 10 (t.reverse.map fun c => c.toNat - '0'.toNat) := by
  have hstep : (fun (c : Char) (v : Nat) => v * 10 + (c.toNat - 48)) = fun c v => (c.toNat - '0'.toNat) + 10 * v := by
    funext c v
    rw [Nat.mul_comm, Nat.add_comm]
    rfl
  rw [digitsValue, ← List.foldr_reverse, hstep, Nat.ofDigits_eq_foldr, List.foldr_map]
  rfl

/-- The digits behind an optional sign. -/
private def unsigned : Text → Text
  | '+' :: r => r
  | t => t

private theorem unsigned_of_isDigit {t : Text} (h : ∀ c ∈ t, c.isDigit = true) : unsigned t = t := by
  unfold unsigned
  split
  · exact absurd (h _ List.mem_cons_self) (by decide)
  · rfl

private theorem eq_unsigned (t : Text) : t = unsigned t ∨ t = '+' :: unsigned t := by
  unfold unsigned
  split
  · exact .inr rfl
  · exact .inl rfl

theorem parseWord?_eq_some_iff {t : Text} {n : Nat} : parseWord? t = some n ↔ IsDecimal t n ∧ n < 2 ^ 64 := by
  have hword : ∀ n, n ≤ maxWord ↔ n < 2 ^ 64 := fun n => by
    unfold maxWord
    omega
  have hparse : parseWord? t = if unsigned t ≠ [] ∧ (unsigned t).all Char.isDigit ∧ digitsValue 0 (unsigned t) ≤ maxWord
      then some (digitsValue 0 (unsigned t)) else none := rfl
  rw [hparse, Option.ite_none_right_eq_some, hword, List.all_eq_true, Option.some.injEq]
  constructor
  · rintro ⟨⟨hne, hdigits, hlt⟩, rfl⟩
    exact ⟨⟨unsigned t, eq_unsigned t, hne, hdigits, digitsValue_eq_ofDigits _⟩, hlt⟩
  · rintro ⟨⟨digits, ht, hne, hdigits, hn⟩, hlt⟩
    have hunsigned : unsigned t = digits := by
      rcases ht with rfl | rfl
      · exact unsigned_of_isDigit hdigits
      · rfl
    rw [← digitsValue_eq_ofDigits] at hn
    rw [hunsigned, ← hn]
    exact ⟨⟨hne, hdigits, hlt⟩, rfl⟩

theorem decides_parseLimit : Decides parseLimit .invalidLimit IsLimitText where
  ok {raw n} h := by
    unfold parseLimit at h
    split at h
    · next m hword =>
      cases h
      obtain ⟨hdecimal, hlt⟩ := parseWord?_eq_some_iff.1 hword
      exact ⟨hdecimal, Nat.succ_pos m, hlt⟩
    · cases h
  error {raw e} h := by
    unfold parseLimit at h
    split at h
    · cases h
    · next hnone =>
      cases h
      refine ⟨rfl, ?_⟩
      rintro n ⟨hdecimal, hpos, hlt⟩
      obtain ⟨m, rfl⟩ := Nat.exists_eq_add_of_le' hpos
      exact hnone m (parseWord?_eq_some_iff.2 ⟨hdecimal, hlt⟩)

/-! ### Settings -/

namespace Config

/-- Each setting is the option's, else what its variable says; without a variable, warnings are shown and a document holds
at most 16 MiB. -/
structure IsResolved (lookup : Text → Option Text) (o : Overrides) (c : Config) : Prop where
  level_option : ∀ level, o.level? = some level → c.level = level
  level_variable : o.level? = none → Says Level.IsText .warn (lookup levelVariable) c.level
  maxBytes_option : ∀ n, o.maxBytes? = some n → c.maxBytes = n
  maxBytes_variable : o.maxBytes? = none → Says IsLimitText (16 * 1024 * 1024) (lookup limitVariable) c.maxBytes

theorem ofVariables_eq (lookup : Text → Option Text) :
    ofVariables lookup = (do
      let level ← parseVariable parseLevel .warn (lookup levelVariable)
      let maxBytes ← parseVariable parseLimit (16 * 1024 * 1024) (lookup limitVariable)
      return ⟨level, maxBytes⟩) := by
  unfold ofVariables parseVariable
  cases lookup levelVariable <;> cases lookup limitVariable <;> rfl

theorem isResolved_override {lookup : Text → Option Text} {c : Config}
    (hlevel : Says Level.IsText .warn (lookup levelVariable) c.level)
    (hlimit : Says IsLimitText (16 * 1024 * 1024) (lookup limitVariable) c.maxBytes) (o : Overrides) :
    IsResolved lookup o (c.override o) := by
  constructor
  · intro level h
    rw [override, h, Option.getD_some]
  · intro h
    rw [override, h, Option.getD_none]
    exact hlevel
  · intro n h
    rw [override, h, Option.getD_some]
  · intro h
    rw [override, h, Option.getD_none]
    exact hlimit

/-- Only an option could make the limit zero. -/
theorem IsResolved.one_le_maxBytes {lookup : Text → Option Text} {o : Overrides} {c : Config} (h : IsResolved lookup o c)
    (ho : ∀ n, o.maxBytes? = some n → 1 ≤ n) : 1 ≤ c.maxBytes := by
  cases hoption : o.maxBytes? with
  | some n =>
    rw [h.maxBytes_option n hoption]
    exact ho n hoption
  | none =>
    have hmeans := h.maxBytes_variable hoption
    unfold Says at hmeans
    split at hmeans
    · exact hmeans.2.1
    · rw [hmeans]
      decide

/-- Either the level is bad, or only the limit is, or both variables have a value. -/
theorem ofVariables_cases (lookup : Text → Option Text) :
    (∃ raw, lookup levelVariable = some raw ∧ (∀ level, ¬ Level.IsText raw level) ∧
      ofVariables lookup = .error (.unknownLevel raw)) ∨
    (∃ raw, lookup limitVariable = some raw ∧ (∀ n, ¬ IsLimitText raw n) ∧
      ¬ IsBad Level.IsText (lookup levelVariable) ∧ ofVariables lookup = .error (.invalidLimit raw)) ∨
    ∃ c, ¬ IsBad Level.IsText (lookup levelVariable) ∧ ¬ IsBad IsLimitText (lookup limitVariable) ∧
      Says Level.IsText .warn (lookup levelVariable) c.level ∧
      Says IsLimitText (16 * 1024 * 1024) (lookup limitVariable) c.maxBytes ∧ ofVariables lookup = .ok c := by
  rw [ofVariables_eq]
  rcases decides_parseLevel.parseVariable .warn (lookup levelVariable) with
    ⟨level, hlevel, hmeans, hgood⟩ | ⟨raw, hraw, hlevel, hnone⟩
  · rw [hlevel]
    rcases decides_parseLimit.parseVariable (16 * 1024 * 1024) (lookup limitVariable) with
      ⟨n, hlimit, hmeans', hgood'⟩ | ⟨raw, hraw, hlimit, hnone⟩
    · rw [hlimit]
      exact .inr (.inr ⟨⟨level, n⟩, hgood, hgood', hmeans, hmeans', rfl⟩)
    · rw [hlimit]
      exact .inr (.inl ⟨raw, hraw, hnone, hgood, rfl⟩)
  · rw [hlevel]
    exact .inl ⟨raw, hraw, hnone, rfl⟩

theorem misconfigured_of_ofVariables_eq_error {lookup : Text → Option Text} {e : ConfigError}
    (h : ofVariables lookup = .error e) {args : List Text} {invocation : Invocation}
    (hargs : Invocation.ofArguments args = .ok invocation) (inputs : Inputs) :
    Answer.ofArguments args lookup inputs = .misconfigured e := by
  simp only [Answer.ofArguments, hargs, h]

/-- The settings cannot be made exactly if a variable is bad: the level names none of the levels, or the limit, without the
blanks around it, is not an optional `+` and digits for a positive number of 64 bits.  A bad level is reported before a
bad limit, and no option hides either.  Otherwise each setting is the option's if there is one, else what its variable
says, else the standard, and the limit is at least 1 unless an option says otherwise. -/
theorem settings_resolved (lookup : Text → Option Text) (o : Overrides) :
    let level? := lookup levelVariable
    let limit? := lookup limitVariable
    let settings := (ofVariables lookup).map (·.override o)
    ((∃ e, settings = .error e) ↔ IsBad Level.IsText level? ∨ IsBad IsLimitText limit?) ∧
    (∀ raw, level? = some raw → (∀ level, ¬ Level.IsText raw level) → settings = .error (.unknownLevel raw)) ∧
    (∀ raw, ¬ IsBad Level.IsText level? → limit? = some raw → (∀ n, ¬ IsLimitText raw n) →
      settings = .error (.invalidLimit raw)) ∧
    (¬ IsBad Level.IsText level? → ¬ IsBad IsLimitText limit? → ∃ c, settings = .ok c ∧ IsResolved lookup o c ∧
      ((∀ n, o.maxBytes? = some n → 1 ≤ n) → 1 ≤ c.maxBytes)) ∧
    ∀ e args invocation inputs, settings = .error e → Invocation.ofArguments args = .ok invocation →
      Answer.ofArguments args lookup inputs = .misconfigured e := by
  dsimp only
  rcases ofVariables_cases lookup with
    ⟨raw, hraw, hnone, hvariables⟩ | ⟨raw, hraw, hnone, hgood, hvariables⟩ | ⟨c, hgood, hgood', hlevel, hlimit, hvariables⟩
  · have hbad : IsBad Level.IsText (lookup levelVariable) := ⟨raw, hraw, hnone⟩
    rw [hvariables]
    refine ⟨⟨fun _ => .inl hbad, fun _ => ⟨_, rfl⟩⟩, fun raw' hraw' _ => ?_, fun _ hgood => absurd hbad hgood,
      fun hgood => absurd hbad hgood, fun e args invocation inputs he hargs => ?_⟩
    · cases hraw.symm.trans hraw'
      rfl
    · cases he
      exact misconfigured_of_ofVariables_eq_error hvariables hargs inputs
  · have hbad : IsBad IsLimitText (lookup limitVariable) := ⟨raw, hraw, hnone⟩
    rw [hvariables]
    refine ⟨⟨fun _ => .inr hbad, fun _ => ⟨_, rfl⟩⟩, fun raw' hraw' hnone' => absurd ⟨raw', hraw', hnone'⟩ hgood,
      fun raw' _ hraw' _ => ?_, fun _ hgood' => absurd hbad hgood', fun e args invocation inputs he hargs => ?_⟩
    · cases hraw.symm.trans hraw'
      rfl
    · cases he
      exact misconfigured_of_ofVariables_eq_error hvariables hargs inputs
  · have hresolved := isResolved_override hlevel hlimit o
    rw [hvariables]
    refine ⟨⟨fun ⟨_, he⟩ => (by cases he), fun hbad => absurd hbad (not_or.2 ⟨hgood, hgood'⟩)⟩,
      fun raw hraw hnone => absurd ⟨raw, hraw, hnone⟩ hgood, fun raw _ hraw hnone => absurd ⟨raw, hraw, hnone⟩ hgood',
      fun _ _ => ⟨c.override o, rfl, hresolved, hresolved.one_le_maxBytes⟩, fun _ _ _ _ he => (by cases he)⟩

/-- An environment with both variables. -/
def environment (level limit : Text) (name : Text) : Option Text :=
  if name = levelVariable then some level else if name = limitVariable then some limit else none

/-- The greatest limit, with blanks, a sign and leading zeros around it. -/
def greatestLimit : Text := "\u2003+0018446744073709551615\n".toList

/-- The least number that is no limit. -/
def overflowingLimit : Text := "18446744073709551616".toList

/-- The greatest limit is accepted; one more is reported although an option gives another. -/
theorem settings_resolved_greatest :
    let accepted := environment "WARNing".toList greatestLimit
    let refused := environment "info".toList overflowingLimit
    (¬ IsBad Level.IsText (accepted levelVariable) ∧ ¬ IsBad IsLimitText (accepted limitVariable)) ∧
    (∃ c, (ofVariables accepted).map (·.override ⟨none, none⟩) = .ok c ∧ IsResolved accepted ⟨none, none⟩ c) ∧
    (ofVariables accepted).toOption = some ⟨.warn, 2 ^ 64 - 1⟩ ∧
    (¬ IsBad Level.IsText (refused levelVariable) ∧ ∀ n, ¬ IsLimitText overflowingLimit n) ∧
    (ofVariables refused).map (·.override ⟨none, some 1⟩) = .error (.invalidLimit overflowingLimit) := by
  have hlevel (raw : Text) (level : Level) (h : Level.ofText? raw = some level) (limit : Text) :
      ¬ IsBad Level.IsText (environment raw limit levelVariable) := by
    rintro ⟨_, hraw, hnone⟩
    cases hraw
    exact hnone level (Level.ofText?_eq_some_iff.1 h)
  have haccepted := hlevel "WARNing".toList .warn (by decide +kernel) greatestLimit
  have hgreatest : ¬ IsBad IsLimitText (environment "WARNing".toList greatestLimit limitVariable) := by
    rintro ⟨_, hraw, hnone⟩
    cases hraw
    exact hnone (2 ^ 64 - 1) ⟨(parseWord?_eq_some_iff.1 (by decide +kernel)).1, by decide, by decide⟩
  have hrefused := hlevel "info".toList .info (by decide +kernel) overflowingLimit
  have hoverflow : ∀ n, ¬ IsLimitText overflowingLimit n := by
    intro n h
    have hword : parseWord? (trim overflowingLimit) = none := by decide +kernel
    rw [parseWord?_eq_some_iff.2 ⟨h.1, h.2.2⟩] at hword
    cases hword
  obtain ⟨-, -, -, hsettings, -⟩ := settings_resolved (environment "WARNing".toList greatestLimit) ⟨none, none⟩
  obtain ⟨-, -, herror, -, -⟩ := settings_resolved (environment "info".toList overflowingLimit) ⟨none, some 1⟩
  obtain ⟨c, hc, hresolved, -⟩ := hsettings haccepted hgreatest
  exact ⟨⟨haccepted, hgreatest⟩, ⟨c, hc, hresolved⟩, by decide +kernel, ⟨hrefused, hoverflow⟩,
    herror overflowingLimit hrefused rfl hoverflow⟩

end Config

end KeywordRules
