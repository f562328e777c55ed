import KeywordRules.Command.Run
import KeywordRules.Proofs.Query.NormalTokens
import KeywordRules.Proofs.RuleSet.Json
import KeywordRules.Proofs.RuleSet.Listing

/-!
# The lines of a check

A check shows each rule and then each warning.  Canonical texts and messages stay on their line, so only the names decide
what the lines are: there is one for each rule and each warning exactly if no name holds a line break
(`Command.check_lines`).  Behind the last colon a rule shows a canonical text and a warning a message, and these have no
text in common, so that on lines of their own the two cannot be mistaken for each other, whatever the names.
-/

namespace KeywordRules

/-! ### Texts without line breaks and colons -/

/-- The text ends a line behind a colon: it has no line break and no further colon. -/
def IsTail (t : Text) : Prop := ∀ c ∈ t, c ≠ '\n' ∧ c ≠ ':'

instance (t : Text) : Decidable (IsTail t) := List.decidableBAll _ t

theorem isTail_append {t u : Text} : IsTail (t ++ u) ↔ IsTail t ∧ IsTail u := List.forall_mem_append

theorem IsTail.blank_cons {t : Text} (h : IsTail t) : IsTail (' ' :: t) := by
  intro c hc
  rcases List.mem_cons.1 hc with rfl | hc
  · decide
  · exact h c hc

theorem IsTail.newline_not_mem {t : Text} (h : IsTail t) : '\n' ∉ t := fun hmem => (h _ hmem).1 rfl

theorem isTail_decimal (n : Nat) : IsTail (decimal n) := by
  intro c hc
  have hdigit : c.isDigit = true := Nat.isDigit_of_mem_toDigits (by decide) (by decide) hc
  constructor
  · rintro rfl
    exact absurd hdigit (by decide)
  · rintro rfl
    exact absurd hdigit (by decide)

theorem isTail_message (w : Warning) : IsTail w.message := by
  have hat : ∀ p, IsTail (Warning.atToken p) := fun p =>
    isTail_append.2 ⟨isTail_append.2 ⟨by decide, isTail_decimal p⟩, by decide⟩
  cases w with
  | emptyQuery => decide
  | neverMatches => decide
  | unclosedGroup p => exact isTail_append.2 ⟨by decide, hat p⟩
  | unmatchedClose p => exact isTail_append.2 ⟨by decide, hat p⟩
  | bareWildcard p => exact isTail_append.2 ⟨by decide, hat p⟩
  | missingOperand c p =>
    have hconnective : IsTail (['\''] ++ c.text ++ "' is missing an operand".toList) := by cases c <;> decide
    exact isTail_append.2 ⟨hconnective, hat p⟩
  | nestingTooDeep p limit =>
    have hlimit : IsTail ("groups nested deeper than ".toList ++ decimal limit ++ " levels".toList) :=
      isTail_append.2 ⟨isTail_append.2 ⟨by decide, isTail_decimal limit⟩, by decide⟩
    exact isTail_append.2 ⟨isTail_append.2 ⟨hlimit, hat p⟩, by decide⟩

/-! ### Canonical texts -/

/-- The characters that canonical texts are made of. -/
def IsCanonicalChar (c : Char) : Prop := isWordChar c = true ∨ c ∈ [' ', '(', ')', '*', '"']

instance : DecidablePred IsCanonicalChar := fun _ => inferInstanceAs (Decidable (_ ∨ _))

theorem Leaf.IsCanonical.isCanonicalChar {l : Leaf} (h : l.IsCanonical) : ∀ c ∈ l.render, IsCanonicalChar c := by
  have hword : ∀ {v : Text}, IsNormalWord v → ∀ c ∈ v, IsCanonicalChar c := fun hv c hc => .inl (hv.2 c hc).1
  intro c hc
  cases l with
  | word v => exact hword h.1 c hc
  | stem v =>
    rcases List.mem_append.1 hc with hc | hc
    · rcases h with rfl | h
      · cases hc
      · exact hword h c hc
    · rw [List.mem_singleton.1 hc]
      decide
  | phrase v =>
    rcases List.mem_cons.1 hc with rfl | hc
    · decide
    · rcases List.mem_append.1 hc with hc | hc
      · by_cases hbreak : isWordChar c = true
        · exact .inl hbreak
        · by_cases hblank : c = ' '
          · rw [hblank]
            decide
          · exact absurd hc (not_mem_of_normal h.2 (Bool.eq_false_iff.2 hbreak) hblank)
      · rw [List.mem_singleton.1 hc]
        decide

theorem isCanonicalChar_of_all {t : Text} (h : t.all (fun c => IsCanonicalChar c) = true) : ∀ c ∈ t, IsCanonicalChar c :=
  fun c hc => of_decide_eq_true (List.all_eq_true.1 h c hc)

theorem Expr.isCanonicalChar {e : Expr} (h : ∀ l ∈ e.leaves, l.IsCanonical) : ∀ c ∈ e.render, IsCanonicalChar c := by
  induction e with
  | leaf l => exact (h l List.mem_cons_self).isCanonicalChar
  | not e ih => exact List.forall_mem_append.2 ⟨isCanonicalChar_of_all rfl, ih h⟩
  | and l r ihl ihr =>
    have hl := ihl fun x hx => h x (List.mem_append_left _ hx)
    have hr := ihr fun x hx => h x (List.mem_append_right _ hx)
    rw [render, List.forall_mem_cons, List.forall_mem_append, List.forall_mem_append, List.forall_mem_append]
    exact ⟨by decide, hl, isCanonicalChar_of_all rfl, hr, isCanonicalChar_of_all rfl⟩
  | or l r ihl ihr =>
    have hl := ihl fun x hx => h x (List.mem_append_left _ hx)
    have hr := ihr fun x hx => h x (List.mem_append_right _ hx)
    rw [render, List.forall_mem_cons, List.forall_mem_append, List.forall_mem_append, List.forall_mem_append]
    exact ⟨by decide, hl, isCanonicalChar_of_all rfl, hr, isCanonicalChar_of_all rfl⟩

theorem isCanonical_of_mem_leavesOf_compile {q : Text} : ∀ l ∈ leavesOf (Query.compile q).root?, l.IsCanonical := by
  intro l hl
  rw [leavesOf_compile] at hl
  obtain ⟨t, ht, hown⟩ := List.mem_filterMap.1 hl
  exact isNormal_of_mem_tokens ht l hown

/-- What a check shows of a query: its canonical text, or that there is none. -/
def Query.shown (q : Query) : Text :=
  match q.root? with
  | some e => e.render
  | none => "<never matches>".toList

theorem isTail_shown (q : Text) : IsTail (Query.compile q).shown := by
  have hleaves := isCanonical_of_mem_leavesOf_compile (q := q)
  rw [Query.shown]
  cases hroot : (Query.compile q).root? with
  | none => decide
  | some e =>
    rw [hroot] at hleaves
    intro c hc
    have hchar := Expr.isCanonicalChar hleaves c hc
    constructor
    · rintro rfl
      revert hchar
      decide
    · rintro rfl
      revert hchar
      decide

/-- No expression is shown as a sentence: only in quotes and behind `NOT` or a parenthesis do blanks stand. -/
theorem render_ne_of_blank {e : Expr} (h : ∀ l ∈ e.leaves, l.IsCanonical) {t : Text} (hblank : ' ' ∈ t)
    (hhead : t.head? ∉ [some '"', some 'N', some '(']) (hlast : t.getLast? ≠ some '*') : e.render ≠ t := by
  rintro rfl
  cases e with
  | leaf l =>
    have hl := h l List.mem_cons_self
    cases l with
    | word v => exact hl.1.not_mem (by decide) hblank
    | stem v => exact hlast List.getLast?_concat
    | phrase v => exact hhead List.mem_cons_self
  | not e => exact hhead (List.mem_cons_of_mem _ List.mem_cons_self)
  | and l r => exact hhead (List.mem_cons_of_mem _ (List.mem_cons_of_mem _ List.mem_cons_self))
  | or l r => exact hhead (List.mem_cons_of_mem _ (List.mem_cons_of_mem _ List.mem_cons_self))

/-- What is shown of a query is no message of a warning. -/
theorem shown_ne_message (q : Text) (w : Warning) : (Query.compile q).shown ≠ w.message := by
  have hleaves := isCanonical_of_mem_leavesOf_compile (q := q)
  rw [Query.shown]
  cases hroot : (Query.compile q).root? with
  | none =>
    obtain ⟨c, t, hmessage, hc⟩ : ∃ c t, w.message = c :: t ∧ c ≠ '<' := by
      cases w <;> exact ⟨_, _, rfl, by decide⟩
    rw [hmessage]
    exact fun h => hc (List.cons.inj h).1.symm
  | some e =>
    rw [hroot] at hleaves
    -- a position is shown with a hyphen, which no canonical text has
    have hnone : '-' ∉ e.render := by
      intro hmem
      have hchar := Expr.isCanonicalChar hleaves _ hmem
      revert hchar
      decide
    have hposition : ∀ p, '-' ∈ Warning.atToken p := fun p => List.mem_append_right _ (by decide)
    intro h
    change e.render = w.message at h
    rw [h] at hnone
    cases w with
    | emptyQuery => exact render_ne_of_blank hleaves (by decide) (by decide) (by decide) h
    | neverMatches => exact render_ne_of_blank hleaves (by decide) (by decide) (by decide) h
    | nestingTooDeep p limit => exact hnone (List.mem_append_left _ (List.mem_append_right _ (hposition p)))
    | unclosedGroup p => exact hnone (List.mem_append_right _ (hposition p))
    | unmatchedClose p => exact hnone (List.mem_append_right _ (hposition p))
    | missingOperand c p => exact hnone (List.mem_append_right _ (hposition p))
    | bareWildcard p => exact hnone (List.mem_append_right _ (hposition p))

/-! ### The lines of a text -/

section Lines

variable {c : Char}

theorem length_fields (c : Char) (t : Text) : (fields (· = c) t).length = t.count c + 1 := by
  induction t with
  | nil => rfl
  | cons a t ih =>
    rw [fields]
    by_cases ha : a = c
    · simp [ha, ih]
    · simp [ha, ih]

/-- Texts that are each ended by a separator are fields as far as they have none. -/
theorem fields_flatMap_ended (c : Char) (ts : List Text) :
    fields (· = c) (ts.flatMap fun t => t ++ [c]) = ts.flatMap (fields (· = c)) ++ [[]] := by
  induction ts with
  | nil => rfl
  | cons t ts ih =>
    rw [List.flatMap_cons, List.append_assoc, List.singleton_append, fields_append_sep (by simp), ih, List.flatMap_cons,
      List.append_assoc]

theorem flatMap_fields_eq_self {ts : List Text} (h : ∀ t ∈ ts, c ∉ t) : ts.flatMap (fields (· = c)) = ts := by
  have hone : ∀ t ∈ ts, fields (· = c) t = [t] := by
    intro t ht
    refine fields_eq_singleton fun a ha => ?_
    simpa using ne_of_mem_of_not_mem ha (h t ht)
  rw [List.flatMap_congr hone, List.flatMap_singleton']

/-- There are more fields than texts as soon as one of the texts has a separator. -/
theorem length_flatMap_fields_eq_iff {ts : List Text} :
    (ts.flatMap (fields (· = c))).length = ts.length ↔ ∀ t ∈ ts, c ∉ t := by
  have hlength : (ts.flatMap (fields (· = c))).length = ts.length + (ts.map (List.count c)).sum := by
    induction ts with
    | nil => rfl
    | cons t ts ih =>
      rw [List.flatMap_cons, List.length_append, length_fields, ih, List.map_cons, List.sum_cons, List.length_cons]
      omega
  rw [hlength, Nat.add_eq_left, List.sum_eq_zero_iff_forall_eq_nat, List.forall_mem_map]
  simp only [List.count_eq_zero]

end Lines

/-! ### The lines of a check -/

/-- What a check shows of a rule. -/
def CompiledRule.shown (r : CompiledRule) : Text := r.label ++ ": ".toList ++ r.query.shown

/-- What a check shows of a warning. -/
def RuleWarning.shown (w : RuleWarning) : Text := "warning: ".toList ++ w.message

/-- No name holds a line break. -/
def RuleSet.NamesOnOneLine (rs : RuleSet) : Prop :=
  ∀ b ∈ rs.brands, '\n' ∉ b.name ∧ ∀ s ∈ b.subbrands, '\n' ∉ s.name

/-- Everything a check shows, in order. -/
def RuleSet.shown (rs : RuleSet) : List Text :=
  rs.compile.rules.map CompiledRule.shown ++ rs.compile.warnings.map RuleWarning.shown

theorem stdout_checkRules (rs : RuleSet) (strict : Bool) :
    (checkRules rs.compile strict).stdout = rs.shown.flatMap fun t => t ++ ['\n'] := by
  rw [RuleSet.shown, List.flatMap_append, List.flatMap_map, List.flatMap_map]
  rfl

/-- What stands behind the last colon of a text. -/
theorem eq_of_append_colon_eq {t u v w : Text} (h : t ++ ':' :: v = u ++ ':' :: w) (hv : IsTail v) (hw : IsTail w) :
    v = w := by
  have hlast : ∀ {t v}, IsTail v → (fields (· = ':') (t ++ ':' :: v)).getLast? = some v := by
    intro t v hv
    have hone : fields (· = ':') v = [v] := fields_eq_singleton fun a ha => by simpa using (hv a ha).2
    rw [fields_append_sep (by decide), hone, List.getLast?_concat]
  have heq := hlast (t := t) hv
  rw [h, hlast hw] at heq
  exact (Option.some.inj heq).symm

theorem exists_message_eq (w : RuleWarning) : ∃ front, w.message = front ++ ": ".toList ++ w.warning.message :=
  ⟨_, rfl⟩

section RuleSets

variable {rs : RuleSet} {r : CompiledRule}

theorem exists_query_eq_compile (hr : r ∈ rs.compile.rules) : ∃ q, r.query = Query.compile q := by
  rw [rs.rules_compile] at hr
  obtain ⟨b, -, hr⟩ := List.mem_flatMap.1 hr
  rcases List.mem_cons.1 hr with rfl | hr
  · exact ⟨b.rule, rfl⟩
  · obtain ⟨s, -, rfl⟩ := List.mem_map.1 hr
    exact ⟨s.rule, rfl⟩

/-- No rule is shown as a warning is, whatever their names. -/
theorem shown_rule_ne_shown_warning (hr : r ∈ rs.compile.rules) (w : RuleWarning) : r.shown ≠ w.shown := by
  intro h
  obtain ⟨q, hq⟩ := exists_query_eq_compile hr
  obtain ⟨front, hmessage⟩ := exists_message_eq w
  have hcolon : ": ".toList = [':', ' '] := by decide
  have hsplit : r.label ++ ':' :: ' ' :: (Query.compile q).shown =
      ("warning: ".toList ++ front) ++ ':' :: ' ' :: w.warning.message := by
    unfold RuleWarning.shown CompiledRule.shown at h
    rw [hq, hmessage, hcolon] at h
    simpa only [List.append_assoc, List.cons_append, List.nil_append] using h
  have htails := eq_of_append_colon_eq hsplit (isTail_shown q).blank_cons (isTail_message w.warning).blank_cons
  exact shown_ne_message q w.warning (List.cons.inj htails).2

theorem namesOnOneLine_iff :
    rs.NamesOnOneLine ↔ ∀ r ∈ rs.compile.rules, '\n' ∉ r.brand ∧ ∀ s ∈ r.subbrand?, '\n' ∉ s := by
  rw [rs.rules_compile]
  constructor
  · intro h r hr
    obtain ⟨b, hb, hr⟩ := List.mem_flatMap.1 hr
    obtain ⟨hbrand, hsubbrands⟩ := h b hb
    rcases List.mem_cons.1 hr with rfl | hr
    · exact ⟨hbrand, fun s hs => by cases hs⟩
    · obtain ⟨s, hs, rfl⟩ := List.mem_map.1 hr
      refine ⟨hbrand, fun n hn => ?_⟩
      cases hn
      exact hsubbrands s hs
  · intro h b hb
    refine ⟨(h _ (List.mem_flatMap.2 ⟨b, hb, List.mem_cons_self⟩)).1, fun s hs => ?_⟩
    exact (h _ (List.mem_flatMap.2 ⟨b, hb, List.mem_cons_of_mem _ (List.mem_map_of_mem hs)⟩)).2 _ rfl

theorem newline_not_mem_shown_rule (hr : r ∈ rs.compile.rules) :
    '\n' ∉ r.shown ↔ '\n' ∉ r.brand ∧ ∀ s ∈ r.subbrand?, '\n' ∉ s := by
  obtain ⟨q, hq⟩ := exists_query_eq_compile hr
  have htail : '\n' ∉ r.query.shown := hq ▸ (isTail_shown q).newline_not_mem
  unfold CompiledRule.shown CompiledRule.label
  cases r.subbrand? <;> simp [htail]

theorem newline_not_mem_shown_warning (w : RuleWarning) :
    '\n' ∉ w.shown ↔ '\n' ∉ w.brand ∧ ∀ s ∈ w.subbrand?, '\n' ∉ s := by
  have htail : '\n' ∉ w.warning.message := (isTail_message w.warning).newline_not_mem
  unfold RuleWarning.shown RuleWarning.message
  cases w.subbrand? <;> simp [htail]

/-- Only names can bring a line break into what is shown. -/
theorem newline_not_mem_shown_iff : (∀ t ∈ rs.shown, '\n' ∉ t) ↔ rs.NamesOnOneLine := by
  rw [RuleSet.shown, List.forall_mem_append, List.forall_mem_map, List.forall_mem_map, namesOnOneLine_iff]
  constructor
  · rintro ⟨hrules, -⟩ r hr
    exact (newline_not_mem_shown_rule hr).1 (hrules r hr)
  · intro h
    refine ⟨fun r hr => (newline_not_mem_shown_rule hr).2 (h r hr), fun w hw => ?_⟩
    rw [rs.warnings_compile] at hw
    obtain ⟨r, hr, hw⟩ := List.mem_flatMap.1 hw
    obtain ⟨v, -, rfl⟩ := List.mem_map.1 hw
    exact (newline_not_mem_shown_warning _).2 (h r hr)

theorem length_rules_compile (rs : RuleSet) :
    rs.compile.rules.length = rs.brands.length + (rs.brands.flatMap Brand.subbrands).length := by
  rw [rs.rules_compile]
  induction rs.brands with
  | nil => rfl
  | cons b bs ih =>
    simp only [List.flatMap_cons, List.length_append, List.length_cons, List.length_map] at ih ⊢
    omega

end RuleSets

/-- A check of a rule set that is accepted shows each rule, in the order of the rule set, and then each warning.  There are
as many lines as rules and warnings exactly if no name holds a line break, and then the lines are what is shown, in that
order.  No rule is ever shown as a warning is. -/
theorem Command.check_lines (limit : Nat) (inputs : Inputs) (path : Text) (strict : Bool) {text : Text} {rs : RuleSet}
    (hread : inputs.read limit path = .ok text) (hrules : RuleSet.ofJson text = .ok rs) :
    let lines := fields (· = '\n') (Command.run limit inputs (.check (.rules path) strict)).stdout
    let rules := rs.compile.rules
    let warnings := rs.compile.warnings
    rules.length = rs.brands.length + (rs.brands.flatMap Brand.subbrands).length ∧
    (lines.length = rules.length + warnings.length + 1 ↔ rs.NamesOnOneLine) ∧
    (rs.NamesOnOneLine → lines = rules.map CompiledRule.shown ++ warnings.map RuleWarning.shown ++ [[]]) ∧
    ∀ r ∈ rules, ∀ w : RuleWarning, r.shown ≠ w.shown := by
  have hlines : fields (· = '\n') (Command.run limit inputs (.check (.rules path) strict)).stdout =
      rs.shown.flatMap (fields (· = '\n')) ++ [[]] := by
    simp only [Command.run, loadClassifier, hread, hrules]
    rw [stdout_checkRules, fields_flatMap_ended]
  have hcount : rs.shown.length = rs.compile.rules.length + rs.compile.warnings.length := by
    rw [RuleSet.shown, List.length_append, List.length_map, List.length_map]
  refine ⟨length_rules_compile rs, ?_, ?_, fun r hr w => shown_rule_ne_shown_warning hr w⟩
  · rw [hlines, List.length_append, List.length_singleton, Nat.add_right_cancel_iff, ← hcount,
      length_flatMap_fields_eq_iff, newline_not_mem_shown_iff]
  · intro hnames
    rw [hlines, flatMap_fields_eq_self (newline_not_mem_shown_iff.2 hnames)]
    rfl

theorem eq_ok_of_toOption {ε α : Type} {x : Except ε α} {a : α} (h : x.toOption = some a) : x = .ok a := by
  cases x with
  | error e => cases h
  | ok b =>
    cases h
    rfl

/-- A rule set in the file `r`. -/
def RuleSet.asFile (rs : RuleSet) : Inputs where
  file path := if path = ['r'] then .ok (rs.toJson.map fun c => UInt8.ofNat c.toNat) else .error .notFound
  stdin := .ok []

/-- Names that look like the front of a warning, and two rules with warnings. -/
def warningNames : RuleSet := ⟨[⟨"warning".toList, "a OR (b".toList, [⟨"brand `A`".toList, []⟩]⟩]⟩

theorem Command.check_lines_warningNames :
    let lines := fields (· = '\n') (Command.run 100 warningNames.asFile (.check (.rules ['r']) true)).stdout
    (warningNames.asFile.read 100 ['r'] = .ok warningNames.toJson ∧
      RuleSet.ofJson warningNames.toJson = .ok warningNames ∧ warningNames.NamesOnOneLine) ∧
    lines.length = 5 ∧
    lines = warningNames.compile.rules.map CompiledRule.shown ++ warningNames.compile.warnings.map RuleWarning.shown ++
      [[]] ∧
    ∀ r ∈ warningNames.compile.rules, ∀ w : RuleWarning, r.shown ≠ w.shown := by
  have hread : warningNames.asFile.read 100 ['r'] = .ok warningNames.toJson := eq_ok_of_toOption (by decide +kernel)
  have hrules : RuleSet.ofJson warningNames.toJson = .ok warningNames := by
    rw [RuleSet.ofJson_toJson_eq_check]
    rfl
  have hnames : warningNames.NamesOnOneLine := by
    simp only [RuleSet.NamesOnOneLine, warningNames, List.forall_mem_singleton]
    decide
  obtain ⟨-, hlength, hlines, happart⟩ := Command.check_lines 100 warningNames.asFile ['r'] true hread hrules
  have hcount : warningNames.compile.rules.length + warningNames.compile.warnings.length + 1 = 5 := by decide +kernel
  exact ⟨⟨hread, hrules, hnames⟩, (hlength.2 hnames).trans hcount, hlines hnames, happart⟩

/-- A brand whose name goes over three lines. -/
def brokenName : RuleSet := ⟨[⟨"A: a\nwarning: brand `A`: query is empty\nB".toList, ['a'], []⟩]⟩

/-- The check of a single rule without warnings has three lines, and a warning stands between two rules. -/
theorem Command.check_lines_brokenName :
    let lines := fields (· = '\n') (Command.run 100 brokenName.asFile (.check (.rules ['r']) false)).stdout
    (brokenName.asFile.read 100 ['r'] = .ok brokenName.toJson ∧ RuleSet.ofJson brokenName.toJson = .ok brokenName) ∧
    (brokenName.compile.rules.length = 1 ∧ brokenName.compile.warnings = []) ∧
    lines = ["A: a".toList, (RuleWarning.mk ['A'] none .emptyQuery).shown, "B: a".toList, []] ∧
    lines.length ≠ brokenName.compile.rules.length + brokenName.compile.warnings.length + 1 := by
  have hlines : fields (· = '\n') (Command.run 100 brokenName.asFile (.check (.rules ['r']) false)).stdout =
      ["A: a".toList, (RuleWarning.mk ['A'] none .emptyQuery).shown, "B: a".toList, []] := by
    decide +kernel
  have hread : brokenName.asFile.read 100 ['r'] = .ok brokenName.toJson := eq_ok_of_toOption (by decide +kernel)
  have hrules : RuleSet.ofJson brokenName.toJson = .ok brokenName := by
    rw [RuleSet.ofJson_toJson_eq_check]
    rfl
  refine ⟨⟨hread, hrules⟩, by decide +kernel, hlines, ?_⟩
  rw [hlines]
  decide +kernel

end KeywordRules
