import KeywordRules.Command.Run
import KeywordRules.Proofs.Json.Values
import KeywordRules.Proofs.Json.Writing

/-!
# Reports on documents

A line that `match` or `classify` writes about a document holds one report.  It is read here the way any consumer would:
the fields in any order, `null` for a brand or a sub-brand that is absent.  The report has no control in it, so the line
ends where the report ends.
-/

namespace KeywordRules

structure MatchReport where
  document : Text
  matched : Bool
deriving DecidableEq, Repr

structure ClassifyReport where
  document : Text
  brand? : Option Text
  subbrand? : Option Text
deriving DecidableEq, Repr

/-- The fields of a report of `match` read so far. -/
structure MatchReportDraft where
  document? : Option Text
  matched? : Option Bool

/-- The fields of a report of `classify` read so far. -/
structure ClassifyReportDraft where
  document? : Option Text
  brand?? : Option (Option Text)
  subbrand?? : Option (Option Text)

namespace Json

/-! ### Reading reports -/

def readBool : Reader Bool := fun s =>
  match h : skipSpace s with
  | 't' :: 'r' :: 'u' :: 'e' :: t =>
    .ok ⟨true, t, by have := length_skipSpace s; simp only [h, List.length_cons] at this; omega⟩
  | 'f' :: 'a' :: 'l' :: 's' :: 'e' :: t =>
    .ok ⟨false, t, by have := length_skipSpace s; simp only [h, List.length_cons] at this; omega⟩
  | t => .error (typeError "a boolean".toList t)

/-- A value or `null`. -/
def readNullable {α : Type} (reader : Reader α) : Reader (Option α) := fun s =>
  match h : skipSpace s with
  | 'n' :: 'u' :: 'l' :: 'l' :: t =>
    .ok ⟨none, t, by have := length_skipSpace s; simp only [h, List.length_cons] at this; omega⟩
  | _ => readInto reader some s

def matchReportShape : Shape MatchReportDraft MatchReport where
  title := "struct MatchReport".toList
  fields := [
    ⟨"document".toList, false, (·.document?.isSome), fun d => readInto readString fun v => { d with document? := some v }⟩,
    ⟨"matched".toList, false, (·.matched?.isSome), fun d => readInto readBool fun v => { d with matched? := some v }⟩]
  empty := ⟨none, none⟩
  build d := ⟨d.document?.getD [], d.matched?.getD false⟩

def classifyReportShape : Shape ClassifyReportDraft ClassifyReport where
  title := "struct ClassifyReport".toList
  fields := [
    ⟨"document".toList, false, (·.document?.isSome), fun d => readInto readString fun v => { d with document? := some v }⟩,
    ⟨"brand".toList, false, (·.brand??.isSome),
      fun d => readInto (readNullable readString) fun v => { d with brand?? := some v }⟩,
    ⟨"subbrand".toList, false, (·.subbrand??.isSome),
      fun d => readInto (readNullable readString) fun v => { d with subbrand?? := some v }⟩]
  empty := ⟨none, none, none⟩
  build d := ⟨d.document?.getD [], d.brand??.getD none, d.subbrand??.getD none⟩

theorem reads_true {s t : Text} (hs : skipSpace s = 't' :: 'r' :: 'u' :: 'e' :: t) : Reads readBool s true t := by
  refine ⟨by have := length_skipSpace s; simp only [hs, List.length_cons] at this; omega, ?_⟩
  rw [readBool]
  split
  · next h =>
    rw [hs] at h
    cases h
    rfl
  · next h => rw [hs] at h; cases h
  · next hword _ => exact absurd hs (hword t)

theorem reads_false {s t : Text} (hs : skipSpace s = 'f' :: 'a' :: 'l' :: 's' :: 'e' :: t) :
    Reads readBool s false t := by
  refine ⟨by have := length_skipSpace s; simp only [hs, List.length_cons] at this; omega, ?_⟩
  rw [readBool]
  split
  · next h => rw [hs] at h; cases h
  · next h =>
    rw [hs] at h
    cases h
    rfl
  · next _ hword => exact absurd hs (hword t)

theorem reads_null {α : Type} {reader : Reader α} {s t : Text} (hs : skipSpace s = 'n' :: 'u' :: 'l' :: 'l' :: t) :
    Reads (readNullable reader) s none t := by
  refine ⟨by have := length_skipSpace s; simp only [hs, List.length_cons] at this; omega, ?_⟩
  rw [readNullable]
  split
  · next h =>
    rw [hs] at h
    cases h
    rfl
  · next hword => exact absurd hs (hword t)

theorem accepts_boolean (b : Bool) : Accepts readBool (.boolean b) b := by
  rintro _ rest ⟨w, t, hw, ht, rfl⟩
  cases ht with
  | yes => exact reads_true (skipSpace_spaces_cons hw (by decide) _)
  | no => exact reads_false (skipSpace_spaces_cons hw (by decide) _)

/-- What is written for a text that may be absent. -/
def Value.nullable : Option Text → Value
  | none => .null
  | some t => .string t

theorem accepts_nullable (t? : Option Text) : Accepts (readNullable readString) (.nullable t?) t? := by
  intro s rest hv
  cases t? with
  | none =>
    obtain ⟨w, _, hw, ⟨⟩, rfl⟩ := hv
    exact reads_null (skipSpace_spaces_cons hw (by decide) _)
  | some t =>
    obtain ⟨u, hs, -⟩ := hv.string
    rw [Reads, readNullable]
    split
    · next h =>
      rw [hs] at h
      cases h
    · exact accepts_into (accepts_string t) some s rest hv

theorem writes_writeBool (b : Bool) : Writes (.boolean b) (writeBool b) := by
  cases b with
  | true => exact .yes
  | false => exact .no

theorem writes_writeNullable (t? : Option Text) : Writes (.nullable t?) (writeOption writeString t?) := by
  cases t? with
  | none => exact .null
  | some t => exact writes_writeString t

end Json

open Json

/-- What a line of `match` says. -/
def MatchReport.toValue (r : MatchReport) : Value :=
  .object [("document".toList, .string r.document), ("matched".toList, .boolean r.matched)]

/-- What a line of `classify` says. -/
def ClassifyReport.toValue (r : ClassifyReport) : Value :=
  .object [("document".toList, .string r.document), ("brand".toList, .nullable r.brand?),
    ("subbrand".toList, .nullable r.subbrand?)]

theorem MatchReport.accepts (r : MatchReport) : Accepts matchReportShape.read r.toValue r := by
  have hgathers : matchReportShape.Gathers matchReportShape.empty
      [("document".toList, .string r.document), ("matched".toList, .boolean r.matched)]
      ⟨some r.document, some r.matched⟩ := by
    refine .field rfl rfl ((filledBy fun _ => rfl).accepts (accepts_string r.document) _) ?_
    refine .field rfl rfl ((filledBy fun _ => rfl).accepts (accepts_boolean r.matched) _) ?_
    exact .done _
  exact accepts_gathered hgathers rfl

theorem ClassifyReport.accepts (r : ClassifyReport) : Accepts classifyReportShape.read r.toValue r := by
  have hgathers : classifyReportShape.Gathers classifyReportShape.empty
      [("document".toList, .string r.document), ("brand".toList, .nullable r.brand?),
        ("subbrand".toList, .nullable r.subbrand?)] ⟨some r.document, some r.brand?, some r.subbrand?⟩ := by
    refine .field rfl rfl ((filledBy fun _ => rfl).accepts (accepts_string r.document) _) ?_
    refine .field rfl rfl ((filledBy fun _ => rfl).accepts (accepts_nullable r.brand?) _) ?_
    refine .field rfl rfl ((filledBy fun _ => rfl).accepts (accepts_nullable r.subbrand?) _) ?_
    exact .done _
  exact accepts_gathered hgathers rfl

/-! ### Lines -/

/-- The line holds the report, as `reader` takes it, and ends behind it. -/
def IsLineOf {α : Type} (reader : Reader α) (report : α) (line : Text) : Prop :=
  ∃ body, line = body ++ ['\n'] ∧ Uncontrolled body ∧ readAll reader body = .ok report

theorem isLineOf_matchLine (path : Text) (matched : Bool) :
    IsLineOf matchReportShape.read ⟨path, matched⟩ (matchLine path matched) := by
  have hwrites : Writes (MatchReport.toValue ⟨path, matched⟩)
      (writeObject [("document".toList, writeString path), ("matched".toList, writeBool matched)]) := by
    refine writes_writeObject (.cons ⟨rfl, writes_writeString path⟩ ?_)
    exact .cons ⟨rfl, writes_writeBool matched⟩ .nil
  refine ⟨_, rfl, uncontrolled_writeObject ?_, readAll_of_accepts (MatchReport.accepts _) hwrites.isTextOf⟩
  simp only [List.forall_mem_cons]
  exact ⟨uncontrolled_writeString path, by cases matched <;> decide, List.forall_mem_nil _⟩

theorem isLineOf_classifyLine (path : Text) (found? : Option Classification) :
    IsLineOf classifyReportShape.read
      ⟨path, found?.map Classification.brand, found?.bind Classification.subbrand?⟩ (classifyLine path found?) := by
  have hwrites (brand? subbrand? : Option Text) : Writes (ClassifyReport.toValue ⟨path, brand?, subbrand?⟩)
      (writeObject [("document".toList, writeString path), ("brand".toList, writeOption writeString brand?),
        ("subbrand".toList, writeOption writeString subbrand?)]) := by
    refine writes_writeObject (.cons ⟨rfl, writes_writeString path⟩ ?_)
    exact .cons ⟨rfl, writes_writeNullable brand?⟩ (.cons ⟨rfl, writes_writeNullable subbrand?⟩ .nil)
  refine ⟨_, rfl, uncontrolled_writeObject ?_, readAll_of_accepts (ClassifyReport.accepts _) (hwrites _ _).isTextOf⟩
  simp only [List.forall_mem_cons]
  exact ⟨uncontrolled_writeString path, uncontrolled_writeNullable _, uncontrolled_writeNullable _,
    List.forall_mem_nil _⟩

end KeywordRules
