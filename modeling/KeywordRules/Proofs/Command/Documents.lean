import KeywordRules.Proofs.Command.Reports

/-!
# Runs over documents

A run reads its paths one after the other, the rule set's first where there is one.  What a path yields depends on the
paths before it only through standard input, which the first path that names it takes whole.  The run writes the line of
each document before the first that fails, in order, and ends with that document's error; if none fails it ends well.
-/

namespace KeywordRules

namespace Inputs

/-- No input that can be read holds more bytes than 64 bits can count. -/
structure FitsWord (i : Inputs) : Prop where
  stdin : ∀ bytes, i.stdin = .ok bytes → bytes.length ≤ maxWord
  file : ∀ path bytes, i.file path = .ok bytes → bytes.length ≤ maxWord

/-- The bytes that a path stands for behind the paths `before`: standard input goes to the first path that names it and
is empty for the others. -/
def contentAt (i : Inputs) (before : List Text) (path : Text) : Except ReadFailure Bytes :=
  if isStandardInput path then if before.any isStandardInput then .ok [] else i.stdin else i.file path

/-- The bytes that reading a path yields behind the paths `before`, unless it cannot be read or is longer than the
limit. -/
def document (i : Inputs) (limit : Nat) (before : List Text) (path : Text) : Except RunError Bytes :=
  match i.contentAt before path with
  | .error failure => .error (.read path failure)
  | .ok bytes => if bytes.length ≤ limit then .ok bytes else .error (.tooLarge path limit)

/-- The inputs are `j` once the paths `before` have been read from `i`. -/
structure Reached (i : Inputs) (before : List Text) (j : Inputs) : Prop where
  file : j.file = i.file
  stdin : j.stdin = if before.any isStandardInput then .ok [] else i.stdin

variable {i j : Inputs} {limit : Nat} {before : List Text} {path : Text} {bytes : Bytes}

theorem document_eq_ok_iff :
    i.document limit before path = .ok bytes ↔ i.contentAt before path = .ok bytes ∧ bytes.length ≤ limit := by
  unfold document
  cases i.contentAt before path with
  | error failure => simp
  | ok content =>
    by_cases hle : content.length ≤ limit
    · simp only [if_pos hle, Except.ok.injEq]
      exact ⟨fun h => ⟨h, h ▸ hle⟩, And.left⟩
    · simp only [if_neg hle, reduceCtorEq, Except.ok.injEq, false_iff, not_and]
      exact fun h => h ▸ hle

theorem exitCode_of_document_eq_error {e : RunError} (h : i.document limit before path = .error e) : e.exitCode = 1 := by
  unfold document at h
  split at h
  · cases h
    rfl
  · split at h
    · cases h
    · cases h
      rfl

/-- Either the limit leaves room to read one byte more, or there is no byte beyond it to miss. -/
theorem limit_lt_or_length_le (hfits : limit < maxWord ∨ i.FitsWord) (h : i.contentAt before path = .ok bytes) :
    limit < maxWord ∨ bytes.length ≤ maxWord := by
  refine hfits.imp id fun hfits => ?_
  unfold contentAt at h
  split at h
  · split at h
    · cases h
      exact Nat.zero_le _
    · exact hfits.stdin bytes h
  · exact hfits.file path bytes h

namespace Reached

theorem start (i : Inputs) : Reached i [] i := ⟨rfl, rfl⟩

theorem bytes_eq (h : Reached i before j) (path : Text) : j.bytes path = i.contentAt before path := by
  rw [bytes, contentAt, h.file, h.stdin]

/-- Taking one byte more than allowed finds out every longer input and cuts no other. -/
theorem read_eq (h : Reached i before j) (hfits : limit < maxWord ∨ i.FitsWord) (path : Text) :
    j.read limit path = (i.document limit before path).map decodeLossy := by
  rw [read, document, h.bytes_eq]
  cases hcontent : i.contentAt before path with
  | error failure => rfl
  | ok bytes =>
    have hcounted := limit_lt_or_length_le hfits hcontent
    by_cases hle : bytes.length ≤ limit
    · have hall : bytes.take (readCount limit) = bytes := by
        apply List.take_of_length_le
        unfold readCount
        omega
      simp only [hall, if_neg (Nat.not_lt.mpr hle), if_pos hle]
      rfl
    · have hover : limit < (bytes.take (readCount limit)).length := by
        rw [List.length_take]
        unfold readCount
        omega
      simp only [if_pos hover, if_neg hle]
      rfl

/-- A document that was read leaves nothing behind if it was standard input. -/
theorem step (h : Reached i before j) (hfits : limit < maxWord ∨ i.FitsWord)
    (hdoc : i.document limit before path = .ok bytes) : Reached i (before ++ [path]) (j.after limit path) := by
  obtain ⟨hcontent, hle⟩ := document_eq_ok_iff.mp hdoc
  have hcounted := limit_lt_or_length_le hfits hcontent
  by_cases hin : isStandardInput path = true
  · rw [← h.bytes_eq, Inputs.bytes, if_pos hin] at hcontent
    have hgone : bytes.drop (readCount limit) = [] := by
      apply List.drop_eq_nil_of_le
      unfold readCount
      omega
    have hdrained : j.stdin.map (·.drop (readCount limit)) = .ok [] := by rw [hcontent, Except.map, hgone]
    rw [after, if_pos hin]
    exact ⟨h.file, by simp [hdrained, hin]⟩
  · rw [after, if_neg hin]
    exact ⟨h.file, by simp [h.stdin, hin]⟩

end Reached

end Inputs

/-! ### Runs -/

/-- What a run over `paths`, behind the paths `before`, wrote as `lines` and how it ended. -/
structure Processed {α : Type} (reader : Json.Reader α) (report : Text → Text → α) (i : Inputs) (limit : Nat)
    (before paths : List Text) (lines : List Text) (r : Report) : Prop where
  stdout : r.stdout = lines.flatten
  /-- Each line reports on the document in its place, which could be read. -/
  line : ∀ k line, lines[k]? = some line → ∃ path bytes, paths[k]? = some path ∧
    i.document limit (before ++ paths.take k) path = .ok bytes ∧ IsLineOf reader (report path (decodeLossy bytes)) line
  /-- There is a line for every document, or the document behind the last line fails. -/
  ending : (lines.length = paths.length ∧ r.ending = .ok .clean ∧ r.exitCode = 0) ∨
    ∃ path e, paths[lines.length]? = some path ∧
      i.document limit (before ++ paths.take lines.length) path = .error e ∧ r.ending = .error e ∧ r.exitCode = 1

section Runs

variable {α : Type} {reader : Json.Reader α} {report : Text → Text → α} {i j : Inputs} {limit : Nat}
  {before paths lines : List Text} {path line : Text} {bytes : Bytes} {r : Report}

theorem Processed.nil : Processed reader report i limit before [] [] ⟨[], .ok .clean⟩ where
  stdout := rfl
  line k line h := by simp at h
  ending := .inl ⟨rfl, rfl, rfl⟩

theorem Processed.stop {e : RunError} (h : i.document limit before path = .error e) :
    Processed reader report i limit before (path :: paths) [] (.failed e) where
  stdout := rfl
  line k line h := by simp at h
  ending := by
    refine .inr ⟨path, e, rfl, ?_, rfl, Inputs.exitCode_of_document_eq_error h⟩
    rw [List.length_nil, List.take_zero, List.append_nil, h]

theorem Processed.cons (hdoc : i.document limit before path = .ok bytes)
    (hline : IsLineOf reader (report path (decodeLossy bytes)) line)
    (h : Processed reader report i limit (before ++ [path]) paths lines r) :
    Processed reader report i limit before (path :: paths) (line :: lines) (r.after line) where
  stdout := by rw [Report.after, h.stdout, List.flatten_cons]
  line k l hl := by
    cases k with
    | zero =>
      cases hl
      refine ⟨path, bytes, rfl, ?_, hline⟩
      rw [List.take_zero, List.append_nil, hdoc]
    | succ k =>
      obtain ⟨path', bytes', hpath, hdoc', hline'⟩ := h.line k l hl
      rw [List.append_assoc] at hdoc'
      exact ⟨path', bytes', hpath, hdoc', hline'⟩
  ending := by
    obtain ⟨hlength, hending, hexit⟩ | ⟨path', e, hpath, hdoc', hending, hexit⟩ := h.ending
    · exact .inl ⟨by rw [List.length_cons, List.length_cons, hlength], hending, hexit⟩
    · rw [List.append_assoc] at hdoc'
      exact .inr ⟨path', e, hpath, hdoc', hending, hexit⟩

theorem runDocuments_processed {write : Text → Text → Text} (hfits : limit < maxWord ∨ i.FitsWord)
    (hwrite : ∀ path text, IsLineOf reader (report path text) (write path text)) (h : i.Reached before j) :
    ∃ lines, Processed reader report i limit before paths lines (runDocuments limit write paths j) := by
  -- `j` moves on with every document, `i` stays: `Reached` ties what is left of standard input to the paths read so far
  induction paths generalizing before j with
  | nil => exact ⟨[], .nil⟩
  | cons path paths ih =>
    have hread := h.read_eq hfits path
    cases hdoc : i.document limit before path with
    | error e =>
      rw [hdoc] at hread
      rw [runDocuments, hread]
      exact ⟨[], .stop hdoc⟩
    | ok bytes =>
      rw [hdoc] at hread
      obtain ⟨lines, hlines⟩ := ih (h.step hfits hdoc)
      rw [runDocuments, hread]
      exact ⟨_, hlines.cons hdoc (hwrite path (decodeLossy bytes))⟩

end Runs

/-- `match` and `classify` write one line for each document that precedes the first failing one and end with its error;
`classify` reads its rule set first, under the same limit, and writes nothing if it is rejected. -/
theorem Command.run_documents (limit : Nat) (inputs : Inputs) (hfits : limit < maxWord ∨ inputs.FitsWord) :
    (∀ query documents, ∃ lines, Processed Json.matchReportShape.read
      (fun path text => ⟨path, (Query.compile query).isMatch text⟩) inputs limit []
      (if documents = [] then [['-']] else documents) lines
      (Command.run limit inputs (.matchDocuments query documents))) ∧
    ∀ rules documents,
      let r := Command.run limit inputs (.classify rules documents)
      match inputs.document limit [] rules with
      | .error e => r.stdout = [] ∧ r.ending = .error e ∧ r.exitCode = 1
      | .ok bytes =>
        match RuleSet.ofJson (decodeLossy bytes) with
        | .error e => r.stdout = [] ∧ r.ending = .error (.rules rules e) ∧ r.exitCode = 1
        | .ok rs => ∃ lines, Processed Json.classifyReportShape.read
            (fun path text => ⟨path, (rs.compile.classify text).map Classification.brand,
              (rs.compile.classify text).bind Classification.subbrand?⟩) inputs limit [rules]
            (if documents = [] then [['-']] else documents) lines r := by
  have hstart := Inputs.Reached.start inputs
  have hpaths : ∀ documents, documentPaths documents = if documents = [] then [['-']] else documents := by
    intro documents
    simp [documentPaths]
  constructor
  · intro query documents
    rw [← hpaths]
    exact runDocuments_processed hfits (fun path text => isLineOf_matchLine path _) hstart
  · intro rules documents
    have hread := hstart.read_eq hfits rules
    cases hdoc : inputs.document limit [] rules with
    | error e =>
      rw [hdoc] at hread
      simp only [Command.run, loadClassifier, hread, Except.map]
      exact ⟨rfl, rfl, Inputs.exitCode_of_document_eq_error hdoc⟩
    | ok bytes =>
      rw [hdoc] at hread
      cases hrules : RuleSet.ofJson (decodeLossy bytes) with
      | error e =>
        simp only [Command.run, loadClassifier, hread, Except.map, hrules]
        exact ⟨rfl, rfl, rfl⟩
      | ok rs =>
        simp only [Command.run, loadClassifier, hread, Except.map, hrules, ← hpaths]
        exact runDocuments_processed hfits (fun path text => isLineOf_classifyLine path _) (hstart.step hfits hdoc)

/-- A file `f` with an apple, and a pear on standard input. -/
def fruitInputs : Inputs where
  file path := if path = ['f'] then .ok [0x41, 0x70, 0x70, 0x6C, 0x65, 0x0A] else .error .notFound
  stdin := .ok [0x70, 0x65, 0x61, 0x72, 0xFF]

theorem fruitInputs_fitsWord : fruitInputs.FitsWord where
  stdin bytes h := by
    cases h
    decide
  file path bytes h := by
    simp only [fruitInputs] at h
    split at h
    · cases h
      decide
    · cases h

/-- The second `-` finds standard input empty, and nothing is written for the file that does not exist or behind it. -/
theorem Command.run_documents_fruit :
    let r := Command.run maxWord fruitInputs (.matchDocuments "pear".toList [['-'], ['f'], ['-'], ['g'], ['f']])
    (maxWord < maxWord ∨ fruitInputs.FitsWord) ∧
    (∃ lines, Processed Json.matchReportShape.read
      (fun path text => ⟨path, (Query.compile "pear".toList).isMatch text⟩) fruitInputs maxWord []
      [['-'], ['f'], ['-'], ['g'], ['f']] lines r) ∧
    r.stdout = ("\x7b\"document\":\"-\",\"matched\":true\x7d\n" ++
      "\x7b\"document\":\"f\",\"matched\":false\x7d\n" ++
      "\x7b\"document\":\"-\",\"matched\":false\x7d\n").toList ∧
    r.exitCode = 1 := by
  have hfits : maxWord < maxWord ∨ fruitInputs.FitsWord := .inr fruitInputs_fitsWord
  have hrun := (Command.run_documents maxWord fruitInputs hfits).1 "pear".toList [['-'], ['f'], ['-'], ['g'], ['f']]
  exact ⟨hfits, hrun, by decide +kernel, by decide +kernel⟩

end KeywordRules
