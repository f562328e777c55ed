import KeywordRules.Text.Fold
import KeywordRules.Text.Markup

/-!
# Words and the normal form of a text

The words of a text are its maximal runs of word characters, and a line of words joins them with single blanks.
Splitting at a class of separators gives fields; the words are the fields that are not empty.

Documents and phrases are compared in normal form: markup is stripped, the text is folded, and its words stand on
one line with single blanks between them and none at either end.
-/

namespace KeywordRules

/-- The fields of a text between its separators, empty ones included. -/
def fields (sep : Char → Bool) : Text → List Text
  | [] => [[]]
  | c :: t => if sep c then [] :: fields sep t else (fields sep t).modifyHead (c :: ·)

/-- The fields that are not empty. -/
def parts (sep : Char → Bool) (t : Text) : List Text := (fields sep t).filter (!·.isEmpty)

/-- The maximal runs of word characters, in order. -/
def words (t : Text) : List Text := parts (!isWordChar ·) t

/-- Words on one line, with one blank between neighbours. -/
def joinWords (ws : List Text) : Text := [' '].intercalate ws

theorem fields_ne_nil (sep : Char → Bool) (t : Text) : fields sep t ≠ [] := by
  induction t with
  | nil => simp [fields]
  | cons c t ih =>
    unfold fields
    split
    · simp
    · cases h : fields sep t with
      | nil => exact absurd h ih
      | cons f fs => simp

theorem fields_append_sep {sep : Char → Bool} {c : Char} (hc : sep c = true) (t u : Text) :
    fields sep (t ++ c :: u) = fields sep t ++ fields sep u := by
  induction t with
  | nil => simp [fields, hc]
  | cons a t ih =>
    simp only [List.cons_append, fields, ih]
    split
    · rfl
    · cases h : fields sep t with
      | nil => exact absurd h (fields_ne_nil sep t)
      | cons f fs => simp

/-- A separator splits the words of a text. -/
theorem parts_append_sep {sep : Char → Bool} {c : Char} (hc : sep c = true) (t u : Text) :
    parts sep (t ++ c :: u) = parts sep t ++ parts sep u := by
  simp [parts, fields_append_sep hc]

/-! ### The normal form -/

/-- The lowercase words of a text, markup left out. -/
def normalWords (t : Text) : List Text := words (fold (stripMarkup t))

/-- The normal form of a text. -/
def normalise (t : Text) : Text := joinWords (normalWords t)

end KeywordRules
