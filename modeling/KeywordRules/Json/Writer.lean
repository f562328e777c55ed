import KeywordRules.Text.CharClass

/-!
# Writing JSON texts

JSON is written without white space.  In strings the quote, the backslash and the controls below the blank are escaped;
every other character stands for itself.
-/

namespace KeywordRules.Json

/-- One character as it stands in a string. -/
def escapeChar (c : Char) : Text :=
  match c with
  | '"' => ['\\', '"']
  | '\\' => ['\\', '\\']
  | '\x08' => ['\\', 'b']
  | '\t' => ['\\', 't']
  | '\n' => ['\\', 'n']
  | '\x0c' => ['\\', 'f']
  | '\r' => ['\\', 'r']
  | c =>
    if c.toNat < 32 then ['\\', 'u', '0', '0', Nat.digitChar (c.toNat / 16), Nat.digitChar (c.toNat % 16)] else [c]

def writeString (t : Text) : Text := '"' :: (t.flatMap escapeChar ++ ['"'])

def writeList {α : Type} (write : α → Text) (xs : List α) : Text :=
  '[' :: ([','].intercalate (xs.map write) ++ [']'])

/-- A field with its name, given the text of its value. -/
def writeField (field : Text × Text) : Text := writeString field.1 ++ ':' :: field.2

/-- An object, given the names and the texts of its fields. -/
def writeObject (fields : List (Text × Text)) : Text :=
  '\x7b' :: ([','].intercalate (fields.map writeField) ++ ['\x7d'])

/-- An optional value. -/
def writeOption {α : Type} (write : α → Text) : Option α → Text
  | some a => write a
  | none => ['n', 'u', 'l', 'l']

def writeBool (b : Bool) : Text := if b then ['t', 'r', 'u', 'e'] else ['f', 'a', 'l', 's', 'e']

end KeywordRules.Json
