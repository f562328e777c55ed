import KeywordRules.Text.Decimal
import KeywordRules.Text.Quoted

/-!
# Errors in JSON texts

A JSON text is read from the front and the first error ends the reading.  An error says that the text broke off, that
it is not JSON, or that it is JSON of another shape than the one wanted.
-/

namespace KeywordRules.Json

/-- What was being read when the text broke off. -/
inductive Unfinished where
  | value
  | list
  | object
  | string
deriving DecidableEq, Repr

/-- A value that stands where one of another type was wanted. -/
inductive Found where
  | null
  | boolean (b : Bool)
  | integer (n : Int)
  | float (x : Float)
  | string (t : Text)
  | sequence
  | map
deriving Repr

inductive Error where
  | eof (u : Unfinished)
  | expectedValue
  | expectedIdent
  | expectedColon
  | expectedCommaOrBracket
  | expectedCommaOrBrace
  | keyMustBeString
  | trailingComma
  | trailingCharacters
  | invalidNumber
  | numberOutOfRange
  | invalidEscape
  | unexpectedEndOfHexEscape
  | loneSurrogate
  | controlCharacter
  /-- A value of the wrong type. -/
  | invalidType (found : Found) (wanted : Text)
  /-- A record written as a list that is too short. -/
  | invalidLength (length : Nat) (wanted : Text)
  | unknownField (name : Text) (known : List Text)
  | duplicateField (name : Text)
  | missingField (name : Text)
deriving Repr

/-- The kinds of error a reader may want to tell apart. -/
inductive Category where
  /-- The text broke off. -/
  | eof
  /-- The text is not JSON. -/
  | grammar
  /-- The text does not have the shape wanted. -/
  | data
deriving DecidableEq, Repr

def Error.category : Error → Category
  | .eof _ => .eof
  | .invalidType _ _ => .data
  | .invalidLength _ _ => .data
  | .unknownField _ _ => .data
  | .duplicateField _ => .data
  | .missingField _ => .data
  | _ => .grammar

def Unfinished.text : Unfinished → Text
  | .value => "a value".toList
  | .list => "a list".toList
  | .object => "an object".toList
  | .string => "a string".toList

/-- A text between backquotes. -/
def backquoted (t : Text) : Text := '`' :: (t ++ ['`'])

def Found.text : Found → Text
  | .null => "null".toList
  | .boolean b => "boolean ".toList ++ backquoted (if b then "true".toList else "false".toList)
  | .integer n => "integer ".toList ++ backquoted (if n < 0 then '-' :: decimal n.natAbs else decimal n.natAbs)
  | .float x => "floating point ".toList ++ backquoted (shortestText x)
  | .string t => "string ".toList ++ quoted t
  | .sequence => "sequence".toList
  | .map => "map".toList

/-- The fields a record may have, as errors list them. -/
def fieldChoice : List Text → Text
  | [] => "there are no fields".toList
  | [a] => "expected ".toList ++ backquoted a
  | [a, b] => "expected ".toList ++ backquoted a ++ " or ".toList ++ backquoted b
  | fields => "expected one of ".toList ++ ", ".toList.intercalate (fields.map backquoted)

/-- The error in words. -/
def Error.message : Error → Text
  | .eof u => "EOF while parsing ".toList ++ u.text
  | .expectedValue => "expected value".toList
  | .expectedIdent => "expected ident".toList
  | .expectedColon => "expected `:`".toList
  | .expectedCommaOrBracket => "expected `,` or `]`".toList
  | .expectedCommaOrBrace => "expected `,` or `\x7d`".toList
  | .keyMustBeString => "key must be a string".toList
  | .trailingComma => "trailing comma".toList
  | .trailingCharacters => "trailing characters".toList
  | .invalidNumber => "invalid number".toList
  | .numberOutOfRange => "number out of range".toList
  | .invalidEscape => "invalid escape".toList
  | .unexpectedEndOfHexEscape => "unexpected end of hex escape".toList
  | .loneSurrogate => "lone leading surrogate in hex escape".toList
  | .controlCharacter => "control character (\\u0000-\\u001F) found while parsing a string".toList
  | .invalidType found wanted => "invalid type: ".toList ++ found.text ++ ", expected ".toList ++ wanted
  | .invalidLength n wanted => "invalid length ".toList ++ decimal n ++ ", expected ".toList ++ wanted
  | .unknownField name known => "unknown field ".toList ++ backquoted name ++ ", ".toList ++ fieldChoice known
  | .duplicateField name => "duplicate field ".toList ++ backquoted name
  | .missingField name => "missing field ".toList ++ backquoted name

end KeywordRules.Json
