import EventIndex.Hex
import EventIndex.Time.Text

/-!
# Reading errors

Why a JSON text is refused: it is malformed, or it does not have the form that was asked for.
-/

namespace EventIndex.Json

/-- What stands where something else was expected. -/
inductive Found where
  | null
  | bool (b : Bool)
  | integer (n : Int)
  /-- A number that is no integer, by its shortest text. -/
  | float (text : String)
  | number
  | string (s : String)
  | sequence
  | map
  | unitVariant
deriving DecidableEq, Repr

def Found.text : Found → String
  | null => "null"
  | bool b => s!"boolean `{b}`"
  | integer n => s!"integer `{n}`"
  | float text => s!"floating point `{text}`"
  | number => "number"
  | string s => s!"string {Text.quote s}"
  | sequence => "sequence"
  | map => "map"
  | unitVariant => "unit variant"

inductive Error where
  | endOfValue
  | endOfList
  | endOfObject
  | endOfString
  | expectedColon
  | expectedListEnd
  | expectedObjectEnd
  | expectedIdent
  | expectedValue
  | invalidEscape
  | invalidNumber
  | numberOutOfRange
  | loneSurrogate
  | unexpectedEndOfEscape
  | controlCharacter
  | keyMustBeString
  | trailingComma
  | trailingCharacters
  | recursionLimit
  | invalidType (found : Found) (expected : String)
  | invalidValue (found : Found) (expected : String)
  | invalidLength (length : Nat) (expected : String)
  | unknownField (name : String) (known : List String)
  | unknownVariant (name : String) (known : List String)
  | missingField (name : String)
  | duplicateField (name : String)
  | notAnInteger (number : String)
  | integerOutOfRange (n : Int)
  | hash (e : Hex.Error)
  | time (e : Time.Error)
deriving DecidableEq, Repr

/-- The names one after the other, each in backticks. -/
def alternatives (names : List String) : String :=
  match names with
  | [] => "nothing"
  | [a] => s!"`{a}`"
  | [a, b] => s!"`{a}` or `{b}`"
  | names => "one of " ++ ", ".intercalate (names.map fun n => s!"`{n}`")

def Error.message : Error → String
  | endOfValue => "EOF while parsing a value"
  | endOfList => "EOF while parsing a list"
  | endOfObject => "EOF while parsing an object"
  | endOfString => "EOF while parsing a string"
  | expectedColon => "expected `:`"
  | expectedListEnd => "expected `,` or `]`"
  | expectedObjectEnd => "expected `,` or `\x7d`"
  | expectedIdent => "expected ident"
  | expectedValue => "expected value"
  | invalidEscape => "invalid escape"
  | invalidNumber => "invalid number"
  | numberOutOfRange => "number out of range"
  | loneSurrogate => "lone leading surrogate in hex escape"
  | unexpectedEndOfEscape => "unexpected end of hex escape"
  | controlCharacter => "control character (\\u0000-\\u001F) found while parsing a string"
  | keyMustBeString => "key must be a string"
  | trailingComma => "trailing comma"
  | trailingCharacters => "trailing characters"
  | recursionLimit => "recursion limit exceeded"
  | invalidType found expected => s!"invalid type: {found.text}, expected {expected}"
  | invalidValue found expected => s!"invalid value: {found.text}, expected {expected}"
  | invalidLength length expected => s!"invalid length {length}, expected {expected}"
  | unknownField name known => s!"unknown field `{name}`, expected {alternatives known}"
  | unknownVariant name known => s!"unknown variant `{name}`, expected {alternatives known}"
  | missingField name => s!"missing field `{name}`"
  | duplicateField name => s!"duplicate field `{name}`"
  | notAnInteger text => s!"number {text} is not an integer in range"
  | integerOutOfRange n => s!"integer {n} out of range"
  | hash e => e.message
  | time e => e.message

end EventIndex.Json
