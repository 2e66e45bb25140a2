/-!
Why a text is not the JSON form of a value.
-/
namespace OverlayTunnel.Json

/-- What stands where something else was expected. -/
inductive Found where
  | null
  | boolean (b : Bool)
  | integer (n : Int)
  | number (digits : String)
  | string (shown : String)
  | sequence
  | map
  deriving DecidableEq, Repr

def Found.text : Found → String
  | .null => "null"
  | .boolean true => "boolean `true`"
  | .boolean false => "boolean `false`"
  | .integer n => "integer `" ++ toString n ++ "`"
  | .number digits => "floating point `" ++ digits ++ "`"
  | .string shown => "string " ++ shown
  | .sequence => "sequence"
  | .map => "map"

inductive Error where
  | endInValue
  | endInList
  | endInObject
  | endInString
  | expectedColon
  | expectedCommaInList
  | expectedCommaInObject
  | expectedWord
  | expectedValue
  | invalidNumber
  | numberOutOfRange
  | invalidEscape
  | loneSurrogate
  | endOfEscape
  | controlCharacter
  | keyNotString
  | trailingComma
  | trailingCharacters
  | wrongType (found : Found) (expected : String)
  | wrongValue (found : Found) (expected : String)
  | wrongLength (length : Nat) (expected : String)
  | missingField (name : String)
  | duplicateField (name : String)
  | notAnAddress
  deriving DecidableEq, Repr

/-- The text ends too early, breaks the grammar, or does not describe the value asked for. -/
inductive Category where
  | truncated
  | malformed
  | mismatch
  deriving DecidableEq, Repr

def Error.category : Error → Category
  | .endInValue | .endInList | .endInObject | .endInString => .truncated
  | .wrongType .. | .wrongValue .. | .wrongLength .. | .missingField _ | .duplicateField _
  | .notAnAddress => .mismatch
  | _ => .malformed

def Error.message : Error → String
  | .endInValue => "EOF while parsing a value"
  | .endInList => "EOF while parsing a list"
  | .endInObject => "EOF while parsing an object"
  | .endInString => "EOF while parsing a string"
  | .expectedColon => "expected `:`"
  | .expectedCommaInList => "expected `,` or `]`"
  | .expectedCommaInObject => "expected `,` or `\x7d`"
  | .expectedWord => "expected ident"
  | .expectedValue => "expected value"
  | .invalidNumber => "invalid number"
  | .numberOutOfRange => "number out of range"
  | .invalidEscape => "invalid escape"
  | .loneSurrogate => "lone leading surrogate in hex escape"
  | .endOfEscape => "unexpected end of hex escape"
  | .controlCharacter => "control character (\\u0000-\\u001F) found while parsing a string"
  | .keyNotString => "key must be a string"
  | .trailingComma => "trailing comma"
  | .trailingCharacters => "trailing characters"
  | .wrongType found expected => "invalid type: " ++ found.text ++ ", expected " ++ expected
  | .wrongValue found expected => "invalid value: " ++ found.text ++ ", expected " ++ expected
  | .wrongLength length expected =>
    "invalid length " ++ toString length ++ ", expected " ++ expected
  | .missingField name => "missing field `" ++ name ++ "`"
  | .duplicateField name => "duplicate field `" ++ name ++ "`"
  | .notAnAddress => "invalid IP address syntax"

end OverlayTunnel.Json
