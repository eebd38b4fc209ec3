import ErSchema.Json.Value
import ErSchema.Text.Quoted

/-! # What can be wrong with a JSON text

A failure has a cause and a place. Lines count from one; the column is the
number of bytes read on the line. -/

namespace ErSchema.Json

structure Position where
  line : Nat
  column : Nat
  deriving DecidableEq, Repr

/-- What stands where another kind of value was expected. -/
inductive Found where
  | null
  | bool (value : Bool)
  | number (value : Number)
  | string (text : String)
  | sequence
  | map

def Found.describe : Found → String
  | .null => "null"
  | .bool value => "boolean `" ++ (if value then "true" else "false") ++ "`"
  | .number (.integer value) => "integer `" ++ Decimal.intText value ++ "`"
  | .number (.float value) => "floating point `" ++ floatText value ++ "`"
  | .string text => "string " ++ Text.cite text
  | .sequence => "sequence"
  | .map => "map"

inductive Cause where
  | eofInValue
  | eofInList
  | eofInObject
  | eofInString
  | expectedValue
  | expectedIdent
  | expectedColon
  | expectedListEnd
  | expectedObjectEnd
  | trailingComma
  | trailingCharacters
  | keyNotString
  | invalidNumber
  | numberOutOfRange
  | invalidEscape
  | hexEscapeCutShort
  | loneSurrogate
  | controlCharacter
  | recursionLimit
  | duplicateField (name : String)
  | invalidType (found : Found) (expected : String)

def Cause.message : Cause → String
  | .eofInValue => "EOF while parsing a value"
  | .eofInList => "EOF while parsing a list"
  | .eofInObject => "EOF while parsing an object"
  | .eofInString => "EOF while parsing a string"
  | .expectedValue => "expected value"
  | .expectedIdent => "expected ident"
  | .expectedColon => "expected `:`"
  | .expectedListEnd => "expected `,` or `]`"
  | .expectedObjectEnd => "expected `,` or `\x7d`"
  | .trailingComma => "trailing comma"
  | .trailingCharacters => "trailing characters"
  | .keyNotString => "key must be a string"
  | .invalidNumber => "invalid number"
  | .numberOutOfRange => "number out of range"
  | .invalidEscape => "invalid escape"
  | .hexEscapeCutShort => "unexpected end of hex escape"
  | .loneSurrogate => "lone leading surrogate in hex escape"
  | .controlCharacter =>
      "control character (\\u0000-\\u001F) found while parsing a string"
  | .recursionLimit => "recursion limit exceeded"
  | .duplicateField name => "duplicate field `" ++ name ++ "`"
  | .invalidType found expected =>
      "invalid type: " ++ found.describe ++ ", expected " ++ expected

structure Failure where
  cause : Cause
  position : Position

def Failure.message (failure : Failure) : String :=
  failure.cause.message ++ " at line " ++ Decimal.natText failure.position.line ++
    " column " ++ Decimal.natText failure.position.column

end ErSchema.Json
