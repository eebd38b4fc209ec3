import ErSchema.Decimal.Written
import ErSchema.Decimal.Shortest

/-! # Lengths on the canvas

A position is saved as a length such as `120px`. The number may have a sign, a
fraction and an exponent; the unit may be missing. Blanks may stand at the ends
but not before the unit, and the number must be finite. -/

namespace ErSchema.Length

def skipSpaces (text : List Char) : List Char :=
  text.dropWhile fun character => character = ' ' || character = '\t'

def skipUnit : List Char → List Char
  | 'p' :: 'x' :: rest => rest
  | 'p' :: 'X' :: rest => rest
  | 'P' :: 'x' :: rest => rest
  | 'P' :: 'X' :: rest => rest
  | text => text

def read? (text : String) : Option Float := do
  let (decimal, rest) ← Decimal.read? (skipSpaces text.toList)
  if !(skipSpaces (skipUnit rest)).isEmpty then none
  else if decimal.nearest.isFinite then some decimal.nearest
  else none

/-- A whole number has no point. An infinite length can only come from adding
two lengths. -/
def display (value : Float) : String :=
  Decimal.positionalText [] value

end ErSchema.Length
