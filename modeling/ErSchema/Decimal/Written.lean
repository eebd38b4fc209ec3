import ErSchema.Decimal.Nearest

/-! # Decimals as they are written

A sign, digits with or without a point, and perhaps an exponent. Reading stops
behind the last character that belongs to the number. -/

namespace ErSchema.Decimal

/-- An optional sign; true for a minus. -/
def readSign : List Char → Bool × List Char
  | '-' :: rest => (true, rest)
  | '+' :: rest => (false, rest)
  | text => (false, text)

/-- The digits before and after the point. One of the two runs may be empty. -/
def readMantissa? (text : List Char) : Option (List Char × List Char × List Char) :=
  let whole := text.takeWhile isDigit
  match text.dropWhile isDigit with
  | '.' :: afterPoint =>
      let fraction := afterPoint.takeWhile isDigit
      if whole.isEmpty && fraction.isEmpty then none
      else some (whole, fraction, afterPoint.dropWhile isDigit)
  | rest => if whole.isEmpty then none else some (whole, [], rest)

/-- An exponent that is begun must have digits. -/
def readExponent? (text : List Char) : Option (Int × List Char) :=
  let begun (afterMark : List Char) : Option (Int × List Char) :=
    let (negative, unsigned) := readSign afterMark
    let digits := unsigned.takeWhile isDigit
    let value : Int := natOfDigits digits
    if digits.isEmpty then none
    else some (if negative then -value else value, unsigned.dropWhile isDigit)
  match text with
  | 'e' :: afterMark => begun afterMark
  | 'E' :: afterMark => begun afterMark
  | _ => some (0, text)

def read? (text : List Char) : Option (Decimal × List Char) := do
  let (negative, unsigned) := readSign text
  let (whole, fraction, afterMantissa) ← readMantissa? unsigned
  let (exponent, rest) ← readExponent? afterMantissa
  some (⟨negative, natOfDigits (whole ++ fraction), exponent - fraction.length⟩, rest)

example : read? "-1.50e3px".toList = some (⟨true, 150, 1⟩, ['p', 'x']) := by
  decide +kernel

end ErSchema.Decimal
