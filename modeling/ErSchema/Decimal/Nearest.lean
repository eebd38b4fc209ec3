import ErSchema.Decimal.Digits

/-! # From a decimal to the nearest binary64 number

A decimal is a sign, a significand and a power of ten. The nearest number is
infinite above the largest one and zero below half of the smallest one; both
cases are decided from the count of digits alone, so that a power such as
`1e99999999999` is never computed. -/

namespace ErSchema

structure Decimal where
  negative : Bool
  significand : Nat
  exponent : Int
  deriving DecidableEq, Repr

namespace Decimal

/-- No number reaches `10 ^ 310`, and half of the smallest one exceeds
`10 ^ (-330)`. -/
def largestPower : Int := 310

def smallestPower : Int := -330

def magnitude (decimal : Decimal) : Float :=
  let power : Int := decimal.exponent + (digitsOfNat decimal.significand).length
  if decimal.significand = 0 ∨ power < smallestPower then 0
  else if largestPower < power then 1 / 0
  else
    match decimal.exponent with
    | .ofNat exponent => Float.ofScientific decimal.significand false exponent
    | .negSucc exponent => Float.ofScientific decimal.significand true (exponent + 1)

def nearest (decimal : Decimal) : Float :=
  if decimal.negative then -decimal.magnitude else decimal.magnitude

end Decimal

end ErSchema
