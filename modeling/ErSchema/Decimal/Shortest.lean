import ErSchema.Decimal.Digits

/-! # The shortest decimal that reads back

A finite binary64 number is `mantissa * 2 ^ exponent`. The reals that round to
it form an interval around it, whose ends belong to it when the mantissa is
even. Among the multiples of a power of ten in that interval, the coarsest
power that has one gives the fewest digits, and of its multiples the one
nearest to the number is taken. All arithmetic is on natural numbers. -/

namespace ErSchema.Decimal

/-- A positive binary64 number. `lowest` marks a mantissa at which the gap below
is half of the gap above. -/
structure Binary where
  mantissa : Nat
  exponent : Int
  lowest : Bool
  deriving DecidableEq, Repr

/-- The magnitude of a finite number; infinities and not-a-number have none. -/
def Binary.ofBits? (bits : Nat) : Option Binary :=
  let fraction : Nat := bits % Nat.pow 2 52
  let field : Nat := bits / Nat.pow 2 52 % 2048
  if field = 2047 then none
  else if field = 0 then some ⟨fraction, -1074, false⟩
  else some ⟨Nat.pow 2 52 + fraction, (field : Int) - 1075, fraction = 0 && field ≠ 1⟩

/-- `digits * 10 ^ exponent`. -/
structure Short where
  digits : Nat
  exponent : Int
  deriving DecidableEq, Repr

/-- Which of two multiples is taken when the number lies halfway between. -/
inductive Tie where
  | upward
  | toEven
  deriving DecidableEq, Repr

/-- A number and its interval on the scale where the unit is a natural number
and `step` is one multiple of the power of ten under test. -/
structure Grid where
  value : Nat
  low : Nat
  high : Nat
  closed : Bool
  step : Nat

namespace Grid

def contains (grid : Grid) (multiple : Nat) : Bool :=
  let point := multiple * grid.step
  if grid.closed then grid.low ≤ point && point ≤ grid.high
  else grid.low < point && point < grid.high

/-- The nearest multiple of the step that lies in the interval. -/
def nearest? (grid : Grid) (tie : Tie) : Option Nat :=
  let below := grid.value / grid.step
  let above := below + 1
  match grid.contains below, grid.contains above with
  | false, false => none
  | true, false => some below
  | false, true => some above
  | true, true =>
      let excess := 2 * (grid.value % grid.step)
      if excess < grid.step then some below
      else if grid.step < excess then some above
      else if tie = .toEven ∧ below % 2 = 0 then some below
      else some above

end Grid

/-- The scale has a quarter of the gap above the number as its binary unit. -/
def Binary.grid (number : Binary) (power : Int) : Grid :=
  let twos := number.exponent - 2
  let left := Nat.pow 2 twos.toNat * Nat.pow 10 (-power).toNat
  let right := Nat.pow 10 power.toNat * Nat.pow 2 (-twos).toNat
  { value := 4 * number.mantissa * left
    low := (4 * number.mantissa - if number.lowest then 1 else 2) * left
    high := (4 * number.mantissa + 2) * left
    closed := number.mantissa % 2 = 0
    step := right }

/-- A power of ten above the number: `4 / 13` and `3 / 10` enclose the decimal
logarithm of two. -/
def Binary.startingPower (number : Binary) : Int :=
  let bits := (Nat.log2 number.mantissa : Int) + number.exponent + 1
  if 0 ≤ bits then bits * 4 / 13 + 1 else bits * 3 / 10 + 1

/-- The digits in full: a binary fraction is a decimal fraction. -/
def Binary.full (number : Binary) : Short :=
  ⟨number.mantissa * Nat.pow 2 number.exponent.toNat * Nat.pow 5 (-number.exponent).toNat,
    min number.exponent 0⟩

def Binary.search (number : Binary) (tie : Tie) : (count : Nat) → Int → Short
  | 0, _ => number.full
  | count + 1, power =>
      match (number.grid power).nearest? tie with
      | some digits => ⟨digits, power⟩
      | none => number.search tie count (power - 1)

/-- Fewer than forty powers lie between the starting power and the seventeenth
digit. -/
def Binary.shortest (number : Binary) (tie : Tie) : Short :=
  if number.mantissa = 0 then ⟨0, 0⟩ else number.search tie 40 number.startingPower

example : (Binary.ofBits? 0x3FB999999999999A).map (·.shortest .upward) =
    some ⟨1, -1⟩ := by decide +kernel

example : (Binary.ofBits? 1).map (·.shortest .upward) = some ⟨5, -324⟩ := by
  decide +kernel

/-! ## Sign and layout -/

/-- The sign bit, which negative zero has too. -/
def signOf (value : Float) : Bool :=
  value.toBits.toNat / Nat.pow 2 63 == 1

def zeros (count : Nat) : List Char :=
  List.replicate count '0'

/-- Digits and, counted from their left end, the place of the decimal point. -/
def Short.placed (short : Short) : List Char × Int :=
  let digits := digitsOfNat short.digits
  (digits, digits.length + short.exponent)

/-- Positional text: zeros fill the places up to the point. A whole number is
followed by `whole`. -/
def positional (digits : List Char) (point : Int) (whole : List Char) : List Char :=
  if point ≤ 0 then '0' :: '.' :: zeros (-point).toNat ++ digits
  else if (digits.length : Int) ≤ point then
    digits ++ zeros (point.toNat - digits.length) ++ whole
  else digits.take point.toNat ++ '.' :: digits.drop point.toNat

example : positional ['1', '5'] 1 [] = ['1', '.', '5'] := by decide
example : positional ['1', '5'] 3 ['.', '0'] = ['1', '5', '0', '.', '0'] := by decide
example : positional ['1', '5'] (-1) [] = ['0', '.', '0', '1', '5'] := by decide

/-- Positional text without an exponent. Halfway digits go up. -/
def positionalText (whole : List Char) (value : Float) : String :=
  let unsigned :=
    match Binary.ofBits? value.toBits.toNat with
    | some number =>
        let (digits, point) := (number.shortest .upward).placed
        if number.mantissa = 0 then '0' :: whole else positional digits point whole
    | none => "inf".toList
  String.ofList (if signOf value then '-' :: unsigned else unsigned)

end ErSchema.Decimal
