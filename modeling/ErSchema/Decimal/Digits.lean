/-! # Decimal digits of natural numbers

Writing a number and reading it back. Reading takes any run of ASCII digits,
so `007` reads as seven; writing never puts a zero in front. -/

namespace ErSchema.Decimal

def isDigit (character : Char) : Bool :=
  '0' ≤ character && character ≤ '9'

def digitValue (character : Char) : Nat :=
  character.toNat - '0'.toNat

/-- The value of a run of digits. -/
def natOfDigits (digits : List Char) : Nat :=
  digits.foldl (fun value digit => 10 * value + digitValue digit) 0

def digitsOfNat (value : Nat) : List Char :=
  Nat.toDigits 10 value

def natText (value : Nat) : String :=
  String.ofList (digitsOfNat value)

def intText : Int → String
  | .ofNat value => natText value
  | .negSucc value => "-" ++ natText (value + 1)

example : natOfDigits ['0', '4', '2'] = 42 := by decide
example : digitsOfNat 42 = ['4', '2'] := by decide
example : digitsOfNat 0 = ['0'] := by decide

/-- A number written in digits, at least one, that is below `bound`. -/
def natBelow? (bound : Nat) (digits : List Char) : Option Nat :=
  if digits.isEmpty || !digits.all isDigit then none
  else if natOfDigits digits < bound then some (natOfDigits digits) else none

example : natBelow? 256 ['2', '5', '5'] = some 255 := by decide
example : natBelow? 256 ['2', '5', '6'] = none ∧ natBelow? 256 [] = none := by decide

/-- The same with a plus sign in front, which changes nothing. -/
def countBelow? (bound : Nat) : List Char → Option Nat
  | '+' :: digits => natBelow? bound digits
  | digits => natBelow? bound digits

end ErSchema.Decimal
