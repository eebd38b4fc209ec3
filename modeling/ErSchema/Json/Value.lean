import ErSchema.Decimal.Digits
import ErSchema.Decimal.Shortest

/-! # JSON values

An integer that fits in 64 bits, signed or unsigned, stays an integer; every
other number is a binary64 number. The members of an object are a list, so that
a value can keep the order in which it is written. -/

namespace ErSchema.Json

inductive Number where
  | integer (value : Int)
  | float (value : Float)

inductive Value where
  | null
  | bool (value : Bool)
  | number (value : Number)
  | string (text : String)
  | array (items : List Value)
  | object (members : List (String × Value))

instance : Inhabited Value := ⟨.null⟩

/-! ## Sameness

Two floats are the same number if they compare equal, so the two zeros are. -/

def Number.same : Number → Number → Bool
  | .integer left, .integer right => left == right
  | .float left, .float right => left == right
  | _, _ => false

mutual
def Value.same : Value → Value → Bool
  | .null, .null => true
  | .bool left, .bool right => left == right
  | .number left, .number right => left.same right
  | .string left, .string right => left == right
  | .array left, .array right => sameItems left right
  | .object left, .object right => sameMembers left right
  | _, _ => false

def sameItems : List Value → List Value → Bool
  | [], [] => true
  | left :: lefts, right :: rights => left.same right && sameItems lefts rights
  | _, _ => false

def sameMembers : List (String × Value) → List (String × Value) → Bool
  | [], [] => true
  | (leftKey, left) :: lefts, (rightKey, right) :: rights =>
      leftKey == rightKey && left.same right && sameMembers lefts rights
  | _, _ => false
end

/-! ## Sorted members

A kept object lists each key once, in the order of the characters' code points,
with the value given last. -/

def insertMember (key : String) (value : Value) :
    List (String × Value) → List (String × Value)
  | [] => [(key, value)]
  | (other, held) :: rest =>
      if key = other then (key, value) :: rest
      else if key < other then (key, value) :: (other, held) :: rest
      else (other, held) :: insertMember key value rest

def sortMembers (members : List (String × Value)) : List (String × Value) :=
  members.foldl (fun sorted member => insertMember member.1 member.2 sorted) []

/-! ## Numbers as text

The fewest digits that read back. A float shows that it is one: it has a point
or an exponent. -/

/-- Positional from a hundred-thousandth up to sixteen places before the point;
halfway digits go to the even neighbour. -/
def floatText (value : Float) : String :=
  let unsigned :=
    match Decimal.Binary.ofBits? value.toBits.toNat with
    | some number =>
        let (digits, point) := (number.shortest .toEven).placed
        if number.mantissa = 0 then "0.0".toList
        else if -5 < point ∧ point ≤ 16 then Decimal.positional digits point ".0".toList
        else
          let exponent := point - 1
          let mantissa :=
            match digits with
            | first :: second :: rest => first :: '.' :: second :: rest
            | short => short
          let sign := if exponent < 0 then '-' else '+'
          mantissa ++ 'e' :: sign :: Decimal.digitsOfNat exponent.natAbs
    | none => "null".toList
  String.ofList (if Decimal.signOf value then '-' :: unsigned else unsigned)

def Number.text : Number → String
  | .integer value => Decimal.intText value
  | .float value => floatText value

end ErSchema.Json
