import ErSchema.Json.Cursor

/-! # Reading numbers

The digits are collected into 64 bits; what does not fit any more only moves the
decimal point. An integer that fits is kept exactly. Every other number is its
collected digits scaled by a power of ten in binary64 arithmetic, and must not
overflow. -/

namespace ErSchema.Json

def digitLimit : Nat := UInt64.size

def exponentLimit : Nat := Nat.pow 2 31

/-- Collected digits, the power of ten of the last one, and the cursor behind
them. -/
structure Collected where
  significand : Nat
  power : Int
  cursor : Cursor

/-! ## From digits to a number -/

def powerOfTen (exponent : Nat) : Float :=
  Float.ofScientific 1 false exponent

/-- Divide by `10 ^ 308` while the exponent is out of the table's reach. A
collected significand is zero after two such steps. -/
def scaleDown : (steps : Nat) → Float → (exponent : Nat) → Float
  | 0, value, _ => value
  | steps + 1, value, exponent =>
      if exponent ≤ 308 then value / powerOfTen exponent
      else scaleDown steps (value / powerOfTen 308) (exponent - 308)

def scale? (significand : Nat) (power : Int) : Option Float :=
  let value := Float.ofNat significand
  match power with
  | .ofNat exponent =>
      if exponent ≤ 308 then
        let scaled := value * powerOfTen exponent
        if scaled.isInf then none else some scaled
      else if significand = 0 then some value
      else none
  | .negSucc exponent => some (scaleDown 4 value (exponent + 1))

def signed (negative : Bool) (value : Float) : Number :=
  .float (if negative then -value else value)

def floatOf (negative : Bool) (collected : Collected) :
    Except Failure (Number × Cursor) :=
  match scale? collected.significand collected.power with
  | some value => .ok (signed negative value, collected.cursor)
  | none => collected.cursor.fail .numberOutOfRange

/-- An integer below the limits of 64 bits. Negative zero is a float. -/
def integerOf (negative : Bool) (significand : Nat) : Number :=
  if !negative then .integer significand
  else if significand = 0 ∨ Nat.pow 2 63 < significand then signed true (Float.ofNat significand)
  else .integer (-significand)

/-! ## Exponents -/

/-- The digits of an exponent, in order, while its value stays below the limit.
`none` if a digit takes it past the limit; the cursor is then behind that
digit. -/
def readExponentDigits (value : Nat) (position : Position) :
    List Char → Option Nat × Cursor
  | [] => (some value, ⟨[], position⟩)
  | character :: rest =>
      if Decimal.isDigit character then
        let extended := 10 * value + Decimal.digitValue character
        if extended < exponentLimit then
          readExponentDigits extended (position.after character) rest
        else (none, ⟨rest, position.after character⟩)
      else (some value, ⟨character :: rest, position⟩)

/-- An exponent too large to count makes the number zero or infinite. -/
def hugeExponent (negative : Bool) (significand : Nat) (downward : Bool)
    (cursor : Cursor) : Except Failure (Number × Cursor) :=
  if significand ≠ 0 ∧ !downward then cursor.fail .numberOutOfRange
  else .ok (signed negative 0, cursor.skipDigits)

/-- An exponent from its mark on. -/
def readExponent (negative : Bool) (collected : Collected) :
    Except Failure (Number × Cursor) :=
  let marked := collected.cursor.skip
  let downward := marked.peek? = some '-'
  let unsigned :=
    if downward ∨ marked.peek? = some '+' then marked.skip else marked
  match unsigned.peek? with
  | none => unsigned.fail .eofInValue
  | some first =>
      if Decimal.isDigit first then
        match readExponentDigits 0 unsigned.position unsigned.rest with
        | (none, cursor) => hugeExponent negative collected.significand downward cursor
        | (some exponent, cursor) =>
            let shift : Int := if downward then -exponent else exponent
            floatOf negative { collected with power := collected.power + shift, cursor }
      else unsigned.failAhead .invalidNumber

def finishFloat (negative : Bool) (collected : Collected) :
    Except Failure (Number × Cursor) :=
  match collected.cursor.peek? with
  | some 'e' | some 'E' => readExponent negative collected
  | _ => floatOf negative collected

/-! ## Digits -/

/-- Collect digits while they fit. The flag tells whether one was left out. -/
def collectDigits (significand count : Nat) (position : Position) :
    List Char → Nat × Nat × Bool × Cursor
  | [] => (significand, count, false, ⟨[], position⟩)
  | character :: rest =>
      if Decimal.isDigit character then
        let extended := 10 * significand + Decimal.digitValue character
        if extended < digitLimit then
          collectDigits extended (count + 1) (position.after character) rest
        else (significand, count, true, ⟨character :: rest, position⟩)
      else (significand, count, false, ⟨character :: rest, position⟩)

/-- A fraction from its point on. Digits that do not fit are dropped. -/
def readFraction (negative : Bool) (collected : Collected) :
    Except Failure (Number × Cursor) :=
  let marked := collected.cursor.skip
  match collectDigits collected.significand 0 marked.position marked.rest with
  | (significand, count, true, cursor) =>
      finishFloat negative ⟨significand, collected.power - count, cursor.skipDigits⟩
  | (_, 0, false, cursor) =>
      match cursor.peek? with
      | none => cursor.failAhead .eofInValue
      | some _ => cursor.failAhead .invalidNumber
  | (significand, count, false, cursor) =>
      finishFloat negative ⟨significand, collected.power - count, cursor⟩

/-- What follows the digits before the point. -/
def readAfterWhole (negative : Bool) (significand : Nat) (cursor : Cursor) :
    Except Failure (Number × Cursor) :=
  match cursor.peek? with
  | some '.' => readFraction negative ⟨significand, 0, cursor⟩
  | some 'e' | some 'E' => readExponent negative ⟨significand, 0, cursor⟩
  | _ => .ok (integerOf negative significand, cursor)

/-- Whole digits beyond 64 bits: they count as powers of ten. -/
def readLongWhole (negative : Bool) (significand : Nat) (cursor : Cursor) :
    Except Failure (Number × Cursor) :=
  let extra := (cursor.rest.takeWhile Decimal.isDigit).length
  let cursor := cursor.skipDigits
  match cursor.peek? with
  | some '.' => readFraction negative ⟨significand, extra, cursor⟩
  | _ => finishFloat negative ⟨significand, extra, cursor⟩

/-- A number after its sign. -/
def readUnsigned (negative : Bool) : Reader Number := fun cursor =>
  match cursor.peek? with
  | none => cursor.fail .eofInValue
  | some '0' =>
      if cursor.skip.peeksDigit then cursor.skip.failAhead .invalidNumber
      else readAfterWhole negative 0 cursor.skip
  | some first =>
      if Decimal.isDigit first then
        match collectDigits 0 0 cursor.position cursor.rest with
        | (significand, _, true, cursor) => readLongWhole negative significand cursor
        | (significand, _, false, cursor) => readAfterWhole negative significand cursor
      else cursor.failAhead .invalidNumber

end ErSchema.Json
