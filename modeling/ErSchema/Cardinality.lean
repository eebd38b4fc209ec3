import ErSchema.Decimal.Digits
import ErSchema.Text.Blank

/-! # Cardinality labels

People write `1`, `N` or `(0,n)` at the end of a line. A label that is none of
these is kept as it stands, because it says nothing about counts. -/

namespace ErSchema

inductive Bound where
  | fixed (value : UInt32)
  | unbounded
  deriving DecidableEq, Repr

inductive Cardinality where
  | unspecified
  | one
  | many
  | minMax (min max : Bound)
  | other (label : String)
  deriving DecidableEq, Repr

instance : Inhabited Cardinality := ⟨.unspecified⟩

/-! ## The written form -/

namespace Bound

def display : Bound → String
  | .fixed value => Decimal.natText value.toNat
  | .unbounded => "n"

/-- A run of digits below `2 ^ 32`, or one of the signs for "any number". -/
def read? (text : List Char) : Option (Bound × List Char) :=
  match text.takeWhile Decimal.isDigit with
  | [] =>
      match text with
      | 'n' :: rest => some (.unbounded, rest)
      | 'N' :: rest => some (.unbounded, rest)
      | 'm' :: rest => some (.unbounded, rest)
      | 'M' :: rest => some (.unbounded, rest)
      | '*' :: rest => some (.unbounded, rest)
      | _ => none
  | digits =>
      (Decimal.natBelow? UInt32.size digits).map fun value =>
        (.fixed (UInt32.ofNat value), text.dropWhile Decimal.isDigit)

end Bound

namespace Cardinality

/-- Only the many side of a relationship holds a foreign key. -/
def isMany : Cardinality → Bool
  | .many => true
  | .minMax _ max => max = .unbounded
  | _ => false

def display : Cardinality → String
  | .unspecified => ""
  | .one => "1"
  | .many => "N"
  | .minMax min max => "(" ++ min.display ++ "," ++ max.display ++ ")"
  | .other label => label

/-- Inside the parentheses only spaces and tabs may surround the bounds. -/
def skipSpaces (text : List Char) : List Char :=
  text.dropWhile fun character => character = ' ' || character = '\t'

def readMinMax? (text : List Char) : Option Cardinality :=
  match text with
  | '(' :: opened => do
      let (min, afterMin) ← Bound.read? (skipSpaces opened)
      match skipSpaces afterMin with
      | ',' :: afterComma => do
          let (max, afterMax) ← Bound.read? (skipSpaces afterComma)
          if skipSpaces afterMax = [')'] then some (.minMax min max) else none
      | _ => none
  | _ => none

def ofTrimmed (text : List Char) : Cardinality :=
  match text with
  | [] => .unspecified
  | ['1'] => .one
  | ['n'] => .many
  | ['N'] => .many
  | ['m'] => .many
  | ['M'] => .many
  | _ => (readMinMax? text).getD (.other (String.ofList text))

def ofLabel (label : String) : Cardinality :=
  ofTrimmed (Text.trimBlanks label.toList)

example : ofTrimmed "( 0 ,\t*)".toList = .minMax (.fixed 0) .unbounded := by decide +kernel
example : (ofTrimmed "(0,4294967296)".toList).isMany = false := by decide +kernel

end Cardinality

end ErSchema
