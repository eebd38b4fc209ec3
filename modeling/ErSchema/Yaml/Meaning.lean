import ErSchema.Decimal.Shortest
import ErSchema.Decimal.Written
import ErSchema.Text.Quoted
import ErSchema.Yaml.Outline

/-! # What a scalar stands for

A plain scalar is nothing, a truth value, a number or a text, whichever its
characters look like first. A tag may say which of them it is to be. A scalar
that is not plain is a text. -/

namespace ErSchema.Yaml

inductive Meaning where
  | unit
  | bool (value : Bool)
  | integer (value : Int)
  | float (value : Float)
  | text (text : String)

/-! ## Forms of plain scalars -/

def isNull (text : String) : Bool :=
  ["null", "Null", "NULL", "~"].contains text

def bool? (text : String) : Option Bool :=
  if ["true", "True", "TRUE"].contains text then some true
  else if ["false", "False", "FALSE"].contains text then some false
  else none

/-- Digits in a base of at most sixteen, at least one. -/
def digitsIn? (base : Nat) (text : List Char) : Option Nat :=
  if text.isEmpty then none
  else
    text.foldlM (fun value character =>
      match hexValue? character with
      | some digit => if digit < base then some (base * value + digit) else none
      | none => none) 0

def dropPlus : List Char → List Char
  | '+' :: text => text
  | text => text

/-- A run of digits with a zero in front is not a number. -/
def isPadded (text : List Char) : Bool :=
  text.head? = some '0' && 1 < text.length && text.all Decimal.isDigit

/-- Digits after a sign. -/
def magnitude? : List Char → Option Nat
  | '0' :: 'x' :: digits => digitsIn? 16 digits
  | '0' :: 'o' :: digits => digitsIn? 8 digits
  | '0' :: 'b' :: digits => digitsIn? 2 digits
  | digits => if isPadded digits then none else digitsIn? 10 digits

def natural? (text : String) : Option Nat :=
  magnitude? (dropPlus text.toList)

/-- A whole number that fits into 128 bits. -/
def integer? (text : String) : Option Int :=
  match text.toList with
  | '-' :: unsigned =>
      match magnitude? unsigned with
      | some value => if value ≤ Nat.pow 2 127 then some (-value) else none
      | none => none
  | _ =>
      match natural? text with
      | some value => if value < Nat.pow 2 128 then some value else none
      | none => none

/-- A decimal that is not too large. The sign is in it. -/
def decimal? (text : List Char) : Option Float :=
  match Decimal.read? text with
  | some (decimal, []) =>
      if decimal.nearest.isFinite then some decimal.nearest else none
  | _ => none

def float? (text : String) : Option Float :=
  if [".inf", ".Inf", ".INF", "+.inf", "+.Inf", "+.INF"].contains text then some (1 / 0)
  else if ["-.inf", "-.Inf", "-.INF"].contains text then some (-1 / 0)
  else if [".nan", ".NaN", ".NAN"].contains text then some (0 / 0)
  else decimal? text.toList

def dropSign : List Char → List Char
  | '-' :: text => text
  | text => dropPlus text

def plainMeaning (text : String) : Meaning :=
  if text.isEmpty || isNull text then .unit
  else
    match bool? text, integer? text with
    | some value, _ => .bool value
    | none, some value => .integer value
    | none, none =>
        if isPadded (dropSign text.toList) then .text text
        else
          match float? text with
          | some value => .float value
          | none => .text text

/-! ## Scalars with a tag -/

/-- What stands where something else was expected. -/
inductive Found where
  | meaning (meaning : Meaning)
  | sequence
  | map

inductive Mismatch where
  | type (found : Found) (expected : String)
  | value (text : String) (expected : String)

def standardTag (name : String) : String :=
  "tag:yaml.org,2002:" ++ name

/-- What a tag demands of the text. -/
def taggedMeaning (tag : String) (scalar : Scalar) : Except Mismatch Meaning :=
  let demand (meaning : Option Meaning) (expected : String) : Except Mismatch Meaning :=
    match meaning with
    | some meaning => .ok meaning
    | none => .error (.value scalar.text expected)
  if tag = standardTag "bool" then demand ((bool? scalar.text).map .bool) "a boolean"
  else if tag = standardTag "int" then
    demand ((integer? scalar.text).map .integer) "an integer"
  else if tag = standardTag "float" then demand ((float? scalar.text).map .float) "a float"
  else if tag = standardTag "null" then
    demand (if isNull scalar.text then some .unit else none) "null"
  else if tag.startsWith "!" && scalar.style = .plain then .ok (plainMeaning scalar.text)
  else .ok (.text scalar.text)

def Scalar.meaning (scalar : Scalar) : Except Mismatch Meaning :=
  match scalar.tag with
  | some tag => taggedMeaning tag scalar
  | none =>
      if scalar.style = .plain then .ok (plainMeaning scalar.text)
      else .ok (.text scalar.text)

/-! ## Messages -/

/-- Integers beyond 64 bits are shown with the width that they need. -/
def integerWidth (value : Int) : String :=
  if value < -Nat.pow 2 63 then " as i128"
  else if Nat.pow 2 64 ≤ value then " as u128"
  else ""

def floatText (value : Float) : String :=
  if value.isNaN then "NaN"
  else if value.isInf then Decimal.positionalText [] value
  else Decimal.positionalText ['.', '0'] value

def Meaning.describe : Meaning → String
  | .unit => "unit value"
  | .bool value => "boolean \x60" ++ (if value then "true" else "false") ++ "\x60"
  | .integer value =>
      "integer \x60" ++ Decimal.intText value ++ "\x60" ++ integerWidth value
  | .float value => "floating point \x60" ++ floatText value ++ "\x60"
  | .text written => "string " ++ Text.cite written

def Found.describe : Found → String
  | .meaning known => known.describe
  | .sequence => "sequence"
  | .map => "map"

def Mismatch.message : Mismatch → String
  | .type found expected =>
      "invalid type: " ++ found.describe ++ ", expected " ++ expected
  | .value text expected =>
      "invalid value: string " ++ Text.cite text ++ ", expected " ++ expected

/-- What is wrong with a node where something else was expected. A scalar that
its tag does not allow is wrong for that. -/
def Content.mismatch (content : Content) (expected : String) : Mismatch :=
  match content with
  | .sequence => .type .sequence expected
  | .mapping => .type .map expected
  | .scalar written =>
      match written.meaning with
      | .ok meaning => .type (.meaning meaning) expected
      | .error mismatch => mismatch

end ErSchema.Yaml
