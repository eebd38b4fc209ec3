import ErSchema.Text.Property.Extending
import ErSchema.Text.Property.Ranges
import ErSchema.Text.Property.Unprintable

/-! # Text quoted in a message

A text that a message cites stands between double quotes on one line: controls
and everything that has no printed form of its own are written by number. -/

namespace ErSchema.Text

def hexText (code : Nat) : List Char :=
  Nat.toDigits 16 code

/-- A mark that extends the character before it has no form of its own. -/
def isPlain (code : Nat) : Bool :=
  if code < 0x7F then 0x20 ≤ code
  else !Property.inRanges Property.extending code &&
    !Property.inRanges Property.unprintable code

def citeChar (character : Char) : List Char :=
  match character with
  | '\x00' => ['\\', '0']
  | '\t' => ['\\', 't']
  | '\n' => ['\\', 'n']
  | '\r' => ['\\', 'r']
  | '"' => ['\\', '"']
  | '\\' => ['\\', '\\']
  | _ =>
      if isPlain character.toNat then [character]
      else '\\' :: 'u' :: '{' :: hexText character.toNat ++ ['}']

def cite (text : String) : String :=
  String.ofList ('"' :: text.toList.flatMap citeChar ++ ['"'])

example : cite "a\"\x1b'" = "\"a\\\"\\u\x7b1b\x7d'\"" := by decide +kernel

end ErSchema.Text
