import ErSchema.Json.Value

/-! # Writing JSON

One member or item a line, two spaces for each level; empty containers stay on
their line. Only what JSON forbids inside a string is escaped. -/

namespace ErSchema.Json

def hexDigit (value : Nat) : Char :=
  if value < 10 then Char.ofNat ('0'.toNat + value) else Char.ofNat ('a'.toNat + value - 10)

def escapeChar (character : Char) : List Char :=
  match character with
  | '"' => ['\\', '"']
  | '\\' => ['\\', '\\']
  | '\x08' => ['\\', 'b']
  | '\x0c' => ['\\', 'f']
  | '\n' => ['\\', 'n']
  | '\r' => ['\\', 'r']
  | '\t' => ['\\', 't']
  | _ =>
      if character.toNat < 32 then
        ['\\', 'u', '0', '0', hexDigit (character.toNat / 16), hexDigit (character.toNat % 16)]
      else [character]

def quoteChars (text : List Char) : List Char :=
  '"' :: text.flatMap escapeChar ++ ['"']

example : quoteChars ['a', '\n', '\x1f'] = "\"a\\n\\u001f\"".toList := by decide +kernel

def lineBreak (level : Nat) : List Char :=
  '\n' :: List.replicate (2 * level) ' '

mutual
def Value.write (level : Nat) : Value → List Char
  | .null => "null".toList
  | .bool true => "true".toList
  | .bool false => "false".toList
  | .number number => number.text.toList
  | .string text => quoteChars text.toList
  | .array [] => ['[', ']']
  | .array (item :: items) =>
      '[' :: lineBreak (level + 1) ++ item.write (level + 1) ++
        writeItems (level + 1) items ++ lineBreak level ++ [']']
  | .object [] => ['{', '}']
  | .object ((key, value) :: members) =>
      '{' :: lineBreak (level + 1) ++ quoteChars key.toList ++ [':', ' '] ++
        value.write (level + 1) ++ writeMembers (level + 1) members ++
          lineBreak level ++ ['}']

def writeItems (level : Nat) : List Value → List Char
  | [] => []
  | item :: items =>
      ',' :: lineBreak level ++ item.write level ++ writeItems level items

def writeMembers (level : Nat) : List (String × Value) → List Char
  | [] => []
  | (key, value) :: members =>
      ',' :: lineBreak level ++ quoteChars key.toList ++ [':', ' '] ++
        value.write level ++ writeMembers level members
end

def Value.pretty (value : Value) : String :=
  String.ofList (value.write 0)

end ErSchema.Json
