/-! # Blank characters

The Unicode property White_Space: its twenty-five members, trimming them from
the ends of a text, and cutting a text into the words between them. A
zero-width space or a byte-order mark is not blank. -/

namespace ErSchema.Text

def isBlank (character : Char) : Bool :=
  let code := character.toNat
  (9 ≤ code && code ≤ 13) || code == 0x20 || code == 0x85 || code == 0xA0 ||
    code == 0x1680 || (0x2000 ≤ code && code ≤ 0x200A) || code == 0x2028 ||
    code == 0x2029 || code == 0x202F || code == 0x205F || code == 0x3000

example : isBlank '\u200B' = false ∧ isBlank '\uFEFF' = false := by decide

/-! ## Trimming -/

def trimBlanks (text : List Char) : List Char :=
  ((text.dropWhile isBlank).reverse.dropWhile isBlank).reverse

def trim (text : String) : String :=
  String.ofList (trimBlanks text.toList)

example : trimBlanks [' ', 'a', ' ', 'b', '\n'] = ['a', ' ', 'b'] := by decide

/-! ## Words -/

/-- The maximal runs of characters that are not blank, in order. -/
def words : List Char → List (List Char)
  | [] => []
  | character :: rest =>
      if isBlank character then words rest
      else
        match rest, words rest with
        | next :: _, word :: others =>
            if isBlank next then [character] :: word :: others
            else (character :: word) :: others
        | _, others => [character] :: others

example : words [' ', 'a', 'b', '\t', ' ', 'c'] = [['a', 'b'], ['c']] := by decide

end ErSchema.Text
