import ErSchema.Yaml.Failure

/-! # Reading a YAML text from left to right -/

namespace ErSchema.Yaml

structure Cursor where
  rest : List Char
  mark : Mark

/-! ## Classes of characters -/

def isBreak (character : Char) : Bool :=
  character = '\n' || character = '\r' || character = '\x85' ||
    character = '\u2028' || character = '\u2029'

def isSpace (character : Char) : Bool :=
  character = ' ' || character = '\t'

/-- Characters of names: of anchors, handles and directives. -/
def isWord (character : Char) : Bool :=
  character.isAlphanum || character = '_' || character = '-'

/-- The characters a text may have. -/
def isAllowed (character : Char) : Bool :=
  let code := character.toNat
  code = 9 || code = 10 || code = 13 || (0x20 ≤ code && code ≤ 0x7E) || code = 0x85 ||
    (0xA0 ≤ code && code ≤ 0xFFFD && code ≠ 0xFEFF) || 0x10000 ≤ code

/-- The bytes before the first character that is not allowed. -/
def firstForbidden? (before : Nat) : List Char → Option Nat
  | [] => none
  | character :: rest =>
      if isAllowed character then firstForbidden? (before + character.utf8Size) rest
      else some before

namespace Cursor

def start (text : List Char) : Cursor := ⟨text, .start⟩

def peek? (cursor : Cursor) : Option Char := cursor.rest.head?

def peekAt? (cursor : Cursor) (place : Nat) : Option Char := cursor.rest[place]?

def atEnd (cursor : Cursor) : Bool := cursor.rest.isEmpty

def looksAt (cursor : Cursor) (character : Char) : Bool :=
  cursor.peek? = some character

def atSpace (cursor : Cursor) : Bool := cursor.peek?.any isSpace

def atBreak (cursor : Cursor) : Bool := cursor.peek?.any isBreak

/-- A space, a break or the end stands at that distance. -/
def gapAt (cursor : Cursor) (place : Nat) : Bool :=
  match cursor.peekAt? place with
  | none => true
  | some character => isSpace character || isBreak character

def atGap (cursor : Cursor) : Bool := cursor.gapAt 0

def skip (cursor : Cursor) : Cursor :=
  match cursor.rest with
  | [] => cursor
  | _ :: rest =>
      ⟨rest, { cursor.mark with
        offset := cursor.mark.offset + 1
        column := cursor.mark.column + 1 }⟩

def skipMany (cursor : Cursor) : Nat → Cursor
  | 0 => cursor
  | count + 1 => cursor.skip.skipMany count

/-- Pass over one break and tell what it stands for. A carriage return with a
line feed is one break; separators of lines and paragraphs stand for
themselves. -/
def readBreak (cursor : Cursor) : List Char × Cursor :=
  let next (count : Nat) (rest : List Char) : Cursor :=
    ⟨rest, ⟨cursor.mark.offset + count, cursor.mark.line + 1, 0⟩⟩
  match cursor.rest with
  | '\r' :: '\n' :: rest => (['\n'], next 2 rest)
  | character :: rest =>
      if character = '\u2028' ∨ character = '\u2029' then ([character], next 1 rest)
      else if isBreak character then (['\n'], next 1 rest)
      else ([], cursor)
  | [] => ([], cursor)

def skipBreak (cursor : Cursor) : Cursor := cursor.readBreak.2

/-- The characters up to the first that is not accepted; they hold no break. -/
def takeWhile (accepts : Char → Bool) (cursor : Cursor) : List Char × Cursor :=
  let taken := cursor.rest.takeWhile accepts
  (taken, ⟨cursor.rest.dropWhile accepts,
    { cursor.mark with
      offset := cursor.mark.offset + taken.length
      column := cursor.mark.column + taken.length }⟩)

def skipWhile (accepts : Char → Bool) (cursor : Cursor) : Cursor :=
  (cursor.takeWhile accepts).2

def skipSpaces (cursor : Cursor) : Cursor := cursor.skipWhile isSpace

/-- A comment reaches to the end of its line. -/
def skipComment (cursor : Cursor) : Cursor :=
  if cursor.looksAt '#' then cursor.skipWhile fun character => !isBreak character
  else cursor

/-- Three of the character at the start of a line, with a gap behind them. -/
def atIndicator (cursor : Cursor) (character : Char) : Bool :=
  cursor.mark.column = 0 && cursor.rest.take 3 = [character, character, character] &&
    cursor.gapAt 3

def atDocumentIndicator (cursor : Cursor) : Bool :=
  cursor.atIndicator '-' || cursor.atIndicator '.'

def fail {α : Type} (cursor : Cursor) (problem : Problem) (activity : Activity)
    (begun : Mark) : Except Failure α :=
  .error ⟨problem, cursor.mark, some (activity, begun)⟩

end Cursor

end ErSchema.Yaml
