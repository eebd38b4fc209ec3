import ErSchema.Json.Failure

/-! # Reading a text from left to right

A cursor is the unread rest of the text and the place it starts at. A reader
returns what it read and the cursor behind it. -/

namespace ErSchema.Json

def Position.after (position : Position) (character : Char) : Position :=
  if character = '\n' then ⟨position.line + 1, 0⟩
  else ⟨position.line, position.column + character.utf8Size⟩

/-- Behind the first bytes of a text. A character that is cut counts in part. -/
def Position.afterBytes (position : Position) : (count : Nat) → List Char → Position
  | _, [] => position
  | count, character :: rest =>
      if character.utf8Size ≤ count then
        (position.after character).afterBytes (count - character.utf8Size) rest
      else ⟨position.line, position.column + count⟩

structure Cursor where
  rest : List Char
  position : Position

abbrev Reader (α : Type) := Cursor → Except Failure (α × Cursor)

namespace Cursor

def start (text : String) : Cursor := ⟨text.toList, ⟨1, 0⟩⟩

/-- Behind the next byte, which is at fault although it was not read. -/
def ahead (cursor : Cursor) : Position :=
  cursor.position.afterBytes 1 cursor.rest

def skip (cursor : Cursor) : Cursor :=
  match cursor.rest with
  | [] => cursor
  | character :: rest => ⟨rest, cursor.position.after character⟩

def skipWhileFrom (accepts : Char → Bool) (position : Position) : List Char → Cursor
  | [] => ⟨[], position⟩
  | character :: rest =>
      if accepts character then skipWhileFrom accepts (position.after character) rest
      else ⟨character :: rest, position⟩

def skipWhile (accepts : Char → Bool) (cursor : Cursor) : Cursor :=
  skipWhileFrom accepts cursor.position cursor.rest

def isBlank (character : Char) : Bool :=
  character = ' ' || character = '\n' || character = '\t' || character = '\r'

def skipBlanks (cursor : Cursor) : Cursor :=
  cursor.skipWhile isBlank

def skipDigits (cursor : Cursor) : Cursor :=
  cursor.skipWhile Decimal.isDigit

def peek? (cursor : Cursor) : Option Char :=
  cursor.rest.head?

def peeksDigit (cursor : Cursor) : Bool :=
  cursor.peek?.any Decimal.isDigit

/-- A failure at the cursor. -/
def fail {α : Type} (cursor : Cursor) (cause : Cause) : Except Failure α :=
  .error ⟨cause, cursor.position⟩

/-- A failure at the byte that follows. -/
def failAhead {α : Type} (cursor : Cursor) (cause : Cause) : Except Failure α :=
  .error ⟨cause, cursor.ahead⟩

end Cursor

/-! ## Words -/

/-- The rest of `null`, `true` or `false` once its first letter is read. -/
def readWord : List Char → Cursor → Except Failure Cursor
  | [], cursor => .ok cursor
  | letter :: letters, cursor =>
      match cursor.peek? with
      | none => cursor.fail .eofInValue
      | some character =>
          if character = letter then readWord letters cursor.skip
          else cursor.failAhead .expectedIdent

/-! ## Strings

A string is read after its opening quote. An escape above the first plane is
written as two surrogates, which must come as a pair. -/

def hexValue? (character : Char) : Option Nat :=
  if '0' ≤ character ∧ character ≤ '9' then some (character.toNat - '0'.toNat)
  else if 'a' ≤ character ∧ character ≤ 'f' then some (character.toNat - 'a'.toNat + 10)
  else if 'A' ≤ character ∧ character ≤ 'F' then some (character.toNat - 'A'.toNat + 10)
  else none

def hexQuad? (first second third fourth : Char) : Option Nat := do
  let first ← hexValue? first
  let second ← hexValue? second
  let third ← hexValue? third
  let fourth ← hexValue? fourth
  some (((first * 16 + second) * 16 + third) * 16 + fourth)

/-- Four hexadecimal digits. Four bytes are read even if they are not digits. -/
def readQuad (cursor : Cursor) : Except Failure (Nat × Cursor) :=
  let bytes := cursor.rest.foldl (fun count character => count + character.utf8Size) 0
  if bytes < 4 then
    .error ⟨.eofInString, cursor.position.afterBytes bytes cursor.rest⟩
  else
    let invalid : Except Failure (Nat × Cursor) :=
      .error ⟨.invalidEscape, cursor.position.afterBytes 4 cursor.rest⟩
    match cursor.rest with
    | first :: second :: third :: fourth :: _ =>
        match hexQuad? first second third fourth with
        | some code => .ok (code, cursor.skip.skip.skip.skip)
        | none => invalid
    | _ => invalid

def isLeading (code : Nat) : Bool := 0xD800 ≤ code && code ≤ 0xDBFF
def isTrailing (code : Nat) : Bool := 0xDC00 ≤ code && code ≤ 0xDFFF

def expectInPair (expected : Char) (cursor : Cursor) : Except Failure Cursor :=
  match cursor.peek? with
  | none => cursor.fail .eofInString
  | some character =>
      if character = expected then .ok cursor.skip
      else cursor.failAhead .hexEscapeCutShort

def readUnicodeEscape (cursor : Cursor) : Except Failure (Char × Cursor) := do
  let (code, cursor) ← readQuad cursor
  if isTrailing code then cursor.fail .loneSurrogate
  else if isLeading code then do
    let cursor ← expectInPair '\\' cursor
    let cursor ← expectInPair 'u' cursor
    let (second, cursor) ← readQuad cursor
    if isTrailing second then
      .ok (Char.ofNat (0x10000 + (code - 0xD800) * 0x400 + (second - 0xDC00)), cursor)
    else cursor.fail .loneSurrogate
  else .ok (Char.ofNat code, cursor)

/-- An escape after its backslash. -/
def readEscape (cursor : Cursor) : Except Failure (Char × Cursor) :=
  match cursor.peek? with
  | none => cursor.fail .eofInString
  | some '"' => .ok ('"', cursor.skip)
  | some '\\' => .ok ('\\', cursor.skip)
  | some '/' => .ok ('/', cursor.skip)
  | some 'b' => .ok ('\x08', cursor.skip)
  | some 'f' => .ok ('\x0c', cursor.skip)
  | some 'n' => .ok ('\n', cursor.skip)
  | some 'r' => .ok ('\r', cursor.skip)
  | some 't' => .ok ('\t', cursor.skip)
  | some 'u' => readUnicodeEscape cursor.skip
  | some _ => cursor.failAhead .invalidEscape

/-- The characters of a string in reverse. Each step reads at least one
character, so the length of the rest bounds the steps. -/
def readChars : (steps : Nat) → List Char → Cursor → Except Failure (List Char × Cursor)
  | 0, _, cursor => cursor.fail .eofInString
  | steps + 1, read, cursor =>
      match cursor.peek? with
      | none => cursor.fail .eofInString
      | some '"' => .ok (read, cursor.skip)
      | some '\\' => do
          let (character, cursor) ← readEscape cursor.skip
          readChars steps (character :: read) cursor
      | some character =>
          if character.toNat < 32 then cursor.failAhead .controlCharacter
          else readChars steps (character :: read) cursor.skip

def readString : Reader String := fun cursor => do
  let (characters, cursor) ← readChars (cursor.rest.length + 1) [] cursor
  return (String.ofList characters.reverse, cursor)

end ErSchema.Json
