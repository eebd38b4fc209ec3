import ErSchema.Yaml.Scalar

/-! # Tokens

The pieces of a text before they are put together, and the pieces that have a
grammar of their own: anchors, tags and directives. -/

namespace ErSchema.Yaml

inductive Token where
  | versionDirective (major minor : Nat)
  | tagDirective (handle meaning : String)
  | documentStart
  | documentEnd
  | streamEnd
  | blockSequenceStart
  | blockMappingStart
  | blockEnd
  | flowSequenceStart
  | flowSequenceEnd
  | flowMappingStart
  | flowMappingEnd
  | blockEntry
  | flowEntry
  | key
  | value
  | alias (name : String)
  | anchor (name : String)
  | tag (handle suffix : String)
  | scalar (text : String) (style : Style)
  deriving DecidableEq, Repr

structure Placed where
  token : Token
  start : Mark
  finish : Mark

/-! ## Anchors and aliases -/

/-- What may stand behind the name of an anchor. -/
def endsAnchor (cursor : Cursor) : Bool :=
  cursor.atGap || cursor.peek?.any fun character =>
    ['?', ':', ',', ']', '}', '%', '@', '\x60'].contains character

/-- The name behind the indicator of an anchor or alias. -/
def readAnchor (activity : Activity) (cursor : Cursor) :
    Except Failure (String × Cursor) :=
  let begun := cursor.mark
  let (name, cursor) := cursor.skip.takeWhile isWord
  if name.isEmpty || !endsAnchor cursor then cursor.fail .anchorName activity begun
  else .ok (String.ofList name, cursor)

/-! ## Tags

A tag is a handle and a suffix, or a whole address between angle brackets. An
octet of an address may be escaped by its number. -/

def octetWidth (octet : Nat) : Nat :=
  if octet < 0x80 then 1
  else if octet / 32 = 6 then 2
  else if octet / 16 = 14 then 3
  else if octet / 8 = 30 then 4
  else 0

/-- The value bits of the first octet of a character. -/
def leadingBits (octet width : Nat) : Nat :=
  if width = 1 then octet else octet % Nat.pow 2 (7 - width)

def readOctet? (cursor : Cursor) : Option (Nat × Cursor) :=
  match cursor.rest with
  | '%' :: high :: low :: _ => do
      let high ← hexValue? high
      let low ← hexValue? low
      some (16 * high + low, cursor.skipMany 3)
  | _ => none

def readTrailingOctets (activity : Activity) (begun : Mark) :
    (count : Nat) → (code : Nat) → Cursor → Except Failure (Char × Cursor)
  | 0, code, cursor => .ok (Char.ofNat code, cursor)
  | count + 1, code, cursor =>
      match readOctet? cursor with
      | none => cursor.fail .escapedOctet activity begun
      | some (octet, next) =>
          if octet / 64 = 2 then
            readTrailingOctets activity begun count (64 * code + octet % 64) next
          else cursor.fail .trailingOctet activity begun

def readEscapedCharacter (activity : Activity) (begun : Mark) (cursor : Cursor) :
    Except Failure (Char × Cursor) :=
  match readOctet? cursor with
  | none => cursor.fail .escapedOctet activity begun
  | some (octet, next) =>
      match octetWidth octet with
      | 0 => cursor.fail .leadingOctet activity begun
      | width + 1 =>
          readTrailingOctets activity begun width (leadingBits octet (width + 1)) next

/-- Brackets and commas belong to an address only if it cannot be mistaken for
part of a flow collection. -/
def isAddress (brackets : Bool) (character : Char) : Bool :=
  isWord character || ";/?:@&=+$.!~*'()%".toList.contains character ||
    (brackets && [',', '[', ']'].contains character)

def readAddressChars (brackets : Bool) (activity : Activity) (begun : Mark) :
    (steps : Nat) → List Char → Cursor → Scanned
  | 0, read, cursor => .ok (read.reverse, cursor)
  | steps + 1, read, cursor =>
      match cursor.peek? with
      | none => .ok (read.reverse, cursor)
      | some character =>
          if !isAddress brackets character then .ok (read.reverse, cursor)
          else if character = '%' then do
            let (character, cursor) ← readEscapedCharacter activity begun cursor
            readAddressChars brackets activity begun steps (character :: read) cursor
          else readAddressChars brackets activity begun steps (character :: read) cursor.skip

/-- `head` is what was read as a handle but belongs to the address. -/
def readAddress (brackets : Bool) (head : List Char) (activity : Activity)
    (begun : Mark) (cursor : Cursor) : Scanned := do
  let (text, cursor) ←
    readAddressChars brackets activity begun (cursor.rest.length + 1) [] cursor
  if head.isEmpty && text.isEmpty then cursor.fail .tagAddress activity begun
  else return (head.drop 1 ++ text, cursor)

/-- An exclamation mark, and perhaps a name with another one behind it. -/
def readHandle (directive : Bool) (begun : Mark) (cursor : Cursor) : Scanned :=
  if !cursor.looksAt '!' then
    cursor.fail .tagMark (if directive then .directive else .tag) begun
  else
    let (name, cursor) := cursor.skip.takeWhile isWord
    if cursor.looksAt '!' then .ok ('!' :: name ++ ['!'], cursor.skip)
    else if directive && !name.isEmpty then
      cursor.fail .tagMark .directiveHandle begun
    else .ok ('!' :: name, cursor)

def isFullHandle (handle : List Char) : Bool :=
  2 ≤ handle.length && handle.getLast? = some '!'

def readTagName (begun : Mark) (cursor : Cursor) :
    Except Failure (List Char × List Char × Cursor) :=
  if cursor.peekAt? 1 = some '<' then do
    let (suffix, cursor) ← readAddress true [] .tagAddress begun cursor.skip.skip
    if cursor.looksAt '>' then return ([], suffix, cursor.skip)
    else cursor.fail .tagEnd .tag begun
  else do
    let (handle, cursor) ← readHandle false begun cursor
    if isFullHandle handle then
      let (suffix, cursor) ← readAddress false [] .tagAddress begun cursor
      return (handle, suffix, cursor)
    else
      let (suffix, cursor) ← readAddress false handle .tagAddress begun cursor
      return if suffix.isEmpty then ([], ['!'], cursor) else (['!'], suffix, cursor)

def readTag (flow : Bool) (cursor : Cursor) : Except Failure (Token × Cursor) := do
  let begun := cursor.mark
  let (handle, suffix, cursor) ← readTagName begun cursor
  if cursor.atGap || (flow && cursor.looksAt ',') then
    return (.tag (String.ofList handle) (String.ofList suffix), cursor)
  else cursor.fail .spaceOrBreak .tag begun

/-! ## Directives -/

def readVersionNumber (begun : Mark) (cursor : Cursor) :
    Except Failure (Nat × Cursor) :=
  let (digits, next) := cursor.takeWhile Decimal.isDigit
  if 9 < digits.length then
    (cursor.skipMany 9).fail .longVersion .versionDirective begun
  else if digits.isEmpty then cursor.fail .versionNumber .versionDirective begun
  else .ok (Decimal.natOfDigits digits, next)

def readVersion (begun : Mark) (cursor : Cursor) : Except Failure (Token × Cursor) := do
  let (major, cursor) ← readVersionNumber begun cursor.skipSpaces
  if !cursor.looksAt '.' then cursor.fail .versionPoint .versionDirective begun
  else
    let (minor, cursor) ← readVersionNumber begun cursor.skip
    return (.versionDirective major minor, cursor)

def readTagMeaning (begun : Mark) (cursor : Cursor) :
    Except Failure (Token × Cursor) := do
  let (handle, cursor) ← readHandle true begun cursor.skipSpaces
  if !cursor.atSpace then cursor.fail .space .tagDirective begun
  else
    let (meaning, cursor) ←
      readAddress true [] .tagDirectiveAddress begun cursor.skipSpaces
    if !cursor.atGap then cursor.fail .spaceOrBreak .tagDirective begun
    else return (.tagDirective (String.ofList handle) (String.ofList meaning), cursor)

/-- A directive and the rest of its line. -/
def readDirective (cursor : Cursor) : Except Failure (Token × Cursor) := do
  let begun := cursor.mark
  let (name, cursor) := cursor.skip.takeWhile isWord
  if name.isEmpty then cursor.fail .directiveName .directive begun
  else if !cursor.atGap then cursor.fail .directiveCharacter .directive begun
  else
    let (token, cursor) ←
      if name = "YAML".toList then readVersion begun cursor
      else if name = "TAG".toList then readTagMeaning begun cursor
      else cursor.fail .unknownDirective .directive begun
    let cursor := cursor.skipSpaces.skipComment
    if cursor.atBreak || cursor.atEnd then return (token, cursor.skipBreak)
    else cursor.fail .commentOrBreak .directive begun

end ErSchema.Yaml
