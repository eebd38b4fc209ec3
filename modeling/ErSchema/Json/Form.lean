import ErSchema.Json.Numeral
import ErSchema.Json.Skip

/-! # Reading a value of a given form

A form says what a value must be. A text is read under a form, so that a value
of the wrong kind is reported where it stands, before the rest is read. -/

namespace ErSchema.Json

inductive Form where
  | kept
  | ignored
  | text
  | optionalText
  | flag
  | list (item : Form)
  | record (name : String) (fields : List (String × Form)) (others : Form)
      (positional : Bool)

def Form.expected : Form → String
  | .kept | .ignored => "a value"
  | .text | .optionalText => "a string"
  | .flag => "a boolean"
  | .list _ => "a sequence"
  | .record name .. => "struct " ++ name

/-! ## Between items and members -/

/-- The cursor at the next item, if the list goes on, or behind its end. -/
def nextItem (first : Bool) (cursor : Cursor) : Except Failure (Bool × Cursor) :=
  let cursor := cursor.skipBlanks
  match cursor.peek? with
  | none => cursor.failAhead .eofInList
  | some ']' => .ok (false, cursor.skip)
  | some character =>
      if first then .ok (true, cursor)
      else if character = ',' then
        let cursor := cursor.skip.skipBlanks
        match cursor.peek? with
        | none => cursor.failAhead .eofInValue
        | some ']' => cursor.failAhead .trailingComma
        | some _ => .ok (true, cursor)
      else cursor.failAhead .expectedListEnd

/-- The next key, if the object goes on, or nothing behind its end. -/
def nextKey (first : Bool) (cursor : Cursor) : Except Failure (Option String × Cursor) :=
  let cursor := cursor.skipBlanks
  let key (cursor : Cursor) : Except Failure (Option String × Cursor) :=
    (readString cursor.skip).map fun (key, cursor) => (some key, cursor)
  match cursor.peek? with
  | none => cursor.failAhead .eofInObject
  | some '}' => .ok (none, cursor.skip)
  | some character =>
      if first then
        if character = '"' then key cursor else cursor.failAhead .keyNotString
      else if character = ',' then
        let cursor := cursor.skip.skipBlanks
        match cursor.peek? with
        | none => cursor.failAhead .eofInValue
        | some '"' => key cursor
        | some '}' => cursor.failAhead .trailingComma
        | some _ => cursor.failAhead .keyNotString
      else cursor.failAhead .expectedObjectEnd

def readColon (cursor : Cursor) : Except Failure Cursor :=
  let cursor := cursor.skipBlanks
  match cursor.peek? with
  | none => cursor.failAhead .eofInObject
  | some ':' => .ok cursor.skip
  | some _ => cursor.failAhead .expectedColon

/-- The end of a list that may have no more items. -/
def endList (cursor : Cursor) : Except Failure Cursor :=
  let cursor := cursor.skipBlanks
  match cursor.peek? with
  | none => cursor.failAhead .eofInList
  | some ']' => .ok cursor.skip
  | some ',' =>
      if cursor.skip.skipBlanks.peek? = some ']' then
        cursor.skip.skipBlanks.failAhead .trailingComma
      else cursor.skip.skipBlanks.failAhead .trailingCharacters
  | some _ => cursor.failAhead .trailingCharacters

/-- A repeated field is reported where its object could be left: before the
colon, or behind a brace that stands in its place. -/
def duplicateAt {α : Type} (name : String) (cursor : Cursor) : Except Failure α :=
  let cursor := cursor.skipBlanks
  if cursor.peek? = some '}' then cursor.skip.fail (.duplicateField name)
  else cursor.fail (.duplicateField name)

/-! ## Scalars -/

/-- A scalar of any kind, or the container that opens at the cursor. -/
def readScalar (cursor : Cursor) : Except Failure (Sum Value Container × Cursor) :=
  let word (letters : String) (value : Value) :
      Except Failure (Sum Value Container × Cursor) :=
    (readWord letters.toList cursor.skip).map fun cursor => (.inl value, cursor)
  let number (negative : Bool) (cursor : Cursor) :
      Except Failure (Sum Value Container × Cursor) :=
    (readUnsigned negative cursor).map fun (number, cursor) =>
      (.inl (.number number), cursor)
  match cursor.peek? with
  | none => cursor.failAhead .eofInValue
  | some 'n' => word "ull" .null
  | some 't' => word "rue" (.bool true)
  | some 'f' => word "alse" (.bool false)
  | some '-' => number true cursor.skip
  | some '"' =>
      (readString cursor.skip).map fun (text, cursor) => (.inl (.string text), cursor)
  | some '[' => .ok (.inr .list, cursor)
  | some '{' => .ok (.inr .object, cursor)
  | some character =>
      if Decimal.isDigit character then number false cursor
      else cursor.failAhead .expectedValue

def Found.ofValue : Value → Found
  | .null => .null
  | .bool value => .bool value
  | .number value => .number value
  | .string text => .string text
  | .array _ => .sequence
  | .object _ => .map

def Found.ofContainer : Container → Found
  | .list => .sequence
  | .object => .map

/-- A scalar is reported behind its end, a container at its beginning. -/
def mismatch {α : Type} (form : Form) (found : Sum Value Container) (cursor : Cursor) :
    Except Failure α :=
  let found :=
    match found with
    | .inl value => Found.ofValue value
    | .inr container => Found.ofContainer container
  cursor.fail (.invalidType found form.expected)

/-! ## Containers

The readers of the contents take the reader of one value as a parameter. -/

def readItems (item : Reader Value) : (steps : Nat) → (first : Bool) → List Value →
    Cursor → Except Failure (List Value × Cursor)
  | 0, _, _, cursor => cursor.fail .eofInList
  | steps + 1, first, items, cursor => do
      let (more, cursor) ← nextItem first cursor
      if more then
        let (value, cursor) ← item cursor
        readItems item steps false (value :: items) cursor
      else return (items.reverse, cursor)

/-- Members in the order of the text. A field is read under its form and may
occur once; other members are read under `others`. -/
def readMembers (read : Form → Reader Value) (fields : List (String × Form))
    (others : Form) : (steps : Nat) → (first : Bool) → List (String × Value) →
    Cursor → Except Failure (List (String × Value) × Cursor)
  | 0, _, _, cursor => cursor.fail .eofInObject
  | steps + 1, first, members, cursor => do
      let (key, cursor) ← nextKey first cursor
      match key with
      | none => return (members.reverse, cursor)
      | some key =>
          let field := fields.lookup key
          if field.isSome && members.any (fun member => member.1 = key) then
            duplicateAt key cursor
          else
            let cursor ← readColon cursor
            let (value, cursor) ← read (field.getD others) cursor
            readMembers read fields others steps false ((key, value) :: members) cursor

/-- The fields of a record in order, without their names; the last ones may be
missing. -/
def readPositional (read : Form → Reader Value) : (first : Bool) →
    List (String × Form) → Cursor → Except Failure (List (String × Value) × Cursor)
  | _, [], cursor => do
      let cursor ← endList cursor
      return ([], cursor)
  | first, (name, form) :: fields, cursor => do
      let (more, cursor) ← nextItem first cursor
      if more then
        let (value, cursor) ← read form cursor
        let (members, cursor) ← readPositional read false fields cursor
        return ((name, value) :: members, cursor)
      else return ([], cursor)

/-! ## Values -/

/-- How many containers may be open at once. -/
def nestingLimit : Nat := 127

def skipped : Reader Value := fun cursor =>
  (skipValue cursor).map fun cursor => (.null, cursor)

def keptObject (members : List (String × Value)) : Value :=
  .object (sortMembers members)

/-- Read a value that may open `depth` more levels. -/
def readForm : (depth : Nat) → Form → Reader Value
  | depth, form, cursor =>
    if form matches .ignored then skipped cursor
    else do
      let (found, cursor) ← readScalar cursor.skipBlanks
      match form, found with
      | .kept, .inl value => return (value, cursor)
      | .text, .inl (.string text) => return (.string text, cursor)
      | .optionalText, .inl (.string text) => return (.string text, cursor)
      | .optionalText, .inl .null => return (.null, cursor)
      | .flag, .inl (.bool value) => return (.bool value, cursor)
      | form, .inr container =>
          match depth with
          | 0 => cursor.failAhead .recursionLimit
          | depth + 1 =>
              let inside := cursor.skip
              let steps := inside.rest.length + 1
              match form, container with
              | .kept, .list => do
                  let (items, cursor) ← readItems (readForm depth .kept) steps true [] inside
                  return (.array items, cursor)
              | .kept, .object => do
                  let (members, cursor) ←
                    readMembers (readForm depth) [] .kept steps true [] inside
                  return (keptObject members, cursor)
              | .list item, .list => do
                  let (items, cursor) ← readItems (readForm depth item) steps true [] inside
                  return (.array items, cursor)
              | .record _ fields others _, .object => do
                  let (members, cursor) ←
                    readMembers (readForm depth) fields others steps true [] inside
                  return (.object members, cursor)
              | .record _ fields _ true, .list => do
                  let (members, cursor) ← readPositional (readForm depth) true fields inside
                  return (.object members, cursor)
              | form, container => mismatch form (.inr container) cursor
      | form, found => mismatch form found cursor

/-- A whole text: one value, and blanks around it. -/
def read (form : Form) (text : String) : Except Failure Value := do
  let (value, cursor) ← readForm nestingLimit form (.start text)
  let cursor := cursor.skipBlanks
  if cursor.rest.isEmpty then return value else cursor.failAhead .trailingCharacters

end ErSchema.Json
