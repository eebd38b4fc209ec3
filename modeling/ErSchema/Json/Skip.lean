import ErSchema.Json.Cursor

/-! # Passing over a value

A value that nobody asked for is checked for its grammar only: its numbers may be
of any size, its strings may hold lone surrogates, and it may be nested to any
depth, because the open containers are kept in a list. -/

namespace ErSchema.Json

inductive Container where
  | list
  | object
  deriving DecidableEq, Repr

def Container.close : Container → Char
  | .list => ']'
  | .object => '}'

def Container.endCause : Container → Cause
  | .list => .expectedListEnd
  | .object => .expectedObjectEnd

def Container.eofCause : Container → Cause
  | .list => .eofInList
  | .object => .eofInObject

/-! ## Strings and numbers -/

def skipEscape (cursor : Cursor) : Except Failure Cursor :=
  match cursor.peek? with
  | none => cursor.fail .eofInString
  | some 'u' => do
      let (_, cursor) ← readQuad cursor.skip
      return cursor
  | some character =>
      if character ∈ ['"', '\\', '/', 'b', 'f', 'n', 'r', 't'] then .ok cursor.skip
      else cursor.failAhead .invalidEscape

def skipChars : (steps : Nat) → Cursor → Except Failure Cursor
  | 0, cursor => cursor.fail .eofInString
  | steps + 1, cursor =>
      match cursor.peek? with
      | none => cursor.fail .eofInString
      | some '"' => .ok cursor.skip
      | some '\\' => do
          let cursor ← skipEscape cursor.skip
          skipChars steps cursor
      | some character =>
          if character.toNat < 32 then cursor.fail .controlCharacter
          else skipChars steps cursor.skip

def skipString (cursor : Cursor) : Except Failure Cursor :=
  skipChars (cursor.rest.length + 1) cursor

def skipExponent (cursor : Cursor) : Except Failure Cursor :=
  match cursor.peek? with
  | some 'e' | some 'E' =>
      let marked := cursor.skip
      let unsigned :=
        if marked.peek? = some '+' ∨ marked.peek? = some '-' then marked.skip else marked
      if unsigned.peeksDigit then .ok unsigned.skipDigits
      else unsigned.failAhead .invalidNumber
  | _ => .ok cursor

def skipFraction (cursor : Cursor) : Except Failure Cursor :=
  match cursor.peek? with
  | some '.' =>
      if cursor.skip.peeksDigit then skipExponent cursor.skip.skipDigits
      else cursor.skip.failAhead .invalidNumber
  | _ => skipExponent cursor

def skipNumber (cursor : Cursor) : Except Failure Cursor :=
  if cursor.peek? = some '0' then
    if cursor.skip.peeksDigit then cursor.skip.failAhead .invalidNumber
    else skipFraction cursor.skip
  else if cursor.peeksDigit then skipFraction cursor.skipDigits
  else cursor.failAhead .invalidNumber

/-! ## Values -/

/-- A scalar, or the container that opens. -/
def skipScalar (cursor : Cursor) : Except Failure (Option Container × Cursor) :=
  let scalar (result : Except Failure Cursor) : Except Failure (Option Container × Cursor) :=
    result.map fun cursor => (none, cursor)
  match cursor.peek? with
  | none => cursor.failAhead .eofInValue
  | some 'n' => scalar (readWord "ull".toList cursor.skip)
  | some 't' => scalar (readWord "rue".toList cursor.skip)
  | some 'f' => scalar (readWord "alse".toList cursor.skip)
  | some '-' => scalar (skipNumber cursor.skip)
  | some '"' => scalar (skipString cursor.skip)
  | some '[' => .ok (some .list, cursor.skip)
  | some '{' => .ok (some .object, cursor.skip)
  | some character =>
      if Decimal.isDigit character then scalar (skipNumber cursor)
      else cursor.failAhead .expectedValue

/-- A key and its colon. -/
def skipKey (cursor : Cursor) : Except Failure Cursor := do
  let cursor := cursor.skipBlanks
  match cursor.peek? with
  | none => cursor.failAhead .eofInObject
  | some '"' =>
      let cursor ← skipString cursor.skip
      let cursor := cursor.skipBlanks
      match cursor.peek? with
      | none => cursor.failAhead .eofInObject
      | some ':' => .ok cursor.skip
      | some _ => cursor.failAhead .expectedColon
  | some _ => cursor.failAhead .keyNotString

def skipToValue (container : Container) (cursor : Cursor) : Except Failure Cursor :=
  match container with
  | .list => .ok cursor
  | .object => skipKey cursor

/-- Close containers while they end. `opened` tells that the innermost one has
just been opened, so that a comma may not follow. -/
def skipEnds : (opened : Bool) → List Container → Cursor →
    Except Failure (List Container × Cursor)
  | _, [], cursor => .ok ([], cursor)
  | opened, container :: outer, cursor =>
      let cursor := cursor.skipBlanks
      match cursor.peek? with
      | none => cursor.failAhead container.eofCause
      | some character =>
          if character = container.close then skipEnds false outer cursor.skip
          else if opened then (skipToValue container cursor).map (container :: outer, ·)
          else if character = ',' then
            (skipToValue container cursor.skip).map (container :: outer, ·)
          else cursor.failAhead container.endCause

/-- Each step reads at least one character. -/
def skipValues : (steps : Nat) → List Container → Cursor → Except Failure Cursor
  | 0, _, cursor => cursor.fail .eofInValue
  | steps + 1, containers, cursor => do
      let (entered, cursor) ← skipScalar cursor.skipBlanks
      let (containers, cursor) ←
        match entered with
        | some container => skipEnds true (container :: containers) cursor
        | none => skipEnds false containers cursor
      match containers with
      | [] => .ok cursor
      | _ => skipValues steps containers cursor

def skipValue (cursor : Cursor) : Except Failure Cursor :=
  skipValues (cursor.rest.length + 1) [] cursor

end ErSchema.Json
