import ErSchema.Yaml.Token

/-! # From characters to tokens

Indentation opens and closes block collections. A key need not be marked: any
token that may start a key is remembered until a colon on its line makes it one,
and the tokens that open it are then put in front of it.

A token is released when nothing can be put in front of it any more. If the
text is at fault, the released tokens and the failure are the result. -/

namespace ErSchema.Yaml

/-- A place where a key may have begun. `required` if a key must stand there,
because it is the column of a block mapping. -/
structure PossibleKey where
  place : Nat
  mark : Mark
  required : Bool

/-- `produced` has the newest token first. `keys` has one entry for each open
flow collection and one for the block around them, innermost first. -/
structure Scanner where
  cursor : Cursor
  indent : Int
  outer : List Int
  keyAllowed : Bool
  keys : List (Option PossibleKey)
  produced : List Placed
  released : Nat

namespace Scanner

def start (text : List Char) : Scanner :=
  { cursor := .start text
    indent := -1
    outer := []
    keyAllowed := true
    keys := [none]
    produced := []
    released := 0 }

def inFlow (state : Scanner) : Bool :=
  1 < state.keys.length

def mark (state : Scanner) : Mark :=
  state.cursor.mark

/-! ## Producing tokens -/

def push (state : Scanner) (token : Token) (start : Mark) : Scanner :=
  { state with produced := ⟨token, start, state.mark⟩ :: state.produced }

/-- Put a token in front of the one that was produced at `place`. -/
def insertAt (state : Scanner) (place : Nat) (token : Token) (mark : Mark) : Scanner :=
  { state with
    produced :=
      state.produced.insertIdx (state.produced.length - place) ⟨token, mark, mark⟩ }

def advance (state : Scanner) (count : Nat) : Scanner :=
  { state with cursor := state.cursor.skipMany count }

/-! ## Possible keys -/

/-- A key is at most 1024 characters long and does not leave its line. -/
def isStale (mark : Mark) (key : PossibleKey) : Bool :=
  key.mark.line < mark.line || key.mark.offset + 1024 < mark.offset

def dropStaleFrom (mark : Mark) :
    List (Option PossibleKey) → Except Failure (List (Option PossibleKey))
  | [] => .ok []
  | none :: keys => do
      let keys ← dropStaleFrom mark keys
      return none :: keys
  | some key :: keys => do
      let keys ← dropStaleFrom mark keys
      if isStale mark key then
        if key.required then
          .error ⟨.keyWithoutColon, mark, some (.simpleKey, key.mark)⟩
        else return none :: keys
      else return some key :: keys

def dropStale (state : Scanner) : Except Failure Scanner := do
  let keys ← dropStaleFrom state.mark state.keys
  return { state with keys }

/-- The innermost place is taken by something that is not a key. -/
def dropKey (state : Scanner) : Except Failure Scanner :=
  match state.keys with
  | some key :: keys =>
      if key.required then
        .error ⟨.keyWithoutColon, state.mark, some (.simpleKey, key.mark)⟩
      else .ok { state with keys := none :: keys }
  | _ => .ok state

def rememberKey (state : Scanner) : Except Failure Scanner :=
  if state.keyAllowed then do
    let key : PossibleKey :=
      { place := state.produced.length
        mark := state.mark
        required := !state.inFlow && state.indent = state.mark.column }
    let state ← state.dropKey
    return { state with keys := some key :: state.keys.drop 1 }
  else .ok state

/-! ## Indentation -/

/-- Open a block collection if the column is deeper than the current one. -/
def openBlock (state : Scanner) (column : Nat) (place : Nat) (token : Token)
    (mark : Mark) : Scanner :=
  if state.inFlow then state
  else if state.indent < column then
    { state.insertAt place token mark with
      indent := column
      outer := state.indent :: state.outer }
  else state

def closeBlocksFrom (column : Int) : List Int → Scanner → Scanner
  | [], state => state
  | outer :: rest, state =>
      if column < state.indent then
        closeBlocksFrom column rest
          { state.push .blockEnd state.mark with indent := outer, outer := rest }
      else state

/-- Close the block collections that are deeper than the column. -/
def closeBlocks (state : Scanner) (column : Int) : Scanner :=
  if state.inFlow then state else closeBlocksFrom column state.outer state

/-! ## One token -/

/-- Pass over spaces, comments and breaks. A tab is a space only where no key
may begin. -/
def toNextToken : (steps : Nat) → Scanner → Scanner
  | 0, state => state
  | steps + 1, state =>
      let tabs := state.inFlow || !state.keyAllowed
      let cursor := (state.cursor.skipWhile fun character =>
        character = ' ' || (tabs && character = '\t')).skipComment
      if cursor.atBreak then
        toNextToken steps
          { state with
            cursor := cursor.skipBreak
            keyAllowed := state.keyAllowed || !state.inFlow }
      else { state with cursor }

def finishStream (state : Scanner) : Except Failure Scanner := do
  let mark := state.mark
  let state :=
    if mark.column = 0 then state
    else { state with
      cursor := ⟨state.cursor.rest, ⟨mark.offset, mark.line + 1, 0⟩⟩ }
  let state ← (state.closeBlocks (-1)).dropKey
  return { state with keyAllowed := false }.push .streamEnd state.mark

def readDirectiveToken (state : Scanner) : Except Failure Scanner := do
  let state ← (state.closeBlocks (-1)).dropKey
  let (token, cursor) ← readDirective state.cursor
  return { state with cursor, keyAllowed := false }.push token state.mark

def readDocumentIndicator (state : Scanner) (token : Token) : Except Failure Scanner := do
  let state ← (state.closeBlocks (-1)).dropKey
  return { state with keyAllowed := false }.advance 3 |>.push token state.mark

def openFlow (state : Scanner) (token : Token) : Except Failure Scanner := do
  let state ← state.rememberKey
  return { state with keys := none :: state.keys, keyAllowed := true }.advance 1
    |>.push token state.mark

def closeFlow (state : Scanner) (token : Token) : Except Failure Scanner := do
  let state ← state.dropKey
  let keys := if state.inFlow then state.keys.drop 1 else state.keys
  return { state with keys, keyAllowed := false }.advance 1 |>.push token state.mark

def readFlowEntry (state : Scanner) : Except Failure Scanner := do
  let state ← state.dropKey
  return { state with keyAllowed := true }.advance 1 |>.push .flowEntry state.mark

def notAllowed (state : Scanner) (problem : Problem) : Except Failure Scanner :=
  .error ⟨problem, state.mark, none⟩

def readBlockEntry (state : Scanner) : Except Failure Scanner := do
  if !state.inFlow && !state.keyAllowed then state.notAllowed .entryNotAllowed
  else
    let state ← (state.openBlock state.mark.column state.produced.length
      .blockSequenceStart state.mark).dropKey
    return { state with keyAllowed := true }.advance 1 |>.push .blockEntry state.mark

def readKey (state : Scanner) : Except Failure Scanner := do
  if !state.inFlow && !state.keyAllowed then state.notAllowed .keyNotAllowed
  else
    let state ← (state.openBlock state.mark.column state.produced.length
      .blockMappingStart state.mark).dropKey
    return { state with keyAllowed := !state.inFlow }.advance 1 |>.push .key state.mark

/-- A colon makes a key of what was remembered, or stands behind an empty or
marked key. -/
def readValue (state : Scanner) : Except Failure Scanner :=
  let colon (state : Scanner) (keyAllowed : Bool) : Scanner :=
    { state with keyAllowed }.advance 1 |>.push .value state.mark
  match state.keys with
  | some key :: keys =>
      let state := { state.insertAt key.place .key key.mark with keys := none :: keys }
      .ok <| colon
        (state.openBlock key.mark.column key.place .blockMappingStart key.mark) false
  | _ =>
      if !state.inFlow && !state.keyAllowed then state.notAllowed .valueNotAllowed
      else
        .ok <| colon (state.openBlock state.mark.column state.produced.length
          .blockMappingStart state.mark) !state.inFlow

/-- A token that may be a key. -/
def readKeyable (state : Scanner) (read : Cursor → Except Failure (Token × Cursor)) :
    Except Failure Scanner := do
  let state ← state.rememberKey
  let (token, cursor) ← read state.cursor
  return { state with cursor, keyAllowed := false }.push token state.mark

def readAnchorToken (token : String → Token) (activity : Activity) (cursor : Cursor) :
    Except Failure (Token × Cursor) := do
  let (name, cursor) ← readAnchor activity cursor
  return (token name, cursor)

def readQuotedToken (double : Bool) (cursor : Cursor) :
    Except Failure (Token × Cursor) := do
  let (text, cursor) ← readQuoted double cursor
  return (.scalar (String.ofList text) (if double then .doubleQuoted else .singleQuoted),
    cursor)

def readBlockToken (state : Scanner) (folding : Bool) : Except Failure Scanner := do
  let state ← state.dropKey
  let (text, cursor) ← readBlock folding state.indent state.cursor
  let token := Token.scalar (String.ofList text) (if folding then .folded else .literal)
  return { state with cursor, keyAllowed := true }.push token state.mark

def readPlainToken (state : Scanner) : Except Failure Scanner := do
  let state ← state.rememberKey
  let (text, broken, cursor) ← readPlain state.inFlow (state.indent + 1) state.cursor
  return { state with cursor, keyAllowed := broken }.push
    (.scalar (String.ofList text) .plain) state.mark

/-- The characters that begin another token, or none. -/
def reserved : List Char :=
  "-?:,[]{}#&*!|>'\"%@\x60".toList

def startsPlain (state : Scanner) : Bool :=
  match state.cursor.peek? with
  | none => false
  | some character =>
      (!state.cursor.atGap && !reserved.contains character) ||
        (character = '-' && !(state.cursor.peekAt? 1).any isSpace) ||
        (!state.inFlow && (character = '?' || character = ':') && !state.cursor.gapAt 1)

/-- Read one token. The last one is the end of the stream. -/
def readToken (state : Scanner) : Except Failure Scanner := do
  let state ← (toNextToken (state.cursor.rest.length + 1) state).dropStale
  let state := state.closeBlocks state.mark.column
  let cursor := state.cursor
  let marker := state.inFlow || cursor.gapAt 1
  match cursor.peek? with
  | none => state.finishStream
  | some character =>
      if character = '%' && cursor.mark.column = 0 then state.readDirectiveToken
      else if cursor.atIndicator '-' then state.readDocumentIndicator .documentStart
      else if cursor.atIndicator '.' then state.readDocumentIndicator .documentEnd
      else if character = '[' then state.openFlow .flowSequenceStart
      else if character = '{' then state.openFlow .flowMappingStart
      else if character = ']' then state.closeFlow .flowSequenceEnd
      else if character = '}' then state.closeFlow .flowMappingEnd
      else if character = ',' then state.readFlowEntry
      else if character = '-' && cursor.gapAt 1 then state.readBlockEntry
      else if character = '?' && marker then state.readKey
      else if character = ':' && marker then state.readValue
      else if character = '*' then state.readKeyable (readAnchorToken .alias .alias)
      else if character = '&' then state.readKeyable (readAnchorToken .anchor .anchor)
      else if character = '!' then state.readKeyable (readTag state.inFlow)
      else if character = '|' && !state.inFlow then state.readBlockToken false
      else if character = '>' && !state.inFlow then state.readBlockToken true
      else if character = '\'' then state.readKeyable (readQuotedToken false)
      else if character = '"' then state.readKeyable (readQuotedToken true)
      else if state.startsPlain then state.readPlainToken
      else cursor.fail .noToken .nextToken cursor.mark

/-! ## All tokens -/

def isHeld (state : Scanner) (place : Nat) : Bool :=
  state.keys.any fun key => key.any fun key => key.place = place

/-- Release the tokens in front of which nothing can be put. -/
def releaseFrom (state : Scanner) : (steps : Nat) → (released : Nat) → Nat
  | 0, released => released
  | steps + 1, released =>
      if released < state.produced.length && !state.isHeld released then
        releaseFrom state steps (released + 1)
      else released

def release (state : Scanner) : Scanner :=
  { state with released := state.releaseFrom state.produced.length state.released }

def atStreamEnd (state : Scanner) : Bool :=
  match state.produced with
  | last :: _ => last.token = .streamEnd
  | [] => false

/-- Each step but the last reads at least one character. -/
def readAll : (steps : Nat) → Scanner → List Placed × Option Failure
  | 0, state => (state.produced.reverse, none)
  | steps + 1, state =>
      match state.readToken with
      | .error failure => (state.produced.reverse.take state.released, some failure)
      | .ok next =>
          if next.atStreamEnd then (next.produced.reverse, none)
          else
            match next.dropStale with
            | .error failure => (next.produced.reverse.take next.released, some failure)
            | .ok next => readAll steps next.release

end Scanner

/-- A mark of the byte order in front of a text is no part of it. -/
def dropByteOrderMark : List Char → List Char
  | '\ufeff' :: text => text
  | text => text

/-- The tokens of a text, and the failure that ends them early. A character that
no text may have is found before anything is read. -/
def tokens (text : String) : List Placed × Option Failure :=
  let characters := dropByteOrderMark text.toList
  let dropped := text.utf8ByteSize - (String.ofList characters).utf8ByteSize
  match firstForbidden? dropped characters with
  | some bytesBefore => ([], some ⟨.controlCharacter bytesBefore, .start, none⟩)
  | none => Scanner.readAll (characters.length + 1) (.start characters)

end ErSchema.Yaml
