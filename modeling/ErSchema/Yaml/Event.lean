import ErSchema.Yaml.Scanner

/-! # From tokens to events

Tokens are put together to nodes. The structure is kept as a list of events: a
scalar or alias is one event, a collection begins and ends. Each state of the
reader says what is expected next; a stack holds what follows the node that is
being read. -/

namespace ErSchema.Yaml

inductive Event where
  | streamEnd
  | documentStart
  | documentEnd
  | alias (name : String)
  | scalar (text : String) (style : Style) (tag anchor : Option String)
  | sequenceStart (anchor : Option String)
  | sequenceEnd
  | mappingStart (anchor : Option String)
  | mappingEnd
  deriving DecidableEq, Repr

structure Marked where
  event : Event
  mark : Mark

inductive Expectation where
  | document (implicit : Bool)
  | documentContent
  | documentEnd
  | blockNode
  | blockSequence (first : Bool)
  | indentlessSequence
  | blockMappingKey (first : Bool)
  | blockMappingValue
  | flowSequence (first : Bool)
  | flowPairKey
  | flowPairValue
  | flowPairEnd
  | flowMappingKey (first : Bool)
  | flowMappingValue
  | flowMappingEmptyValue
  | nothing
  deriving DecidableEq, Repr

/-- `opened` holds the marks at which the open collections began. -/
structure Assembler where
  tokens : List Placed
  failure : Option Failure
  expected : Expectation
  pending : List Expectation
  opened : List Mark
  handles : List (String × String)

namespace Assembler

abbrev Step := Except Failure (Marked × Assembler)

/-- The next token. Behind the last one stands what ended the text early. -/
def peek (state : Assembler) : Except Failure Placed :=
  match state.tokens, state.failure with
  | token :: _, _ => .ok token
  | [], some failure => .error failure
  | [], none => .error ⟨.endOfStream, .start, none⟩

def skip (state : Assembler) : Assembler :=
  { state with tokens := state.tokens.drop 1 }

def goOn (state : Assembler) : Assembler :=
  match state.pending with
  | expected :: pending => { state with expected, pending }
  | [] => { state with expected := .nothing }

def expect (state : Assembler) (expected : Expectation) : Assembler :=
  { state with expected }

/-- What is to follow the node that is read next. -/
def thenExpect (state : Assembler) (expected : Expectation) : Assembler :=
  { state with pending := expected :: state.pending }

def openAt (state : Assembler) (mark : Mark) : Assembler :=
  { state with opened := mark :: state.opened }

def close (state : Assembler) : Assembler :=
  { state.goOn with opened := state.opened.drop 1 }

def emit (state : Assembler) (event : Event) (mark : Mark) : Step :=
  .ok (⟨event, mark⟩, state)

/-- A node that is not written. -/
def emitEmpty (state : Assembler) (mark : Mark) : Step :=
  state.emit (.scalar "" .plain none none) mark

def failInCollection (state : Assembler) (problem : Problem) (activity : Activity)
    (mark : Mark) : Step :=
  .error ⟨problem, mark, some (activity, state.opened.headD .start)⟩

/-! ## Directives -/

def standardHandles : List (String × String) :=
  [("!", "!"), ("!!", "tag:yaml.org,2002:")]

structure Directives where
  version : Bool
  handles : List (String × String)

/-- Directives before a document. Only versions 1.1 and 1.2 are read. -/
def readDirectives : List Placed → Directives → Except Failure (Directives × List Placed)
  | ⟨.versionDirective major minor, mark, _⟩ :: rest, found =>
      if found.version then .error ⟨.duplicateVersion, mark, none⟩
      else if major ≠ 1 ∨ (minor ≠ 1 ∧ minor ≠ 2) then
        .error ⟨.incompatibleVersion, mark, none⟩
      else readDirectives rest { found with version := true }
  | ⟨.tagDirective handle meaning, mark, _⟩ :: rest, found =>
      if (found.handles.lookup handle).isSome then .error ⟨.duplicateTag, mark, none⟩
      else readDirectives rest { found with handles := (handle, meaning) :: found.handles }
  | rest, found => .ok (found, rest)

/-! ## Documents -/

def skipDocumentEnds : List Placed → List Placed
  | ⟨.documentEnd, _, _⟩ :: rest => skipDocumentEnds rest
  | tokens => tokens

def readDocument (state : Assembler) (implicit : Bool) : Step := do
  let state :=
    if implicit then state else { state with tokens := skipDocumentEnds state.tokens }
  let next ← state.peek
  let entered := state.thenExpect .documentEnd
  let explicit : Step := do
    let (found, rest) ← readDirectives state.tokens ⟨false, []⟩
    let state := { entered with tokens := rest, handles := found.handles ++ standardHandles }
    let token ← state.peek
    if token.token = .documentStart then
      (state.skip.expect .documentContent).emit .documentStart next.start
    else .error ⟨.documentStart, token.start, none⟩
  match next.token with
  | .streamEnd => (state.skip.expect .nothing).emit .streamEnd next.start
  | .versionDirective .. | .tagDirective .. | .documentStart => explicit
  | _ =>
      if implicit then
        ({ entered with expected := .blockNode, handles := standardHandles }).emit
          .documentStart next.start
      else explicit

def readDocumentEnd (state : Assembler) : Step := do
  let next ← state.peek
  let state := if next.token = .documentEnd then state.skip else state
  (state.expect (.document false)).emit .documentEnd next.start

/-! ## Nodes -/

/-- The anchor and tag in front of a node, in either order. -/
structure Properties where
  anchor : Option String
  tag : Option (String × String × Mark)
  start : Option Mark

def readProperties (state : Assembler) : (steps : Nat) → Properties →
    Except Failure (Properties × Assembler)
  | 0, found => .ok (found, state)
  | steps + 1, found => do
      let next ← state.peek
      match next.token, found.anchor, found.tag with
      | .anchor name, none, _ =>
          readProperties state.skip steps
            { found with anchor := some name, start := found.start.or (some next.start) }
      | .tag handle suffix, _, none =>
          readProperties state.skip steps
            { found with
              tag := some (handle, suffix, next.start)
              start := found.start.or (some next.start) }
      | _, _, _ => return (found, state)

def resolveTag (state : Assembler) (found : Properties) (start : Mark) :
    Except Failure (Option String) :=
  match found.tag with
  | none => .ok none
  | some (handle, suffix, mark) =>
      if handle.isEmpty then .ok (some suffix)
      else
        match state.handles.lookup handle with
        | some meaning => .ok (some (meaning ++ suffix))
        | none => .error ⟨.undefinedHandle, mark, some (.node, start)⟩

def readNode (state : Assembler) (block indentless : Bool) : Step := do
  let next ← state.peek
  match next.token with
  | .alias name => state.goOn.skip.emit (.alias name) next.start
  | _ =>
      let (found, state) ← state.readProperties 2 ⟨none, none, none⟩
      let start := found.start.getD next.start
      let tag ← state.resolveTag found start
      let token ← state.peek
      let collection (expected : Expectation) (event : Event) : Step :=
        (state.expect expected).emit event start
      let missing : Step :=
        if found.start.isSome then
          state.goOn.emit (.scalar "" .plain tag found.anchor) start
        else
          .error ⟨.nodeContent, token.start,
            some (if block then .blockNode else .flowNode, start)⟩
      match token.token with
      | .blockEntry =>
          if indentless then
            collection .indentlessSequence (.sequenceStart found.anchor)
          else missing
      | .scalar text style =>
          let tag := if tag = some "!" then none else tag
          state.goOn.skip.emit (.scalar text style tag found.anchor) start
      | .flowSequenceStart =>
          collection (.flowSequence true) (.sequenceStart found.anchor)
      | .flowMappingStart =>
          collection (.flowMappingKey true) (.mappingStart found.anchor)
      | .blockSequenceStart =>
          if block then collection (.blockSequence true) (.sequenceStart found.anchor)
          else missing
      | .blockMappingStart =>
          if block then collection (.blockMappingKey true) (.mappingStart found.anchor)
          else missing
      | _ => missing

/-- A node, unless one of the tokens shows that it is left out. -/
def readNodeUnless (state : Assembler) (block indentless : Bool) (following : Expectation)
    (left : List Token) (empty : Mark) : Step := do
  let next ← state.peek
  if left.contains next.token then (state.expect following).emitEmpty empty
  else (state.thenExpect following).readNode block indentless

/-! ## Block collections -/

/-- Pass over the token that opened a collection. -/
def enter (state : Assembler) (first : Bool) : Except Failure Assembler := do
  if first then
    let opening ← state.peek
    return (state.openAt opening.start).skip
  else return state

def readBlockSequence (state : Assembler) (first : Bool) : Step := do
  let state ← state.enter first
  let next ← state.peek
  match next.token with
  | .blockEntry =>
      state.skip.readNodeUnless true false (.blockSequence false)
        [.blockEntry, .blockEnd] next.finish
  | .blockEnd => state.close.skip.emit .sequenceEnd next.start
  | _ => state.failInCollection .dash .blockCollection next.start

/-- Entries in the column of the mapping that holds them. -/
def readIndentlessSequence (state : Assembler) : Step := do
  let next ← state.peek
  match next.token with
  | .blockEntry =>
      state.skip.readNodeUnless true false .indentlessSequence
        [.blockEntry, .key, .value, .blockEnd] next.finish
  | _ => state.goOn.emit .sequenceEnd next.start

def readBlockMappingKey (state : Assembler) (first : Bool) : Step := do
  let state ← state.enter first
  let next ← state.peek
  match next.token with
  | .key =>
      state.skip.readNodeUnless true true .blockMappingValue
        [.key, .value, .blockEnd] next.finish
  | .blockEnd => state.close.skip.emit .mappingEnd next.start
  | _ => state.failInCollection .blockKey .blockMapping next.start

def readBlockMappingValue (state : Assembler) : Step := do
  let next ← state.peek
  match next.token with
  | .value =>
      state.skip.readNodeUnless true true (.blockMappingKey false)
        [.key, .value, .blockEnd] next.finish
  | _ => (state.expect (.blockMappingKey false)).emitEmpty next.start

/-! ## Flow collections -/

/-- Pass over the comma between two members. -/
def separate (state : Assembler) (first : Bool) (closing : Token) (problem : Problem)
    (activity : Activity) : Except Failure Assembler := do
  let next ← state.peek
  if first || next.token = closing then return state
  else if next.token = .flowEntry then return state.skip
  else .error ⟨problem, next.start, some (activity, state.opened.headD .start)⟩

def readFlowSequence (state : Assembler) (first : Bool) : Step := do
  let state ← state.enter first
  let state ← state.separate first .flowSequenceEnd .flowSequenceEnd .flowSequence
  let next ← state.peek
  match next.token with
  | .flowSequenceEnd => state.close.skip.emit .sequenceEnd next.start
  | .key => (state.skip.expect .flowPairKey).emit (.mappingStart none) next.start
  | _ => (state.thenExpect (.flowSequence false)).readNode false false

def readFlowPairKey (state : Assembler) : Step := do
  let next ← state.peek
  if [Token.value, .flowEntry, .flowSequenceEnd].contains next.token then
    (state.skip.expect .flowPairValue).emitEmpty next.finish
  else (state.thenExpect .flowPairValue).readNode false false

def readFlowPairValue (state : Assembler) : Step := do
  let next ← state.peek
  if next.token = .value then
    let state := state.skip
    let content ← state.peek
    state.readNodeUnless false false .flowPairEnd [.flowEntry, .flowSequenceEnd]
      content.start
  else (state.expect .flowPairEnd).emitEmpty next.start

def readFlowPairEnd (state : Assembler) : Step := do
  let next ← state.peek
  (state.expect (.flowSequence false)).emit .mappingEnd next.start

def readFlowMappingKey (state : Assembler) (first : Bool) : Step := do
  let state ← state.enter first
  let state ← state.separate first .flowMappingEnd .flowMappingEnd .flowMapping
  let next ← state.peek
  match next.token with
  | .flowMappingEnd => state.close.skip.emit .mappingEnd next.start
  | .key =>
      let state := state.skip
      let content ← state.peek
      state.readNodeUnless false false .flowMappingValue
        [.value, .flowEntry, .flowMappingEnd] content.start
  | _ => (state.thenExpect .flowMappingEmptyValue).readNode false false

def readFlowMappingValue (state : Assembler) : Step := do
  let next ← state.peek
  if next.token = .value then
    let state := state.skip
    let content ← state.peek
    state.readNodeUnless false false (.flowMappingKey false) [.flowEntry, .flowMappingEnd]
      content.start
  else (state.expect (.flowMappingKey false)).emitEmpty next.start

def readFlowMappingEmptyValue (state : Assembler) : Step := do
  let next ← state.peek
  (state.expect (.flowMappingKey false)).emitEmpty next.start

/-! ## One event -/

def readDocumentContent (state : Assembler) : Step := do
  let next ← state.peek
  match next.token with
  | .versionDirective .. | .tagDirective .. | .documentStart | .documentEnd | .streamEnd =>
      state.goOn.emitEmpty next.start
  | _ => state.readNode true false

def readEvent (state : Assembler) : Step :=
  match state.expected with
  | .document implicit => state.readDocument implicit
  | .documentContent => state.readDocumentContent
  | .documentEnd => state.readDocumentEnd
  | .blockNode => state.readNode true false
  | .blockSequence first => state.readBlockSequence first
  | .indentlessSequence => state.readIndentlessSequence
  | .blockMappingKey first => state.readBlockMappingKey first
  | .blockMappingValue => state.readBlockMappingValue
  | .flowSequence first => state.readFlowSequence first
  | .flowPairKey => state.readFlowPairKey
  | .flowPairValue => state.readFlowPairValue
  | .flowPairEnd => state.readFlowPairEnd
  | .flowMappingKey first => state.readFlowMappingKey first
  | .flowMappingValue => state.readFlowMappingValue
  | .flowMappingEmptyValue => state.readFlowMappingEmptyValue
  | .nothing => .error ⟨.endOfStream, .start, none⟩

def readAll : (steps : Nat) → List Marked → Assembler → List Marked × Option Failure
  | 0, read, state => (read.reverse, state.failure)
  | steps + 1, read, state =>
      match state.readEvent with
      | .error failure => (read.reverse, some failure)
      | .ok (marked, state) =>
          if marked.event = .streamEnd then ((marked :: read).reverse, none)
          else readAll steps (marked :: read) state

end Assembler

/-- The events of a text, and the failure that ends them early. A token gives
rise to fewer than six events. -/
def events (text : String) : List Marked × Option Failure :=
  let (tokens, failure) := tokens text
  Assembler.readAll (6 * tokens.length + 6) []
    { tokens := tokens
      failure := failure
      expected := .document true
      pending := []
      opened := []
      handles := [] }

end ErSchema.Yaml
