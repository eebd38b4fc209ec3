import ErSchema.Yaml.Cursor

/-! # Scalars

A scalar is written plain, quoted, or as a block of lines. Inside plain and
quoted scalars a single break is folded into a space and further breaks are
kept; a block keeps its lines or folds them in the same way. -/

namespace ErSchema.Yaml

inductive Style where
  | plain
  | singleQuoted
  | doubleQuoted
  | literal
  | folded
  deriving DecidableEq, Repr

/-- Parts are joined when the scalar is complete. -/
abbrev Scanned := Except Failure (List Char × Cursor)

/-! ## Gaps

What stands between two runs of a scalar: spaces, or breaks and the spaces
around them. -/

structure Gap where
  spaces : List Char
  first : List Char
  further : List Char
  broken : Bool

namespace Gap

def none : Gap := ⟨[], [], [], false⟩

/-- Behind an escaped break, which stands for nothing. -/
def escapedBreak : Gap := ⟨[], [], [], true⟩

def addBreak (gap : Gap) (written : List Char) : Gap :=
  if gap.broken then { gap with further := gap.further ++ written }
  else { gap with spaces := [], first := written, broken := true }

def addSpace (gap : Gap) (space : Char) : Gap :=
  if gap.broken then gap else { gap with spaces := gap.spaces ++ [space] }

def folded (gap : Gap) : List Char :=
  if !gap.broken then gap.spaces
  else if gap.first = ['\n'] then
    if gap.further.isEmpty then [' '] else gap.further
  else gap.first ++ gap.further

/-- In a plain scalar a tab may not stand where the indentation of its lines
does. -/
def read (forbidden : Gap → Cursor → Bool) (begun : Mark) :
    (steps : Nat) → Gap → Cursor → Except Failure (Gap × Cursor)
  | 0, gap, cursor => .ok (gap, cursor)
  | steps + 1, gap, cursor =>
      match cursor.peek? with
      | some character =>
          if isSpace character then
            if forbidden gap cursor then cursor.fail .tabInPlain .plainScalar begun
            else read forbidden begun steps (gap.addSpace character) cursor.skip
          else if isBreak character then
            let (written, cursor) := cursor.readBreak
            read forbidden begun steps (gap.addBreak written) cursor
          else .ok (gap, cursor)
      | Option.none => .ok (gap, cursor)

end Gap

/-! ## Quoted scalars -/

def hexValue? (character : Char) : Option Nat :=
  if '0' ≤ character ∧ character ≤ '9' then some (character.toNat - '0'.toNat)
  else if 'a' ≤ character ∧ character ≤ 'f' then some (character.toNat - 'a'.toNat + 10)
  else if 'A' ≤ character ∧ character ≤ 'F' then some (character.toNat - 'A'.toNat + 10)
  else none

/-- The value of that many hexadecimal digits. -/
def hexNumber? (count : Nat) (text : List Char) : Option Nat :=
  let digits := text.take count
  if digits.length < count then none
  else digits.foldlM (fun value digit => (hexValue? digit).map (16 * value + ·)) 0

/-- What a letter behind a backslash stands for. -/
def simpleEscape? : Char → Option Char
  | '0' => some '\x00'
  | 'a' => some '\x07'
  | 'b' => some '\x08'
  | 't' => some '\t'
  | '\t' => some '\t'
  | 'n' => some '\n'
  | 'v' => some '\x0b'
  | 'f' => some '\x0c'
  | 'r' => some '\r'
  | 'e' => some '\x1b'
  | ' ' => some ' '
  | '"' => some '"'
  | '/' => some '/'
  | '\\' => some '\\'
  | 'N' => some '\x85'
  | '_' => some '\xa0'
  | 'L' => some '\u2028'
  | 'P' => some '\u2029'
  | _ => none

/-- How many hexadecimal digits follow the letter. -/
def escapeDigits? : Char → Option Nat
  | 'x' => some 2
  | 'u' => some 4
  | 'U' => some 8
  | _ => none

/-- An escape from its backslash on. -/
def readEscape (begun : Mark) (cursor : Cursor) : Except Failure (Char × Cursor) :=
  let unknown : Except Failure (Char × Cursor) :=
    cursor.fail .unknownEscape .quotedEscape begun
  match cursor.peekAt? 1 with
  | none => unknown
  | some letter =>
      match simpleEscape? letter, escapeDigits? letter with
      | some character, _ => .ok (character, cursor.skip.skip)
      | none, none => unknown
      | none, some count =>
          let digits := cursor.skip.skip
          match hexNumber? count digits.rest with
          | none => digits.fail .hexNumber .quotedEscape begun
          | some code =>
              if (0xD800 ≤ code ∧ code ≤ 0xDFFF) ∨ 0x10FFFF < code then
                digits.fail .escapeCode .quotedEscape begun
              else .ok (Char.ofNat code, digits.skipMany count)

/-- The characters of a quoted scalar up to its closing quote or a gap. True if
an escaped break ended the run. -/
def readQuotedRun (double : Bool) (begun : Mark) :
    (steps : Nat) → List Char → Cursor → Except Failure (List Char × Bool × Cursor)
  | 0, read, cursor => .ok (read, false, cursor)
  | steps + 1, read, cursor =>
      if cursor.atGap then .ok (read, false, cursor)
      else
        match double, cursor.rest with
        | false, '\'' :: '\'' :: _ =>
            readQuotedRun double begun steps ('\'' :: read) cursor.skip.skip
        | false, '\'' :: _ => .ok (read, false, cursor)
        | true, '"' :: _ => .ok (read, false, cursor)
        | true, '\\' :: _ =>
            if cursor.skip.atBreak then .ok (read, true, cursor.skip.skipBreak)
            else do
              let (character, cursor) ← readEscape begun cursor
              readQuotedRun double begun steps (character :: read) cursor
        | _, character :: _ =>
            readQuotedRun double begun steps (character :: read) cursor.skip
        | _, [] => .ok (read, false, cursor)

/-- A quoted scalar after its opening quote, read in reverse. -/
def readQuotedFrom (double : Bool) (begun : Mark) :
    (steps : Nat) → List Char → Cursor → Scanned
  | 0, _, cursor => cursor.fail .endOfStream .quotedScalar begun
  | steps + 1, read, cursor =>
      if cursor.atDocumentIndicator then
        cursor.fail .documentIndicator .quotedScalar begun
      else if cursor.atEnd then cursor.fail .endOfStream .quotedScalar begun
      else do
        let (read, escaped, cursor) ←
          readQuotedRun double begun (cursor.rest.length + 1) read cursor
        if cursor.looksAt (if double then '"' else '\'') then
          return (read.reverse, cursor.skip)
        else
          let gap := if escaped then Gap.escapedBreak else Gap.none
          let (gap, cursor) ←
            Gap.read (fun _ _ => false) begun (cursor.rest.length + 1) gap cursor
          readQuotedFrom double begun steps (gap.folded.reverse ++ read) cursor

def readQuoted (double : Bool) (cursor : Cursor) : Scanned :=
  readQuotedFrom double cursor.mark (cursor.rest.length + 1) [] cursor.skip

/-! ## Plain scalars -/

/-- Where a plain scalar's run ends inside a line. -/
def endsPlain (flow : Bool) (cursor : Cursor) : Bool :=
  match cursor.peek? with
  | none => true
  | some ':' => cursor.gapAt 1
  | some character => flow && [',', '[', ']', '{', '}'].contains character

def readPlainRun (flow : Bool) (begun : Mark) :
    (steps : Nat) → List Char → Cursor → Scanned
  | 0, read, cursor => .ok (read, cursor)
  | steps + 1, read, cursor =>
      if cursor.atGap then .ok (read, cursor)
      else if flow && cursor.looksAt ':' && (cursor.peekAt? 1).any fun next =>
          [',', '?', '[', ']', '{', '}'].contains next then
        cursor.fail .colonInFlow .plainScalar begun
      else if endsPlain flow cursor then .ok (read, cursor)
      else
        match cursor.rest with
        | character :: _ => readPlainRun flow begun steps (character :: read) cursor.skip
        | [] => .ok (read, cursor)

/-- A plain scalar in reverse. The flag tells that the scalar ended with a
break, behind which a key may stand. -/
def readPlainFrom (flow : Bool) (indent : Int) (begun : Mark) :
    (steps : Nat) → Gap → List Char → Cursor → Except Failure (List Char × Bool × Cursor)
  | 0, gap, read, cursor => .ok (read.reverse, gap.broken, cursor)
  | steps + 1, gap, read, cursor =>
      if cursor.atDocumentIndicator || cursor.looksAt '#' then
        .ok (read.reverse, gap.broken, cursor)
      else do
        let (run, cursor) ← readPlainRun flow begun (cursor.rest.length + 1) [] cursor
        let (gap, read) :=
          if run.isEmpty then (gap, read)
          else (Gap.none, run ++ gap.folded.reverse ++ read)
        if cursor.atSpace || cursor.atBreak then
          let tooFarLeft (cursor : Cursor) : Bool := (cursor.mark.column : Int) < indent
          let (gap, cursor) ←
            Gap.read (fun gap cursor => gap.broken && tooFarLeft cursor && cursor.looksAt '\t')
              begun (cursor.rest.length + 1) gap cursor
          if !flow && tooFarLeft cursor then return (read.reverse, gap.broken, cursor)
          else readPlainFrom flow indent begun steps gap read cursor
        else return (read.reverse, gap.broken, cursor)

def readPlain (flow : Bool) (indent : Int) (cursor : Cursor) :
    Except Failure (List Char × Bool × Cursor) :=
  readPlainFrom flow indent cursor.mark (cursor.rest.length + 1) .none [] cursor

/-! ## Block scalars -/

inductive Chomping where
  | strip
  | clip
  | keep
  deriving DecidableEq, Repr

structure BlockHeader where
  chomping : Chomping
  indentation : Option Nat

def readChomping? (cursor : Cursor) : Option (Chomping × Cursor) :=
  match cursor.peek? with
  | some '+' => some (.keep, cursor.skip)
  | some '-' => some (.strip, cursor.skip)
  | _ => none

def readIndentation (begun : Mark) (cursor : Cursor) :
    Except Failure (Option Nat × Cursor) :=
  match cursor.peek? with
  | some '0' => cursor.fail .zeroIndentation .blockScalar begun
  | some digit =>
      if Decimal.isDigit digit then .ok (some (Decimal.digitValue digit), cursor.skip)
      else .ok (none, cursor)
  | none => .ok (none, cursor)

/-- The indicators may come in either order. -/
def readBlockHeader (begun : Mark) (cursor : Cursor) :
    Except Failure (BlockHeader × Cursor) :=
  match readChomping? cursor with
  | some (chomping, cursor) => do
      let (indentation, cursor) ← readIndentation begun cursor
      return (⟨chomping, indentation⟩, cursor)
  | none => do
      let (indentation, cursor) ← readIndentation begun cursor
      match indentation, readChomping? cursor with
      | some indentation, some (chomping, cursor) =>
          return (⟨chomping, some indentation⟩, cursor)
      | _, _ => return (⟨.clip, indentation⟩, cursor)

/-- Empty lines before a line of the block. `indent` is unknown until the first
line that has text; `widest` is the deepest column seen. -/
def readEmptyLines (indent : Option Nat) (begun : Mark) :
    (steps : Nat) → (widest : Nat) → List Char → Cursor →
    Except Failure (Nat × List Char × Cursor)
  | 0, widest, read, cursor => .ok (widest, read, cursor)
  | steps + 1, widest, read, cursor =>
      let shallow (cursor : Cursor) : Bool :=
        indent.all fun indent => cursor.mark.column < indent
      if shallow cursor && cursor.looksAt ' ' then
        readEmptyLines indent begun steps widest read cursor.skip
      else
        let widest := max widest cursor.mark.column
        if shallow cursor && cursor.looksAt '\t' then
          cursor.fail .tabIndentation .blockScalar begun
        else if cursor.atBreak then
          let (written, cursor) := cursor.readBreak
          readEmptyLines indent begun steps widest (read ++ written) cursor
        else .ok (widest, read, cursor)

/-- The text of a block so far, the break behind its last line and the empty
lines after that. -/
structure Block where
  text : List Char
  lastBreak : List Char
  emptyLines : List Char
  blankStart : Bool

/-- In a folded block a break between two lines that start with text is a
space. -/
def Block.addLine (folding : Bool) (block : Block) (startsBlank : Bool)
    (line written : List Char) : Block :=
  let joint :=
    if folding && block.lastBreak = ['\n'] && !block.blankStart && !startsBlank then
      if block.emptyLines.isEmpty then [' '] else []
    else block.lastBreak
  ⟨block.text ++ joint ++ block.emptyLines ++ line, written, [], startsBlank⟩

def readBlockLines (folding : Bool) (indent : Nat) (begun : Mark) :
    (steps : Nat) → Block → Cursor → Except Failure (Block × Cursor)
  | 0, block, cursor => .ok (block, cursor)
  | steps + 1, block, cursor =>
      if cursor.mark.column = indent && !cursor.atEnd then do
        let startsBlank := cursor.atSpace
        let (line, cursor) := cursor.takeWhile fun character => !isBreak character
        let (written, cursor) := cursor.readBreak
        let block := block.addLine folding startsBlank line written
        let (_, emptyLines, cursor) ←
          readEmptyLines (some indent) begun (cursor.rest.length + 1) 0 [] cursor
        readBlockLines folding indent begun steps { block with emptyLines } cursor
      else .ok (block, cursor)

/-- A block scalar from its indicator on. `parent` is the indentation of the
collection that holds it. -/
def readBlock (folding : Bool) (parent : Int) (cursor : Cursor) : Scanned := do
  let begun := cursor.mark
  let (header, cursor) ← readBlockHeader begun cursor.skip
  let cursor := cursor.skipSpaces.skipComment
  if !(cursor.atBreak || cursor.atEnd) then
    cursor.fail .commentOrBreak .blockScalar begun
  else
    let cursor := cursor.skipBreak
    let stated : Option Nat := header.indentation.map fun indentation =>
      (max parent 0).toNat + indentation
    let (widest, emptyLines, cursor) ←
      readEmptyLines stated begun (cursor.rest.length + 1) 0 [] cursor
    let indent := stated.getD (max widest (max (parent + 1) 1).toNat)
    let (block, cursor) ←
      readBlockLines folding indent begun (cursor.rest.length + 1)
        ⟨[], [], emptyLines, false⟩ cursor
    let ending :=
      match header.chomping with
      | .strip => []
      | .clip => block.lastBreak
      | .keep => block.lastBreak ++ block.emptyLines
    return (block.text ++ ending, cursor)

end ErSchema.Yaml
