import ErSchema.Decimal.Digits

/-! # What can be wrong with a YAML text

A failure names a problem and where it was met, and often what was being read at
the time and where that began. Marks count from zero and are shown from one; the
very start of the text is not shown. -/

namespace ErSchema.Yaml

/-- `offset` counts the characters before the mark. -/
structure Mark where
  offset : Nat
  line : Nat
  column : Nat
  deriving DecidableEq, Repr

namespace Mark

def start : Mark := ⟨0, 0, 0⟩

def isStart (mark : Mark) : Bool :=
  mark.line = 0 && mark.column = 0

def samePlace (left right : Mark) : Bool :=
  left.line = right.line && left.column = right.column

/-- The place as a message ends with it. -/
def suffix (mark : Mark) : String :=
  if mark.isStart then ""
  else " at line " ++ Decimal.natText (mark.line + 1) ++ " column " ++
    Decimal.natText (mark.column + 1)

end Mark

inductive Problem where
  | controlCharacter (bytesBefore : Nat)
  | keyWithoutColon
  | directiveName
  | directiveCharacter
  | unknownDirective
  | longVersion
  | versionNumber
  | versionPoint
  | space
  | spaceOrBreak
  | commentOrBreak
  | entryNotAllowed
  | keyNotAllowed
  | valueNotAllowed
  | noToken
  | anchorName
  | tagMark
  | tagEnd
  | tagAddress
  | escapedOctet
  | leadingOctet
  | trailingOctet
  | zeroIndentation
  | tabIndentation
  | documentIndicator
  | endOfStream
  | unknownEscape
  | hexNumber
  | escapeCode
  | colonInFlow
  | tabInPlain
  | documentStart
  | duplicateVersion
  | incompatibleVersion
  | duplicateTag
  | undefinedHandle
  | nodeContent
  | dash
  | blockKey
  | flowSequenceEnd
  | flowMappingEnd
  | unknownAnchor
  deriving DecidableEq, Repr

def Problem.message : Problem → String
  | .controlCharacter 0 => "control characters are not allowed"
  | .controlCharacter bytesBefore =>
      "control characters are not allowed at position " ++ Decimal.natText bytesBefore
  | .keyWithoutColon => "could not find expected ':'"
  | .directiveName => "could not find expected directive name"
  | .directiveCharacter => "found unexpected non-alphabetical character"
  | .unknownDirective => "found unknown directive name"
  | .longVersion => "found extremely long version number"
  | .versionNumber => "did not find expected version number"
  | .versionPoint => "did not find expected digit or '.' character"
  | .space => "did not find expected whitespace"
  | .spaceOrBreak => "did not find expected whitespace or line break"
  | .commentOrBreak => "did not find expected comment or line break"
  | .entryNotAllowed => "block sequence entries are not allowed in this context"
  | .keyNotAllowed => "mapping keys are not allowed in this context"
  | .valueNotAllowed => "mapping values are not allowed in this context"
  | .noToken => "found character that cannot start any token"
  | .anchorName => "did not find expected alphabetic or numeric character"
  | .tagMark => "did not find expected '!'"
  | .tagEnd => "did not find the expected '>'"
  | .tagAddress => "did not find expected tag URI"
  | .escapedOctet => "did not find URI escaped octet"
  | .leadingOctet => "found an incorrect leading UTF-8 octet"
  | .trailingOctet => "found an incorrect trailing UTF-8 octet"
  | .zeroIndentation => "found an indentation indicator equal to 0"
  | .tabIndentation => "found a tab character where an indentation space is expected"
  | .documentIndicator => "found unexpected document indicator"
  | .endOfStream => "found unexpected end of stream"
  | .unknownEscape => "found unknown escape character"
  | .hexNumber => "did not find expected hexdecimal number"
  | .escapeCode => "found invalid Unicode character escape code"
  | .colonInFlow => "found unexpected ':'"
  | .tabInPlain => "found a tab character that violates indentation"
  | .documentStart => "did not find expected <document start>"
  | .duplicateVersion => "found duplicate %YAML directive"
  | .incompatibleVersion => "found incompatible YAML document"
  | .duplicateTag => "found duplicate %TAG directive"
  | .undefinedHandle => "found undefined tag handle"
  | .nodeContent => "did not find expected node content"
  | .dash => "did not find expected '-' indicator"
  | .blockKey => "did not find expected key"
  | .flowSequenceEnd => "did not find expected ',' or ']'"
  | .flowMappingEnd => "did not find expected ',' or '\x7d'"
  | .unknownAnchor => "unknown anchor"

/-- What was being read when a problem was met. -/
inductive Activity where
  | simpleKey
  | directive
  | directiveHandle
  | versionDirective
  | tagDirective
  | tagDirectiveAddress
  | nextToken
  | anchor
  | alias
  | tag
  | tagAddress
  | blockScalar
  | quotedScalar
  | quotedEscape
  | plainScalar
  | node
  | blockNode
  | flowNode
  | blockCollection
  | blockMapping
  | flowSequence
  | flowMapping
  deriving DecidableEq, Repr

def Activity.message : Activity → String
  | .simpleKey => "while scanning a simple key"
  | .directive => "while scanning a directive"
  | .directiveHandle => "while parsing a directive"
  | .versionDirective => "while scanning a %YAML directive"
  | .tagDirective => "while scanning a %TAG directive"
  | .tagDirectiveAddress => "while parsing a %TAG directive"
  | .nextToken => "while scanning for the next token"
  | .anchor => "while scanning an anchor"
  | .alias => "while scanning an alias"
  | .tag => "while scanning a tag"
  | .tagAddress => "while parsing a tag"
  | .blockScalar => "while scanning a block scalar"
  | .quotedScalar => "while scanning a quoted scalar"
  | .quotedEscape => "while parsing a quoted scalar"
  | .plainScalar => "while scanning a plain scalar"
  | .node => "while parsing a node"
  | .blockNode => "while parsing a block node"
  | .flowNode => "while parsing a flow node"
  | .blockCollection => "while parsing a block collection"
  | .blockMapping => "while parsing a block mapping"
  | .flowSequence => "while parsing a flow sequence"
  | .flowMapping => "while parsing a flow mapping"

structure Failure where
  problem : Problem
  mark : Mark
  during : Option (Activity × Mark)
  deriving DecidableEq, Repr

def Failure.message (failure : Failure) : String :=
  let activity :=
    match failure.during with
    | none => ""
    | some (activity, begun) =>
        ", " ++ activity.message ++
          if begun.samePlace failure.mark then "" else begun.suffix
  failure.problem.message ++ failure.mark.suffix ++ activity

end ErSchema.Yaml
