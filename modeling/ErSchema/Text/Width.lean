import ErSchema.Text.Property.Emoji
import ErSchema.Text.Property.Extending
import ErSchema.Text.Property.Ranges
import ErSchema.Text.Property.Wide

/-! # Display width

How many terminal columns a text takes. Most characters take one column, wide
ones two, and marks none; but a character may join what follows it, as emoji and
some scripts do, so a text is measured from its end and each character sees a
summary of what comes after it. -/

namespace ErSchema.Text

open Property

/-! ## What follows a character -/

/-- The second half of a ligature that a joiner may precede. -/
inductive LigatureEnd where
  | hebrewLamed
  | bugineseYa
  | tifinaghConsonant
  | orkhonI
  deriving DecidableEq, Repr

inductive Following where
  | nothing
  | lineFeed
  | emoji
  | modifier
  | regional
  | flag
  | joined
  | joinedKeycap
  | joinedTag (letters : Nat)
  | joinedRegional
  | joinedEven
  | joinedOdd
  | arabicAlef
  | khmerLetter
  | lisuTone
  | ligature (part : LigatureEnd) (joiner : Bool)
  | tifinaghJoiner
  | bugineseVowel
  | kiratE
  | kiratAi
  deriving DecidableEq, Repr

/-- A variation selector that asks for the emoji or the text form of the
character before it. -/
inductive Selector where
  | emojiForm
  | textForm
  deriving DecidableEq, Repr

structure Context where
  selector : Option Selector
  following : Following
  deriving DecidableEq, Repr

namespace Context

def start : Context := ⟨none, .nothing⟩

def of (following : Following) : Context := ⟨none, following⟩

end Context

namespace Following

/-- A joiner stands before an emoji, perhaps after part of another one. -/
def isJoined : Following → Bool
  | .joined | .joinedKeycap | .joinedTag _ => true
  | _ => false

def isLigature : Following → Bool
  | .ligature _ _ => true
  | _ => false

end Following

/-! ## Single characters -/

/-- The marks that take no column without the property Grapheme_Extend, and
those that take one in spite of it. -/
def isHidden (code : Nat) : Bool :=
  if code = 0x115F || code = 0x2D7F || code = 0xFF9E || code = 0xFF9F then false
  else
    inRanges ignorable code || inRanges extending code ||
      inRanges [(0x1160, 0x11FF), (0xD7B0, 0xD7C6), (0xD7CB, 0xD7FB), (0x605, 0x605),
        (0x70F, 0x70F), (0x890, 0x891), (0x8E2, 0x8E2), (0xA8FA, 0xA8FA)] code

/-- Hidden marks that end the shaping of Arabic letters around them. -/
def breaksShaping (code : Nat) : Bool :=
  inRanges [(0x605, 0x605), (0x890, 0x891), (0x8E2, 0x8E2), (0x115F, 0x11FF),
    (0x180E, 0x180E), (0x200C, 0x200D), (0x2065, 0x2069), (0x302E, 0x302F),
    (0xD7B0, 0xD7FB)] code

def isVariationBase (code : Nat) : Bool :=
  inRanges emojiVariationBase code

/-- Emoji that have a narrow text form. -/
def hasNarrowForm (code : Nat) : Bool :=
  isVariationBase code && inRanges emojiPresentation code &&
    !(0x1F200 ≤ code && code ≤ 0x1F2FF)

def isRegional (code : Nat) : Bool :=
  0x1F1E6 ≤ code && code ≤ 0x1F1FF

def isTifinaghConsonant (code : Nat) : Bool :=
  (0x2D31 ≤ code && code ≤ 0x2D65) || code == 0x2D6F

def isArabicAlef (code : Nat) : Bool :=
  inRanges [(0x622, 0x623), (0x625, 0x625), (0x627, 0x627), (0x671, 0x673),
    (0x675, 0x675), (0x773, 0x774), (0x870, 0x882)] code

def isArabicLam (code : Nat) : Bool :=
  inRanges [(0x644, 0x644), (0x6B5, 0x6B8), (0x76A, 0x76A), (0x8A6, 0x8A6),
    (0x8C7, 0x8C7)] code

/-- Letters whose form under another consonant takes no column. -/
def isKhmerSubscript (code : Nat) : Bool :=
  inRanges [(0x1780, 0x1782), (0x1784, 0x1787), (0x1789, 0x178C), (0x178E, 0x1793),
    (0x1795, 0x1798), (0x179B, 0x179D), (0x17A0, 0x17A0), (0x17A2, 0x17A2),
    (0x17A7, 0x17A7), (0x17AB, 0x17AC), (0x17AF, 0x17AF)] code

/-- Marks that may stand inside a ligature. -/
def isLigatureMark (code : Nat) : Bool :=
  inRanges [(0x34F, 0x34F), (0x17B4, 0x17B5), (0x180B, 0x180D), (0x180F, 0x180F),
    (0x200D, 0x200D), (0xFE00, 0xFE0F), (0xE0100, 0xE01EF)] code

def isTagLetter (code : Nat) : Bool :=
  (0xE0030 ≤ code && code ≤ 0xE0039) || (0xE0061 ≤ code && code ≤ 0xE007A)

/-- The width of a character on its own, and what it is for the character
before it. -/
def aloneWidth (code : Nat) : Int × Context :=
  if code < 0xA1 then (1, .of (if code = 0xA then .lineFeed else .nothing))
  else if code = 0xFE0F then (0, ⟨some .emojiForm, .nothing⟩)
  else if code = 0xFE0E then (0, ⟨some .textForm, .nothing⟩)
  else if code = 0x17D8 then (3, .start)
  else if code = 0x17A4 then (2, .start)
  else if isHidden code then (0, .start)
  else if 0x1F3FB ≤ code ∧ code ≤ 0x1F3FF then (2, .of .modifier)
  else if isRegional code then (1, .of .regional)
  else if inRanges emojiPresentation code then (2, .of .emoji)
  else if inRanges wide code then (2, .start)
  else
    let following : Following :=
      if isArabicAlef code then .arabicAlef
      else if code = 0x5DC then .ligature .hebrewLamed false
      else if code = 0x1A10 then .ligature .bugineseYa false
      else if isTifinaghConsonant code then .ligature .tifinaghConsonant false
      else if code = 0x10C03 then .ligature .orkhonI false
      else if isKhmerSubscript code then .khmerLetter
      else if code = 0xA4FC ∨ code = 0xA4FD then .lisuTone
      else if code = 0x16D67 then .kiratE
      else if code = 0x16D68 then .kiratAi
      else .nothing
    (1, .of following)

/-! ## Sequences -/

/-- The width of a character that forms a sequence with what follows. The
columns of the sequence are given to its last character, so the earlier ones may
take columns back. -/
def sequenceWidth? (code : Nat) (following : Following) : Option (Int × Following) :=
  match following with
  | .arabicAlef =>
      if isArabicLam code then some (0, .nothing)
      else if isHidden code && !breaksShaping code then some (0, .arabicAlef)
      else none
  | .ligature .hebrewLamed true => if code = 0x5D0 then some (0, .nothing) else none
  | .ligature .bugineseYa true => if code = 0x1A17 then some (0, .bugineseVowel) else none
  | .bugineseVowel => if code = 0x1A15 then some (0, .nothing) else none
  | .ligature .tifinaghConsonant joiner =>
      if code = 0x2D7F then some (1, .tifinaghJoiner)
      else if joiner && isTifinaghConsonant code then some (0, .nothing)
      else none
  | .tifinaghJoiner => if isTifinaghConsonant code then some (-1, .nothing) else none
  | .ligature .orkhonI true => if code = 0x10C32 then some (0, .nothing) else none
  | .khmerLetter => if code = 0x17D2 then some (-1, .nothing) else none
  | .lisuTone => if 0xA4F8 ≤ code ∧ code ≤ 0xA4FB then some (0, .nothing) else none
  | .modifier =>
      if inRanges emojiModifierBase code then some (0, .emoji)
      else if code = 0x200D then some (0, .joined)
      else none
  | .regional => if isRegional code then some (1, .flag) else none
  | .flag | .emoji | .joinedEven | .joinedOdd =>
      if code = 0x200D then some (0, .joined)
      else if following = .flag && isRegional code then some (1, .flag)
      else if following = .joinedOdd && isRegional code then some (-1, .joinedEven)
      else if following = .joinedEven && isRegional code then some (3, .joinedOdd)
      else none
  | .joinedRegional => if isRegional code then some (-1, .joinedEven) else none
  | .joined =>
      if code = 0x20E3 then some (0, .joinedKeycap)
      else if isRegional code then some (1, .joinedRegional)
      else if 0x1F3FB ≤ code ∧ code ≤ 0x1F3FF then some (0, .modifier)
      else if code = 0xE007F then some (0, .joinedTag 0)
      else if inRanges emojiPresentation code then some (0, .emoji)
      else none
  | .joinedTag letters =>
      if isTagLetter code && letters < 6 then some (0, .joinedTag (letters + 1))
      else if code = 0x1F3F4 && 3 ≤ letters then some (0, .emoji)
      else none
  | .kiratE =>
      if code = 0x16D63 ∨ code = 0x16D69 then some (0, .nothing)
      else if code = 0x16D67 then some (0, .kiratAi)
      else if code = 0x16D68 then some (1, .kiratE)
      else none
  | .kiratAi => if code = 0x16D63 then some (0, .nothing) else none
  | _ => none

/-- A selector is kept apart from what follows it, so that a joined emoji or a
ligature can look through it. -/
def selectorWidth? (code : Nat) (context : Context) : Option (Int × Context) :=
  if code = 0xFE0F then
    some (0, ⟨some .emojiForm,
      if context.following.isJoined || context.following.isLigature then
        context.following else .nothing⟩)
  else if code = 0xFE0E then
    some (0, ⟨some .textForm,
      if context.following.isLigature then context.following else .nothing⟩)
  else none

/-- A joiner or a mark inside a ligature. -/
def ligatureWidth? (code : Nat) : Following → Option (Int × Following)
  | .ligature part joiner =>
      if code = 0x200D then some (0, .ligature part true)
      else if isLigatureMark code then some (0, .ligature part joiner)
      else none
  | _ => none

def widthBefore (character : Char) (context : Context) : Int × Context :=
  let code := character.toNat
  if context.selector = some .emojiForm && isVariationBase code then
    (if context.following.isJoined then 0 else 2, .of .emoji)
  else if context.selector = some .textForm && hasNarrowForm code then (1, .start)
  else if code = 0xD && context.following = .lineFeed then (0, .start)
  else if code < 0xA1 then aloneWidth code
  else
    match selectorWidth? code context with
    | some result => result
    | none =>
        match ligatureWidth? code context.following with
        | some (width, following) => (width, .of following)
        | none =>
            match sequenceWidth? code context.following with
            | some (width, following) => (width, .of following)
            | none => aloneWidth code

def measure : List Char → Int × Context
  | [] => (0, .start)
  | character :: rest =>
      let (width, context) := measure rest
      let (added, before) := widthBefore character context
      (width + added, before)

def displayWidth (text : String) : Nat :=
  (measure text.toList).1.toNat

example : displayWidth "id" = 2 := by decide +kernel
example : displayWidth "顧客" = 4 := by decide +kernel
example : displayWidth "\r\n" = 1 := by decide +kernel

/-! ## Lines of one width -/

def padRight (text : String) (width : Nat) : String :=
  text ++ String.ofList (List.replicate (width - displayWidth text) ' ')

def maxWidth (lines : List String) : Nat :=
  lines.foldl (fun widest line => max widest (displayWidth line)) 0

end ErSchema.Text
