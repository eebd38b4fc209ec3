import ErSchema.Cardinality
import ErSchema.Proofs.Digits
import ErSchema.Proofs.Text.Runs

/-! # What a cardinality label may say

The labels that mean a count have a small grammar, and reading follows it exactly:
every spelling is read as what it spells, and a label that spells nothing is kept.
What a cardinality is displayed as is one of its spellings. -/

namespace ErSchema

/-! ## The grammar -/

/-- A bound is written as a number below `2 ^ 32`, with any number of zeros in front, or
as a sign for any number. -/
inductive Bound.Spelled : Bound → List Char → Prop
  | fixed {value : UInt32} {digits : List Char} (nonempty : digits ≠ [])
      (each : ∀ digit ∈ digits, digit.isDigit = true)
      (worth : Nat.ofDigitChars 10 digits 0 = value.toNat) : Spelled (.fixed value) digits
  | unbounded {sign : Char} (listed : sign ∈ ['n', 'N', 'm', 'M', '*']) :
      Spelled .unbounded [sign]

def Cardinality.isSpace (character : Char) : Bool :=
  character = ' ' || character = '\t'

open Cardinality (isSpace skipSpaces)

/-- The bound with spaces and tabs around it, perhaps none. -/
def Bound.Spaced (bound : Bound) (text : List Char) : Prop :=
  ∃ before spelling after, text = before ++ (spelling ++ after) ∧ bound.Spelled spelling ∧
    (∀ character ∈ before, isSpace character = true) ∧
    ∀ character ∈ after, isSpace character = true

/-- What may be written for a cardinality. A label that is kept is none of this. -/
inductive Cardinality.Spelled : Cardinality → List Char → Prop
  | unspecified : Spelled .unspecified []
  | one : Spelled .one ['1']
  | many {sign : Char} (listed : sign ∈ ['n', 'N', 'm', 'M']) : Spelled .many [sign]
  | minMax {min max : Bound} {first second : List Char} (isMin : min.Spaced first)
      (isMax : max.Spaced second) :
      Spelled (.minMax min max) ('(' :: (first ++ ',' :: (second ++ [')'])))

/-! ## Bounds -/

namespace Cardinality

variable {character : Char}

theorem isDigit_of_isSpace (space : isSpace character = true) :
    Decimal.isDigit character = false := by
  rw [isSpace, Bool.or_eq_true, decide_eq_true_eq, decide_eq_true_eq] at space
  rcases space with rfl | rfl <;> decide

theorem isSpace_of_isDigit (digit : Decimal.isDigit character = true) :
    isSpace character = false := by
  refine Bool.eq_false_iff.mpr fun space => ?_
  rw [isDigit_of_isSpace space] at digit
  cases digit

end Cardinality

theorem Decimal.natBelow?_eq_some_iff {bound value : Nat} {digits : List Char} :
    natBelow? bound digits = some value ↔
      digits ≠ [] ∧ (∀ digit ∈ digits, digit.isDigit = true) ∧
        Nat.ofDigitChars 10 digits 0 = value ∧ value < bound := by
  have worth : natOfDigits digits = Nat.ofDigitChars 10 digits 0 :=
    Nat.ofDigitChars_eq_foldl.symm
  have each : digits.all isDigit = true ↔ ∀ digit ∈ digits, digit.isDigit = true :=
    List.all_eq_true
  simp only [natBelow?, Option.ite_none_left_eq_some, Bool.or_eq_true, not_or,
    List.isEmpty_iff, Bool.not_eq_true', Bool.not_eq_false, each, worth,
    Option.ite_none_right_eq_some, Option.some.injEq, and_assoc, ne_eq]
  constructor
  · rintro ⟨nonempty, digits, below, rfl⟩
    exact ⟨nonempty, digits, rfl, below⟩
  · rintro ⟨nonempty, digits, rfl, below⟩
    exact ⟨nonempty, digits, below, rfl⟩

namespace Bound

variable {bound : Bound} {text spelling rest : List Char}

theorem Spelled.read?_append (spelled : bound.Spelled spelling)
    (stops : Text.Stops Decimal.isDigit rest) :
    read? (spelling ++ rest) = some (bound, rest) := by
  cases spelled with
  | @fixed value _ nonempty each worth =>
      have whole : Decimal.natBelow? UInt32.size spelling = some value.toNat :=
        Decimal.natBelow?_eq_some_iff.mpr ⟨nonempty, each, worth, value.toNat_lt⟩
      have digits : ∀ digit ∈ spelling, Decimal.isDigit digit = true := each
      -- What follows is no digit, so the run that is read is the spelling and no more.
      unfold read?
      rw [Text.takeWhile_run digits stops, Text.dropWhile_run digits stops]
      cases spelling with
      | nil => exact absurd rfl nonempty
      | cons first others => simp [whole]
  | unbounded listed =>
      simp only [List.mem_cons, List.not_mem_nil, or_false] at listed
      rcases listed with rfl | rfl | rfl | rfl | rfl <;> rfl

theorem exists_spelled_of_read? (found : read? text = some (bound, rest)) :
    ∃ spelling, text = spelling ++ rest ∧ bound.Spelled spelling := by
  unfold read? at found
  split at found
  case h_1 =>
    split at found
    case h_6 => cases found
    all_goals
      cases found
      exact ⟨[_], rfl, .unbounded (by decide)⟩
  case h_2 =>
    rcases Option.map_eq_some_iff.mp found with ⟨value, worth, equal⟩
    rcases Decimal.natBelow?_eq_some_iff.mp worth with ⟨nonempty, each, sum, below⟩
    cases equal
    refine ⟨_, List.takeWhile_append_dropWhile.symm, .fixed nonempty each ?_⟩
    rw [sum, UInt32.toNat_ofNat_of_lt' below]

/-- Neither digits nor signs are spaces. -/
theorem Spelled.stops_isSpace (spelled : bound.Spelled spelling) (rest : List Char) :
    Text.Stops isSpace (spelling ++ rest) := by
  cases spelled with
  | fixed nonempty each _ =>
      cases spelling with
      | nil => exact absurd rfl nonempty
      | cons first others =>
          exact Text.stops_cons (Cardinality.isSpace_of_isDigit (each first List.mem_cons_self))
  | unbounded listed =>
      simp only [List.mem_cons, List.not_mem_nil, or_false] at listed
      rcases listed with rfl | rfl | rfl | rfl | rfl <;> exact Text.stops_cons (by decide)

/-- Reading takes the spaces on both sides with a bound, up to a mark that is neither a
space nor a digit. -/
theorem Spaced.exists_read? (spaced : bound.Spaced text) {mark : Char}
    (solid : isSpace mark = false) (noDigit : Decimal.isDigit mark = false) (rest : List Char) :
    ∃ after, read? (skipSpaces (text ++ mark :: rest)) = some (bound, after) ∧
      skipSpaces after = mark :: rest := by
  rcases spaced with ⟨before, spelling, after, rfl, spelled, spacesBefore, spacesAfter⟩
  have started : skipSpaces (before ++ (spelling ++ after) ++ mark :: rest) =
      spelling ++ (after ++ mark :: rest) := by
    rw [List.append_assoc, List.append_assoc]
    exact Text.dropWhile_run spacesBefore (spelled.stops_isSpace _)
  have ended : Text.Stops Decimal.isDigit (after ++ mark :: rest) := by
    cases after with
    | nil => exact Text.stops_cons noDigit
    | cons space others =>
        have noDigitAfter := Cardinality.isDigit_of_isSpace (spacesAfter space List.mem_cons_self)
        exact Text.stops_cons noDigitAfter
  refine ⟨after ++ mark :: rest, ?_, Text.dropWhile_run spacesAfter (Text.stops_cons solid)⟩
  rw [started, spelled.read?_append ended]

theorem exists_spaced_of_read? (found : read? (skipSpaces text) = some (bound, rest)) :
    ∃ spaced, text = spaced ++ skipSpaces rest ∧ bound.Spaced spaced := by
  rcases exists_spelled_of_read? found with ⟨spelling, started, spelled⟩
  have before : text = text.takeWhile isSpace ++ (spelling ++ rest) := by
    rw [← started]
    exact List.takeWhile_append_dropWhile.symm
  have after : rest = rest.takeWhile isSpace ++ skipSpaces rest :=
    List.takeWhile_append_dropWhile.symm
  refine ⟨text.takeWhile isSpace ++ (spelling ++ rest.takeWhile isSpace), ?_,
    _, spelling, _, rfl, spelled, ?_, ?_⟩
  · rw [List.append_assoc, List.append_assoc, ← after]
    exact before
  · exact fun _ member => List.mem_takeWhile_imp member
  · exact fun _ member => List.mem_takeWhile_imp member

end Bound

/-! ## Labels -/

namespace Cardinality

variable {text : List Char} {card : Cardinality}

theorem readMinMax?_append {min max : Bound} {first second : List Char}
    (isMin : min.Spaced first) (isMax : max.Spaced second) :
    readMinMax? ('(' :: (first ++ ',' :: (second ++ [')']))) = some (.minMax min max) := by
  have comma : isSpace ',' = false ∧ Decimal.isDigit ',' = false := by decide
  have closing : isSpace ')' = false ∧ Decimal.isDigit ')' = false := by decide
  rcases isMin.exists_read? comma.1 comma.2 (second ++ [')']) with ⟨afterMin, readMin, atComma⟩
  rcases isMax.exists_read? closing.1 closing.2 [] with ⟨afterMax, readMax, atClosing⟩
  simp [readMinMax?, readMin, atComma, readMax, atClosing]

theorem spelled_of_readMinMax? (found : readMinMax? text = some card) : card.Spelled text := by
  unfold readMinMax? at found
  split at found
  case h_2 => cases found
  case h_1 opened =>
    rcases Option.bind_eq_some_iff.mp found with ⟨⟨min, afterMin⟩, readMin, found⟩
    rcases Bound.exists_spaced_of_read? readMin with ⟨first, openedWith, isMin⟩
    dsimp only at found
    split at found
    case h_2 => cases found
    case h_1 afterComma comma =>
      rcases Option.bind_eq_some_iff.mp found with ⟨⟨max, afterMax⟩, readMax, found⟩
      rcases Bound.exists_spaced_of_read? readMax with ⟨second, continued, isMax⟩
      dsimp only at found
      rcases Option.ite_none_right_eq_some.mp found with ⟨closing, equal⟩
      cases equal
      rw [openedWith, comma, continued, closing]
      exact .minMax isMin isMax

theorem Spelled.ofTrimmed_eq (spelled : card.Spelled text) : ofTrimmed text = card := by
  cases spelled with
  | unspecified => rfl
  | one => rfl
  | many listed =>
      simp only [List.mem_cons, List.not_mem_nil, or_false] at listed
      rcases listed with rfl | rfl | rfl | rfl <;> rfl
  | minMax isMin isMax => simp [ofTrimmed, readMinMax?_append isMin isMax]

theorem spelled_or_other (text : List Char) :
    (ofTrimmed text).Spelled text ∨ ofTrimmed text = .other (String.ofList text) := by
  unfold ofTrimmed
  split
  case h_1 => exact .inl .unspecified
  case h_2 => exact .inl .one
  case h_7 =>
    cases found : readMinMax? text with
    | none => exact .inr rfl
    | some card => exact .inl (spelled_of_readMinMax? found)
  all_goals exact .inl (.many (by decide))

theorem spelled_unspecified_iff : unspecified.Spelled text ↔ text = [] := by
  constructor
  · rintro ⟨⟩
    rfl
  · rintro rfl
    exact .unspecified

theorem spelled_one_iff : one.Spelled text ↔ text = ['1'] := by
  constructor
  · rintro ⟨⟩
    rfl
  · rintro rfl
    exact .one

theorem spelled_many_iff :
    many.Spelled text ↔ ∃ sign ∈ ['n', 'N', 'm', 'M'], text = [sign] := by
  constructor
  · intro spelled
    cases spelled with
    | many listed => exact ⟨_, listed, rfl⟩
  · rintro ⟨sign, listed, rfl⟩
    exact .many listed

theorem spelled_minMax_iff {min max : Bound} :
    (minMax min max).Spelled text ↔ ∃ first second, min.Spaced first ∧ max.Spaced second ∧
      text = '(' :: (first ++ ',' :: (second ++ [')'])) := by
  constructor
  · intro spelled
    cases spelled with
    | minMax isMin isMax => exact ⟨_, _, isMin, isMax, rfl⟩
  · rintro ⟨first, second, isMin, isMax, rfl⟩
    exact .minMax isMin isMax

theorem not_spelled_other (label : String) : ¬ (other label).Spelled text := by
  intro spelled
  cases spelled

theorem ofTrimmed_eq_iff (counts : ∀ label, card ≠ .other label) :
    ofTrimmed text = card ↔ card.Spelled text := by
  refine ⟨?_, Spelled.ofTrimmed_eq⟩
  rintro rfl
  exact (spelled_or_other text).resolve_right (counts _)

theorem ofTrimmed_eq_other_iff {label : String} :
    ofTrimmed text = .other label ↔
      label = String.ofList text ∧ ∀ card : Cardinality, ¬ card.Spelled text := by
  constructor
  · intro isOther
    rcases spelled_or_other text with spelled | kept
    · exact absurd (isOther ▸ spelled) (not_spelled_other label)
    · refine ⟨other.inj (isOther.symm.trans kept), ?_⟩
      intro card spelled
      rw [spelled.ofTrimmed_eq] at kept
      exact not_spelled_other _ (kept ▸ spelled)
  · rintro ⟨rfl, unread⟩
    exact (spelled_or_other text).resolve_left (unread _)

/-- A label is trimmed. If what is left is nothing, `1`, a sign for many, or two bounds with a
comma between them in parentheses, it is read as just that, and anything else is kept. -/
theorem ofLabel_exact (label : String) :
    let text := Text.trimBlanks label.toList
    Text.TrimsTo label.toList text ∧
      (ofLabel label = .unspecified ↔ text = []) ∧
      (ofLabel label = .one ↔ text = ['1']) ∧
      (ofLabel label = .many ↔ ∃ sign ∈ ['n', 'N', 'm', 'M'], text = [sign]) ∧
      (∀ min max, ofLabel label = .minMax min max ↔
        ∃ first second, min.Spaced first ∧ max.Spaced second ∧
          text = '(' :: (first ++ ',' :: (second ++ [')']))) ∧
      ∀ kept, ofLabel label = .other kept ↔
        kept = String.ofList text ∧ ∀ card : Cardinality, ¬ card.Spelled text := by
  refine ⟨Text.trimsTo_trimBlanks label.toList, ?_, ?_, ?_, fun min max => ?_,
    fun kept => ofTrimmed_eq_other_iff⟩
  · exact (ofTrimmed_eq_iff (by simp)).trans spelled_unspecified_iff
  · exact (ofTrimmed_eq_iff (by simp)).trans spelled_one_iff
  · exact (ofTrimmed_eq_iff (by simp)).trans spelled_many_iff
  · exact (ofTrimmed_eq_iff (by simp)).trans spelled_minMax_iff

end Cardinality

/-! ## The displayed form -/

theorem Bound.spelled_display (bound : Bound) : bound.Spelled bound.display.toList := by
  cases bound with
  | fixed value =>
      rw [display, Decimal.natText, String.toList_ofList]
      exact .fixed (Decimal.digitsOfNat_ne_nil _)
        (fun _ member => Decimal.isDigit_of_mem_digitsOfNat member) Nat.ofDigitChars_ten_toDigits
  | unbounded => exact .unbounded (by decide)

theorem Bound.Spelled.spaced {bound : Bound} {text : List Char}
    (spelled : bound.Spelled text) : bound.Spaced text :=
  ⟨[], text, [], by simp, spelled, List.forall_mem_nil _, List.forall_mem_nil _⟩

namespace Cardinality

variable {card : Cardinality}

/-- What counts is displayed as it may be written, without blanks at the ends. -/
theorem spelled_display (counts : ∀ label, card ≠ .other label) :
    card.Spelled card.display.toList ∧
      Text.trimBlanks card.display.toList = card.display.toList := by
  cases card with
  | unspecified => exact ⟨.unspecified, rfl⟩
  | one => exact ⟨.one, rfl⟩
  | many => exact ⟨.many (by decide), rfl⟩
  | minMax min max =>
      have written : (minMax min max).display.toList =
          '(' :: (min.display.toList ++ ',' :: (max.display.toList ++ [')'])) := by
        simp [display, String.toList_append]
      rw [written]
      refine ⟨.minMax min.spelled_display.spaced max.spelled_display.spaced, ?_⟩
      apply Text.TrimsTo.trimBlanks_eq
      apply Text.trimsTo_self
      · exact Text.stops_cons (by decide)
      · rw [← List.cons_append, ← List.cons_append, ← List.append_assoc, List.reverse_concat]
        exact Text.stops_cons (by decide)
  | other label => exact absurd rfl (counts label)

theorem ofLabel_display_of_counts (counts : ∀ label, card ≠ .other label) :
    ofLabel card.display = card := by
  rcases spelled_display counts with ⟨spelled, trimmed⟩
  rw [ofLabel, trimmed, spelled.ofTrimmed_eq]

/-- Reading what is displayed gives the same cardinality again, for whatever was read before
and for everything that counts. -/
theorem ofLabel_display :
    (∀ label, ofLabel (ofLabel label).display = ofLabel label) ∧
      ∀ card : Cardinality, (∀ label, card ≠ .other label) → ofLabel card.display = card := by
  refine ⟨fun label => ?_, fun card counts => ofLabel_display_of_counts counts⟩
  rcases spelled_or_other (Text.trimBlanks label.toList) with spelled | kept
  · have spells : (ofLabel label).Spelled (Text.trimBlanks label.toList) := spelled
    apply ofLabel_display_of_counts
    intro other isOther
    exact not_spelled_other other (isOther ▸ spells)
  · -- A kept label was trimmed, and trimming it again leaves the text that could not be read.
    have isKept : ofLabel label = .other (Text.trim label) := kept
    rw [isKept, display, ofLabel, Text.trim, String.toList_ofList, Text.trimBlanks_trimBlanks]
    exact kept

theorem ofLabel_display_largest :
    (∀ label, minMax (.fixed 4294967295) .unbounded ≠ .other label) ∧
      (minMax (.fixed 4294967295) .unbounded).display = "(4294967295,n)" ∧
      ofLabel "(4294967295,n)" = minMax (.fixed 4294967295) .unbounded := by
  have counts : ∀ label, minMax (.fixed 4294967295) .unbounded ≠ .other label := by simp
  have displayed : (minMax (.fixed 4294967295) .unbounded).display = "(4294967295,n)" := by
    decide +kernel
  exact ⟨counts, displayed, displayed ▸ ofLabel_display.2 _ counts⟩

end Cardinality

end ErSchema
