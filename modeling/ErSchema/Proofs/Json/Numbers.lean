import ErSchema.Proofs.Json.Scalars
import ErSchema.Proofs.Text.Runs
import Mathlib.Algebra.Group.Int.Defs

/-! # Reading numbers back

Reading a number stops at whatever cannot belong to it, so a number that is read
to the end of a text is read the same way where a comma or a line break follows.
An integer of at most 64 bits is read back from its own text. -/

namespace ErSchema.Json

/-- What stands behind a value that was written. -/
def Ends (rest : List Char) : Prop :=
  ∀ character, rest.head? = some character → character = ',' ∨ character = '\n'

theorem Ends.stops_isDigit {rest : List Char} (ends : Ends rest) :
    Text.Stops Decimal.isDigit rest := by
  intro character isHead
  rcases ends character isHead with rfl | rfl <;> decide

/-! ## A text with more behind it -/

/-- The cursors stand before the same text, but more follows the second. -/
def Longer (rest : List Char) (short long : Cursor) : Prop :=
  long.rest = short.rest ++ rest

/-- A result of the first reader is one of the second, which stops at what
follows. -/
def Carries {α : Type} (rest : List Char) (short long : Except Failure (α × Cursor)) : Prop :=
  ∀ value after, short = .ok (value, after) →
    ∃ behind, long = .ok (value, behind) ∧ Longer rest after behind

section
variable {rest : List Char} (ends : Ends rest) {short long : Cursor} (longer : Longer rest short long)

include longer in
theorem Longer.peek?_eq {character : Char} (peeks : short.peek? = some character) :
    long.peek? = some character := by
  rw [Cursor.peek?, longer, List.head?_append]
  exact congrArg (·.or rest.head?) peeks

include longer in
theorem Longer.skip {character : Char} (peeks : short.peek? = some character) :
    Longer rest short.skip long.skip := by
  rcases short with ⟨text, position⟩
  rcases long with ⟨more, other⟩
  obtain rfl : more = text ++ rest := longer
  cases text with
  | nil => cases peeks
  | cons head others => rfl

include longer ends in
theorem Longer.peek?_of_none (peeks : short.peek? = none) :
    long.peek? = none ∨ long.peek? = some ',' ∨ long.peek? = some '\n' := by
  have nothing : short.rest = [] := List.head?_eq_none_iff.mp peeks
  rw [Cursor.peek?, longer, nothing, List.nil_append]
  cases isHead : rest.head? with
  | none => exact .inl rfl
  | some character => exact .inr ((ends character isHead).imp (congrArg some) (congrArg some))

theorem rest_skipWhileFrom (accepts : Char → Bool) (position : Position) (text : List Char) :
    (Cursor.skipWhileFrom accepts position text).rest = text.dropWhile accepts := by
  induction text generalizing position with
  | nil => rfl
  | cons character others induction =>
      rw [Cursor.skipWhileFrom, List.dropWhile_cons]
      split
      · exact induction _
      · rfl

include ends in
theorem dropWhile_digits_append (text : List Char) :
    (text ++ rest).dropWhile Decimal.isDigit = text.dropWhile Decimal.isDigit ++ rest := by
  have stops : rest.dropWhile Decimal.isDigit = rest :=
    Text.dropWhile_run (List.forall_mem_nil _) ends.stops_isDigit
  rw [List.dropWhile_append, stops]
  split
  case isTrue empty => rw [List.isEmpty_iff.mp empty, List.nil_append]
  case isFalse => rfl

include ends longer in
theorem Longer.skipDigits : Longer rest short.skipDigits long.skipDigits := by
  rw [Longer, Cursor.skipDigits, Cursor.skipDigits, Cursor.skipWhile, Cursor.skipWhile,
    rest_skipWhileFrom, rest_skipWhileFrom, longer]
  exact dropWhile_digits_append ends short.rest

include ends in
theorem collectDigits_longer {significand count digits value : Nat} {cut : Bool}
    {position other : Position} {text : List Char} {after : Cursor}
    (found : collectDigits significand count position text = (value, digits, cut, after)) :
    ∃ behind, collectDigits significand count other (text ++ rest) =
        (value, digits, cut, behind) ∧ Longer rest after behind := by
  induction text generalizing significand count position other with
  | nil =>
      cases found
      refine ⟨⟨rest, other⟩, ?_, rfl⟩
      cases rest with
      | nil => rfl
      | cons character others =>
          rw [List.nil_append, collectDigits, if_neg (by simp [ends.stops_isDigit character rfl])]
  | cons character others induction =>
      rw [collectDigits] at found
      rw [List.cons_append, collectDigits]
      split at found
      case isTrue digit =>
        dsimp only at found ⊢
        split at found
        case isTrue fits =>
          rw [if_pos digit, if_pos fits]
          exact induction found
        case isFalse cut =>
          cases found
          rw [if_pos digit, if_neg cut]
          exact ⟨_, rfl, rfl⟩
      case isFalse other =>
        cases found
        rw [if_neg other]
        exact ⟨_, rfl, rfl⟩

include ends in
theorem readExponentDigits_longer {value : Nat} {exponent : Option Nat}
    {position other : Position} {text : List Char} {after : Cursor}
    (found : readExponentDigits value position text = (exponent, after)) :
    ∃ behind, readExponentDigits value other (text ++ rest) = (exponent, behind) ∧
      Longer rest after behind := by
  induction text generalizing value position other with
  | nil =>
      cases found
      refine ⟨⟨rest, other⟩, ?_, rfl⟩
      cases rest with
      | nil => rfl
      | cons character others =>
          rw [List.nil_append, readExponentDigits, if_neg (by simp [ends.stops_isDigit character rfl])]
  | cons character others induction =>
      rw [readExponentDigits] at found
      rw [List.cons_append, readExponentDigits]
      split at found
      case isTrue digit =>
        dsimp only at found ⊢
        split at found
        case isTrue fits =>
          rw [if_pos digit, if_pos fits]
          exact induction found
        case isFalse cut =>
          cases found
          rw [if_pos digit, if_neg cut]
          exact ⟨_, rfl, rfl⟩
      case isFalse other =>
        cases found
        rw [if_neg other]
        exact ⟨_, rfl, rfl⟩

variable (negative : Bool) (significand : Nat) (power : Int)

include longer in
theorem floatOf_longer :
    Carries rest (floatOf negative ⟨significand, power, short⟩)
      (floatOf negative ⟨significand, power, long⟩) := by
  intro value after found
  unfold floatOf at found ⊢
  split at found
  case h_1 scaled isScaled =>
    cases found
    exact ⟨long, by rw [isScaled], longer⟩
  case h_2 => cases found

include ends longer in
theorem hugeExponent_longer (downward : Bool) :
    Carries rest (hugeExponent negative significand downward short)
      (hugeExponent negative significand downward long) := by
  intro value after found
  unfold hugeExponent at found ⊢
  split at found
  case isTrue => cases found
  case isFalse small =>
    cases found
    rw [if_neg small]
    exact ⟨_, rfl, longer.skipDigits ends⟩

include ends longer in
theorem readExponent_longer {mark : Char} (peeks : short.peek? = some mark) :
    Carries rest (readExponent negative ⟨significand, power, short⟩)
      (readExponent negative ⟨significand, power, long⟩) := by
  intro value after found
  have marked := longer.skip peeks
  unfold readExponent at found ⊢
  dsimp only at found ⊢
  cases sign : short.skip.peek? with
  | none => simp [sign, Cursor.fail] at found
  | some first =>
      rw [marked.peek?_eq sign]
      rw [sign] at found
      -- Both texts have the same sign or none, so only the cursors behind it differ.
      have unsigned : Longer rest
          (if some first = some '-' ∨ some first = some '+' then short.skip.skip else short.skip)
          (if some first = some '-' ∨ some first = some '+' then long.skip.skip else long.skip) := by
        split
        · exact marked.skip sign
        · exact marked
      generalize (if some first = some '-' ∨ some first = some '+' then short.skip.skip
        else short.skip) = here at found unsigned
      generalize (if some first = some '-' ∨ some first = some '+' then long.skip.skip
        else long.skip) = there at unsigned ⊢
      cases digit : here.peek? with
      | none => simp [digit, Cursor.fail] at found
      | some leading =>
          rw [unsigned.peek?_eq digit]
          rw [digit] at found
          dsimp only at found ⊢
          split at found
          case isFalse => simp [Cursor.failAhead] at found
          case isTrue isDigit =>
            rw [if_pos isDigit, unsigned]
            split at found
            case h_1 cursor collected =>
              rcases readExponentDigits_longer ends collected with ⟨behind, equal, further⟩
              rw [equal]
              exact hugeExponent_longer ends further negative significand _ value after found
            case h_2 exponent cursor collected =>
              rcases readExponentDigits_longer ends collected with ⟨behind, equal, further⟩
              rw [equal]
              exact floatOf_longer further negative significand _ value after found

include ends longer in
theorem finishFloat_longer :
    Carries rest (finishFloat negative ⟨significand, power, short⟩)
      (finishFloat negative ⟨significand, power, long⟩) := by
  intro value after found
  unfold finishFloat at found ⊢
  dsimp only at found ⊢
  cases peeks : short.peek? with
  | none =>
      rw [peeks] at found
      have float := floatOf_longer longer negative significand power value after found
      rcases longer.peek?_of_none ends peeks with nothing | comma | lineEnd
      · rwa [nothing]
      · rwa [comma]
      · rwa [lineEnd]
  | some mark =>
      rw [longer.peek?_eq peeks]
      rw [peeks] at found
      split at found
      · exact readExponent_longer ends longer negative significand power peeks value after found
      · exact readExponent_longer ends longer negative significand power peeks value after found
      · exact floatOf_longer longer negative significand power value after found

include ends longer in
theorem readFraction_longer {point : Char} (peeks : short.peek? = some point) :
    Carries rest (readFraction negative ⟨significand, power, short⟩)
      (readFraction negative ⟨significand, power, long⟩) := by
  intro value after found
  have marked := longer.skip peeks
  unfold readFraction at found ⊢
  dsimp only at found ⊢
  rw [marked]
  split at found
  case h_1 digits count cursor collected =>
    rcases collectDigits_longer ends collected with ⟨behind, equal, further⟩
    rw [equal]
    exact finishFloat_longer ends (further.skipDigits ends) negative digits _ value after found
  case h_2 digits cursor collected =>
    split at found <;> simp [Cursor.failAhead] at found
  case h_3 digits count cursor counted collected =>
    rcases collectDigits_longer ends collected with ⟨behind, equal, further⟩
    rw [equal]
    split
    case h_1 impossible => cases impossible
    case h_2 none impossible =>
      cases impossible
      exact (counted rfl).elim
    case h_3 same =>
      cases same
      exact finishFloat_longer ends further negative digits _ value after found

include ends longer in
theorem readAfterWhole_longer :
    Carries rest (readAfterWhole negative significand short)
      (readAfterWhole negative significand long) := by
  intro value after found
  unfold readAfterWhole at found ⊢
  cases peeks : short.peek? with
  | none =>
      rw [peeks] at found
      cases found
      rcases longer.peek?_of_none ends peeks with nothing | comma | lineEnd
      · exact ⟨long, by rw [nothing], longer⟩
      · exact ⟨long, by rw [comma]; rfl, longer⟩
      · exact ⟨long, by rw [lineEnd]; rfl, longer⟩
  | some mark =>
      rw [longer.peek?_eq peeks]
      rw [peeks] at found
      split at found
      · exact readFraction_longer ends longer negative significand _ peeks value after found
      · exact readExponent_longer ends longer negative significand _ peeks value after found
      · exact readExponent_longer ends longer negative significand _ peeks value after found
      · cases found
        exact ⟨long, rfl, longer⟩

include ends in
theorem takeWhile_digits_append (text : List Char) :
    (text ++ rest).takeWhile Decimal.isDigit = text.takeWhile Decimal.isDigit := by
  have stops : rest.takeWhile Decimal.isDigit = [] :=
    Text.takeWhile_run (List.forall_mem_nil _) ends.stops_isDigit
  rw [List.takeWhile_append, stops, List.append_nil]
  split
  case isTrue whole => exact (List.takeWhile_prefix _).eq_of_length whole |>.symm
  case isFalse => rfl

include ends longer in
theorem readLongWhole_longer :
    Carries rest (readLongWhole negative significand short)
      (readLongWhole negative significand long) := by
  intro value after found
  have further := longer.skipDigits ends
  unfold readLongWhole at found ⊢
  rw [longer, takeWhile_digits_append ends]
  dsimp only at found ⊢
  cases peeks : short.skipDigits.peek? with
  | none =>
      rw [peeks] at found
      have float := finishFloat_longer ends further negative significand _ value after found
      rcases further.peek?_of_none ends peeks with nothing | comma | lineEnd
      · rwa [nothing]
      · rwa [comma]
      · rwa [lineEnd]
  | some mark =>
      rw [further.peek?_eq peeks]
      rw [peeks] at found
      split at found
      · exact readFraction_longer ends further negative significand _ peeks value after found
      · exact finishFloat_longer ends further negative significand _ value after found

include ends longer in
theorem Longer.peeksDigit_eq : long.peeksDigit = short.peeksDigit := by
  unfold Cursor.peeksDigit
  cases peeks : short.peek? with
  | none => rcases longer.peek?_of_none ends peeks with equal | equal | equal <;> rw [equal] <;> decide
  | some mark => rw [longer.peek?_eq peeks]

include ends longer in
theorem readUnsigned_longer :
    Carries rest (readUnsigned negative short) (readUnsigned negative long) := by
  intro value after found
  unfold readUnsigned at found ⊢
  cases peeks : short.peek? with
  | none => simp [peeks, Cursor.fail] at found
  | some first =>
      have further := longer.skip peeks
      rw [longer.peek?_eq peeks]
      rw [peeks] at found
      split at found
      case h_1 impossible => cases impossible
      case h_2 zero =>
        rw [further.peeksDigit_eq ends]
        split at found
        case isTrue => simp [Cursor.failAhead] at found
        case isFalse single =>
          rw [if_neg single]
          exact readAfterWhole_longer ends further negative 0 value after found
      case h_3 leading same nonzero =>
        split at found
        case isFalse => simp [Cursor.failAhead] at found
        case isTrue digit =>
          rw [if_pos digit, longer]
          split at found
          case h_1 digits count cursor collected =>
            rcases collectDigits_longer ends collected with ⟨behind, equal, beyond⟩
            rw [equal]
            exact readLongWhole_longer ends beyond negative digits value after found
          case h_2 digits count cursor collected =>
            rcases collectDigits_longer ends collected with ⟨behind, equal, beyond⟩
            rw [equal]
            exact readAfterWhole_longer ends beyond negative digits value after found

include ends longer in
theorem map_readUnsigned_longer {number : Number} {after : Cursor}
    (found : (readUnsigned negative short).map
      (fun found => ((.inl (.number found.1) : Sum Value Container), found.2)) =
        .ok (.inl (.number number), after)) :
    ∃ behind, (readUnsigned negative long).map
      (fun found => ((.inl (.number found.1) : Sum Value Container), found.2)) =
        .ok (.inl (.number number), behind) ∧ Longer rest after behind := by
  rcases map_eq_ok.mp found with ⟨⟨value, cursor⟩, read, equal⟩
  cases equal
  rcases readUnsigned_longer ends longer negative _ _ read with ⟨behind, again, further⟩
  exact ⟨behind, map_eq_ok.mpr ⟨_, again, rfl⟩, further⟩

include ends longer in
theorem readScalar_longer {number : Number} {after : Cursor}
    (found : readScalar short = .ok (.inl (.number number), after)) :
    ∃ behind, readScalar long = .ok (.inl (.number number), behind) ∧
      Longer rest after behind := by
  unfold readScalar at found ⊢
  cases peeks : short.peek? with
  | none => simp [peeks, Cursor.failAhead] at found
  | some first =>
      rw [longer.peek?_eq peeks]
      rw [peeks] at found
      dsimp only at found ⊢
      split at found
      case h_1 impossible => cases impossible
      case h_5 => exact map_readUnsigned_longer ends (longer.skip peeks) true found
      case h_9 =>
        split at found
        case isTrue digit =>
          rw [if_pos digit]
          exact map_readUnsigned_longer ends longer false found
        case isFalse => cases found
      all_goals
        first
        | cases found
        | rcases map_eq_ok.mp found with ⟨word, read, impossible⟩
          cases impossible

end

/-! ## Numbers that are their own text -/

/-- The text of the number is read as that number, to its end. -/
def Number.ReadsBack (number : Number) : Prop :=
  ∃ after, readScalar (.start number.text) = .ok (.inl (.number number), ⟨[], after⟩)

theorem Number.ReadsBack.reads {number : Number} (back : number.ReadsBack) {rest : List Char}
    (ends : Ends rest) : Reads readScalar number.text.toList (.inl (.number number)) rest := by
  rcases back with ⟨after, read⟩
  intro position
  have longer : Longer rest (.start number.text) ⟨number.text.toList ++ rest, position⟩ := rfl
  rcases readScalar_longer ends longer read with ⟨⟨left, behind⟩, again, further⟩
  obtain rfl : left = rest := further
  exact ⟨behind, again⟩

theorem le_foldl_digits (digits : List Char) (value : Nat) :
    value ≤ digits.foldl (fun value digit => 10 * value + Decimal.digitValue digit) value := by
  induction digits generalizing value with
  | nil => exact Nat.le_refl value
  | cons digit digits induction =>
      have later := induction (10 * value + Decimal.digitValue digit)
      rw [List.foldl_cons]
      omega

theorem collectDigits_of_lt {digits : List Char}
    (all : ∀ digit ∈ digits, Decimal.isDigit digit = true) {value : Nat}
    (fits : digits.foldl (fun value digit => 10 * value + Decimal.digitValue digit) value <
      digitLimit) (count : Nat) (position : Position) :
    ∃ after, collectDigits value count position digits =
      (digits.foldl (fun value digit => 10 * value + Decimal.digitValue digit) value,
        count + digits.length, false, ⟨[], after⟩) := by
  induction digits generalizing value count position with
  | nil => exact ⟨position, rfl⟩
  | cons digit digits induction =>
      have both := List.forall_mem_cons.mp all
      rw [List.foldl_cons] at fits
      have first := Nat.lt_of_le_of_lt (le_foldl_digits digits _) fits
      rcases induction both.2 fits (count + 1) (position.after digit) with ⟨after, equal⟩
      refine ⟨after, ?_⟩
      rw [collectDigits, if_pos both.1]
      dsimp only
      rw [if_pos first, equal, List.length_cons, List.foldl_cons]
      congr 2
      omega

theorem readUnsigned_digitsOfNat (negative : Bool) {value : Nat} (fits : value < digitLimit)
    (position : Position) :
    ∃ after, readUnsigned negative ⟨Decimal.digitsOfNat value, position⟩ =
      .ok (integerOf negative value, ⟨[], after⟩) := by
  -- Only zero starts with the digit that stops the collecting.
  by_cases zero : value = 0
  · subst zero
    exact ⟨_, rfl⟩
  · have nonzero := Decimal.head?_digitsOfNat_ne_zero zero
    have all : ∀ digit ∈ Decimal.digitsOfNat value, Decimal.isDigit digit = true :=
      fun _ => Decimal.isDigit_of_mem_digitsOfNat
    rw [← Decimal.natOfDigits_digitsOfNat value, Decimal.natOfDigits] at fits
    rcases collectDigits_of_lt all fits 0 position with ⟨after, collected⟩
    change _ = (Decimal.natOfDigits (Decimal.digitsOfNat value), _) at collected
    rw [Decimal.natOfDigits_digitsOfNat] at collected
    refine ⟨after, ?_⟩
    cases written : Decimal.digitsOfNat value with
    | nil => exact absurd written (Decimal.digitsOfNat_ne_nil value)
    | cons first others =>
        rw [written] at nonzero all collected
        have digit := all first List.mem_cons_self
        unfold readUnsigned
        simp only [Cursor.peek?, List.head?_cons]
        split
        case h_1 impossible => cases impossible
        case h_2 isZero => exact absurd isZero nonzero
        case h_3 leading different same =>
          cases same
          rw [if_pos digit, collected]
          rfl

theorem readScalar_of_digit {first : Char} (digit : Decimal.isDigit first = true)
    (others : List Char) (position : Position) :
    readScalar ⟨first :: others, position⟩ =
      (readUnsigned false ⟨first :: others, position⟩).map
        fun found => (.inl (.number found.1), found.2) := by
  unfold readScalar
  simp only [Cursor.peek?, List.head?_cons]
  split
  case h_9 leading same => 
    cases same
    rw [if_pos digit]
  all_goals
    rename_i isOther
    cases isOther
    try exact absurd digit (by decide)

/-- An integer of 64 bits, with a sign or without. -/
def Number.Fits : Number → Prop
  | .integer value => -2 ^ 63 ≤ value ∧ value < 2 ^ 64
  | .float _ => True

theorem natural_readsBack {value : Nat} (fits : value < digitLimit) :
    (Number.integer value).ReadsBack := by
  rcases readUnsigned_digitsOfNat false fits ⟨1, 0⟩ with ⟨after, read⟩
  refine ⟨after, ?_⟩
  have text : (Number.integer value).text.toList = Decimal.digitsOfNat value :=
    String.toList_ofList
  rw [Cursor.start, text]
  cases written : Decimal.digitsOfNat value with
  | nil => exact absurd written (Decimal.digitsOfNat_ne_nil value)
  | cons first others =>
      have digit : Decimal.isDigit first = true :=
        Decimal.isDigit_of_mem_digitsOfNat (written ▸ List.mem_cons_self)
      rw [written] at read
      rw [readScalar_of_digit digit, read]
      rfl

theorem negative_readsBack {value : Nat} (fits : value < Nat.pow 2 63) :
    (Number.integer (.negSucc value)).ReadsBack := by
  have below : value + 1 < digitLimit := Nat.lt_of_le_of_lt fits (by decide)
  rcases readUnsigned_digitsOfNat true below (Position.after ⟨1, 0⟩ '-') with ⟨after, read⟩
  refine ⟨after, ?_⟩
  have text : (Number.integer (.negSucc value)).text.toList =
      '-' :: Decimal.digitsOfNat (value + 1) := by
    simp [Number.text, Decimal.intText, Decimal.natText]
  have whole : integerOf true (value + 1) = .integer (.negSucc value) := by
    have inside : ¬(value + 1 = 0 ∨ Nat.pow 2 63 < value + 1) := by omega
    rw [integerOf, if_neg (by decide), if_neg inside]
    rfl
  rw [whole] at read
  rw [Cursor.start, text]
  change (readUnsigned true ⟨Decimal.digitsOfNat (value + 1), _⟩).map _ = _
  rw [read]
  rfl

theorem integer_readsBack {value : Int} (fits : (Number.integer value).Fits) :
    (Number.integer value).ReadsBack := by
  rcases fits with ⟨lower, upper⟩
  cases value with
  | ofNat value =>
      have below : value < digitLimit := by
        have bound : digitLimit = 2 ^ 64 := rfl
        have cast := Int.ofNat_eq_natCast value
        omega
      exact natural_readsBack below
  | negSucc value =>
      have below : value < Nat.pow 2 63 := by
        have bound : Nat.pow 2 63 = 2 ^ 63 := rfl
        omega
      exact negative_readsBack below

end ErSchema.Json
