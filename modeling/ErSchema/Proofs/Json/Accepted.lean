import ErSchema.Proofs.Json.Storable

/-! # What is read can be stored

A value that was kept is stored in the same depth: its objects were sorted, and
an integer that was kept has at most 64 bits. -/

namespace ErSchema.Json

/-- Whatever is read is good. -/
def Yields {α : Type} (good : α → Prop) (result : Except Failure (α × Cursor)) : Prop :=
  ∀ value after, result = .ok (value, after) → good value

section
variable {α β : Type} {good : α → Prop}

theorem yields_fail (cursor : Cursor) (cause : Cause) : Yields good (cursor.fail cause) := nofun

theorem yields_failAhead (cursor : Cursor) (cause : Cause) :
    Yields good (cursor.failAhead cause) := nofun

theorem yields_ok {value : α} (isGood : good value) (cursor : Cursor) :
    Yields good (.ok (value, cursor)) := by
  intro found after equal
  cases equal
  exact isGood

theorem Yields.bind {result : Except Failure β} {next : β → Except Failure (α × Cursor)}
    (each : ∀ first, result = .ok first → Yields good (next first)) :
    Yields good (result.bind next) := by
  intro value after found
  rcases bind_eq_ok.mp found with ⟨first, isFirst, later⟩
  exact each first isFirst value after later

theorem Yields.map {result : Except Failure β} {change : β → α × Cursor}
    (each : ∀ first, result = .ok first → good (change first).1) :
    Yields good (result.map change) := by
  intro value after found
  rcases map_eq_ok.mp found with ⟨first, isFirst, equal⟩
  have isGood := each first isFirst
  rwa [equal] at isGood

end

/-! ## Numbers -/

theorem fits_signed (negative : Bool) (value : Float) : (signed negative value).Fits := trivial

theorem fits_integerOf (negative : Bool) {significand : Nat} (below : significand < digitLimit) :
    (integerOf negative significand).Fits := by
  have limit : digitLimit = 2 ^ 64 := rfl
  have half : Nat.pow 2 63 = 2 ^ 63 := rfl
  unfold integerOf
  split
  case isTrue =>
    constructor <;> omega
  case isFalse =>
    split
    case isTrue => trivial
    case isFalse inside =>
      constructor <;> omega

theorem fits_floatOf (negative : Bool) (collected : Collected) :
    Yields Number.Fits (floatOf negative collected) := by
  unfold floatOf
  split
  · exact yields_ok (fits_signed _ _) _
  · exact yields_fail _ _

theorem fits_hugeExponent (negative : Bool) (significand : Nat) (downward : Bool)
    (cursor : Cursor) : Yields Number.Fits (hugeExponent negative significand downward cursor) := by
  unfold hugeExponent
  split
  · exact yields_fail _ _
  · exact yields_ok (fits_signed _ _) _

theorem fits_readExponent (negative : Bool) (collected : Collected) :
    Yields Number.Fits (readExponent negative collected) := by
  unfold readExponent
  dsimp only
  split
  · exact yields_fail _ _
  split
  · split
    · exact fits_hugeExponent _ _ _ _
    · exact fits_floatOf _ _
  · exact yields_failAhead _ _

theorem fits_finishFloat (negative : Bool) (collected : Collected) :
    Yields Number.Fits (finishFloat negative collected) := by
  unfold finishFloat
  split
  · exact fits_readExponent _ _
  · exact fits_readExponent _ _
  · exact fits_floatOf _ _

theorem fits_readFraction (negative : Bool) (collected : Collected) :
    Yields Number.Fits (readFraction negative collected) := by
  unfold readFraction
  dsimp only
  split
  · exact fits_finishFloat _ _
  · split
    · exact yields_failAhead _ _
    · exact yields_failAhead _ _
  · exact fits_finishFloat _ _

theorem fits_readAfterWhole (negative : Bool) {significand : Nat}
    (below : significand < digitLimit) (cursor : Cursor) :
    Yields Number.Fits (readAfterWhole negative significand cursor) := by
  unfold readAfterWhole
  split
  · exact fits_readFraction _ _
  · exact fits_readExponent _ _
  · exact fits_readExponent _ _
  · exact yields_ok (fits_integerOf negative below) _

theorem fits_readLongWhole (negative : Bool) (significand : Nat) (cursor : Cursor) :
    Yields Number.Fits (readLongWhole negative significand cursor) := by
  unfold readLongWhole
  dsimp only
  split
  · exact fits_readFraction _ _
  · exact fits_finishFloat _ _

theorem collectDigits_lt {significand count value digits : Nat} {cut : Bool}
    {position : Position} {text : List Char} {after : Cursor} (below : significand < digitLimit)
    (found : collectDigits significand count position text = (value, digits, cut, after)) :
    value < digitLimit := by
  induction text generalizing significand count position with
  | nil =>
      cases found
      exact below
  | cons character rest induction =>
      rw [collectDigits] at found
      split at found
      case isTrue =>
        dsimp only at found
        split at found
        case isTrue fits => exact induction fits found
        case isFalse =>
          cases found
          exact below
      case isFalse =>
        cases found
        exact below

theorem fits_readUnsigned (negative : Bool) (cursor : Cursor) :
    Yields Number.Fits (readUnsigned negative cursor) := by
  have zero : 0 < digitLimit := by decide
  unfold readUnsigned
  split
  · exact yields_fail _ _
  · split
    · exact yields_failAhead _ _
    · exact fits_readAfterWhole negative zero _
  · split
    · split
      case h_1 => exact fits_readLongWhole _ _ _
      case h_2 collected => exact fits_readAfterWhole negative (collectDigits_lt zero collected) _
    · exact yields_failAhead _ _

/-! ## Scalars -/

/-- A scalar has its place in any depth. -/
def Scalar (depth : Nat) (found : Sum Value Container) : Prop :=
  ∀ value, found = .inl value → Storable Number.Fits depth value

theorem scalar_of_storable {depth : Nat} {value : Value}
    (storable : Storable Number.Fits depth value) : Scalar depth (.inl value) := by
  rintro _ ⟨⟩
  exact storable

theorem scalar_readScalar (cursor : Cursor) (depth : Nat) :
    Yields (Scalar depth) (readScalar cursor) := by
  have numbers (negative : Bool) (start : Cursor) : Yields (Scalar depth)
      ((readUnsigned negative start).map fun found => (.inl (.number found.1), found.2)) :=
    .map fun found read =>
      scalar_of_storable (.number (fits_readUnsigned negative start found.1 found.2 read))
  unfold readScalar
  dsimp only
  split
  case h_1 => exact yields_failAhead _ _
  case h_2 => exact .map fun _ _ => scalar_of_storable .null
  case h_3 => exact .map fun _ _ => scalar_of_storable (.bool true)
  case h_4 => exact .map fun _ _ => scalar_of_storable (.bool false)
  case h_5 => exact numbers true _
  case h_6 => exact .map fun found _ => scalar_of_storable (.string found.1)
  case h_7 => exact yields_ok nofun _
  case h_8 => exact yields_ok nofun _
  case h_9 =>
    split
    · exact numbers false _
    · exact yields_failAhead _ _

/-! ## Containers -/

theorem yields_readItems {good : Value → Prop} {reader : Reader Value}
    (each : ∀ cursor, Yields good (reader cursor)) (steps : Nat) (first : Bool)
    {before : List Value} (known : ∀ item ∈ before, good item) (cursor : Cursor) :
    Yields (fun items => ∀ item ∈ items, good item) (readItems reader steps first before cursor) := by
  induction steps generalizing first before cursor with
  | zero => exact yields_fail _ _
  | succ steps induction =>
      unfold readItems
      apply Yields.bind
      rintro ⟨more, start⟩ _
      dsimp only
      split
      · apply Yields.bind
        rintro ⟨value, after⟩ read
        have isGood := each start value after read
        exact induction false (List.forall_mem_cons.mpr ⟨isGood, known⟩) after
      · exact yields_ok (fun item inside => known item (List.mem_reverse.mp inside)) _

/-- Each member was read under the form of its name. -/
theorem yields_readMembers {good : String → Value → Prop} {read : Form → Reader Value}
    {fields : List (String × Form)} {others : Form}
    (each : ∀ key cursor, Yields (good key) (read ((fields.lookup key).getD others) cursor))
    (steps : Nat) (first : Bool) {before : List (String × Value)}
    (known : ∀ member ∈ before, good member.1 member.2) (cursor : Cursor) :
    Yields (fun members => ∀ member ∈ members, good member.1 member.2)
      (readMembers read fields others steps first before cursor) := by
  induction steps generalizing first before cursor with
  | zero => exact yields_fail _ _
  | succ steps induction =>
      unfold readMembers
      apply Yields.bind
      rintro ⟨key?, colon⟩ _
      cases key? with
      | none => exact yields_ok (fun member inside => known member (List.mem_reverse.mp inside)) _
      | some key =>
          dsimp only
          split
          · unfold duplicateAt
            dsimp only
            split
            · exact yields_fail _ _
            · exact yields_fail _ _
          · apply Yields.bind
            intro start _
            apply Yields.bind
            rintro ⟨value, after⟩ read
            have isGood := each key start value after read
            exact induction false (List.forall_mem_cons.mpr ⟨isGood, known⟩) after

theorem yields_readPositional {good : String → Value → Prop} {read : Form → Reader Value}
    {fields : List (String × Form)}
    (each : ∀ field ∈ fields, ∀ cursor, Yields (good field.1) (read field.2 cursor))
    (first : Bool) (cursor : Cursor) :
    Yields (fun members => ∀ member ∈ members, good member.1 member.2)
      (readPositional read first fields cursor) := by
  induction fields generalizing first cursor with
  | nil =>
      unfold readPositional
      exact .bind fun _ _ => yields_ok (fun _ none => absurd none List.not_mem_nil) _
  | cons field fields induction =>
      have both := List.forall_mem_cons.mp each
      unfold readPositional
      apply Yields.bind
      rintro ⟨more, start⟩ _
      dsimp only
      split
      · apply Yields.bind
        rintro ⟨value, after⟩ read
        apply Yields.bind
        rintro ⟨members, stop⟩ later
        have isGood := both.1 start value after read
        have areGood := induction both.2 false after members stop later
        refine yields_ok ?_ stop
        exact List.forall_mem_cons.mpr ⟨isGood, areGood⟩
      · exact yields_ok (fun _ none => absurd none List.not_mem_nil) _

/-! ## Values -/

theorem storable_readForm_kept (depth : Nat) (cursor : Cursor) :
    Yields (Storable Number.Fits depth) (readForm depth .kept cursor) := by
  induction depth generalizing cursor with
  | zero =>
      unfold readForm
      apply Yields.bind
      rintro ⟨found, after⟩ read
      cases found with
      | inl value => exact yields_ok (scalar_readScalar _ 0 _ _ read value rfl) _
      | inr container => exact yields_failAhead _ _
  | succ depth induction =>
      unfold readForm
      apply Yields.bind
      rintro ⟨found, after⟩ read
      rcases found with value | container
      · exact yields_ok (scalar_readScalar _ _ _ _ read value rfl) _
      cases container with
      | list =>
          apply Yields.bind
          rintro ⟨items, stop⟩ read
          have known : ∀ item ∈ ([] : List Value), Storable Number.Fits depth item :=
            List.forall_mem_nil _
          exact yields_ok (.array (yields_readItems induction _ _ known _ _ _ read)) _
      | object =>
          apply Yields.bind
          rintro ⟨members, stop⟩ read
          have known : ∀ member ∈ ([] : List (String × Value)),
              Storable Number.Fits depth member.2 := List.forall_mem_nil _
          have stored := yields_readMembers (fun _ => induction) _ _ known _ _ _ read
          refine yields_ok (.object (sorted_sortMembers members) fun member inside => ?_) _
          exact stored member (mem_sortMembers member inside)

theorem yields_readForm_list {good : Value → Prop} {depth : Nat} {item : Form}
    (each : ∀ cursor, Yields good (readForm depth item cursor)) (cursor : Cursor) :
    Yields (fun value => ∃ items, value = .array items ∧ ∀ item ∈ items, good item)
      (readForm (depth + 1) (.list item) cursor) := by
  unfold readForm
  apply Yields.bind
  rintro ⟨found, after⟩ read
  rcases found with value | container
  · exact yields_fail _ _
  cases container with
  | object => exact yields_fail _ _
  | list =>
      apply Yields.bind
      rintro ⟨items, stop⟩ read
      have known : ∀ item ∈ ([] : List Value), good item := List.forall_mem_nil _
      exact yields_ok ⟨items, rfl, yields_readItems each _ _ known _ _ _ read⟩ _

/-- The members of a record were read under the forms of their names, or, if the
record may be a list, under the forms in their order. -/
theorem yields_readForm_record {good : String → Value → Prop} {depth : Nat} {name : String}
    {fields : List (String × Form)} {others : Form} {positional : Bool}
    (each : ∀ key cursor, Yields (good key)
      (readForm depth ((fields.lookup key).getD others) cursor))
    (inOrder : positional = true → ∀ field ∈ fields, ∀ cursor,
      Yields (good field.1) (readForm depth field.2 cursor)) (cursor : Cursor) :
    Yields (fun value => ∃ members, value = .object members ∧
        ∀ member ∈ members, good member.1 member.2)
      (readForm (depth + 1) (.record name fields others positional) cursor) := by
  unfold readForm
  apply Yields.bind
  rintro ⟨found, after⟩ read
  rcases found with value | container
  · exact yields_fail _ _
  cases container with
  | object =>
      apply Yields.bind
      rintro ⟨members, stop⟩ read
      have known : ∀ member ∈ ([] : List (String × Value)), good member.1 member.2 :=
        List.forall_mem_nil _
      exact yields_ok ⟨members, rfl, yields_readMembers each _ _ known _ _ _ read⟩ _
  | list =>
      cases positional with
      | false => exact yields_fail _ _
      | true =>
          apply Yields.bind
          rintro ⟨members, stop⟩ read
          exact yields_ok ⟨members, rfl, yields_readPositional (inOrder rfl) _ _ _ _ read⟩ _

/-- What follows the value may only be refused; it does not change the value. -/
theorem readForm_of_read {form : Form} {text : String} {value : Value}
    (accepted : read form text = .ok value) :
    ∃ after, readForm nestingLimit form (.start text) = .ok (value, after) := by
  rcases bind_eq_ok.mp accepted with ⟨⟨found, after⟩, isRead, ended⟩
  dsimp only at ended
  split at ended
  case isTrue =>
    cases ended
    exact ⟨after, isRead⟩
  case isFalse => cases ended

end ErSchema.Json
