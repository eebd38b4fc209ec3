import ErSchema.Json.Form
import ErSchema.Json.Printer
import ErSchema.Proofs.Digits
import Mathlib.Data.List.Basic

/-! # Reading words and strings back

What is written is read again wherever it stands. Only the value and the rest of
the text matter; the place is for messages. -/

namespace ErSchema.Json

/-- The reader takes the value from the text and leaves what follows. -/
def Reads {α : Type} (reader : Reader α) (text : List Char) (value : α) (rest : List Char) :
    Prop :=
  ∀ position, ∃ after, reader ⟨text ++ rest, position⟩ = .ok (value, ⟨rest, after⟩)

theorem bind_eq_ok {ε α β : Type} {result : Except ε α} {next : α → Except ε β} {value : β} :
    result.bind next = .ok value ↔ ∃ first, result = .ok first ∧ next first = .ok value := by
  cases result <;> simp [Except.bind]

theorem map_eq_ok {ε α β : Type} {result : Except ε α} {change : α → β} {value : β} :
    result.map change = .ok value ↔ ∃ first, result = .ok first ∧ change first = value := by
  cases result <;> simp [Except.map]

/-! ## Blanks -/

namespace Cursor

theorem skipWhileFrom_append {accepts : Char → Bool} {front rest : List Char}
    (accepted : ∀ character ∈ front, accepts character = true)
    (stops : ∀ character, rest.head? = some character → accepts character = false)
    (position : Position) :
    ∃ after, skipWhileFrom accepts position (front ++ rest) = ⟨rest, after⟩ := by
  induction front generalizing position with
  | nil =>
      cases rest with
      | nil => exact ⟨position, rfl⟩
      | cons character others =>
          refine ⟨position, ?_⟩
          rw [List.nil_append, skipWhileFrom, stops character rfl]
          rfl
  | cons character others induction =>
      have both := List.forall_mem_cons.mp accepted
      rcases induction both.2 (position.after character) with ⟨after, equal⟩
      refine ⟨after, ?_⟩
      rw [List.cons_append, skipWhileFrom, if_pos both.1, equal]

theorem skipBlanks_of_not_blank {character : Char} (plain : isBlank character = false)
    (rest : List Char) (position : Position) :
    skipBlanks ⟨character :: rest, position⟩ = ⟨character :: rest, position⟩ := by
  simp [skipBlanks, skipWhile, skipWhileFrom, plain]

theorem skipBlanks_lineBreak (level : Nat) {character : Char}
    (plain : isBlank character = false) (rest : List Char) (position : Position) :
    ∃ after, skipBlanks ⟨lineBreak level ++ character :: rest, position⟩ =
      ⟨character :: rest, after⟩ := by
  refine skipWhileFrom_append (fun blank member => ?_) (fun head isHead => ?_) position
  · rcases List.mem_cons.mp member with rfl | space
    · decide
    · rw [List.eq_of_mem_replicate space]
      decide
  · rwa [← Option.some.inj isHead]

end Cursor

/-! ## Words -/

theorem readWord_append (letters rest : List Char) (position : Position) :
    ∃ after, readWord letters ⟨letters ++ rest, position⟩ = .ok ⟨rest, after⟩ := by
  induction letters generalizing position with
  | nil => exact ⟨position, rfl⟩
  | cons letter letters induction =>
      rcases induction (position.after letter) with ⟨after, equal⟩
      refine ⟨after, ?_⟩
      simpa [readWord, Cursor.peek?, Cursor.skip] using equal

/-! ## Strings -/

theorem hexQuad?_hexDigits : ∀ code < 32,
    hexQuad? '0' '0' (hexDigit (code / 16)) (hexDigit (code % 16)) = some code := by
  decide +kernel

theorem le_foldl_utf8Size (text : List Char) (start : Nat) :
    start + text.length ≤ text.foldl (fun count character => count + character.utf8Size) start := by
  induction text generalizing start with
  | nil => exact Nat.le_refl start
  | cons character rest induction =>
      have later := induction (start + character.utf8Size)
      have positive := character.utf8Size_pos
      simp only [List.length_cons, List.foldl_cons]
      omega

theorem readQuad_of_hexQuad? {first second third fourth : Char} {code : Nat}
    (digits : hexQuad? first second third fourth = some code) (rest : List Char)
    (position : Position) :
    ∃ after, readQuad ⟨first :: second :: third :: fourth :: rest, position⟩ =
      .ok (code, ⟨rest, after⟩) := by
  have bytes := le_foldl_utf8Size (first :: second :: third :: fourth :: rest) 0
  simp only [List.length_cons] at bytes
  have enough : ¬(first :: second :: third :: fourth :: rest).foldl
      (fun count character => count + character.utf8Size) 0 < 4 := by omega
  let after := (((position.after first).after second).after third).after fourth
  refine ⟨after, ?_⟩
  unfold readQuad
  simp only [enough, if_false, digits]
  rfl

theorem readUnicodeEscape_control {character : Char} (control : character.toNat < 32)
    (rest : List Char) (position : Position) :
    ∃ after, readUnicodeEscape ⟨'0' :: '0' :: hexDigit (character.toNat / 16) ::
        hexDigit (character.toNat % 16) :: rest, position⟩ =
      .ok (character, ⟨rest, after⟩) := by
  rcases readQuad_of_hexQuad? (hexQuad?_hexDigits character.toNat control) rest position with
    ⟨after, quad⟩
  have trailing : isTrailing character.toNat = false := by
    simp only [isTrailing, Bool.and_eq_false_iff, decide_eq_false_iff_not]
    omega
  have leading : isLeading character.toNat = false := by
    simp only [isLeading, Bool.and_eq_false_iff, decide_eq_false_iff_not]
    omega
  refine ⟨after, ?_⟩
  rw [readUnicodeEscape, quad]
  simp [trailing, leading, Char.ofNat_toNat, bind, Except.bind]

/-- One character, however it is written, is read in one step. -/
theorem readChars_escapeChar (character : Char) (steps : Nat) (read rest : List Char)
    (position : Position) :
    ∃ after, readChars (steps + 1) read ⟨escapeChar character ++ rest, position⟩ =
      readChars steps (character :: read) ⟨rest, after⟩ := by
  unfold escapeChar
  split
  case h_8 =>
    split
    case isTrue control =>
      let inside := ((position.after '\\').after 'u')
      rcases readUnicodeEscape_control control rest inside with ⟨after, escape⟩
      refine ⟨after, ?_⟩
      have escaped : readEscape ⟨'u' :: '0' :: '0' :: hexDigit (character.toNat / 16) ::
          hexDigit (character.toNat % 16) :: rest, position.after '\\'⟩ =
            .ok (character, ⟨rest, after⟩) := escape
      change (readEscape ⟨'u' :: '0' :: '0' :: hexDigit (character.toNat / 16) ::
        hexDigit (character.toNat % 16) :: rest, position.after '\\'⟩).bind
          (fun found => readChars steps (found.1 :: read) found.2) = _
      rw [escaped]
      rfl
    case isFalse plain =>
      refine ⟨position.after character, ?_⟩
      simp [readChars, Cursor.peek?, Cursor.skip, plain]
  all_goals exact ⟨_, rfl⟩

theorem readChars_text (text : List Char) {steps : Nat} (enough : text.length < steps)
    (read rest : List Char) (position : Position) :
    ∃ after, readChars steps read ⟨text.flatMap escapeChar ++ '"' :: rest, position⟩ =
      .ok (text.reverse ++ read, ⟨rest, after⟩) := by
  -- Every character takes one step, so the steps to spare stay the same.
  rcases Nat.exists_eq_add_of_lt enough with ⟨spare, rfl⟩
  clear enough
  induction text generalizing position read with
  | nil => exact ⟨_, rfl⟩
  | cons character text induction =>
      have steps : (character :: text).length + spare + 1 = text.length + spare + 1 + 1 := by
        simp only [List.length_cons]
        omega
      rw [steps]
      rcases readChars_escapeChar character (text.length + spare + 1) read
        (text.flatMap escapeChar ++ '"' :: rest) position with ⟨next, first⟩
      rcases induction (character :: read) next with ⟨after, others⟩
      refine ⟨after, ?_⟩
      rw [List.flatMap_cons, List.append_assoc, first, others]
      simp

theorem escapeChar_ne_nil (character : Char) : escapeChar character ≠ [] := by
  unfold escapeChar
  split
  case h_8 => split <;> simp
  all_goals simp

theorem length_le_flatMap_escapeChar (text : List Char) :
    text.length ≤ (text.flatMap escapeChar).length := by
  induction text with
  | nil => exact Nat.le_refl 0
  | cons character rest induction =>
      have positive := List.length_pos_of_ne_nil (escapeChar_ne_nil character)
      simp only [List.length_cons, List.flatMap_cons, List.length_append]
      omega

/-- A text in quotes, after the opening one. -/
theorem reads_string (text : String) (rest : List Char) :
    Reads readString (text.toList.flatMap escapeChar ++ ['"']) text rest := by
  intro position
  let written := text.toList.flatMap escapeChar ++ '"' :: rest
  have enough : text.toList.length < written.length + 1 := by
    have escaped := length_le_flatMap_escapeChar text.toList
    simp only [written, List.length_append]
    omega
  rcases readChars_text text.toList enough [] rest position with ⟨after, equal⟩
  refine ⟨after, ?_⟩
  rw [List.append_assoc]
  change (readChars (written.length + 1) [] ⟨written, position⟩).bind
    (fun found => .ok (String.ofList found.1.reverse, found.2)) = _
  rw [equal]
  simp [Except.bind]

end ErSchema.Json
