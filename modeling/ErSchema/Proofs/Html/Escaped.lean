import ErSchema.Listing.Html

/-! # Escaped text

Escaping replaces one character after the other in the whole text. As the ampersand
goes first, this comes to the same as writing each character by itself, and so an
escaped text can be read again from its front, whatever follows it. -/

namespace ErSchema.Html

/-- How one character is written. -/
def written (character : Char) : List Char :=
  if character = '&' then "&amp;".toList
  else if character = '<' then "&lt;".toList
  else if character = '>' then "&gt;".toList
  else if character = '"' then "&quot;".toList
  else [character]

/-- Read what stands for the four characters; an ampersand before anything else
stands for itself. -/
def unescape : List Char → List Char
  | '&' :: 'a' :: 'm' :: 'p' :: ';' :: rest => '&' :: unescape rest
  | '&' :: 'l' :: 't' :: ';' :: rest => '<' :: unescape rest
  | '&' :: 'g' :: 't' :: ';' :: rest => '>' :: unescape rest
  | '&' :: 'q' :: 'u' :: 'o' :: 't' :: ';' :: rest => '"' :: unescape rest
  | character :: rest => character :: unescape rest
  | [] => []

/-- One of the four characters, or one that is written as it is. -/
theorem special_or_plain (character : Char) :
    character = '&' ∨ character = '<' ∨ character = '>' ∨ character = '"' ∨
      (character ≠ '&' ∧ character ≠ '<' ∧ character ≠ '>' ∧ character ≠ '"' ∧
        written character = [character]) := by
  by_cases ampersand : character = '&'
  · exact .inl ampersand
  · by_cases less : character = '<'
    · exact .inr (.inl less)
    · by_cases greater : character = '>'
      · exact .inr (.inr (.inl greater))
      · by_cases quote : character = '"'
        · exact .inr (.inr (.inr (.inl quote)))
        · have plain : written character = [character] := by
            simp only [written, ampersand, less, greater, quote, if_false]
          exact .inr (.inr (.inr (.inr ⟨ampersand, less, greater, quote, plain⟩)))

/-! ## Character by character -/

theorem replace_append (target : Char) (replacement front back : List Char) :
    replace target replacement (front ++ back) =
      replace target replacement front ++ replace target replacement back :=
  List.flatMap_append

theorem escapeChars_append (front back : List Char) :
    escapeChars (front ++ back) = escapeChars front ++ escapeChars back := by
  simp only [escapeChars, replace_append]

theorem escapeChars_singleton (character : Char) :
    escapeChars [character] = written character := by
  rcases special_or_plain character with rfl | rfl | rfl | rfl |
    ⟨ampersand, less, greater, quote, plain⟩
  · decide +kernel
  · decide +kernel
  · decide +kernel
  · decide +kernel
  · simp [plain, escapeChars, replace, ampersand, less, greater, quote]

theorem escapeChars_cons (character : Char) (rest : List Char) :
    escapeChars (character :: rest) = written character ++ escapeChars rest := by
  rw [← escapeChars_singleton, ← escapeChars_append, List.singleton_append]

/-! ## Reading it again -/

theorem unescape_of_ne {character : Char} (plain : character ≠ '&') (rest : List Char) :
    unescape (character :: rest) = character :: unescape rest := by
  rw [unescape] <;> simp [plain]

theorem unescape_written (character : Char) (rest : List Char) :
    unescape (written character ++ rest) = character :: unescape rest := by
  rcases special_or_plain character with rfl | rfl | rfl | rfl | ⟨ampersand, _, _, _, plain⟩
  · rfl
  · rfl
  · rfl
  · rfl
  · rw [plain]
    exact unescape_of_ne ampersand rest

/-- An escaped text is read as the text, whatever follows. -/
theorem unescape_escapeChars (text rest : List Char) :
    unescape (escapeChars text ++ rest) = text ++ unescape rest := by
  induction text with
  | nil => rfl
  | cons character later induction =>
      rw [escapeChars_cons, List.append_assoc, unescape_written, induction, List.cons_append]

/-! ## One pass -/

/-- The four replacements, one after the other, write each character by itself. -/
theorem escapeChars_eq_flatMap (text : List Char) : escapeChars text = text.flatMap written := by
  induction text with
  | nil => rfl
  | cons character rest induction => rw [escapeChars_cons, List.flatMap_cons, induction]

/-! ## No brackets and no quotes -/

def Bracketless (text : List Char) : Prop :=
  ∀ character ∈ text, character ≠ '<' ∧ character ≠ '>'

instance (text : List Char) : Decidable (Bracketless text) :=
  List.decidableBAll _ text

theorem Bracketless.append {front back : List Char} (first : Bracketless front)
    (second : Bracketless back) : Bracketless (front ++ back) :=
  List.forall_mem_append.mpr ⟨first, second⟩

theorem not_mem_written (character : Char) :
    '<' ∉ written character ∧ '>' ∉ written character ∧ '"' ∉ written character := by
  rcases special_or_plain character with rfl | rfl | rfl | rfl | ⟨_, less, greater, quote, plain⟩
  · decide
  · decide
  · decide
  · decide
  · rw [plain]
    simp only [List.mem_singleton]
    exact ⟨Ne.symm less, Ne.symm greater, Ne.symm quote⟩

theorem not_mem_escapeChars (text : List Char) :
    '<' ∉ escapeChars text ∧ '>' ∉ escapeChars text ∧ '"' ∉ escapeChars text := by
  have absent {special : Char} (never : ∀ character, special ∉ written character) :
      special ∉ escapeChars text := by
    intro member
    rw [escapeChars_eq_flatMap] at member
    rcases List.mem_flatMap.mp member with ⟨character, _, isWritten⟩
    exact never character isWritten
  exact ⟨absent fun character => (not_mem_written character).1,
    absent fun character => (not_mem_written character).2.1,
    absent fun character => (not_mem_written character).2.2⟩

theorem bracketless_escapeChars (text : List Char) : Bracketless (escapeChars text) := by
  have absent := not_mem_escapeChars text
  intro found member
  exact ⟨fun same => absent.1 (same ▸ member), fun same => absent.2.1 (same ▸ member)⟩

/-! ## Every ampersand opens an entity -/

/-- What stands for the four characters. -/
def entities : List String := ["&amp;", "&lt;", "&gt;", "&quot;"]

theorem written_of_ampersand {character : Char} (member : '&' ∈ written character) :
    ∃ entity ∈ entities, written character = entity.toList := by
  rcases special_or_plain character with rfl | rfl | rfl | rfl | ⟨ampersand, _, _, _, plain⟩
  · exact ⟨"&amp;", by decide, rfl⟩
  · exact ⟨"&lt;", by decide, rfl⟩
  · exact ⟨"&gt;", by decide, rfl⟩
  · exact ⟨"&quot;", by decide, rfl⟩
  · rw [plain, List.mem_singleton] at member
    exact absurd member.symm ampersand

/-- An ampersand is the first of the characters that are written for one. -/
theorem not_mem_tail_written (character : Char) : '&' ∉ (written character).tail := by
  rcases special_or_plain character with rfl | rfl | rfl | rfl | ⟨_, _, _, _, plain⟩
  · decide
  · decide
  · decide
  · decide
  · rw [plain]
    exact List.not_mem_nil

theorem eq_entity_of_written {character : Char} {front others : List Char}
    (here : written character = front ++ '&' :: others) :
    ∃ entity ∈ entities, '&' :: others = entity.toList := by
  have member : '&' ∈ written character := by
    rw [here]
    exact List.mem_append_right front List.mem_cons_self
  have notLater := not_mem_tail_written character
  rcases written_of_ampersand member with ⟨entity, isEntity, equal⟩
  cases front with
  | nil => exact ⟨entity, isEntity, here.symm.trans equal⟩
  | cons first before =>
      rw [here, List.cons_append, List.tail_cons] at notLater
      exact absurd (List.mem_append_right before List.mem_cons_self) notLater

theorem exists_entity_of_split {text front back : List Char}
    (split : escapeChars text = front ++ '&' :: back) :
    ∃ entity ∈ entities, entity.toList <+: '&' :: back := by
  induction text generalizing front with
  | nil =>
      have filled := List.append_ne_nil_of_right_ne_nil front (List.cons_ne_nil '&' back)
      exact absurd split.symm filled
  | cons character rest induction =>
      rw [escapeChars_cons, List.append_eq_append_iff] at split
      -- The ampersand is written for a later character, or for this one.
      rcases split with ⟨between, _, later⟩ | ⟨others, here, later⟩
      · exact induction later
      · cases others with
        | nil =>
            have starts : escapeChars rest = [] ++ '&' :: back := later.symm
            exact induction starts
        | cons first others =>
            rcases List.cons.inj later with ⟨rfl, _⟩
            rcases eq_entity_of_written here with ⟨entity, isEntity, equal⟩
            have stands : '&' :: others <+: '&' :: back := ⟨escapeChars rest, later.symm⟩
            rw [equal] at stands
            exact ⟨entity, isEntity, stands⟩

/-! ## The whole escaped text -/

/-- Escaping writes each character by itself: the four as their entities and all others as they
are. No bracket and no quote is left, every ampersand opens an entity, and the text is read back,
so that no two texts are escaped alike. -/
theorem escape_exact (text : String) :
    (escape text).toList = text.toList.flatMap written ∧
      ('<' ∉ (escape text).toList ∧ '>' ∉ (escape text).toList ∧ '"' ∉ (escape text).toList) ∧
      (∀ front back, (escape text).toList = front ++ '&' :: back →
        ∃ entity ∈ entities, entity.toList <+: '&' :: back) ∧
      String.ofList (unescape (escape text).toList) = text ∧
      ∀ other, escape other = escape text → other = text := by
  have list (text : String) : (escape text).toList = escapeChars text.toList :=
    String.toList_ofList
  have read (text : String) : String.ofList (unescape (escape text).toList) = text := by
    have whole := unescape_escapeChars text.toList []
    rw [unescape, List.append_nil, List.append_nil] at whole
    rw [list, whole, String.ofList_toList]
  refine ⟨?_, ?_, ?_, read text, ?_⟩
  · rw [list, escapeChars_eq_flatMap]
  · rw [list]
    exact not_mem_escapeChars text.toList
  · intro front back split
    rw [list] at split
    exact exists_entity_of_split split
  · intro other same
    rw [← read other, same, read text]

end ErSchema.Html
