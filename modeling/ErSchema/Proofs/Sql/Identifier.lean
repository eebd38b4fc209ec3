import ErSchema.Listing.Sql

/-! # Identifiers

An identifier is made of the words of a name, joined by underscores, so there is
no blank in it: every blank of a script was put there by the script itself. Names
that are told apart by their blanks only have the same identifier; a name without
any is its own. -/

namespace ErSchema

namespace Text

/-- A text without blank characters. -/
def Unbroken (text : List Char) : Prop :=
  ∀ character ∈ text, isBlank character = false

instance (text : List Char) : Decidable (Unbroken text) :=
  List.decidableBAll _ text

theorem Unbroken.not_mem {text : List Char} (unbroken : Unbroken text) {blank : Char}
    (isBlank : isBlank blank = true) : blank ∉ text := by
  intro member
  have solid := unbroken blank member
  rw [isBlank] at solid
  cases solid

theorem Unbroken.append {front back : List Char} (first : Unbroken front)
    (second : Unbroken back) : Unbroken (front ++ back) := by
  intro character member
  rcases List.mem_append.mp member with early | late
  · exact first character early
  · exact second character late

theorem words_blank {character : Char} (blank : isBlank character = true) (rest : List Char) :
    words (character :: rest) = words rest := by
  rw [words.eq_def]
  exact if_pos blank

theorem words_solid {character : Char} (solid : isBlank character = false) (rest : List Char) :
    words (character :: rest) =
      match rest, words rest with
      | next :: _, word :: others =>
          if isBlank next then [character] :: word :: others
          else (character :: word) :: others
      | _, others => [character] :: others := by
  have notBlank : ¬ isBlank character = true := Bool.eq_false_iff.mp solid
  rw [words.eq_def]
  exact if_neg notBlank

/-- No word holds a blank. -/
theorem unbroken_of_mem_words {text word : List Char} (member : word ∈ words text) :
    Unbroken word := by
  induction text generalizing word with
  | nil => cases member
  | cons character rest induction =>
      cases blank : isBlank character with
      | true =>
          rw [words_blank blank] at member
          exact induction member
      | false =>
          have single : Unbroken [character] := List.forall_mem_singleton.mpr blank
          rw [words_solid blank] at member
          split at member
          case h_1 next after found others split =>
            rw [split] at induction
            split at member
            · cases member with
              | head => exact single
              | tail _ later => exact induction later
            · cases member with
              | head => exact single.append (induction List.mem_cons_self)
              | tail _ later => exact induction (List.mem_cons_of_mem _ later)
          case h_2 =>
            cases member with
            | head => exact single
            | tail _ later => exact induction later

/-- Cutting a text into words loses nothing but its blanks. -/
theorem flatten_words (text : List Char) :
    (words text).flatten = text.filter fun character => !isBlank character := by
  induction text with
  | nil => rfl
  | cons character rest induction =>
      cases blank : isBlank character with
      | true => rw [words_blank blank, induction, List.filter_cons_of_neg (by simp [blank])]
      | false =>
          rw [words_solid blank, List.filter_cons_of_pos (by simp [blank]), ← induction]
          split
          case h_1 _ _ word others found =>
            rw [found]
            split
            case isTrue => rfl
            case isFalse => rfl
          case h_2 => rfl

/-- A text without blanks is one word, unless it is empty. -/
theorem words_of_unbroken {character : Char} {rest : List Char}
    (unbroken : Unbroken (character :: rest)) :
    words (character :: rest) = [character :: rest] := by
  induction rest generalizing character with
  | nil => exact words_solid (unbroken character List.mem_cons_self) []
  | cons next rest induction =>
      have both := List.forall_mem_cons.mp unbroken
      rw [words_solid both.1, induction both.2]
      exact if_neg (Bool.eq_false_iff.mp (both.2 next List.mem_cons_self))

end Text

namespace Sql

open Text (Unbroken)

theorem toList_identifier (name : String) :
    (identifier name).toList = ['_'].intercalate (Text.words name.toList) := by
  rw [identifier, String.toList_intercalate, List.map_map]
  congr 1
  exact (List.map_congr_left fun _ _ => String.toList_ofList).trans (List.map_id _)

theorem forall_mem_intercalate {holds : Char → Prop} {separator : List Char}
    (between : ∀ character ∈ separator, holds character) {parts : List (List Char)}
    (each : ∀ part ∈ parts, ∀ character ∈ part, holds character) :
    ∀ character ∈ separator.intercalate parts, holds character := by
  induction parts with
  | nil => exact nofun
  | cons part rest induction =>
      have both := List.forall_mem_cons.mp each
      cases rest with
      | nil =>
          rw [List.intercalate_singleton]
          exact both.1
      | cons next others =>
          rw [List.intercalate_cons_cons]
          exact List.forall_mem_append.mpr
            ⟨List.forall_mem_append.mpr ⟨both.1, between⟩, induction both.2⟩

theorem sublist_intercalate (separator : List Char) (parts : List (List Char)) :
    parts.flatten.Sublist (separator.intercalate parts) := by
  induction parts with
  | nil => exact .refl []
  | cons part rest induction =>
      cases rest with
      | nil =>
          simp only [List.intercalate_singleton, List.flatten_singleton, List.Sublist.refl]
      | cons next others =>
          rw [List.intercalate_cons_cons, List.flatten_cons]
          exact (List.sublist_append_left part separator).append induction

/-- Every character that is not blank stays. -/
theorem sublist_identifier (name : String) :
    (name.toList.filter fun character => !Text.isBlank character).Sublist
      (identifier name).toList := by
  rw [toList_identifier, ← Text.flatten_words]
  exact sublist_intercalate _ _

theorem unbroken_identifier (name : String) : Unbroken (identifier name).toList := by
  rw [toList_identifier]
  apply forall_mem_intercalate
  · exact List.forall_mem_singleton.mpr rfl
  · exact fun word => Text.unbroken_of_mem_words

theorem identifier_of_unbroken {name : String} (unbroken : Unbroken name.toList) :
    identifier name = name := by
  apply String.toList_injective
  rw [toList_identifier]
  cases text : name.toList with
  | nil => rfl
  | cons character rest =>
      rw [text] at unbroken
      rw [Text.words_of_unbroken unbroken, List.intercalate_singleton]

/-- Both columns would be declared as `order_line`. -/
example : identifier "order \t line" = identifier "order_line" := by decide +kernel

end Sql

end ErSchema
