import ErSchema.Text.Blank
import Mathlib.Data.List.TakeWhile

/-! # Runs of characters

Readers take or skip the longest run of characters of a kind, so a run is read in
full only where the text behind it starts differently. Trimming skips the runs of
blanks at both ends, and what it leaves is the only part between blanks that has
none at an end of its own. -/

namespace ErSchema.Text

/-! ## One run -/

/-- A run of the characters that are accepted does not go on here. -/
def Stops (accepts : Char → Bool) (rest : List Char) : Prop :=
  ∀ character ∈ rest.head?, accepts character = false

section
variable {accepts : Char → Bool} {run rest : List Char}

theorem stops_nil : Stops accepts [] := by
  intro character isHead
  cases isHead

theorem stops_cons {character : Char} (refused : accepts character = false) :
    Stops accepts (character :: rest) := by
  intro head isHead
  cases isHead
  exact refused

theorem stops_of_append (stops : Stops accepts (run ++ rest)) : Stops accepts run := by
  cases run with
  | nil => exact stops_nil
  | cons character others => exact stops_cons (stops character rfl)

theorem stops_dropWhile (text : List Char) : Stops accepts (text.dropWhile accepts) := by
  intro character isHead
  have refused := List.head?_dropWhile_not accepts text
  rwa [Option.mem_def.mp isHead] at refused

variable (accepted : ∀ character ∈ run, accepts character = true) (stops : Stops accepts rest)
include accepted stops

theorem takeWhile_run : (run ++ rest).takeWhile accepts = run := by
  rw [List.takeWhile_append_of_pos accepted]
  cases rest with
  | nil => exact List.append_nil run
  | cons character others =>
      rw [List.takeWhile_cons_of_neg (by simp [stops character rfl]), List.append_nil]

theorem dropWhile_run : (run ++ rest).dropWhile accepts = rest := by
  rw [List.dropWhile_append_of_pos accepted]
  cases rest with
  | nil => rfl
  | cons character others => rw [List.dropWhile_cons_of_neg (by simp [stops character rfl])]

end

/-! ## Trimming -/

/-- The part of a text that stands between blanks and has none at its ends. -/
structure TrimsTo (text core : List Char) : Prop where
  between : ∃ front back, text = front ++ (core ++ back) ∧
    (∀ character ∈ front, isBlank character = true) ∧
    ∀ character ∈ back, isBlank character = true
  starts : Stops isBlank core
  ends : Stops isBlank core.reverse

section
variable {text core : List Char}

theorem TrimsTo.trimBlanks_eq (trims : TrimsTo text core) : trimBlanks text = core := by
  rcases trims with ⟨⟨front, back, rfl, blankFront, blankBack⟩, starts, ends⟩
  have blankReverse : ∀ character ∈ back.reverse, isBlank character = true :=
    fun character member => blankBack character (List.mem_reverse.mp member)
  rw [trimBlanks]
  cases core with
  | nil =>
      -- Nothing is left, so the blanks at the two ends are one run.
      have blank : ∀ character ∈ front ++ back, isBlank character = true :=
        List.forall_mem_append.mpr ⟨blankFront, blankBack⟩
      rw [List.nil_append, List.dropWhile_eq_nil_iff.mpr blank]
      rfl
  | cons first rest =>
      have starts : Stops isBlank (first :: rest ++ back) := stops_cons (starts first rfl)
      rw [dropWhile_run blankFront starts, List.reverse_append,
        dropWhile_run blankReverse ends, List.reverse_reverse]

/-- A text without blanks at its ends is trimmed already. -/
theorem trimsTo_self (starts : Stops isBlank text) (ends : Stops isBlank text.reverse) :
    TrimsTo text text :=
  ⟨⟨[], [], by simp, List.forall_mem_nil _, List.forall_mem_nil _⟩, starts, ends⟩

theorem trimsTo_trimBlanks (text : List Char) : TrimsTo text (trimBlanks text) := by
  let started := text.dropWhile isBlank
  let ending := (started.reverse.takeWhile isBlank).reverse
  have core : trimBlanks text ++ ending = started := by
    rw [trimBlanks, ← List.reverse_append, List.takeWhile_append_dropWhile,
      List.reverse_reverse]
  have whole : text = text.takeWhile isBlank ++ (trimBlanks text ++ ending) := by
    rw [core, List.takeWhile_append_dropWhile]
  refine ⟨⟨_, _, whole, ?_, ?_⟩, ?_, ?_⟩
  · exact fun character member => List.mem_takeWhile_imp member
  · exact fun character member => List.mem_takeWhile_imp (List.mem_reverse.mp member)
  · -- Dropping the end uncovers no blank at the start.
    have front : Stops isBlank started := stops_dropWhile text
    rw [← core] at front
    exact stops_of_append front
  · rw [trimBlanks, List.reverse_reverse]
    exact stops_dropWhile started.reverse

theorem trimBlanks_trimBlanks (text : List Char) :
    trimBlanks (trimBlanks text) = trimBlanks text :=
  have trims := trimsTo_trimBlanks text
  (trimsTo_self trims.starts trims.ends).trimBlanks_eq

end

def Trimmed (text : String) : Prop := trim text = text

theorem trimmed_trim (text : String) : Trimmed (trim text) := by
  rw [Trimmed, trim, trim, String.toList_ofList, trimBlanks_trimBlanks]

end ErSchema.Text
