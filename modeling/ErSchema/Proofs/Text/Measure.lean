import ErSchema.Text.Width

/-! # Widths add up at a blank

A character may join what follows it, but nothing joins a blank, so a text in front
of one is as wide as it is alone. Some sequences give back a column that their last
character took; what is given back was taken before, and no text comes below zero. -/

namespace ErSchema.Text

/-! ## Columns that are given back -/

/-- The columns that a character in front of this may give back. -/
def Following.credit : Following → Int
  | .khmerLetter | .tifinaghJoiner | .joinedRegional | .joinedOdd => 1
  | _ => 0

theorem Following.credit_nonneg (following : Following) : 0 ≤ following.credit := by
  unfold credit
  split <;> decide

theorem Following.credit_le_one (following : Following) : following.credit ≤ 1 := by
  unfold credit
  split <;> decide

/-- With so many columns taken, the character leaves what may be given back before it. -/
def Covers (taken : Int) (result : Int × Context) : Prop :=
  result.2.following.credit ≤ taken + result.1

instance (taken : Int) (result : Int × Context) : Decidable (Covers taken result) :=
  inferInstanceAs (Decidable (_ ≤ _))

namespace Covers

theorem of_zero {taken : Int} (nonneg : 0 ≤ taken) {result : Int × Context}
    (covers : Covers 0 result) : Covers taken result := by
  unfold Covers at covers ⊢
  omega

theorem ite {taken : Int} {condition : Prop} [Decidable condition] {first second : Int × Context}
    (whenTrue : Covers taken first) (whenFalse : Covers taken second) :
    Covers taken (if condition then first else second) := by
  split
  · exact whenTrue
  · exact whenFalse

theorem one (following : Following) : Covers 0 (1, .of following) :=
  following.credit_le_one

end Covers

theorem covers_aloneWidth (code : Nat) : Covers 0 (aloneWidth code) := by
  unfold aloneWidth
  repeat' apply Covers.ite
  all_goals first | exact Covers.one _ | decide

theorem covers_sequenceWidth {code : Nat} {following next : Following} {width : Int}
    (found : sequenceWidth? code following = some (width, next)) :
    Covers following.credit (width, .of next) := by
  change next.credit ≤ following.credit + width
  fun_cases sequenceWidth? code following <;> grind [Following.credit, sequenceWidth?]

theorem covers_selectorWidth {code : Nat} {context : Context} {result : Int × Context}
    (found : selectorWidth? code context = some result) :
    Covers context.following.credit result := by
  have kept (selector : Selector) (passes : Bool) : Covers context.following.credit
      (0, ⟨some selector, if passes then context.following else .nothing⟩) := by
    have nonneg := context.following.credit_nonneg
    cases passes with
    | true => exact Int.le_of_eq (Int.add_zero _).symm
    | false => exact Covers.of_zero nonneg (Int.le_refl 0)
  unfold selectorWidth? at found
  split at found
  · cases found
    exact kept _ _
  · split at found
    · cases found
      exact kept _ _
    · cases found

theorem covers_ligatureWidth {code : Nat} {following next : Following} {width : Int}
    (found : ligatureWidth? code following = some (width, next)) :
    Covers following.credit (width, .of next) := by
  change next.credit ≤ following.credit + width
  fun_cases ligatureWidth? code following <;> grind [Following.credit, ligatureWidth?]

theorem covers_widthBefore (character : Char) (context : Context) :
    Covers context.following.credit (widthBefore character context) := by
  have nonneg := context.following.credit_nonneg
  have alone := (covers_aloneWidth character.toNat).of_zero nonneg
  unfold widthBefore
  dsimp only
  apply Covers.ite
  · cases context.following.isJoined <;> exact Covers.of_zero nonneg (by decide)
  apply Covers.ite
  · exact Covers.of_zero nonneg (by decide)
  apply Covers.ite
  · exact Covers.of_zero nonneg (by decide)
  apply Covers.ite alone
  split
  · exact covers_selectorWidth ‹_›
  split
  · exact covers_ligatureWidth ‹_›
  split
  · exact covers_sequenceWidth ‹_›
  · exact alone

/-- No text takes less than what may be given back before it. -/
theorem credit_le_measure (text : List Char) :
    (measure text).2.following.credit ≤ (measure text).1 := by
  induction text with
  | nil => decide
  | cons character rest induction =>
      have covers := covers_widthBefore character (measure rest).2
      unfold Covers at covers
      change (widthBefore character (measure rest).2).2.following.credit ≤
        (measure rest).1 + (widthBefore character (measure rest).2).1
      omega

theorem measure_nonneg (text : List Char) : 0 ≤ (measure text).1 :=
  Int.le_trans (Following.credit_nonneg _) (credit_le_measure text)

/-! ## Blanks -/

theorem widthBefore_blank (context : Context) : widthBefore ' ' context = (1, .start) := by
  have base : isVariationBase 32 = false := by decide
  have narrow : hasNarrowForm 32 = false := by decide
  have alone : aloneWidth 32 = (1, .start) := by decide
  simp [widthBefore, base, narrow, alone]

theorem measure_cons (character : Char) (rest : List Char) :
    measure (character :: rest) =
      ((measure rest).1 + (widthBefore character (measure rest).2).1,
        (widthBefore character (measure rest).2).2) :=
  rfl

/-- In front of something that leaves no trace, a text measures what it measures alone. -/
theorem measure_append {rest : List Char} (closed : (measure rest).2 = .start)
    (text : List Char) :
    measure (text ++ rest) = ((measure text).1 + (measure rest).1, (measure text).2) := by
  induction text with
  | nil => exact Prod.ext (Int.zero_add _).symm closed
  | cons character text induction =>
      rw [List.cons_append, measure_cons, induction, measure_cons]
      exact Prod.ext (Int.add_right_comm _ _ _) rfl

theorem measure_blank (rest : List Char) :
    measure (' ' :: rest) = ((measure rest).1 + 1, .start) := by
  rw [measure_cons, widthBefore_blank]

theorem displayWidth_append (text : String) {rest : List Char}
    (closed : (measure rest).2 = .start) :
    displayWidth (text ++ String.ofList rest) = displayWidth text + (measure rest).1.toNat := by
  rw [displayWidth, String.toList_append, String.toList_ofList, measure_append closed,
    Int.toNat_add (measure_nonneg _) (measure_nonneg _)]
  rfl

/-! ## Lines of one width -/

/-- A character that takes one column when nothing after it changes its form. -/
def Single (character : Char) : Prop :=
  widthBefore character .start = (1, .start)

instance (character : Char) : Decidable (Single character) :=
  inferInstanceAs (Decidable (_ = _))

/-- A text with a column for each character. -/
def Singles (text : List Char) : Prop :=
  ∀ character ∈ text, Single character

instance (text : List Char) : Decidable (Singles text) :=
  List.decidableBAll _ text

theorem measure_of_single {text : List Char} (single : Singles text) :
    measure text = ((text.length : Int), Context.start) := by
  induction text with
  | nil => rfl
  | cons character rest induction =>
      obtain ⟨first, others⟩ := List.forall_mem_cons.mp single
      rw [measure_cons, induction others, first]
      rfl

theorem displayWidth_padRight (text : String) (width : Nat) :
    displayWidth (padRight text width) = max width (displayWidth text) := by
  have blanks : measure (List.replicate (width - displayWidth text) ' ') =
      (((width - displayWidth text : Nat) : Int), Context.start) := by
    rw [measure_of_single, List.length_replicate]
    intro character member
    rw [List.eq_of_mem_replicate member]
    exact widthBefore_blank .start
  rw [padRight, displayWidth_append text (congrArg Prod.snd blanks), blanks, Int.toNat_natCast]
  omega

theorem maxWidth_cons (line : String) (rest : List String) :
    maxWidth (line :: rest) = max (displayWidth line) (maxWidth rest) := by
  rw [maxWidth, List.foldl_cons, Nat.max_comm, ← List.foldl_map, List.foldl_assoc, List.foldl_map]
  rfl

theorem displayWidth_le_maxWidth {lines : List String} {line : String} (member : line ∈ lines) :
    displayWidth line ≤ maxWidth lines := by
  induction lines with
  | nil => exact absurd member List.not_mem_nil
  | cons first rest induction =>
      rw [maxWidth_cons]
      rcases List.mem_cons.mp member with rfl | later
      · exact Nat.le_max_left _ _
      · exact Nat.le_trans (induction later) (Nat.le_max_right _ _)

end ErSchema.Text
