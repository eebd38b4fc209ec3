import ErSchema.Proofs.Sql.Script
import Mathlib

/-! # Constraint clauses in the text

A phrase such as `PRIMARY KEY` has one blank in it and no punctuation. So a statement
can be cut at its punctuation and at its line breaks without losing an occurrence, and
in a piece the blanks tell where the phrase may be: no identifier has a blank, and of
what stands around the blanks of a statement only the two openings fit. -/

namespace ErSchema

namespace Text

/-! ## Counting occurrences -/

/-- The number of places where the pattern stands in a text. -/
def occurrences (pattern : List Char) : List Char → Nat
  | [] => 0
  | character :: rest =>
      occurrences pattern rest + if pattern <+: character :: rest then 1 else 0

example : occurrences "an".toList "banana".toList = 2 := by decide +kernel

section
variable {pattern : List Char}

theorem occurrences_cons (pattern : List Char) (character : Char) (rest : List Char) :
    occurrences pattern (character :: rest) =
      occurrences pattern rest + if pattern <+: character :: rest then 1 else 0 :=
  rfl

theorem occurrences_eq_zero_iff (nonempty : pattern ≠ []) {text : List Char} :
    occurrences pattern text = 0 ↔ ¬ pattern <:+: text := by
  induction text with
  | nil => simp [occurrences, nonempty]
  | cons character rest induction =>
      rw [occurrences_cons, Nat.add_eq_zero_iff, induction, List.infix_cons_iff, not_or]
      by_cases starts : pattern <+: character :: rest <;> simp [starts]

/-- A character that the pattern does not have ends what may start before it. -/
theorem prefix_append_cons_iff {separator : Char} (apart : separator ∉ pattern)
    (front back : List Char) : pattern <+: front ++ separator :: back ↔ pattern <+: front := by
  constructor
  · intro starts
    by_cases fits : pattern.length ≤ front.length
    · exact List.prefix_of_prefix_length_le starts (List.prefix_append _ _) fits
    · have within : front ++ [separator] <+: front ++ separator :: back :=
        (List.prefix_append_right_inj front).mpr (List.prefix_append [separator] back)
      have longer : (front ++ [separator]).length ≤ pattern.length := by
        rw [List.length_append, List.length_singleton]
        omega
      have reaches := List.prefix_of_prefix_length_le within starts longer
      exact absurd (reaches.subset (List.mem_append_right _ List.mem_cons_self)) apart
  · exact fun starts => starts.trans (List.prefix_append _ _)

theorem occurrences_append_cons {separator : Char} (nonempty : pattern ≠ [])
    (apart : separator ∉ pattern) (front back : List Char) :
    occurrences pattern (front ++ separator :: back) =
      occurrences pattern front + occurrences pattern back := by
  induction front with
  | nil =>
      have later : ¬ pattern <+: separator :: back := by
        intro starts
        have early := (prefix_append_cons_iff apart [] back).mp starts
        exact nonempty (List.prefix_nil.mp early)
      rw [List.nil_append, occurrences_cons, if_neg later, occurrences, Nat.add_zero,
        Nat.zero_add]
  | cons character rest induction =>
      have same : pattern <+: character :: (rest ++ separator :: back) ↔
          pattern <+: character :: rest :=
        prefix_append_cons_iff apart (character :: rest) back
      rw [List.cons_append, occurrences_cons, occurrences_cons, induction]
      simp only [same]
      omega

theorem suffix_append_cons {separator : Char} (apart : separator ∉ pattern)
    {front back : List Char} (ends : pattern <:+ front ++ separator :: back) :
    pattern <:+ back := by
  have reversed : pattern.reverse <+: back.reverse ++ separator :: front.reverse := by
    simpa using List.reverse_prefix.mpr ends
  have apartReversed : separator ∉ pattern.reverse := mt List.mem_reverse.mp apart
  exact List.reverse_prefix.mp ((prefix_append_cons_iff apartReversed _ _).mp reversed)

/-- A pattern with one blank stands before a blank of the text, after it or around it. -/
theorem infix_append_blank {first last front back : List Char} (solidFirst : ' ' ∉ first)
    (solidLast : ' ' ∉ last) (stands : first ++ ' ' :: last <:+: front ++ ' ' :: back) :
    first ++ ' ' :: last <:+: front ∨ first ++ ' ' :: last <:+: back ∨
      (first <:+ front ∧ last <+: back) := by
  obtain ⟨before, after, split⟩ := stands
  have sides : (before ++ first) ++ ' ' :: (last ++ after) = front ++ ' ' :: back := by
    rw [← split]
    simp only [List.append_assoc, List.cons_append]
  -- The blank of the pattern is the one between the parts, or one in front of it or behind.
  rcases List.append_eq_append_iff.mp sides with
    ⟨between, inFront, rest⟩ | ⟨between, inBack, rest⟩
  · cases between with
    | nil =>
        have same : last ++ after = back := (List.cons.inj rest).2
        exact .inr (.inr ⟨⟨before, by simpa using inFront.symm⟩, ⟨after, same⟩⟩)
    | cons character between =>
        obtain ⟨rfl, within⟩ := List.cons.inj rest
        have starts : last <+: between ++ ' ' :: back := ⟨after, within⟩
        obtain ⟨more, rfl⟩ := (prefix_append_cons_iff solidLast _ _).mp starts
        exact .inl ⟨before, more, by simp [inFront]⟩
  · cases between with
    | nil =>
        have same : back = last ++ after := (List.cons.inj rest).2
        exact .inr (.inr ⟨⟨before, by simpa using inBack⟩, ⟨after, same.symm⟩⟩)
    | cons character between =>
        obtain ⟨rfl, within⟩ := List.cons.inj rest
        have ends : first <:+ front ++ ' ' :: between := ⟨before, inBack⟩
        obtain ⟨more, rfl⟩ := suffix_append_cons solidFirst ends
        exact .inr (.inl ⟨more, after, by simp [within]⟩)

end

end Text

namespace Sql

open Text (Unbroken occurrences)

/-! ## The two phrases -/

inductive Keyword where
  | primary
  | foreign
  deriving DecidableEq, Repr

namespace Keyword

def word : Keyword → List Char
  | .primary => "PRIMARY".toList
  | .foreign => "FOREIGN".toList

def phrase (keyword : Keyword) : List Char :=
  keyword.word ++ ' ' :: "KEY".toList

/-- Where a statement can be cut. -/
def cuts : List Char := ['(', ')', ',', '\n']

variable (keyword : Keyword)

theorem phrase_ne_nil : keyword.phrase ≠ [] := by
  cases keyword <;> decide +kernel

theorem occurrences_cut {separator : Char} (isCut : separator ∈ cuts) (front back : List Char) :
    occurrences keyword.phrase (front ++ separator :: back) =
      occurrences keyword.phrase front + occurrences keyword.phrase back := by
  have apart : (cuts.all fun separator => separator ∉ keyword.phrase) = true := by
    cases keyword <;> decide +kernel
  have isApart := of_decide_eq_true (List.all_eq_true.mp apart separator isCut)
  exact Text.occurrences_append_cons keyword.phrase_ne_nil isApart front back

theorem occurrences_unbroken {text : List Char} (unbroken : Unbroken text) :
    occurrences keyword.phrase text = 0 := by
  apply (Text.occurrences_eq_zero_iff keyword.phrase_ne_nil).mpr
  intro stands
  have blank : ' ' ∈ keyword.phrase := List.mem_append_right _ List.mem_cons_self
  exact unbroken.not_mem (by decide) (stands.subset blank)

/-- Two pieces without the phrase have none at the blank between them unless both fit. -/
theorem occurrences_blank {front back : List Char}
    (inFront : occurrences keyword.phrase front = 0)
    (behind : occurrences keyword.phrase back = 0)
    (seam : ¬ (keyword.word <:+ front ∧ "KEY".toList <+: back)) :
    occurrences keyword.phrase (front ++ ' ' :: back) = 0 := by
  rw [Text.occurrences_eq_zero_iff keyword.phrase_ne_nil] at inFront behind ⊢
  intro stands
  have solid : ' ' ∉ keyword.word := by cases keyword <;> decide +kernel
  rcases Text.infix_append_blank solid (by decide) stands with early | late | around
  · exact inFront early
  · exact behind late
  · exact seam around

theorem occurrences_blank_cons (rest : List Char) :
    occurrences keyword.phrase (' ' :: rest) = occurrences keyword.phrase rest := by
  have later : ¬ keyword.phrase <+: ' ' :: rest := by
    cases keyword <;> exact fun starts => absurd (List.cons_prefix_cons.mp starts).1 (by decide)
  rw [Text.occurrences_cons, if_neg later, Nat.add_zero]

end Keyword

/-! ## Clauses -/

theorem sum_map_eq_countP {α : Type} {holds : α → Bool} {count : α → Nat} {members : List α}
    (each : ∀ member ∈ members, count member = if holds member = true then 1 else 0) :
    (members.map count).sum = members.countP holds := by
  induction members with
  | nil => rfl
  | cons first rest induction =>
      obtain ⟨here, later⟩ := List.forall_mem_cons.mp each
      rw [List.map_cons, List.sum_cons, List.countP_cons, induction later, here, Nat.add_comm]

/-- The phrase that a clause opens with. -/
def Clause.keyword? : Clause → Option Keyword
  | .column _ => none
  | .primaryKey _ => some .primary
  | .foreignKey _ _ => some .foreign

section
variable {keyword : Keyword}

theorem occurrences_intercalate {names : List (List Char)}
    (unbroken : ∀ name ∈ names, Unbroken name) :
    occurrences keyword.phrase ([',', ' '].intercalate names) = 0 := by
  induction names with
  | nil => rfl
  | cons name rest induction =>
      obtain ⟨first, others⟩ := List.forall_mem_cons.mp unbroken
      by_cases last : rest = []
      · rw [last, List.intercalate_singleton]
        exact keyword.occurrences_unbroken first
      · have apart : [',', ' '].intercalate (name :: rest) =
            name ++ ',' :: ' ' :: [',', ' '].intercalate rest := by
          rw [List.intercalate_cons_of_ne_nil last, List.append_assoc]
          rfl
        rw [apart, keyword.occurrences_cut (by decide), keyword.occurrences_blank_cons,
          induction others, keyword.occurrences_unbroken first]

theorem occurrences_write {columnType : String}
    (plain : ¬ keyword.phrase <:+: columnType.toList)
    (noKey : ¬ "KEY".toList <+: columnType.toList) {clause : Clause} (sound : clause.Sound) :
    occurrences keyword.phrase (clause.write columnType) =
      if clause.keyword? = some keyword then 1 else 0 := by
  have isOpen : '(' ∈ Keyword.cuts := by decide
  have isClose : ')' ∈ Keyword.cuts := by decide
  cases clause with
  | column name =>
      -- Here the type is free text, and only what it starts with could complete a phrase.
      have typed := (Text.occurrences_eq_zero_iff keyword.phrase_ne_nil).mpr plain
      exact keyword.occurrences_blank (keyword.occurrences_unbroken sound) typed
        fun seam => noKey seam.2
  | primaryKey names =>
      have pieces : Clause.write columnType (.primaryKey names) =
          "PRIMARY KEY ".toList ++ '(' ::
            ([',', ' '].intercalate (names.map String.toList) ++ [')']) := rfl
      have inside : occurrences keyword.phrase
          ([',', ' '].intercalate (names.map String.toList)) = 0 :=
        occurrences_intercalate (List.forall_mem_map.mpr sound.2)
      rw [pieces, keyword.occurrences_cut isOpen, keyword.occurrences_cut isClose, inside]
      cases keyword <;> rfl
  | foreignKey name target =>
      have pieces : Clause.write columnType (.foreignKey name target) =
          "FOREIGN KEY ".toList ++ '(' :: (name.toList ++ ')' ::
            ((" REFERENCES".toList ++ ' ' :: target.toList) ++ '(' ::
              (name.toList ++ [')']))) := rfl
      have fits : ¬ keyword.word <:+ " REFERENCES".toList := by
        cases keyword <;> decide +kernel
      have middle : occurrences keyword.phrase " REFERENCES".toList = 0 := by
        cases keyword <;> decide +kernel
      have referred := keyword.occurrences_blank middle (keyword.occurrences_unbroken sound.2)
        fun seam => fits seam.1
      have named := keyword.occurrences_unbroken sound.1
      rw [pieces, keyword.occurrences_cut isOpen, keyword.occurrences_cut isClose,
        keyword.occurrences_cut isOpen, keyword.occurrences_cut isClose, named, referred]
      cases keyword <;> rfl

theorem occurrences_clauseLine {columnType : String}
    (plain : ¬ keyword.phrase <:+: columnType.toList)
    (noKey : ¬ "KEY".toList <+: columnType.toList) {clause : Clause} (sound : clause.Sound) :
    occurrences keyword.phrase (Statement.clauseLine columnType clause) =
      if clause.keyword? = some keyword then 1 else 0 := by
  have blanks : Statement.clauseLine columnType clause =
      ' ' :: ' ' :: ' ' :: ' ' :: clause.write columnType := rfl
  rw [blanks]
  simp only [keyword.occurrences_blank_cons]
  exact occurrences_write plain noKey sound

/-! ## Statements -/

theorem occurrences_ended (lines : List (List Char)) :
    occurrences keyword.phrase (ended lines) = (lines.map (occurrences keyword.phrase)).sum := by
  induction lines with
  | nil => rfl
  | cons line rest induction =>
      rw [ended_cons, keyword.occurrences_cut (by decide), induction]
      rfl

/-- The commas between the clauses make no difference. -/
theorem sum_bodyLines (clauses : List (List Char)) :
    ((Statement.bodyLines clauses).map (occurrences keyword.phrase)).sum =
      (clauses.map (occurrences keyword.phrase)).sum := by
  cases clauses with
  | nil => rfl
  | cons first rest =>
      apply congrArg List.sum
      apply map_listed
      intro item
      exact keyword.occurrences_cut (by decide) item []

theorem occurrences_opening {name : List Char} (unbroken : Unbroken name) :
    occurrences keyword.phrase (Statement.opening ++ (name ++ " (".toList)) = 0 := by
  have pieces : Statement.opening ++ (name ++ " (".toList) =
      "CREATE TABLE".toList ++ ' ' :: (name ++ ' ' :: ['(']) := rfl
  have fits : ¬ keyword.word <:+ "CREATE TABLE".toList := by
    cases keyword <;> decide +kernel
  have created : occurrences keyword.phrase "CREATE TABLE".toList = 0 := by
    cases keyword <;> decide +kernel
  have paren : occurrences keyword.phrase ['('] = 0 := by
    cases keyword <;> decide +kernel
  have named : occurrences keyword.phrase (name ++ ' ' :: ['(']) = 0 :=
    keyword.occurrences_blank (keyword.occurrences_unbroken unbroken) paren
      fun seam => absurd seam.2 (by decide +kernel)
  rw [pieces]
  exact keyword.occurrences_blank created named fun seam => fits seam.1

/-- A statement has the phrase where a clause opens with it and nowhere else. -/
theorem occurrences_createTable (keyword : Keyword) {columnType : String}
    (plain : ¬ keyword.phrase <:+: columnType.toList)
    (noKey : ¬ "KEY".toList <+: columnType.toList) (table : Table) :
    occurrences keyword.phrase (createTable table columnType).toList =
      (Statement.ofTable table).clauses.countP fun clause => clause.keyword? = some keyword := by
  have sound := Statement.sound_ofTable table
  have whole : occurrences keyword.phrase (createTable table columnType).toList =
      occurrences keyword.phrase (ended ((Statement.ofTable table).lines columnType)) := by
    rw [← Statement.toList_createTable, String.toList_append]
    exact (keyword.occurrences_cut (by decide) _ []).symm
  have clauses : (((Statement.ofTable table).clauses.map
      (Statement.clauseLine columnType)).map (occurrences keyword.phrase)).sum =
      (Statement.ofTable table).clauses.countP fun clause => clause.keyword? = some keyword := by
    rw [List.map_map]
    apply sum_map_eq_countP
    intro clause member
    simpa using occurrences_clauseLine plain noKey (sound.2 clause member)
  have closing : ([Statement.closing, []].map (occurrences keyword.phrase)).sum = 0 := by
    cases keyword <;> decide +kernel
  rw [whole, occurrences_ended, Statement.lines, List.cons_append, List.map_cons,
    List.map_append, List.sum_cons, List.sum_append, sum_bodyLines, clauses,
    occurrences_opening sound.1, closing]
  omega

end

theorem countP_clauses (keyword : Keyword) (statement : Statement) :
    (statement.clauses.countP fun clause => clause.keyword? = some keyword) =
      match keyword with
      | .primary => if statement.keys = [] then 0 else 1
      | .foreign => statement.references.length := by
  have columns : (statement.columns.map Clause.column).countP
      (fun clause => clause.keyword? = some keyword) = 0 := by
    simp [List.countP_map, Function.comp_def, Clause.keyword?]
  have references : (statement.references.map fun reference =>
      Clause.foreignKey reference.1 reference.2).countP
        (fun clause => clause.keyword? = some keyword) =
      if keyword = .foreign then statement.references.length else 0 := by
    cases keyword <;> simp [List.countP_map, Function.comp_def, Clause.keyword?]
  rw [Statement.clauses, List.countP_append, List.countP_append, columns, references]
  cases keyword <;> split <;> simp [Clause.keyword?]

/-- Whatever the names are, the text of a statement has the phrase of the primary key once
if the table has a key, and that of a foreign key once for each. -/
theorem constraints_match_columns (table : Table) {columnType : String}
    (noPrimary : ¬ "PRIMARY KEY".toList <:+: columnType.toList)
    (noForeign : ¬ "FOREIGN KEY".toList <:+: columnType.toList)
    (noKey : ¬ "KEY".toList <+: columnType.toList) :
    occurrences "PRIMARY KEY".toList (createTable table columnType).toList =
        (if table.primaryKey = [] then 0 else 1) ∧
      occurrences "FOREIGN KEY".toList (createTable table columnType).toList =
        table.foreignKeys.length := by
  have keys : (Statement.ofTable table).keys = [] ↔ table.primaryKey = [] :=
    List.map_eq_nil_iff
  have references : (Statement.ofTable table).references.length = table.foreignKeys.length :=
    List.length_map _
  constructor
  · apply (occurrences_createTable .primary noPrimary noKey table).trans
    rw [countP_clauses]
    simp only [keys]
  · apply (occurrences_createTable .foreign noForeign noKey table).trans
    rw [countP_clauses]
    exact references

/-- Names that look like the phrases, and a type that starts and ends like them. -/
theorem constraints_match_columns_lookalike :
    let table : Table := ⟨"PRIMARY KEY", .entity,
      [.inheritedKey "PRIMARY" "KEY", .plain "FOREIGN KEY (KEY)", .key "KEY",
        .foreignKey "FOREIGN" "REFERENCES PRIMARY"]⟩
    let columnType := " KEY\nFOREIGN"
    occurrences "PRIMARY KEY".toList (createTable table columnType).toList = 1 ∧
      occurrences "FOREIGN KEY".toList (createTable table columnType).toList = 2 := by
  intro table columnType
  exact constraints_match_columns table (by decide +kernel) (by decide +kernel)
    (by decide +kernel)

end Sql

end ErSchema
