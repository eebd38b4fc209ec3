import ErSchema.Derivation
import ErSchema.Listing.Box
import ErSchema.Proofs.Columns
import ErSchema.Proofs.Text.Measure
import Mathlib

/-! # The listing of a table is a box

The frame is as wide as the widest of the title and the rows, and each of them is padded
to it, so all lines take the same columns whatever characters the names have. Only a line
feed breaks the box: a name is trimmed at its ends but may have one inside. -/

namespace ErSchema

namespace Text

/-! ## The lines of a text -/

/-- What stands between the line feeds. -/
def linesOf (text : String) : List String :=
  (text.toList.splitOn '\n').map String.ofList

section
variable {α : Type} [BEq α] (mark : α)

theorem length_splitOn (text : List α) : (text.splitOn mark).length = text.count mark + 1 := by
  induction text with
  | nil => rfl
  | cons first rest induction =>
      rw [List.splitOn_cons_eq_if_modifyHead, List.count_cons]
      split
      · rw [List.length_cons, induction]
      · rw [List.length_modifyHead, induction, Nat.add_zero]

/-- A mark inside a part splits it once more. -/
theorem length_splitOn_intercalate [ReflBEq α] {parts : List (List α)} (nonempty : parts ≠ []) :
    ((List.intercalate [mark] parts).splitOn mark).length =
      parts.length + parts.flatten.count mark := by
  induction parts with
  | nil => exact absurd rfl nonempty
  | cons part rest induction =>
      rw [List.length_cons, List.flatten_cons, List.count_append]
      by_cases last : rest = []
      · rw [last, List.intercalate_singleton, length_splitOn, List.flatten_nil, List.count_nil,
          List.length_nil]
        omega
      · rw [List.intercalate_cons_of_ne_nil last, List.append_assoc, List.singleton_append,
          List.splitOn_append_cons_self, List.length_append, length_splitOn, induction last]
        omega

end

theorem linesOf_intercalate {lines : List String} (nonempty : lines ≠ [])
    (whole : ∀ line ∈ lines, '\n' ∉ line.toList) :
    linesOf (String.intercalate "\n" lines) = lines := by
  have unbroken : ∀ line ∈ lines.map String.toList, '\n' ∉ line := by
    simpa using whole
  have shown : lines.map String.toList ≠ [] := by simpa using nonempty
  rw [linesOf, String.toList_intercalate]
  change (List.splitOn '\n' (List.intercalate ['\n'] _)).map String.ofList = lines
  rw [List.splitOn_intercalate '\n' unbroken shown, List.map_map]
  simp [Function.comp_def]

theorem length_linesOf_intercalate {lines : List String} (nonempty : lines ≠ []) :
    (linesOf (String.intercalate "\n" lines)).length = lines.length ↔
      ∀ line ∈ lines, '\n' ∉ line.toList := by
  have shown : lines.map String.toList ≠ [] := by simpa using nonempty
  rw [linesOf, String.toList_intercalate, List.length_map]
  change (List.splitOn '\n' (List.intercalate ['\n'] _)).length = lines.length ↔ _
  rw [length_splitOn_intercalate '\n' shown, List.length_map, Nat.add_eq_left,
    List.count_eq_zero]
  simp

end Text

theorem Table.displayOrder_eq_nil_iff {table : Table} :
    table.displayOrder = [] ↔ table.columns = [] := by
  rw [← List.length_eq_zero_iff, table.perm_displayOrder.length_eq, List.length_eq_zero_iff]

namespace Box

/-- The names in a row: the column's own and, if it refers to a table, that table's. -/
def namesIn (column : Column) : List String :=
  column.name :: (column.source.filter fun _ => column.isForeign).toList

/-- The names in the listing of a table. -/
def names (table : Table) : List String :=
  table.name :: table.columns.flatMap namesIn

/-- A box that leaves that many columns to the title and the rows. -/
structure IsBox (table : Table) (inner : Nat) (lines : List String) : Prop where
  count : lines.length = if table.columns = [] then 3 else table.columns.length + 4
  aligned : ∀ line ∈ lines, Text.displayWidth line = inner + 4
  titled : lines[1]? = some (framed inner (title table))
  listed : (lines.drop 3).dropLast = table.displayOrder.map fun column => framed inner (row column)

/-! ## The lines -/

/-- What is framed: the rows and the title. -/
def shown (table : Table) : List String :=
  table.displayOrder.map row ++ [title table]

/-- The columns that the frame leaves inside. -/
def inner (table : Table) : Nat :=
  Text.maxWidth (shown table)

/-- What stands at the ends of a rule. -/
def corners : List (String × String) :=
  [("┌", "┐"), ("├", "┤"), ("└", "┘")]

theorem lines_eq (table : Table) :
    lines table =
      ("┌" ++ rule (inner table) ++ "┐") :: framed (inner table) (title table) ::
        (if table.columns = [] then []
          else ("├" ++ rule (inner table) ++ "┤") ::
            table.displayOrder.map fun column => framed (inner table) (row column)) ++
        ["└" ++ rule (inner table) ++ "┘"] := by
  by_cases empty : table.columns = []
  · simp [lines, inner, shown, Table.displayOrder_eq_nil_iff.mpr empty, empty]
  · have listed := mt Table.displayOrder_eq_nil_iff.mp empty
    obtain ⟨first, rest, order⟩ := List.exists_cons_of_ne_nil listed
    simp [lines, inner, shown, order, empty]

theorem lines_ne_nil (table : Table) : lines table ≠ [] :=
  List.cons_ne_nil _ _

theorem mem_lines {table : Table} {line : String} (member : line ∈ lines table) :
    (∃ pair ∈ corners, line = pair.1 ++ rule (inner table) ++ pair.2) ∨
      ∃ text ∈ shown table, line = framed (inner table) text := by
  rw [lines_eq, List.cons_append, List.cons_append] at member
  rcases List.mem_cons.mp member with top | member
  · exact .inl ⟨("┌", "┐"), by decide, top⟩
  rcases List.mem_cons.mp member with titled | member
  · exact .inr ⟨title table, List.mem_append_right _ List.mem_cons_self, titled⟩
  rcases List.mem_append.mp member with body | last
  · split at body
    · exact absurd body List.not_mem_nil
    rcases List.mem_cons.mp body with divider | listed
    · exact .inl ⟨("├", "┤"), by decide, divider⟩
    · obtain ⟨column, isColumn, rfl⟩ := List.mem_map.mp listed
      exact .inr ⟨row column, List.mem_append_left _ (List.mem_map_of_mem isColumn), rfl⟩
  · exact .inl ⟨("└", "┘"), by decide, List.mem_singleton.mp last⟩

theorem framed_mem_lines {table : Table} {text : String} (isShown : text ∈ shown table) :
    framed (inner table) text ∈ lines table := by
  rw [lines_eq]
  rcases List.mem_append.mp isShown with listed | titled
  · obtain ⟨column, isColumn, rfl⟩ := List.mem_map.mp listed
    have some : table.columns ≠ [] :=
      List.ne_nil_of_mem (table.perm_displayOrder.mem_iff.mp isColumn)
    rw [if_neg some]
    apply List.mem_append_left
    exact List.mem_cons_of_mem _ (List.mem_cons_of_mem _ (List.mem_cons_of_mem _
      (List.mem_map_of_mem isColumn)))
  · rw [List.mem_singleton.mp titled]
    exact List.mem_cons_of_mem _ List.mem_cons_self

/-! ## Widths of the lines -/

theorem displayWidth_framed (width : Nat) (text : String) :
    Text.displayWidth (framed width text) = max width (Text.displayWidth text) + 4 := by
  have side : Text.measure [' ', '│'] = (2, .start) :=
    Text.measure_of_single (by decide +kernel)
  have single : Text.widthBefore '│' .start = (1, .start) := by decide +kernel
  have characters : (framed width text).toList =
      '│' :: ' ' :: ((Text.padRight text width).toList ++ [' ', '│']) := by
    simp [framed]
  -- The blank in front of the text hides it from the side of the box.
  have taken := Text.measure_nonneg (Text.padRight text width).toList
  rw [← Text.displayWidth_padRight, Text.displayWidth, characters, Text.measure_cons,
    Text.measure_blank, Text.measure_append (congrArg Prod.snd side), side, single,
    Text.displayWidth]
  dsimp only
  omega

theorem displayWidth_ruled {pair : String × String} (isCorner : pair ∈ corners) (width : Nat) :
    Text.displayWidth (pair.1 ++ rule width ++ pair.2) = width + 4 := by
  have cornersSingle : ∀ pair ∈ corners, (pair.1.length = 1 ∧ pair.2.length = 1) ∧
      Text.Singles (pair.1.toList ++ pair.2.toList) := by
    decide +kernel
  obtain ⟨⟨left, right⟩, ends⟩ := cornersSingle pair isCorner
  have single : Text.Singles (pair.1 ++ rule width ++ pair.2).toList := by
    intro character member
    simp only [String.toList_append, rule, String.toList_ofList, List.mem_append] at member
    rcases member with (first | drawn) | last
    · exact ends character (List.mem_append_left _ first)
    · rw [List.eq_of_mem_replicate drawn]
      decide +kernel
    · exact ends character (List.mem_append_right _ last)
  rw [Text.displayWidth, Text.measure_of_single single, Int.toNat_natCast, String.length_toList,
    String.length_append, String.length_append, left, right, rule, String.length_ofList,
    List.length_replicate]
  omega

theorem isBox_lines (table : Table) : IsBox table (inner table) (lines table) where
  count := by
    rw [lines_eq, ← table.perm_displayOrder.length_eq]
    split <;> simp
  aligned := by
    intro line member
    rcases mem_lines member with ⟨pair, isCorner, rfl⟩ | ⟨text, isShown, rfl⟩
    · exact displayWidth_ruled isCorner (inner table)
    · have fits : Text.displayWidth text ≤ inner table := Text.displayWidth_le_maxWidth isShown
      rw [displayWidth_framed, Nat.max_eq_left fits]
  titled := by
    rw [lines_eq]
    rfl
  listed := by
    rw [lines_eq]
    split
    case isTrue empty =>
      rw [Table.displayOrder_eq_nil_iff.mpr empty]
      rfl
    case isFalse => exact List.dropLast_concat

/-! ## Line feeds -/

theorem break_mem_framed {width : Nat} {text : String} :
    '\n' ∈ (framed width text).toList ↔ '\n' ∈ text.toList := by
  simp [framed, Text.padRight]

theorem break_not_mem_ruled {pair : String × String} (isCorner : pair ∈ corners) (width : Nat) :
    '\n' ∉ (pair.1 ++ rule width ++ pair.2).toList := by
  have solid : ∀ pair ∈ corners, '\n' ∉ pair.1.toList ∧ '\n' ∉ pair.2.toList := by
    decide
  simp [rule, solid pair isCorner]

theorem break_mem_title {table : Table} :
    '\n' ∈ (title table).toList ↔ '\n' ∈ table.name.toList := by
  unfold title
  split <;> simp

theorem break_not_mem_row_iff {column : Column} :
    '\n' ∉ (row column).toList ↔ ∀ name ∈ namesIn column, '\n' ∉ name.toList := by
  have solid : '\n' ∉ (marker column).toList := by
    unfold marker
    split <;> decide
  unfold row namesIn
  rcases column with ⟨name, isKey, isForeign, _ | source⟩
  · simp [solid]
  · cases isForeign <;> simp [solid]

theorem break_not_mem_lines_iff {table : Table} :
    (∀ line ∈ lines table, '\n' ∉ line.toList) ↔
      ∀ name ∈ names table, '\n' ∉ name.toList := by
  have framedOnly : (∀ line ∈ lines table, '\n' ∉ line.toList) ↔
      ∀ text ∈ shown table, '\n' ∉ text.toList := by
    constructor
    · intro solid text isShown within
      exact solid _ (framed_mem_lines isShown) (break_mem_framed.mpr within)
    · intro solid line member
      rcases mem_lines member with ⟨pair, isCorner, rfl⟩ | ⟨text, isShown, rfl⟩
      · exact break_not_mem_ruled isCorner (inner table)
      · exact fun within => solid text isShown (break_mem_framed.mp within)
  have rows : (∀ text ∈ table.displayOrder.map row, '\n' ∉ text.toList) ↔
      ∀ name ∈ table.columns.flatMap namesIn, '\n' ∉ name.toList := by
    simp only [List.forall_mem_map, break_not_mem_row_iff, table.perm_displayOrder.mem_iff,
      List.mem_flatMap]
    constructor
    · intro each name listed
      obtain ⟨column, isColumn, within⟩ := listed
      exact each column isColumn name within
    · intro all column isColumn name within
      exact all name ⟨column, isColumn, within⟩
  rw [framedOnly, shown, List.forall_mem_append, rows, List.forall_mem_singleton,
    break_mem_title, names, List.forall_mem_cons]
  exact and_comm

/-- The listing of a table is a box that shows every column once, in order, unless a name
in it has a line feed. -/
theorem exists_isBox_iff (table : Table) :
    table.displayOrder.Perm table.columns ∧
      ((∃ inner, IsBox table inner (Text.linesOf (Box.table table))) ↔
        ∀ name ∈ names table, '\n' ∉ name.toList) := by
  apply And.intro table.perm_displayOrder
  constructor
  · intro boxed
    obtain ⟨width, isBox⟩ := boxed
    apply break_not_mem_lines_iff.mp
    apply (Text.length_linesOf_intercalate (lines_ne_nil table)).mp
    exact isBox.count.trans (isBox_lines table).count.symm
  · intro unbroken
    have whole := break_not_mem_lines_iff.mpr unbroken
    rw [Box.table, Text.linesOf_intercalate (lines_ne_nil table) whole]
    exact ⟨_, isBox_lines table⟩

/-- Wide characters, a character that joins what follows it, and a tab. -/
theorem exists_isBox_customers :
    let customers : Table := ⟨"顧客", .junction,
      [.foreignKey "部署\u200d" "部\t署", .plain "e\u0301tat", .inheritedKey "👩\u200d🔬" "Personne"]⟩
    ∃ inner, IsBox customers inner (Text.linesOf (Box.table customers)) := by
  intro customers
  apply (exists_isBox_iff customers).2.mpr
  decide +kernel

/-- An entity with a line feed in its name is listed on four lines. -/
theorem not_exists_isBox :
    ¬ ∀ (diagram : Diagram) (limit : Option Nat),
      ∀ table ∈ (Derivation.ofDiagram diagram limit).schema.tables,
        ∃ inner, IsBox table inner (Text.linesOf (Box.table table)) := by
  intro all
  let diagram : Diagram := ⟨[Node.entity "e" "Order\nLine"], []⟩
  let table : Table := Table.empty "Order\nLine" .entity
  have derived : (Derivation.ofDiagram diagram none).schema.tables = [table] := by cbv
  have length : (Text.linesOf (Box.table table)).length = 4 := by decide +kernel
  obtain ⟨inner, isBox⟩ := all diagram none table (derived ▸ List.mem_cons_self)
  exact absurd (length.symm.trans isBox.count) (by decide)

end Box

end ErSchema
