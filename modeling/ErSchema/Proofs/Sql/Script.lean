import ErSchema.Proofs.Sql.Clause

/-! # Reading a script back

A script is read line by line from its end. An indented line is a clause, with a
comma unless it is the last of its statement; an opening line completes the
statement whose clauses have been met; nothing else matters. Since no identifier
and no column type has a line break in it, the lines met are the lines written,
and a script says the same of its tables as the identifiers in them. -/

namespace ErSchema.Sql

open Text (Unbroken)

/-! ## Lines -/

def ended (lines : List (List Char)) : List Char :=
  lines.flatMap (· ++ ['\n'])

theorem ended_append (first second : List (List Char)) :
    ended (first ++ second) = ended first ++ ended second :=
  List.flatMap_append

theorem ended_cons (line : List Char) (rest : List (List Char)) :
    ended (line :: rest) = line ++ '\n' :: ended rest := by
  rw [ended, List.flatMap_cons, List.append_assoc]
  rfl

theorem intercalate_append_break {lines : List (List Char)} (some : lines ≠ []) :
    ['\n'].intercalate lines ++ ['\n'] = ended lines := by
  induction lines with
  | nil => exact absurd rfl some
  | cons line rest induction =>
      cases rest with
      | nil =>
          rw [List.intercalate_singleton, ended_cons]
          rfl
      | cons next others =>
          rw [List.intercalate_cons_cons, ended_cons, ← induction (List.cons_ne_nil _ _)]
          simp only [List.append_assoc, List.cons_append, List.nil_append]

theorem splitOn_ended {lines : List (List Char)} (whole : ∀ line ∈ lines, '\n' ∉ line) :
    (ended lines).splitOn '\n' = lines ++ [[]] := by
  induction lines with
  | nil => exact List.splitOn_eq_singleton List.not_mem_nil
  | cons line rest induction =>
      have both := List.forall_mem_cons.mp whole
      rw [ended_cons, List.splitOn_append_cons_self_of_not_mem both.1, induction both.2]
      rfl

/-! ## Statements -/

/-- What a statement says of its table: the identifiers of the table, of its
columns as displayed, of its primary key, and of each foreign key with its table. -/
structure Statement where
  name : String
  columns : List String
  keys : List String
  references : List (String × String)
  deriving DecidableEq, Repr

namespace Statement

def ofTable (table : Table) : Statement :=
  { name := identifier table.name
    columns := table.displayOrder.map fun column => identifier column.name
    keys := table.primaryKey.map fun key => identifier key.name
    references := table.foreignKeys.map fun column =>
      (identifier column.name, (column.source.map identifier).getD "") }

def clauses (statement : Statement) : List Clause :=
  statement.columns.map .column ++
    (if statement.keys = [] then [] else [.primaryKey statement.keys]) ++
    statement.references.map fun reference => .foreignKey reference.1 reference.2

/-- The statement with these clauses. -/
def ofClauses (name : String) (clauses : List Clause) : Statement :=
  ⟨name, clauses.flatMap Clause.columns, clauses.flatMap Clause.keys,
    clauses.flatMap Clause.references⟩

theorem ofClauses_clauses (statement : Statement) :
    ofClauses statement.name statement.clauses = statement := by
  have nothing {α β : Type} (members : List α) : members.flatMap (fun _ => ([] : List β)) = [] :=
    List.flatMap_eq_nil_iff.mpr fun _ _ => rfl
  cases statement with
  | mk name columns keys references =>
      cases keys <;>
        simp [clauses, ofClauses, List.flatMap_map, Clause.columns, Clause.keys,
          Clause.references, nothing]

def Sound (statement : Statement) : Prop :=
  Unbroken statement.name.toList ∧ ∀ clause ∈ statement.clauses, clause.Sound

theorem sound_ofTable (table : Table) : (ofTable table).Sound := by
  apply And.intro (unbroken_identifier table.name)
  intro clause member
  rcases List.mem_append.mp member with front | reference
  · rcases List.mem_append.mp front with column | keys
    · obtain ⟨name, isColumn, rfl⟩ := List.mem_map.mp column
      obtain ⟨shown, _, rfl⟩ := List.mem_map.mp isColumn
      exact unbroken_identifier shown.name
    · split at keys
      case isTrue => cases keys
      case isFalse some =>
        cases List.mem_singleton.mp keys
        exact ⟨some, List.forall_mem_map.mpr fun key _ => unbroken_identifier key.name⟩
  · obtain ⟨pair, isReference, rfl⟩ := List.mem_map.mp reference
    obtain ⟨column, _, rfl⟩ := List.mem_map.mp isReference
    apply And.intro (unbroken_identifier column.name)
    cases target : column.source with
    | none => exact nofun
    | some source => exact unbroken_identifier source

/-! ## The lines of a statement -/

def opening : List Char := "CREATE TABLE ".toList
def closing : List Char := ");".toList

def clauseLine (columnType : String) (clause : Clause) : List Char :=
  indent.toList ++ clause.write columnType

/-- Without clauses an empty line stands in their place. -/
def bodyLines : List (List Char) → List (List Char)
  | [] => [[]]
  | clauses => listed clauses

def lines (columnType : String) (statement : Statement) : List (List Char) :=
  (opening ++ (statement.name.toList ++ " (".toList)) ::
    bodyLines (statement.clauses.map (clauseLine columnType)) ++ [closing, []]

theorem intercalate_clauses (clauses : List (List Char)) :
    [',', '\n'].intercalate clauses ++ ['\n'] = ended (bodyLines clauses) := by
  cases clauses with
  | nil => rfl
  | cons first rest =>
      rw [intercalate_listed]
      exact intercalate_append_break (listed_ne_nil (List.cons_ne_nil _ _))

theorem toList_columnLine (columnType : String) (column : Column) :
    (columnLine columnType column).toList =
      clauseLine columnType (.column (identifier column.name)) := by
  rw [columnLine, String.toList_append, String.toList_append, String.toList_append,
    List.append_assoc, List.append_assoc]
  rfl

theorem toList_primaryKeyLine (columnType : String) (keys : List Column) :
    (primaryKeyLine keys).toList =
      clauseLine columnType (.primaryKey (keys.map fun key => identifier key.name)) := by
  rw [primaryKeyLine, String.toList_append, String.toList_append, String.toList_append,
    String.toList_intercalate, List.append_assoc, List.append_assoc]
  rfl

theorem toList_foreignKeyLine (columnType : String) (column : Column) :
    (foreignKeyLine column).toList =
      clauseLine columnType (.foreignKey (identifier column.name)
        ((column.source.map identifier).getD "")) := by
  rw [foreignKeyLine]
  simp only [String.toList_append, List.append_assoc]
  rfl

theorem map_toList_lines (table : Table) (columnType : String) :
    (Sql.lines table columnType).map String.toList =
      (ofTable table).clauses.map (clauseLine columnType) := by
  have columns : (table.displayOrder.map (columnLine columnType)).map String.toList =
      ((ofTable table).columns.map Clause.column).map (clauseLine columnType) := by
    rw [ofTable, List.map_map, List.map_map, List.map_map]
    exact List.map_congr_left fun column _ => toList_columnLine columnType column
  have references : (table.foreignKeys.map foreignKeyLine).map String.toList =
      ((ofTable table).references.map fun reference =>
        Clause.foreignKey reference.1 reference.2).map (clauseLine columnType) := by
    rw [ofTable, List.map_map, List.map_map, List.map_map]
    exact List.map_congr_left fun column _ => toList_foreignKeyLine columnType column
  rw [Sql.lines, clauses, List.map_append, List.map_append, List.map_append, List.map_append,
    columns, references]
  congr 2
  rw [ofTable]
  cases table.primaryKey with
  | nil => rfl
  | cons first rest =>
      exact congrArg (· :: []) (toList_primaryKeyLine columnType (first :: rest))

theorem toList_createTable (table : Table) (columnType : String) :
    (createTable table columnType ++ "\n").toList = ended ((ofTable table).lines columnType) := by
  rw [lines, ← map_toList_lines, List.cons_append, ended_cons, ended_append,
    ← intercalate_clauses]
  delta createTable
  simp only [String.toList_append, String.toList_intercalate, List.append_assoc]
  rfl

theorem break_not_mem_lines {columnType : String} (oneLine : '\n' ∉ columnType.toList)
    {statement : Statement} (sound : statement.Sound) :
    ∀ line ∈ statement.lines columnType, '\n' ∉ line := by
  have first : '\n' ∉ opening ++ (statement.name.toList ++ " (".toList) := by
    have opened : '\n' ∉ opening := by decide +kernel
    have name : '\n' ∉ statement.name.toList := sound.1.not_mem (by decide)
    simp [opened, name]
  have each : ∀ line ∈ statement.clauses.map (clauseLine columnType), '\n' ∉ line := by
    intro line isLine
    obtain ⟨clause, member, rfl⟩ := List.mem_map.mp isLine
    have indented : '\n' ∉ indent.toList := by decide +kernel
    have written := Clause.break_not_mem_write oneLine (sound.2 clause member)
    simp [clauseLine, indented, written]
  have body : ∀ line ∈ bodyLines (statement.clauses.map (clauseLine columnType)),
      '\n' ∉ line := by
    cases shown : statement.clauses.map (clauseLine columnType) with
    | nil => exact List.forall_mem_singleton.mpr List.not_mem_nil
    | cons line rest =>
        rw [shown] at each
        exact forall_mem_listed each fun line whole => by simp [whole]
  have last : ∀ line ∈ [closing, []], '\n' ∉ line := by decide +kernel
  exact List.forall_mem_append.mpr ⟨List.forall_mem_cons.mpr ⟨first, body⟩, last⟩

end Statement

/-! ## Reading -/

/-- What has been read of a script from its end: the clauses of a statement that
is not opened yet, and the statements after it. -/
structure Reading where
  clauses : List Clause
  statements : List Statement

namespace Reading

def line (text : List Char) (below : Reading) : Reading :=
  if indent.toList <+: text then
    let shown := text.drop indent.toList.length
    { below with
      clauses := .read (if below.clauses = [] then shown else shown.dropLast) ::
        below.clauses }
  else if Statement.opening <+: text then
    let name := beforeBlank (text.drop Statement.opening.length)
    ⟨[], .ofClauses (.ofList name) below.clauses :: below.statements⟩
  else below

theorem line_of_indent (shown : List Char) (below : Reading) :
    line (indent.toList ++ shown) below =
      { below with
        clauses := .read (if below.clauses = [] then shown else shown.dropLast) ::
          below.clauses } := by
  rw [line, if_pos (List.prefix_append _ _), List.drop_left]

theorem line_opening {name : String} (unbroken : Unbroken name.toList) (below : Reading) :
    line (Statement.opening ++ (name.toList ++ " (".toList)) below =
      ⟨[], .ofClauses name below.clauses :: below.statements⟩ := by
  have outward (rest : List Char) : ¬ indent.toList <+: Statement.opening ++ rest := by
    intro indented
    have same := List.prefix_of_prefix_length_le indented (List.prefix_append _ rest)
      (by decide +kernel)
    exact absurd same (by decide +kernel)
  have word : beforeBlank (name.toList ++ " (".toList) = name.toList :=
    beforeBlank_append unbroken ['(']
  rw [line, if_neg (outward _), if_pos (List.prefix_append _ _), List.drop_left]
  dsimp only
  rw [word, String.ofList_toList]

theorem line_nil (below : Reading) : line [] below = below := by
  rw [line, if_neg (by decide +kernel), if_neg (by decide +kernel)]

theorem line_closing (below : Reading) : line Statement.closing below = below := by
  rw [line, if_neg (by decide +kernel), if_neg (by decide +kernel)]

/-- The comma is dropped exactly where it was added: before another clause. -/
theorem foldr_listed {columnType : String} (plain : ¬ "KEY (".toList <+: columnType.toList)
    {clauses : List Clause} (sound : ∀ clause ∈ clauses, clause.Sound)
    (later : List Statement) :
    (listed (clauses.map (Statement.clauseLine columnType))).foldr line ⟨[], later⟩ =
      ⟨clauses, later⟩ := by
  induction clauses with
  | nil => rfl
  | cons clause rest induction =>
      have both := List.forall_mem_cons.mp sound
      cases rest with
      | nil =>
          rw [List.map_singleton, listed, List.foldr_cons, List.foldr_nil, Statement.clauseLine,
            line_of_indent, if_pos rfl, Clause.read_write plain both.1]
      | cons next others =>
          rw [List.map_cons, List.map_cons, listed, List.foldr_cons, ← List.map_cons,
            induction both.2, Statement.clauseLine, List.append_assoc, line_of_indent,
            if_neg (List.cons_ne_nil _ _), List.dropLast_concat, Clause.read_write plain both.1]

theorem foldr_lines {columnType : String} (plain : ¬ "KEY (".toList <+: columnType.toList)
    {statement : Statement} (sound : statement.Sound) (later : List Statement) :
    (statement.lines columnType).foldr line ⟨[], later⟩ = ⟨[], statement :: later⟩ := by
  have between (below : Reading) : [Statement.closing, []].foldr line below = below := by
    rw [List.foldr_cons, List.foldr_cons, List.foldr_nil, line_nil, line_closing]
  have body : (Statement.bodyLines (statement.clauses.map
      (Statement.clauseLine columnType))).foldr line ⟨[], later⟩ = ⟨statement.clauses, later⟩ := by
    rw [← foldr_listed plain sound.2 later]
    cases statement.clauses.map (Statement.clauseLine columnType) with
    | nil => exact between ⟨[], later⟩
    | cons shown rest => rfl
  rw [Statement.lines, List.foldr_append, between, List.foldr_cons, body,
    line_opening sound.1, Statement.ofClauses_clauses]

theorem foldr_flatMap_lines {columnType : String}
    (plain : ¬ "KEY (".toList <+: columnType.toList) {statements : List Statement}
    (sound : ∀ statement ∈ statements, statement.Sound) :
    (statements.flatMap (Statement.lines columnType) ++ [[]]).foldr line ⟨[], []⟩ =
      ⟨[], statements⟩ := by
  induction statements with
  | nil => exact line_nil ⟨[], []⟩
  | cons statement rest induction =>
      have both := List.forall_mem_cons.mp sound
      rw [List.flatMap_cons, List.append_assoc, List.foldr_append, induction both.2,
        foldr_lines plain both.1]

end Reading

/-- The tables of a script, read by someone who knows the header. -/
def readScript (header text : String) : List Statement :=
  (((text.toList.drop (header ++ "\n\n").toList.length).splitOn '\n').foldr
    Reading.line ⟨[], []⟩).statements

/-- A script is its header and its statements, and reads no more of the tables. -/
theorem toList_script (schema : Schema) (config : Config) :
    (script schema config).toList = (config.sqlHeader ++ "\n\n").toList ++
      ended ((schema.tables.map Statement.ofTable).flatMap
        (Statement.lines config.columnType)) := by
  have each (table : Table) := Statement.toList_createTable table config.columnType
  rw [script, String.toList_append, String.toList_join, ended, List.flatMap_assoc,
    List.flatMap_map, List.flatMap_map]
  simp only [each, ended]

theorem readScript_script {config : Config} (oneLine : '\n' ∉ config.columnType.toList)
    (plain : ¬ "KEY (".toList <+: config.columnType.toList) (schema : Schema) :
    readScript config.sqlHeader (script schema config) =
      schema.tables.map Statement.ofTable := by
  have sound : ∀ statement ∈ schema.tables.map Statement.ofTable, statement.Sound :=
    List.forall_mem_map.mpr fun table _ => Statement.sound_ofTable table
  have whole : ∀ line ∈ (schema.tables.map Statement.ofTable).flatMap
      (Statement.lines config.columnType), '\n' ∉ line := by
    intro line member
    obtain ⟨statement, isStatement, isLine⟩ := List.mem_flatMap.mp member
    exact Statement.break_not_mem_lines oneLine (sound statement isStatement) line isLine
  rw [readScript, toList_script, List.drop_left, splitOn_ended whole,
    Reading.foldr_flatMap_lines plain sound]

/-- A script determines its statements and they determine it: two schemas have
one script exactly when their tables, in order, agree in every identifier. -/
theorem script_unambiguous (config : Config) (oneLine : '\n' ∉ config.columnType.toList)
    (plain : ¬ "KEY (".toList <+: config.columnType.toList) (first second : Schema) :
    readScript config.sqlHeader (script first config) = first.tables.map Statement.ofTable ∧
      (script first config = script second config ↔
        first.tables.map Statement.ofTable = second.tables.map Statement.ofTable) := by
  have read := readScript_script oneLine plain
  apply And.intro (read first)
  constructor
  · intro same
    rw [← read first, same, read second]
  · intro same
    apply String.toList_injective
    rw [toList_script, toList_script, same]

/-- A column type that ends in a comma, columns called like keywords, a nameless
table without columns. The schemas differ in spacing, which a script drops, and in
the kinds of their tables, which it never shows. -/
theorem script_unambiguous_spacing :
    let config : Config := { Config.standard with columnType := "KEY, (\t," }
    let first : Schema := ⟨[⟨"order  line", .entity,
      [.key "PRIMARY", .plain "FOREIGN", .foreignKey "KEY (x)," "stock\titem"]⟩,
      ⟨"", .entity, []⟩]⟩
    let second : Schema := ⟨[⟨" order_line", .junction,
      [.plain "FOREIGN\n", .key "PRIMARY ", .foreignKey "KEY_(x)," "stock item"]⟩,
      ⟨"\r\n", .multivalued, []⟩]⟩
    '\n' ∉ config.columnType.toList ∧ ¬ "KEY (".toList <+: config.columnType.toList ∧
      readScript config.sqlHeader (script first config) =
        [⟨"order_line", ["PRIMARY", "FOREIGN", "KEY_(x),"], ["PRIMARY"],
          [("KEY_(x),", "stock_item")]⟩, ⟨"", [], [], []⟩] ∧
      script first config = script second config := by
  intro config first second
  have oneLine : '\n' ∉ config.columnType.toList := by decide +kernel
  have plain : ¬ "KEY (".toList <+: config.columnType.toList := by decide +kernel
  have unambiguous := script_unambiguous config oneLine plain first second
  have shown : first.tables.map Statement.ofTable =
      [⟨"order_line", ["PRIMARY", "FOREIGN", "KEY_(x),"], ["PRIMARY"],
        [("KEY_(x),", "stock_item")]⟩, ⟨"", [], [], []⟩] := by decide +kernel
  have same : first.tables.map Statement.ofTable = second.tables.map Statement.ofTable := by
    decide +kernel
  exact ⟨oneLine, plain, unambiguous.1.trans shown, unambiguous.2.mpr same⟩

end ErSchema.Sql
