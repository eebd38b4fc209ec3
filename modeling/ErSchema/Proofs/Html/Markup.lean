import ErSchema.Proofs.Columns
import ErSchema.Proofs.Html.Escaped
import Mathlib

/-! # The markup of a listing

A reader of markup takes what stands between two angle brackets for a tag and sees
the rest. A name is escaped wherever it is put, so it opens no tag and is seen as it
is: the tags of a listing come from the kinds of its tables and the marks of their
columns alone. -/

namespace ErSchema

namespace Html

/-! ## Reading markup -/

/-- A tag, or a character outside any. -/
inductive Piece where
  | tag (inner : List Char)
  | shown (character : Char)

namespace Piece

def text : Piece → List Char
  | .tag inner => '<' :: inner ++ ['>']
  | .shown character => [character]

def tag? : Piece → Option String
  | .tag inner => some (String.ofList ('<' :: inner ++ ['>']))
  | .shown _ => none

def shown? : Piece → Option Char
  | .tag _ => none
  | .shown character => some character

end Piece

/-- Read on with a bracket open, after which `inner` has stood, or with none. A tag
ends at the next closing bracket; a bracket that is never closed is no tag. -/
def scan : (opened : Option (List Char)) → List Char → List Piece
  | none, [] => []
  | some inner, [] => .shown '<' :: inner.map .shown
  | none, character :: rest =>
      if character = '<' then scan (some []) rest else .shown character :: scan none rest
  | some inner, character :: rest =>
      if character = '>' then .tag inner :: scan none rest
      else scan (some (inner ++ [character])) rest

theorem text_scan (opened : Option (List Char)) (text : List Char) :
    (scan opened text).flatMap Piece.text = opened.elim [] ('<' :: ·) ++ text := by
  induction text generalizing opened with
  | nil =>
      cases opened with
      | none => rfl
      | some inner => simp [scan, Piece.text, List.flatMap_map]
  | cons character rest induction =>
      cases opened with
      | none =>
          rw [scan]
          split
          case isTrue opens => simp [induction, opens]
          case isFalse => simp [induction, Piece.text]
      | some inner =>
          rw [scan]
          split
          case isTrue closes => simp [induction, closes, Piece.text]
          case isFalse => simp [induction]

def pieces (text : String) : List Piece := scan none text.toList

/-- Nothing is left out of the pieces. -/
theorem text_pieces (text : String) : (pieces text).flatMap Piece.text = text.toList :=
  text_scan none text.toList

def tags (text : String) : List String := (pieces text).filterMap Piece.tag?

def outside (text : String) : List Char := (pieces text).filterMap Piece.shown?

/-- What is left to see once the tags are taken out and the entities read. -/
def visible (text : String) : String := String.ofList (unescape (outside text))

example : tags "<b>1 &lt; 2</b>" = ["<b>", "</b>"] := rfl
example : visible "<b>1 &lt; 2</b>" = "1 < 2" := rfl

/-! ## Writing markup -/

/-- Wherever this text stands outside a tag, it adds these tags and shows this. -/
structure Writes (text : String) (marks : List String) (seen : String) : Prop where
  closed : ∀ rest, scan none (text.toList ++ rest) = pieces text ++ scan none rest
  tags : tags text = marks
  clean : Bracketless (outside text)
  read : ∀ rest, unescape (outside text ++ rest) = seen.toList ++ unescape rest

theorem scan_bracketless {text : List Char} (clean : Bracketless text) (rest : List Char) :
    scan none (text ++ rest) = text.map .shown ++ scan none rest := by
  induction text with
  | nil => rfl
  | cons character later induction =>
      have both := List.forall_mem_cons.mp clean
      rw [List.cons_append, scan, if_neg both.1.1, induction both.2, List.map_cons,
        List.cons_append]

theorem writes_escape (name : String) : Writes (escape name) [] name := by
  have list : (escape name).toList = escapeChars name.toList := String.toList_ofList
  have clean := bracketless_escapeChars name.toList
  have found : pieces (escape name) = (escapeChars name.toList).map .shown := by
    rw [pieces, list, ← List.append_nil (escapeChars _), scan_bracketless clean, scan,
      List.append_nil, List.append_nil]
  have shown : outside (escape name) = escapeChars name.toList := by
    rw [outside, found, List.filterMap_map]
    exact List.filterMap_some
  constructor
  · intro rest
    rw [list, scan_bracketless clean, found]
  · rw [tags, found, List.filterMap_map]
    exact List.filterMap_eq_nil_iff.mpr fun _ _ => rfl
  · rwa [shown]
  · intro rest
    rw [shown, unescape_escapeChars]

namespace Writes

theorem empty : Writes "" [] "" := ⟨fun _ => rfl, rfl, by decide, fun _ => rfl⟩

variable {text other : String} {marks more : List String} {seen further : String}

theorem append (first : Writes text marks seen) (second : Writes other more further) :
    Writes (text ++ other) (marks ++ more) (seen ++ further) := by
  have found : pieces (text ++ other) = pieces text ++ pieces other := by
    rw [pieces, String.toList_append, first.closed]
    rfl
  have shown : outside (text ++ other) = outside text ++ outside other := by
    rw [outside, found, List.filterMap_append]
    rfl
  constructor
  · intro rest
    rw [String.toList_append, List.append_assoc, first.closed, second.closed, found,
      List.append_assoc]
  · rw [Html.tags, found, List.filterMap_append]
    exact congr (congrArg _ first.tags) second.tags
  · rw [shown]
    exact first.clean.append second.clean
  · intro rest
    rw [shown, List.append_assoc, first.read, second.read, String.toList_append,
      List.append_assoc]

/-- Tags around a text, without any text of their own. -/
theorem around {opening closing : String} {before after : List String}
    (writes : Writes text marks seen) (opens : Writes opening before "")
    (closes : Writes closing after "") :
    Writes (opening ++ text ++ closing) (before ++ marks ++ after) seen := by
  have whole := (opens.append writes).append closes
  rwa [String.empty_append, String.append_empty] at whole

/-- The text ends outside a tag, so all of it is seen. -/
theorem visible_eq (writes : Writes text marks seen) : visible text = seen := by
  have all := writes.read []
  rw [List.append_nil, unescape, List.append_nil] at all
  rw [visible, all, String.ofList_toList]

section
variable {α : Type} {members : List α} {textOf : α → String} {marksOf : α → List String}
  {seenOf : α → String} (each : ∀ member ∈ members,
    Writes (textOf member) (marksOf member) (seenOf member))
include each

theorem join : Writes (String.join (members.map textOf)) (members.flatMap marksOf)
    (String.join (members.map seenOf)) := by
  induction members with
  | nil => exact empty
  | cons member rest induction =>
      have both := List.forall_mem_cons.mp each
      rw [List.map_cons, List.map_cons, String.join_cons, String.join_cons, List.flatMap_cons]
      exact both.1.append (induction both.2)

theorem intercalate {separator : String} (separates : Writes separator [] separator) :
    Writes (String.intercalate separator (members.map textOf)) (members.flatMap marksOf)
      (String.intercalate separator (members.map seenOf)) := by
  induction members with
  | nil => exact empty
  | cons member rest induction =>
      have both := List.forall_mem_cons.mp each
      cases rest with
      | nil =>
          have only := both.1.append empty
          rwa [String.append_empty, String.append_empty] at only
      | cons next others =>
          rw [List.map_cons, List.map_cons, List.map_cons, List.map_cons,
            String.intercalate_cons_cons, String.intercalate_cons_cons, List.flatMap_cons]
          have front := both.1.append separates
          rw [List.append_nil] at front
          exact front.append (induction both.2)

end

end Writes

end Html

/-! ## The shape of a schema -/

namespace Column

/-- Whether a column is a key, and whether it is a reference. -/
def flags (column : Column) : Bool × Bool := (column.isKey, column.isForeign)

/-- Keys come first, plain columns next, all other references last. -/
def rank (column : Column) : Nat :=
  if column.isKey then 0 else if column.isForeign then 2 else 1

theorem rank_le (column : Column) : column.rank ≤ 2 := by
  unfold rank
  split
  · omega
  · split <;> omega

end Column

namespace Table

def shape (table : Table) : TableKind × List (Bool × Bool) :=
  (table.kind, table.columns.map Column.flags)

/-- The name of a table and those of its columns as they are displayed. -/
def line (table : Table) : String :=
  table.name ++ " ( " ++ String.intercalate ", " (table.displayOrder.map Column.name) ++ " )"

theorem pairwise_displayOrder (table : Table) :
    table.displayOrder.Pairwise fun left right => left.rank ≤ right.rank := by
  have ranked (wanted : Column → Bool) (rank : Nat)
      (same : ∀ column, wanted column = true → column.rank = rank) :
      ∀ column ∈ table.columns.filter wanted, column.rank = rank :=
    fun column member => same column (List.mem_filter.mp member).2
  have keys := ranked (·.isKey) 0 fun column isKey => by simp [Column.rank, isKey]
  have plain := ranked (fun column => !column.isKey && !column.isForeign) 1 fun column is => by
    simp_all [Column.rank]
  have others := ranked (fun column => !column.isKey && column.isForeign) 2 fun column is => by
    simp_all [Column.rank]
  have level {columns : List Column} {rank : Nat}
      (same : ∀ column ∈ columns, column.rank = rank) :
      columns.Pairwise fun left right => left.rank ≤ right.rank :=
    List.pairwise_iff_forall_sublist.mpr fun pair => by
      have both := pair.subset
      rw [same _ (both (by simp)), same _ (both (by simp))]
  rw [displayOrder, List.pairwise_append, List.pairwise_append]
  refine ⟨⟨level keys, level plain, fun first isKey _ _ => ?_⟩, level others,
    fun first _ second isOther => ?_⟩
  · rw [keys first isKey]
    exact Nat.zero_le _
  · rw [others second isOther]
    exact first.rank_le

end Table

namespace Schema

/-- The kinds of the tables and the marks of their columns, without any name. -/
def shape (schema : Schema) : List (TableKind × List (Bool × Bool)) :=
  schema.tables.map Table.shape

theorem shape_baseTables (schema : Schema) :
    (schema.shape.filter fun shape => shape.1 = .entity) = schema.baseTables.map Table.shape :=
  List.filter_map

theorem shape_derivedTables (schema : Schema) :
    (schema.shape.filter fun shape => shape.1 ≠ .entity) = schema.derivedTables.map Table.shape :=
  List.filter_map

end Schema

namespace Html

def columnMarks : Bool × Bool → List String
  | (true, true) => ["<ins>", "<i>", "</i>", "</ins>"]
  | (true, false) => ["<ins>", "</ins>"]
  | (false, true) => ["<i>", "</i>"]
  | (false, false) => []

/-- The marks of the columns in the order in which columns are displayed. -/
def displayedFlags (flags : List (Bool × Bool)) : List (Bool × Bool) :=
  flags.filter (·.1) ++ flags.filter (fun mark => !mark.1 && !mark.2) ++
    flags.filter fun mark => !mark.1 && mark.2

def tableMarks (shape : TableKind × List (Bool × Bool)) : List String :=
  ["<b>", "</b>"] ++ (displayedFlags shape.2).flatMap columnMarks ++ ["<br>"]

def schemaMarks (shape : List (TableKind × List (Bool × Bool))) : List String :=
  let derived := shape.filter fun shape => shape.1 ≠ .entity
  ["<b>", "</b>", "<br>", "<br>"] ++
    (shape.filter fun shape => shape.1 = .entity).flatMap tableMarks ++
    (if derived = [] then [] else ["<br>", "<i>", "</i>", "<br>"] ++ derived.flatMap tableMarks)

theorem map_flags_displayOrder (table : Table) :
    table.displayOrder.map Column.flags = displayedFlags (table.columns.map Column.flags) := by
  simp only [Table.displayOrder, displayedFlags, List.map_append, List.filter_map]
  rfl

theorem writes_column (column : Column) :
    Writes (Html.column column) (columnMarks column.flags) column.name := by
  have name := writes_escape column.name
  unfold Html.column Column.flags
  cases column.isKey with
  | true =>
      cases column.isForeign with
      | true =>
          have opens : Writes "<ins><i>" ["<ins>", "<i>"] "" :=
            ⟨fun _ => rfl, rfl, by decide, fun _ => rfl⟩
          have closes : Writes "</i></ins>" ["</i>", "</ins>"] "" :=
            ⟨fun _ => rfl, rfl, by decide, fun _ => rfl⟩
          exact name.around opens closes
      | false =>
          have opens : Writes "<ins>" ["<ins>"] "" := ⟨fun _ => rfl, rfl, by decide, fun _ => rfl⟩
          have closes : Writes "</ins>" ["</ins>"] "" :=
            ⟨fun _ => rfl, rfl, by decide, fun _ => rfl⟩
          exact name.around opens closes
  | false =>
      cases column.isForeign with
      | true =>
          have opens : Writes "<i>" ["<i>"] "" := ⟨fun _ => rfl, rfl, by decide, fun _ => rfl⟩
          have closes : Writes "</i>" ["</i>"] "" := ⟨fun _ => rfl, rfl, by decide, fun _ => rfl⟩
          exact name.around opens closes
      | false => exact name

theorem writes_table (table : Table) :
    Writes (Html.table table) (tableMarks table.shape) table.line := by
  have opening : Writes "<b>" ["<b>"] "" := ⟨fun _ => rfl, rfl, by decide, fun _ => rfl⟩
  have middle : Writes "</b> ( " ["</b>"] " ( " := ⟨fun _ => rfl, rfl, by decide, fun _ => rfl⟩
  have closing : Writes " )<br>" ["<br>"] " )" := ⟨fun _ => rfl, rfl, by decide, fun _ => rfl⟩
  have comma : Writes ", " [] ", " := ⟨fun _ => rfl, rfl, by decide, fun _ => rfl⟩
  have each (column : Column) (_ : column ∈ table.displayOrder) := writes_column column
  have columns := Writes.intercalate each comma
  have marks : (displayedFlags table.shape.2).flatMap columnMarks =
      table.displayOrder.flatMap fun column => columnMarks column.flags := by
    rw [Table.shape, ← map_flags_displayOrder, List.flatMap_map]
  have whole := (((opening.append (writes_escape table.name)).append middle).append
    columns).append closing
  rw [String.empty_append] at whole
  rw [tableMarks, marks]
  exact whole

/-- What is seen of a whole listing. -/
def seenSchema (schema : Schema) (config : Config) : String :=
  config.schemaHeading ++ String.join (schema.baseTables.map Table.line) ++
    (if schema.derivedTables = [] then ""
    else config.junctionHeading ++ String.join (schema.derivedTables.map Table.line))

theorem writes_tables (tables : List Table) :
    Writes (String.join (tables.map Html.table)) ((tables.map Table.shape).flatMap tableMarks)
      (String.join (tables.map Table.line)) := by
  rw [List.flatMap_map]
  exact .join fun table _ => writes_table table

theorem writes_schema (schema : Schema) (config : Config) :
    Writes (Html.schema schema config) (schemaMarks schema.shape) (seenSchema schema config) := by
  have opens : Writes "<b>" ["<b>"] "" := ⟨fun _ => rfl, rfl, by decide, fun _ => rfl⟩
  have closes : Writes "</b><br><br>" ["</b>", "<br>", "<br>"] "" :=
    ⟨fun _ => rfl, rfl, by decide, fun _ => rfl⟩
  have base := ((writes_escape config.schemaHeading).around opens closes).append
    (writes_tables schema.baseTables)
  unfold Html.schema schemaMarks seenSchema
  rw [schema.shape_baseTables, schema.shape_derivedTables]
  generalize schema.derivedTables = derived
  cases derived with
  | nil => exact base.append .empty
  | cons table rest =>
      have opensNext : Writes "<br><i>" ["<br>", "<i>"] "" :=
        ⟨fun _ => rfl, rfl, by decide, fun _ => rfl⟩
      have closesNext : Writes "</i><br>" ["</i>", "<br>"] "" :=
        ⟨fun _ => rfl, rfl, by decide, fun _ => rfl⟩
      have derived := ((writes_escape config.junctionHeading).around opensNext closesNext).append
        (writes_tables (table :: rest))
      exact base.append derived

/-- Two schemas that differ only in names and sources have the same tags in their
listings, whatever the headings are. No bracket stands outside these tags, and what
is seen are the names themselves: those of the columns of each table follow its own,
each once, keys before plain columns and these before other references. -/
theorem names_bring_no_markup {schema other : Schema} (same : schema.shape = other.shape)
    (config otherConfig : Config) :
    let listing := Html.schema schema config
    tags listing = tags (Html.schema other otherConfig) ∧
      ((pieces listing).flatMap Piece.text = listing.toList ∧ Bracketless (outside listing)) ∧
      visible listing = config.schemaHeading ++ String.join (schema.baseTables.map Table.line) ++
        (if schema.derivedTables = [] then ""
        else config.junctionHeading ++ String.join (schema.derivedTables.map Table.line)) ∧
      ∀ table ∈ schema.tables, table.displayOrder.Perm table.columns ∧
        table.displayOrder.Pairwise fun left right => left.rank ≤ right.rank := by
  intro listing
  have writes := writes_schema schema config
  have otherWrites := writes_schema other otherConfig
  have sameTags : tags listing = tags (Html.schema other otherConfig) := by
    rw [writes.tags, otherWrites.tags, same]
  have seen := writes.visible_eq
  rw [seenSchema] at seen
  exact ⟨sameTags, ⟨text_pieces listing, writes.clean⟩, seen,
    fun table _ => ⟨table.perm_displayOrder, table.pairwise_displayOrder⟩⟩

/-- A name that closes an element, one that opens another, and one that looks as if
it had been escaped before. -/
def hostile : Schema :=
  ⟨[⟨"R&amp;D", .entity, [.foreignKey "<i>" "1 < 2", .plain "</b><br", .key "a"]⟩,
    ⟨">", .junction, [.inheritedKey "&lt;" "R&amp;D"]⟩]⟩

/-- The same columns under harmless names. -/
def harmless : Schema :=
  ⟨[⟨"Team", .entity, [.foreignKey "room" "Building", .plain "head", .key "no"]⟩,
    ⟨"Joins", .junction, [.inheritedKey "no" "Team"]⟩]⟩

theorem names_bring_no_markup_hostile :
    let config := { Config.standard with schemaHeading := "<h1>" }
    let listing := Html.schema hostile config
    hostile.shape = harmless.shape ∧ tags listing = tags (Html.schema harmless Config.standard) ∧
      visible listing = "<h1>R&amp;D ( a, </b><br, <i> )Junction tables:> ( &lt; )" := by
  intro config listing
  have same : hostile.shape = harmless.shape := by decide
  have unmarked := names_bring_no_markup same config Config.standard
  have seen : config.schemaHeading ++ String.join (hostile.baseTables.map Table.line) ++
      (if hostile.derivedTables = [] then ""
      else config.junctionHeading ++ String.join (hostile.derivedTables.map Table.line)) =
        "<h1>R&amp;D ( a, </b><br, <i> )Junction tables:> ( &lt; )" := by cbv
  exact ⟨same, unmarked.1, unmarked.2.2.1.trans seen⟩

end Html

end ErSchema
