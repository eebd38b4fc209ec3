import ErSchema.Schema
import ErSchema.Text.Width

/-! # The listing as boxed text

One box a table: the name, a rule, and a row for each column with its role in
front. All lines of a box are equally wide on a terminal. -/

namespace ErSchema.Box

def title (table : Table) : String :=
  match table.kind with
  | .entity => table.name
  | .junction => table.name ++ " (junction)"
  | .multivalued => table.name ++ " (multivalued)"

def marker (column : Column) : String :=
  match column.isKey, column.isForeign with
  | true, true => "PK FK"
  | true, false => "PK   "
  | false, true => "   FK"
  | false, false => "     "

def row (column : Column) : String :=
  let reference :=
    match column.source, column.isForeign with
    | some source, true => " → " ++ source
    | _, _ => ""
  marker column ++ " " ++ column.name ++ reference

def rule (width : Nat) : String :=
  String.ofList (List.replicate (width + 2) '─')

def framed (width : Nat) (text : String) : String :=
  "│ " ++ Text.padRight text width ++ " │"

def lines (table : Table) : List String :=
  let rows := table.displayOrder.map row
  let width := Text.maxWidth (rows ++ [title table])
  let body :=
    match rows with
    | [] => []
    | rows => ("├" ++ rule width ++ "┤") :: rows.map (framed width)
  ("┌" ++ rule width ++ "┐") :: framed width (title table) :: body ++
    ["└" ++ rule width ++ "┘"]

def table (table : Table) : String :=
  String.intercalate "\n" (lines table)

def schema (schema : Schema) : String :=
  String.intercalate "\n\n" (schema.tables.map table)

end ErSchema.Box
