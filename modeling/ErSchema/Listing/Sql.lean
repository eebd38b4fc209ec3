import ErSchema.Config
import ErSchema.Schema
import ErSchema.Text.Blank

/-! # The schema as an SQL script

Names are not quoted. A name with blanks is joined by underscores, so that no
blank inside a statement comes from a name. -/

namespace ErSchema.Sql

/-- The file that a directory receives. -/
def scriptName : String := "database.sql"

def indent : String := "    "

def identifier (name : String) : String :=
  String.intercalate "_" ((Text.words name.toList).map String.ofList)

def columnLine (columnType : String) (column : Column) : String :=
  indent ++ identifier column.name ++ " " ++ columnType

def primaryKeyLine (keys : List Column) : String :=
  indent ++ "PRIMARY KEY (" ++
    String.intercalate ", " (keys.map fun key => identifier key.name) ++ ")"

/-- The referenced column has the name of the referring one. -/
def foreignKeyLine (column : Column) : String :=
  let name := identifier column.name
  let target := (column.source.map identifier).getD ""
  indent ++ "FOREIGN KEY (" ++ name ++ ") REFERENCES " ++ target ++ "(" ++ name ++ ")"

def lines (table : Table) (columnType : String) : List String :=
  table.displayOrder.map (columnLine columnType) ++
    (match table.primaryKey with
    | [] => []
    | keys => [primaryKeyLine keys]) ++
    table.foreignKeys.map foreignKeyLine

def createTable (table : Table) (columnType : String) : String :=
  "CREATE TABLE " ++ identifier table.name ++ " (\n" ++
    String.intercalate ",\n" (lines table columnType) ++ "\n);\n"

def script (schema : Schema) (config : Config) : String :=
  config.sqlHeader ++ "\n\n" ++
    String.join (schema.tables.map fun table =>
      createTable table config.columnType ++ "\n")

end ErSchema.Sql
