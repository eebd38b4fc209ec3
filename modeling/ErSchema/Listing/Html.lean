import ErSchema.Config
import ErSchema.Schema

/-! # The listing as an HTML fragment

Keys are underlined and foreign keys slanted. All text is escaped, so a name
cannot bring markup of its own. -/

namespace ErSchema.Html

def replace (target : Char) (replacement : List Char) (text : List Char) : List Char :=
  text.flatMap fun character => if character = target then replacement else [character]

/-- The ampersand goes first, because the other replacements write one. -/
def escapeChars (text : List Char) : List Char :=
  replace '"' "&quot;".toList <| replace '>' "&gt;".toList <|
    replace '<' "&lt;".toList <| replace '&' "&amp;".toList text

def escape (text : String) : String :=
  String.ofList (escapeChars text.toList)

example : escapeChars "&lt;".toList = "&amp;lt;".toList := by decide +kernel

def column (column : Column) : String :=
  let name := escape column.name
  match column.isKey, column.isForeign with
  | true, true => "<ins><i>" ++ name ++ "</i></ins>"
  | true, false => "<ins>" ++ name ++ "</ins>"
  | false, true => "<i>" ++ name ++ "</i>"
  | false, false => name

def table (table : Table) : String :=
  "<b>" ++ escape table.name ++ "</b> ( " ++
    String.intercalate ", " (table.displayOrder.map column) ++ " )<br>"

/-- The derived tables have a heading of their own if there are any. -/
def schema (schema : Schema) (config : Config) : String :=
  let derived :=
    match schema.derivedTables with
    | [] => ""
    | tables =>
        "<br><i>" ++ escape config.junctionHeading ++ "</i><br>" ++
          String.join (tables.map table)
  "<b>" ++ escape config.schemaHeading ++ "</b><br><br>" ++
    String.join (schema.baseTables.map table) ++ derived

end ErSchema.Html
