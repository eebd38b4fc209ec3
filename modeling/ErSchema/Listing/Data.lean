import ErSchema.Derivation
import ErSchema.Json.Printer

/-! # The derivation as JSON

Tables with their columns in stored order, and the findings. -/

namespace ErSchema.Data

open Json (Value)

def column (column : Column) : Value :=
  .object <|
    [("name", .string column.name), ("is_pk", .bool column.isKey),
      ("is_fk", .bool column.isForeign)] ++
    match column.source with
    | some source => [("source_table", .string source)]
    | none => []

def table (table : Table) : Value :=
  .object
    [("name", .string table.name), ("kind", .string table.kind.name),
      ("columns", .array (table.columns.map column))]

def diagnostic (diagnostic : Diagnostic) : Value :=
  .object
    [("severity", .string diagnostic.severity.name),
      ("message", .string diagnostic.message)]

def derivation (derivation : Derivation) : String :=
  Value.pretty <| .object
    [("tables", .array (derivation.schema.tables.map table)),
      ("diagnostics", .array (derivation.diagnostics.map diagnostic))]

end ErSchema.Data
