import ErSchema.Table

/-! # Relational schemas

The tables of the entities come first, then the tables derived from them. -/

namespace ErSchema

structure Schema where
  tables : List Table
  deriving DecidableEq, Repr

namespace Schema

def table? (schema : Schema) (name : String) : Option Table :=
  schema.tables.find? fun table => table.name = name

def baseTables (schema : Schema) : List Table :=
  schema.tables.filter fun table => table.kind = .entity

def derivedTables (schema : Schema) : List Table :=
  schema.tables.filter fun table => table.kind ≠ .entity

end Schema

end ErSchema
