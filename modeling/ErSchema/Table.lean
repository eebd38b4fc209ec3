import ErSchema.Decimal.Digits

/-! # Columns and tables

A column may belong to the primary key, refer to another table, or both. A
table takes a column only if the name is free, so every routine that must not
lose a column first asks for a free name. -/

namespace ErSchema

structure Column where
  name : String
  isKey : Bool
  isForeign : Bool
  source : Option String
  deriving DecidableEq, Repr

namespace Column

def key (name : String) : Column := ⟨name, true, false, none⟩
def plain (name : String) : Column := ⟨name, false, false, none⟩
def foreignKey (name source : String) : Column := ⟨name, false, true, some source⟩
def inheritedKey (name source : String) : Column := ⟨name, true, true, some source⟩

def renamed (column : Column) (name : String) : Column :=
  { column with name := name }

end Column

inductive TableKind where
  | entity
  | junction
  | multivalued
  deriving DecidableEq, Repr

def TableKind.name : TableKind → String
  | .entity => "entity"
  | .junction => "junction"
  | .multivalued => "multivalued"

structure Table where
  name : String
  kind : TableKind
  columns : List Column
  deriving DecidableEq, Repr

namespace Table

def empty (name : String) (kind : TableKind) : Table := ⟨name, kind, []⟩

def column? (table : Table) (name : String) : Option Column :=
  table.columns.find? fun column => column.name = name

def has (table : Table) (name : String) : Bool :=
  table.columns.any fun column => column.name = name

/-- Append a column unless its name is taken. -/
def push (table : Table) (column : Column) : Table :=
  if table.has column.name then table
  else { table with columns := table.columns ++ [column] }

def pushAll (table : Table) (columns : List Column) : Table :=
  columns.foldl push table

def updateColumns (name : String) (change : Column → Column) : List Column → List Column
  | [] => []
  | column :: rest =>
      if column.name = name then change column :: rest
      else column :: updateColumns name change rest

/-- Change the column of that name where it stands. -/
def update (table : Table) (name : String) (change : Column → Column) : Table :=
  { table with columns := updateColumns name change table.columns }

def primaryKey (table : Table) : List Column :=
  table.columns.filter (·.isKey)

def foreignKeys (table : Table) : List Column :=
  table.columns.filter (·.isForeign)

/-- Keys first, then plain columns, then the remaining foreign keys. -/
def displayOrder (table : Table) : List Column :=
  table.columns.filter (·.isKey) ++
    table.columns.filter (fun column => !column.isKey && !column.isForeign) ++
    table.columns.filter (fun column => !column.isKey && column.isForeign)

/-! ## Free names

A table with `n` columns leaves one of any `n + 1` names free, so the search
for a numbered name is a search through a list. -/

def suffixed (name : String) (number : Nat) : String :=
  name ++ "_" ++ Decimal.natText number

/-- The name itself, or the name with the smallest free number from two on. -/
def numberedName (table : Table) (name : String) : String :=
  if table.has name then
    (((List.range' 2 table.columns.length).map (suffixed name)).find? fun candidate =>
      !table.has candidate).getD name
  else name

/-- A taken name is qualified before it is numbered. -/
def uniqueName (table : Table) (candidate qualifier : String) : String :=
  if table.has candidate then table.numberedName (qualifier ++ "_" ++ candidate)
  else candidate

/-! ## The table of a multivalued attribute -/

def valueQualifier : String := "value"

/-- Keyed by the whole key of the owner together with the value. -/
def multivalued (owner : Table) (attributeName : String) : Table :=
  let keyed := (empty (owner.name ++ "_" ++ attributeName) .multivalued).pushAll
    (owner.primaryKey.map fun key => .inheritedKey key.name owner.name)
  keyed.push (.key (keyed.uniqueName attributeName valueQualifier))

example :
    let owner := (empty "Tag" .entity).push (.key "label")
    (owner.multivalued "label").columns.map (·.name) = ["label", "value_label"] := by
  decide +kernel

end Table

end ErSchema
