import ErSchema.Table

/-! # Tables by node

The tables of the entities, in the order in which they were first inserted. -/

namespace ErSchema

structure TableMap where
  entries : List (String × Table)

namespace TableMap

def empty : TableMap := ⟨[]⟩

def get? (tables : TableMap) (id : String) : Option Table :=
  (tables.entries.find? fun entry => entry.1 = id).map (·.2)

/-- Change the table of a node where it stands; the first entry of that node
counts. -/
def modifyEntries (id : String) (change : Table → Table) :
    List (String × Table) → List (String × Table)
  | [] => []
  | entry :: rest =>
      if entry.1 = id then (entry.1, change entry.2) :: rest
      else entry :: modifyEntries id change rest

def modify (tables : TableMap) (id : String) (change : Table → Table) : TableMap :=
  ⟨modifyEntries id change tables.entries⟩

/-- A known node keeps its place. -/
def insert (tables : TableMap) (id : String) (table : Table) : TableMap :=
  if (tables.get? id).isSome then tables.modify id fun _ => table
  else ⟨tables.entries ++ [(id, table)]⟩

def primaryKey (tables : TableMap) (id : String) : List Column :=
  ((tables.get? id).map (·.primaryKey)).getD []

def toTables (tables : TableMap) : List Table :=
  tables.entries.map (·.2)

def size (tables : TableMap) : Nat :=
  tables.entries.length

def isEmpty (tables : TableMap) : Bool :=
  tables.entries.isEmpty

example :
    let first := Table.empty "A" .entity
    let second := Table.empty "B" .entity
    (((empty.insert "x" first).insert "y" second).insert "x" second).toTables =
      [second, second] := by
  decide

end TableMap

end ErSchema
