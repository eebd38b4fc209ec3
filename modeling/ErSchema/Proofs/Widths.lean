import ErSchema.Proofs.FinalTables

/-! # How many columns relationships add

Whatever is folded into a table or imported into a junction finds a free name, so
nothing is lost: how many columns there are in the end depends on how long the
keys and the lists of attributes are, and not on how the columns are called. -/

namespace ErSchema

namespace Table

theorem length_columns_foreignKeys (target : Node) (role : String) (keys : List Column)
    (table : Table) :
    (keys.foldl (Resolution.pushForeignKey target role) table).columns.length =
      table.columns.length + keys.length := by
  have free : ∀ (table : Table) (key : Column),
      (Column.foreignKey (table.uniqueName (role ++ key.name) target.name) target.name).name ∉
        table.names := fun table key => table.uniqueName_free _ target.name
  rcases foldl_push free keys table with ⟨added, columns, made⟩
  change keys.foldl (Resolution.pushForeignKey target role) table = _ at columns
  rw [columns, List.length_append, made.length_eq]

end Table

namespace TableMap

/-- The number of columns in the table of a node. -/
def width? (tables : TableMap) (id : String) : Option Nat :=
  (tables.get? id).map (·.columns.length)

/-- Each table has so many more columns as is said for its node. -/
def Widens (added : String → Nat) (before after : TableMap) : Prop :=
  ∀ id, after.width? id = (before.width? id).map (· + added id)

namespace Widens

theorem refl (tables : TableMap) : Widens (fun _ => 0) tables tables := by
  intro id
  simp

theorem trans {first second third : TableMap} {added more : String → Nat}
    (earlier : Widens added first second) (later : Widens more second third) :
    Widens (fun id => added id + more id) first third := by
  intro id
  rw [later, earlier, Option.map_map]
  simp [Function.comp_def, Nat.add_assoc]

theorem modify {tables : TableMap} {id : String} {change : Table → Table} {amount : Nat}
    (widens : ∀ table, (change table).columns.length = table.columns.length + amount) :
    Widens (fun other => if id = other then amount else 0) tables (tables.modify id change) := by
  intro other
  unfold width?
  rw [get?_modify]
  by_cases same : id = other
  · subst same
    simp [Function.comp_def, widens]
  · simp [same, Ne.symm same, Function.comp_def]

end Widens

end TableMap

open TableMap (Widens SameKeys)

namespace Resolution

/-! ## One relationship -/

/-- The participant that takes a key and the one that it is taken from, unless
both are on a many side. -/
def reference? (first second : Neighbor) : Option (Node × Node) :=
  match Shape.classify first.card second.card with
  | .manyToMany => none
  | .oneToMany .first => some (first.node, second.node)
  | .oneToMany .second => some (second.node, first.node)
  | .oneToOne => some (first.node, second.node)

def references (index : Adjacency) (relationship : Node) : List (Node × Node) :=
  let participants := index.entityNeighbors relationship.id
  if isIdentifying relationship (participants.map (·.node)) then []
  else
    match participants with
    | [first, second] => (reference? first second).toList
    | _ => []

/-- How many columns the table of a node takes by one reference. -/
def taken (tables : TableMap) (id : String) (reference : Node × Node) : Nat :=
  if reference.1.id = id then (tables.primaryKey reference.2.id).length else 0

/-- How many columns the relationship adds to the table of a node: those of the
keys that it takes, and all stored attributes as often as it is a holder. -/
def added (index : Adjacency) (links : List Ownership) (tables : TableMap) (relationship : Node)
    (id : String) : Nat :=
  ((references index relationship).map (taken tables id)).sum +
    ((holders index links relationship).map Node.id).count id *
      (index.attributesOf relationship).stored.length

theorem added_congr {left right : TableMap} (same : SameKeys left right) (index : Adjacency)
    (links : List Ownership) (relationship : Node) (id : String) :
    added index links right relationship id = added index links left relationship id := by
  have sameTaken : taken right id = taken left id := by
    funext reference
    rw [taken, taken, same.primaryKey_eq]
  rw [added, added, sameTaken]

section
variable (state : Resolution) (relationship : Node) (attributes : Attributes)

theorem widens_foldKey (holder target : Node) (role : String) :
    Widens (fun id => taken state.tables id (holder, target)) state.tables
      (state.foldKey holder target role).tables :=
  .modify fun table => Table.length_columns_foreignKeys target role _ table

theorem widens_foldl_foldAttributes (holders : List Node) :
    Widens (fun id => (holders.map Node.id).count id * attributes.stored.length) state.tables
      (holders.foldl (fun state holder => state.foldAttributes relationship attributes holder)
        state).tables := by
  intro id
  rw [TableMap.width?, get?_foldl_foldAttributes, TableMap.width?, Option.map_map, Option.map_map]
  simp [Function.comp_def, Table.length_columns_iterate_receive]

theorem widens_foldInto (holder target : Node) (role : String) :
    Widens (fun id => taken state.tables id (holder, target) +
        [holder.id].count id * attributes.stored.length) state.tables
      (state.foldInto relationship attributes holder target role).tables := by
  let keyed := state.foldKey holder target (if holder.id = target.id then role else "")
  have key : Widens _ state.tables keyed.tables := widens_foldKey state holder target _
  exact key.trans (widens_foldl_foldAttributes keyed relationship attributes [holder])

theorem widens_resolveBinary (first second : Neighbor) :
    Widens (fun id => ((reference? first second).toList.map (taken state.tables id)).sum +
        ((holderOf? first second).toList.map Node.id).count id * attributes.stored.length)
      state.tables (state.resolveBinary relationship attributes first second).tables := by
  unfold Resolution.resolveBinary holderOf? reference?
  cases Shape.classify first.card second.card with
  | manyToMany => simpa [pushJunction, derive] using Widens.refl state.tables
  | oneToMany side =>
      cases side with
      | first => simpa using widens_foldInto state relationship attributes first.node second.node _
      | second => simpa using widens_foldInto state relationship attributes second.node first.node _
  | oneToOne =>
      simpa using widens_foldInto (state.report _) relationship attributes first.node second.node _

end

theorem widens_resolveOne (index : Adjacency) (links : List Ownership) (state : Resolution)
    (relationship : Node) :
    Widens (added index links state.tables relationship) state.tables
      (resolveOne index links state relationship).tables := by
  unfold resolveOne added references holders
  dsimp only
  split
  case isTrue =>
    simpa using widens_foldl_foldAttributes (state.report _) relationship
      (index.attributesOf relationship) _
  case isFalse =>
    match index.entityNeighbors relationship.id with
    | [] => simpa using Widens.refl state.tables
    | [_] => simpa using Widens.refl state.tables
    | [first, second] => exact widens_resolveBinary (state.report _) relationship _ first second
    | _ :: _ :: _ :: _ => simpa [pushJunction, derive] using Widens.refl state.tables

/-- Each relationship adds what it adds to the tables as they were at first, since
the others leave the keys alone. -/
theorem widens_foldl_resolveOne (index : Adjacency) (links : List Ownership)
    (relationships : List Node) (state : Resolution) :
    Widens (fun id => (relationships.map fun relationship =>
        added index links state.tables relationship id).sum) state.tables
      (relationships.foldl (resolveOne index links) state).tables := by
  induction relationships generalizing state with
  | nil => exact .refl state.tables
  | cons relationship rest induction =>
      have same := (Adds.resolveOne index links state relationship).tables.sameKeys
      have others := induction (resolveOne index links state relationship)
      simp only [added_congr same] at others
      exact (widens_resolveOne index links state relationship).trans others

end Resolution

/-! ## Junction tables -/

namespace Junction

theorem length_importedKeys (tables : TableMap) (met : List String) (participants : List Node) :
    (importedKeys tables met participants).length =
      (participants.map fun participant => (tables.primaryKey participant.id).length).sum := by
  induction participants generalizing met with
  | nil => rfl
  | cons participant rest induction =>
      simp only [importedKeys, List.length_append, List.length_map, induction, List.map_cons,
        List.sum_cons]

theorem filter_isKey_importedKeys (tables : TableMap) (met : List String)
    (participants : List Node) :
    (importedKeys tables met participants).filter (·.isKey) =
      importedKeys tables met participants := by
  refine List.filter_eq_self.mpr fun column member => ?_
  rcases mem_importedKeys member with ⟨_, _, _, _, rfl⟩
  rfl

end Junction

/-- A junction table has its own attributes and the keys of all participants. -/
theorem length_junctionTable (relationship : Node) (attributes : Attributes)
    (participants : List Node) (tables : TableMap) :
    let table := junctionTable relationship attributes participants tables
    let imported :=
      (participants.map fun participant => (tables.primaryKey participant.id).length).sum
    table.columns.length = attributes.stored.length + imported ∧
      table.primaryKey.length = attributes.primaryKeys.length + imported := by
  intro table imported
  rcases junctionTable_columns relationship attributes participants tables with
    ⟨columns, equal, made⟩
  have length : (Junction.importedKeys tables [] participants).length = imported :=
    Junction.length_importedKeys tables [] participants
  have counted (list : List Column) :
      (list.filter (·.isKey)).length = (list.map (·.isKey)).countP id := by
    rw [List.countP_map, ← List.countP_eq_length_filter]
    rfl
  have isKey : columns.map (·.isKey) =
      (Junction.candidates attributes participants tables).map (·.isKey) := by
    refine map_eq_of_forall₂ made fun candidate column renamed => ?_
    rcases renamed with ⟨name, rfl⟩
    rfl
  have keys : (Junction.candidates attributes participants tables).filter (·.isKey) =
      attributes.primaryKeys.map .key ++ Junction.importedKeys tables [] participants := by
    simp [Junction.candidates, Junction.filter_isKey_importedKeys, List.filter_map, Column.key,
      Column.plain, Function.comp_def]
  have columnsEq : table.columns = columns := congrArg Table.columns equal
  constructor
  · rw [columnsEq, ← made.length_eq, Junction.candidates, List.length_append, length]
    simp [Attributes.stored]
  · rw [Table.primaryKey, columnsEq, counted, isKey, ← counted, keys, List.length_append, length,
      List.length_map]

end ErSchema
