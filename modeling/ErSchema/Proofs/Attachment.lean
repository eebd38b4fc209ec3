import ErSchema.Proofs.Folding
import Mathlib.Logic.Function.Iterate

/-! # What a table receives from a relationship

The attributes of a relationship are folded into a table as plain columns, one
for each. Folding into several tables in turn changes each as often as it is
among them. -/

namespace ErSchema

/-- The column is a plain one under the name of the attribute, under that name
qualified by the relationship, or numbered after that. -/
def Column.StandsFor (relationship : Node) (attributeName : String) (column : Column) : Prop :=
  ∃ name, column = .plain name ∧
    (name = attributeName ∨ name = relationship.name ++ "_" ++ attributeName ∨
      ∃ number, 2 ≤ number ∧
        name = Table.suffixed (relationship.name ++ "_" ++ attributeName) number)

namespace Table

/-- One further column for each of the attributes, and nothing else. -/
structure Receives (relationship : Node) (attributeNames : List String)
    (before after : Table) : Prop where
  name : after.name = before.name
  kind : after.kind = before.kind
  columns : ∃ added, after.columns = before.columns ++ added ∧
    List.Forall₂ (Column.StandsFor relationship) attributeNames added

namespace Receives

variable {relationship : Node} {attributeNames : List String} {before after : Table}

theorem refl (relationship : Node) (table : Table) : table.Receives relationship [] table :=
  ⟨rfl, rfl, [], (List.append_nil _).symm, .nil⟩

theorem length_columns (receives : before.Receives relationship attributeNames after) :
    after.columns.length = before.columns.length + attributeNames.length := by
  rcases receives.columns with ⟨added, columns, pairs⟩
  rw [columns, List.length_append, pairs.length_eq]

end Receives

/-- The table with the columns of a relationship's attributes. -/
def receive (relationship : Node) (attributeNames : List String) (table : Table) : Table :=
  attributeNames.foldl (Resolution.pushAttribute relationship) table

theorem standsFor_uniqueName (relationship : Node) (table : Table) (attributeName : String) :
    (Column.plain (table.uniqueName attributeName relationship.name)).StandsFor relationship
      attributeName := by
  refine ⟨_, rfl, ?_⟩
  unfold uniqueName
  split
  case isTrue => exact .inr (numberedName_eq table _)
  case isFalse => exact .inl rfl

theorem receives_receive (relationship : Node) (attributeNames : List String)
    (table : Table) :
    table.Receives relationship attributeNames (table.receive relationship attributeNames) := by
  have free : ∀ (table : Table) (name : String),
      (Column.plain (table.uniqueName name relationship.name)).name ∉ table.names :=
    fun table name => table.uniqueName_free name relationship.name
  rcases foldl_push free attributeNames table with ⟨added, columns, made⟩
  change receive relationship attributeNames table = _ at columns
  rw [columns]
  refine ⟨rfl, rfl, added, rfl, made.imp fun name column both => ?_⟩
  rcases both with ⟨earlier, rfl⟩
  exact standsFor_uniqueName relationship earlier name

/-- What is received are plain columns. -/
theorem appends_receive {allowed : Column → Prop} (plain : ∀ name, allowed (.plain name))
    (relationship : Node) (attributeNames : List String) (table : Table) :
    table.Appends allowed (table.receive relationship attributeNames) := by
  have receives := receives_receive relationship attributeNames table
  rcases receives.columns with ⟨added, columns, pairs⟩
  refine ⟨receives.name, receives.kind, added, columns, fun column member => ?_⟩
  rcases exists_left_of_forall₂ pairs member with ⟨_, _, name, rfl, _⟩
  exact plain name

theorem length_columns_iterate_receive (relationship : Node) (attributeNames : List String)
    (times : Nat) (table : Table) :
    ((receive relationship attributeNames)^[times] table).columns.length =
      table.columns.length + times * attributeNames.length := by
  induction times with
  | zero => simp
  | succ times induction =>
      rw [Function.iterate_succ_apply', (receives_receive _ _ _).length_columns, induction,
        Nat.succ_mul, Nat.add_assoc]

end Table

namespace Resolution

theorem get?_foldAttributes (state : Resolution) (relationship : Node)
    (attributes : Attributes) (holder : Node) (id : String) :
    (state.foldAttributes relationship attributes holder).tables.get? id =
      if holder.id = id then
        (state.tables.get? id).map (Table.receive relationship attributes.stored)
      else state.tables.get? id := by
  unfold foldAttributes
  split
  case h_1 missing =>
    split
    case isTrue same => rw [← same, missing, Option.map_none]
    case isFalse => rfl
  case h_2 table found =>
    dsimp only
    rw [TableMap.get?_modify]
    by_cases same : holder.id = id
    · simp [← same, found, Table.receive]
    · simp [same, Ne.symm same]

/-- Each table receives the columns as often as it is among the holders. -/
theorem get?_foldl_foldAttributes (relationship : Node) (attributes : Attributes)
    (holders : List Node) (state : Resolution) (id : String) :
    (holders.foldl (fun state holder => state.foldAttributes relationship attributes holder)
      state).tables.get? id =
      (state.tables.get? id).map
        (Table.receive relationship attributes.stored)^[(holders.map Node.id).count id] := by
  induction holders generalizing state with
  | nil => simp
  | cons holder rest induction =>
      rw [List.foldl_cons, induction, get?_foldAttributes, List.map_cons, List.count_cons]
      by_cases same : holder.id = id
      · simp [same, Function.iterate_succ]
      · simp [same]

end Resolution

end ErSchema
