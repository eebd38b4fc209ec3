import ErSchema.Proofs.Attributes.Distance
import ErSchema.Proofs.Inert
import Mathlib

/-! # The columns an entity begins with

Before any key flows, the table of an entity has the columns that its stored leaves
give it. A column whose name is there already is not pushed, and no other name is
looked for, so leaves of one name share one column: no leaf is lost exactly if the
stored names are distinct. -/

namespace ErSchema

theorem length_firstBy_iff {α β : Type} [DecidableEq β] {key : α → β} {members : List α} :
    (firstBy key members).length = members.length ↔ (members.map key).Nodup := by
  constructor
  · intro same
    have all : firstBy key members = members := (firstBy_sublist key members).eq_of_length same
    exact List.pairwise_map.mpr (all ▸ pairwise_firstBy key members)
  · exact fun distinct => congrArg List.length (firstBy_of_nodup distinct)

/-- Of the columns pushed, the first of each name that the table does not have. -/
theorem Table.columns_pushAll (table : Table) (columns : List Column) :
    (table.pushAll columns).columns =
      table.columns ++ (firstBy Column.name columns).filter fun column =>
        column.name ∉ table.names := by
  induction columns generalizing table with
  | nil => simp [pushAll, firstBy]
  | cons column rest induction =>
      change ((table.push column).pushAll rest).columns = _
      rw [induction, firstBy]
      by_cases taken : column.name ∈ table.names
      · rw [push_of_mem taken, List.filter_cons_of_neg (by simpa using taken), List.filter_filter]
        refine congrArg _ (List.filter_congr fun later _ => ?_)
        have apart : later.name ∉ table.names → later.name ≠ column.name :=
          fun free same => free (same ▸ taken)
        simpa using apart
      · rw [push_of_not_mem taken, List.filter_cons_of_pos (by simpa using taken),
          List.filter_filter, List.append_assoc, List.singleton_append]
        refine congrArg _ (congrArg _ (List.filter_congr fun later _ => ?_))
        simp [names, not_or]

/-- The column of a stored leaf. -/
def Node.ownColumn (leaf : Node) : Column :=
  if leaf.isPrimaryKey then .key leaf.name else .plain leaf.name

theorem Node.ownColumn_name (leaf : Node) : leaf.ownColumn.name = leaf.name := by
  unfold ownColumn
  split <;> rfl

/-- An attribute with a name that is neither multivalued nor derived. -/
structure Node.IsStored (leaf : Node) : Prop where
  named : leaf.name ≠ ""
  single : leaf.kind ≠ .ofAttribute .multivalued
  given : leaf.kind ≠ .ofAttribute .derived

theorem Node.IsStored.roleOf?_eq {leaf : Node} (isStored : leaf.IsStored) :
    Attributes.roleOf? leaf = some (if leaf.isPrimaryKey then .primaryKey else .ordinary) := by
  rw [Attributes.roleOf?, if_neg isStored.named]
  split
  case h_1 multivalued => exact absurd multivalued isStored.single
  case h_2 derived => exact absurd derived isStored.given
  case h_3 => exact (apply_ite some ..).symm

theorem Node.isStored_of_roleOf? {leaf : Node} {role : Attributes.Role}
    (stored : Attributes.roleOf? leaf = some role) (single : role ≠ .multivalued) :
    leaf.IsStored := by
  unfold Attributes.roleOf? at stored
  split at stored
  case isTrue => cases stored
  case isFalse named =>
    split at stored
    case h_1 => exact absurd (Option.some.inj stored).symm single
    case h_2 => cases stored
    case h_3 notMultivalued notDerived => exact ⟨named, notMultivalued, notDerived⟩

theorem Node.ownColumn_of_roleOf? {leaf : Node} {role : Attributes.Role}
    (stored : Attributes.roleOf? leaf = some role) (single : role ≠ .multivalued) :
    leaf.ownColumn = if role = .primaryKey then .key leaf.name else .plain leaf.name := by
  rw [(Node.isStored_of_roleOf? stored single).roleOf?_eq, Option.some.injEq] at stored
  rw [← stored, ownColumn]
  cases leaf.isPrimaryKey <;> rfl

namespace Adjacency

/-- The leaves stored in the table of the owner, those of its key first. -/
def storedLeaves (index : Adjacency) (owner : String) : List Node :=
  let leavesAs (role : Attributes.Role) : List Node :=
    (index.leaves owner).filter fun leaf => Attributes.roleOf? leaf = some role
  leavesAs .primaryKey ++ leavesAs .ordinary

theorem names_storedLeaves (index : Adjacency) (owner : Node) :
    (index.storedLeaves owner.id).map Node.name = (index.attributesOf owner).stored :=
  List.map_append

variable {index : Adjacency} (wellFormed : index.WellFormed) (owner : String)
include wellFormed

theorem mem_storedLeaves {leaf : Node} :
    leaf ∈ index.storedLeaves owner ↔ index.IsLeaf owner leaf ∧ leaf.IsStored := by
  simp only [storedLeaves, List.mem_append, List.mem_filter, decide_eq_true_eq, ← and_or_left,
    wellFormed.mem_leaves]
  refine and_congr_right fun _ => ⟨?_, fun isStored => ?_⟩
  · rintro (key | plain)
    · exact Node.isStored_of_roleOf? key (by decide)
    · exact Node.isStored_of_roleOf? plain (by decide)
  · rw [isStored.roleOf?_eq]
    cases leaf.isPrimaryKey <;> simp

theorem nodup_storedLeaves : ((index.storedLeaves owner).map Node.id).Nodup := by
  have leaves := wellFormed.nodup_leaves owner
  have leavesAs (role : Attributes.Role) := leaves.sublist
    ((List.filter_sublist (p := fun leaf => Attributes.roleOf? leaf = some role)).map Node.id)
  rw [storedLeaves, List.map_append]
  refine (leavesAs .primaryKey).append (leavesAs .ordinary) fun id isKey isPlain => ?_
  rcases List.mem_map.mp isKey with ⟨key, keyMember, rfl⟩
  rcases List.mem_map.mp isPlain with ⟨plain, plainMember, sameId⟩
  rcases List.mem_filter.mp keyMember with ⟨keyLeaf, keyRole⟩
  rcases List.mem_filter.mp plainMember with ⟨plainLeaf, plainRole⟩
  have same : plain = key := List.inj_on_of_nodup_map leaves plainLeaf keyLeaf sameId
  simp only [same, decide_eq_true_eq] at keyRole plainRole
  exact absurd (keyRole.symm.trans plainRole) (by decide)

end Adjacency

namespace Derivation

theorem columns_entityTable (index : Adjacency) (entity : Node) :
    (entityTable entity (index.attributesOf entity)).columns =
      firstBy Column.name ((index.storedLeaves entity.id).map Node.ownColumn) := by
  have columns : (index.attributesOf entity).primaryKeys.map Column.key ++
      (index.attributesOf entity).ordinary.map .plain =
        (index.storedLeaves entity.id).map Node.ownColumn := by
    have listed {role : Attributes.Role} (single : role ≠ .multivalued) (leaf : Node)
        (member : leaf ∈ (index.leaves entity.id).filter fun leaf =>
          Attributes.roleOf? leaf = some role) :=
      Node.ownColumn_of_roleOf? (of_decide_eq_true (List.mem_filter.mp member).2) single
    rw [Adjacency.storedLeaves, List.map_append]
    simp only [Adjacency.attributesOf, Attributes.ofLeaves, List.map_map]
    congr 1
    · exact List.map_congr_left fun leaf member => (listed (by decide) leaf member).symm
    · exact List.map_congr_left fun leaf member => (listed (by decide) leaf member).symm
  rw [entityTable, columns, Table.columns_pushAll]
  simp [Table.empty, Table.names]

/-- The table of the entity begins with a column for each stored name. -/
def KeepsAll (index : Adjacency) (entity : Node) : Prop :=
  ∃ table, (baseTables index).get? entity.id = some table ∧
    table.columns.length = (index.attributesOf entity).stored.length

/-- Each stored leaf of an entity has a column of its own if and only if no two of
them have the same name; the first leaf of a name gives its column. -/
theorem keepsAll_iff (diagram : Diagram) :
    let index := Adjacency.ofDiagram diagram
    ∀ entity ∈ index.entities,
      (KeepsAll index entity ↔ (index.attributesOf entity).stored.Nodup) ∧
        ∃ table, (baseTables index).get? entity.id = some table ∧
          table.columns =
            firstBy Column.name ((index.storedLeaves entity.id).map Node.ownColumn) ∧
          (index.storedLeaves entity.id).map Node.name = (index.attributesOf entity).stored ∧
          ((index.storedLeaves entity.id).map Node.id).Nodup ∧
          ∀ leaf, leaf ∈ index.storedLeaves entity.id ↔
            index.IsLeaf entity.id leaf ∧ leaf.IsStored := by
  intro index entity isEntity
  have wellFormed : index.WellFormed := Adjacency.wellFormed_ofDiagram diagram
  have found := get?_baseTables wellFormed isEntity
  have columns := columns_entityTable index entity
  have names := index.names_storedLeaves entity
  refine ⟨?_, _, found, columns, names, Adjacency.nodup_storedLeaves wellFormed _,
    fun leaf => Adjacency.mem_storedLeaves wellFormed _⟩
  have sameNames : ((index.storedLeaves entity.id).map Node.ownColumn).map Column.name =
      (index.attributesOf entity).stored := by
    rw [← names, List.map_map]
    exact List.map_congr_left fun leaf _ => leaf.ownColumn_name
  rw [← sameNames, ← length_firstBy_iff, ← columns, KeepsAll, found, ← sameNames]
  simp

/-- A customer with a billing address and a shipping address, which may both have a
street. -/
def customers (isShared : Bool) : Diagram where
  nodes := [Node.entity "c" "Customer", (Node.simpleAttribute "k" "no").primaryKey,
    Node.simpleAttribute "b" "billing", Node.simpleAttribute "b1" "street",
    Node.simpleAttribute "b2" "city", Node.simpleAttribute "s" "shipping",
    Node.simpleAttribute "s1" (if isShared then "street" else "dropoff")]
  edges := [.between "c" "k", .between "c" "b", .between "b" "b1", .between "b" "b2",
    .between "c" "s", .between "s" "s1"]

theorem mem_entities_customers (isShared : Bool) :
    Node.entity "c" "Customer" ∈ (Adjacency.ofDiagram (customers isShared)).entities := by
  have only : (Adjacency.ofDiagram (customers isShared)).entities =
      [Node.entity "c" "Customer"] := by
    cases isShared <;> cbv
  rw [only]
  exact List.mem_cons_self

theorem keepsAll_iff_customers :
    KeepsAll (Adjacency.ofDiagram (customers false)) (Node.entity "c" "Customer") := by
  have stored : ((Adjacency.ofDiagram (customers false)).attributesOf
      (Node.entity "c" "Customer")).stored = ["no", "street", "city", "dropoff"] := by cbv
  refine (keepsAll_iff (customers false) _ (mem_entities_customers false)).1.mpr ?_
  rw [stored]
  decide

/-- With a street in both addresses, the second one has no column. -/
theorem not_keepsAll :
    ¬ ∀ diagram : Diagram, ∀ entity ∈ (Adjacency.ofDiagram diagram).entities,
      KeepsAll (Adjacency.ofDiagram diagram) entity := by
  intro all
  have names : (baseTables (Adjacency.ofDiagram (customers true))).names "c" =
      ["no", "street", "city"] := by cbv
  have stored : ((Adjacency.ofDiagram (customers true)).attributesOf
      (Node.entity "c" "Customer")).stored = ["no", "street", "city", "street"] := by cbv
  rcases all (customers true) _ (mem_entities_customers true) with ⟨table, found, same⟩
  change (baseTables _).get? "c" = some table at found
  rw [TableMap.names_of_get? found, Table.names] at names
  have length := congrArg List.length names
  rw [List.length_map, same, stored] at length
  exact absurd length (by decide)

end Derivation

end ErSchema
