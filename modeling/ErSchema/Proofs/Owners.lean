import ErSchema.Proofs.Subclasses
import Mathlib

/-! # The keys of owners in their dependents

Every key column of an owner ends in the key of each dependent, unless the
dependent has the name as a plain column: a name that is there already is not
taken over from an owner. Such a column stays what it was, and the name enters
the key only if a superclass of the dependent has it in its own. -/

namespace ErSchema

/-- The entity with these attributes begins with a plain column of that name. -/
def Attributes.HasPlain (attributes : Attributes) (name : String) : Prop :=
  name ∈ attributes.ordinary ∧ name ∉ attributes.primaryKeys

/-- A path that ends where the name is a plain column comes from a superclass. -/
theorem Adjacency.HasKeyPath.exists_superclass {index : Adjacency} {name : String}
    {entity : Node} (path : index.HasKeyPath name entity)
    (plain : (index.attributesOf entity).HasPlain name) :
    ∃ hierarchy ∈ index.hierarchies, entity ∈ hierarchy.subclasses ∧
      index.HasKeyPath name hierarchy.superclass := by
  rcases path with ⟨origin, isEntity, key, steps⟩
  cases steps with
  | refl => exact absurd key plain.2
  | tail earlier last =>
      cases last with
      | owned isLink enters => exact absurd plain enters
      | @inherited hierarchy _ isHierarchy isSubclass =>
          exact ⟨hierarchy, isHierarchy, isSubclass, origin, isEntity, key, earlier⟩

/-- What is in the key of an owner comes to the dependent from the owner or from a
superclass, or not at all. -/
theorem Adjacency.HasKeyPath.dependent_iff {index : Adjacency} {name : String} {link : Ownership}
    (isLink : link ∈ index.ownerships) (atOwner : index.HasKeyPath name link.owner) :
    index.HasKeyPath name link.dependent ↔
      ¬ (index.attributesOf link.dependent).HasPlain name ∨
        ∃ hierarchy ∈ index.hierarchies, link.dependent ∈ hierarchy.subclasses ∧
          index.HasKeyPath name hierarchy.superclass := by
  constructor
  · intro path
    by_cases plain : (index.attributesOf link.dependent).HasPlain name
    · exact .inr (path.exists_superclass plain)
    · exact .inl plain
  · rintro (enters | ⟨hierarchy, isHierarchy, isSubclass, atSuperclass⟩)
    · exact atOwner.step (.owned isLink enters)
    · exact atSuperclass.step (.inherited isHierarchy isSubclass)

namespace Derivation

theorem mem_columns_entityTable {entity : Node} {attributes : Attributes} {column : Column}
    (member : column ∈ (entityTable entity attributes).columns) :
    column = .key column.name ∨ column = .plain column.name := by
  rcases Table.mem_columns_pushAll member with absent | own
  · exact absurd absent List.not_mem_nil
  · rcases List.mem_append.mp own with key | plain
    · rcases List.mem_map.mp key with ⟨_, _, rfl⟩
      exact .inl rfl
    · rcases List.mem_map.mp plain with ⟨_, _, rfl⟩
      exact .inr rfl

section
variable {index : Adjacency} (wellFormed : index.WellFormed) {entity : Node}
  (member : entity ∈ index.entities)
include wellFormed member

/-- What never entered the key is as the entity began with it. -/
theorem plain_mem_settled {limit : Option Nat} {table : Table}
    (found : (settled index limit).tables.get? entity.id = some table) {name : String}
    (own : name ∈ (index.attributesOf entity).ordinary) (outside : name ∉ table.keyNames) :
    Column.plain name ∈ table.columns := by
  rcases exists_flowed_settled index limit with ⟨made, equal⟩
  have keeps := Table.KeepsKey.carried.flowed index.ownerships index.hierarchies
    (baseTables index) made
  rw [← equal] at keeps
  rcases keeps.get?_some (get?_baseTables wellFormed member) with ⟨same, foundSame, since⟩
  obtain rfl : table = same := Option.some.inj (found.symm.trans foundSame)
  have named : name ∈ table.names := by
    rw [← TableMap.names_of_get? found, (inherits_settled index limit).mem_names]
    exact .inl ((mem_names_baseTables wellFormed member).mpr (.inr own))
  rcases Table.mem_names.mp named with ⟨column, isColumn, rfl⟩
  have notKey : ¬ column.isKey = true := fun isKey =>
    outside (Table.mem_keyNames.mpr ⟨column, isColumn, isKey, rfl⟩)
  rcases since.added column isColumn with old | new
  · rcases mem_columns_entityTable old with key | plain
    · exact absurd (congrArg Column.isKey key) notKey
    · exact plain ▸ isColumn
  · exact absurd new.1 notKey

theorem plain_mem_resolution {limit : Option Nat} {table : Table}
    (found : (resolution index limit).tables.get? entity.id = some table) {name : String}
    (own : name ∈ (index.attributesOf entity).ordinary) (outside : name ∉ table.keyNames) :
    Column.plain name ∈ table.columns := by
  rcases (reached_resolution wellFormed limit).tables.get?_some_before found with
    ⟨earlier, foundEarlier, appends⟩
  rcases appends.columns with ⟨added, columns, _⟩
  have sameKey : table.primaryKey = earlier.primaryKey :=
    appends.primaryKey_eq fun _ => Resolution.Folded.isKey
  rw [columns]
  apply List.mem_append_left
  apply plain_mem_settled wellFormed member foundEarlier own
  rwa [Table.keyNames, ← sameKey]

end

/-- The key of a dependent has every name in the key of an owner, but for those
that the dependent has as plain columns of its own and takes over from no
superclass either. These stay plain columns. -/
theorem dependent_keys (diagram : Diagram) :
    let index := Adjacency.ofDiagram diagram
    let final := (resolution index none).tables
    ((ofDiagram diagram none).schema.baseTables = final.toTables ∧
        final.ids = index.entities.map Node.id) ∧
      ∀ link ∈ index.ownerships,
        ∃ upper lower, final.get? link.owner.id = some upper ∧
          final.get? link.dependent.id = some lower ∧ lower.names.Nodup ∧
          ∀ name ∈ upper.keyNames,
            (name ∈ lower.keyNames ↔
              ¬ (index.attributesOf link.dependent).HasPlain name ∨
                ∃ hierarchy ∈ index.hierarchies, link.dependent ∈ hierarchy.subclasses ∧
                  name ∈ final.keyNames hierarchy.superclass.id) ∧
              (name ∉ lower.keyNames → Column.plain name ∈ lower.columns) := by
  intro index final
  have wellFormed : index.WellFormed := Adjacency.wellFormed_ofDiagram diagram
  have ids := ids_of_reached wellFormed none (reached_resolution wellFormed none)
  refine ⟨⟨baseTables_ofDiagram none diagram, ids⟩, fun link isLink => ?_⟩
  rcases wellFormed.ends_of_mem_ownerships isLink with ⟨isDependent, isOwner⟩
  rcases exists_get?_resolution wellFormed none isOwner with ⟨upper, foundUpper, _⟩
  rcases exists_get?_resolution wellFormed none isDependent with ⟨lower, foundLower, _⟩
  have drawn : index.Spelled fun _ => True := fun _ _ _ => trivial
  have distinct := ((spelled_resolution .any wellFormed drawn none).tables lower
    (TableMap.mem_toTables_of_get? foundLower)).distinct
  refine ⟨upper, lower, foundUpper, foundLower, distinct, fun name isKey => ?_⟩
  rw [← TableMap.keyNames_of_get? foundUpper, mem_keyNames_resolution wellFormed isOwner] at isKey
  have key : name ∈ lower.keyNames ↔ index.HasKeyPath name link.dependent := by
    rw [← TableMap.keyNames_of_get? foundLower, mem_keyNames_resolution wellFormed isDependent]
  have origins := isKey.dependent_iff isLink
  constructor
  · rw [key, origins]
    apply or_congr_right
    refine exists_congr fun hierarchy => and_congr_right fun isHierarchy => ?_
    have isSuperclass := (wellFormed.classes_of_mem_hierarchies isHierarchy).1
    rw [mem_keyNames_resolution wellFormed isSuperclass]
  · intro outside
    have plain : (index.attributesOf link.dependent).HasPlain name := by
      by_contra enters
      exact outside (key.mpr (origins.mpr (.inl enters)))
    exact plain_mem_resolution wellFormed isDependent foundLower plain.1 outside

/-- Rooms are weak and belong to a building, whose key is its name; rooms may have
a name themselves. -/
def rooms (isNamed : Bool) : Diagram where
  nodes := [Node.entity "b" "Building", (Node.simpleAttribute "k" "name").primaryKey,
    (Node.entity "r" "Room").weak, (Node.simpleAttribute "n" "no").primaryKey,
    Node.simpleAttribute "m" (if isNamed then "name" else "use"),
    (Node.relationship "i" "In").weak]
  edges := [.between "b" "k", .between "r" "n", .between "r" "m",
    (Edge.between "b" "i").withCards "1" "", (Edge.between "i" "r").withCards "" "N"]

theorem rooms_ownership (isNamed : Bool) :
    ⟨(Node.entity "r" "Room").weak, Node.entity "b" "Building",
      (Node.relationship "i" "In").weak⟩ ∈ (Adjacency.ofDiagram (rooms isNamed)).ownerships := by
  have only : (Adjacency.ofDiagram (rooms isNamed)).ownerships =
      [⟨(Node.entity "r" "Room").weak, Node.entity "b" "Building",
        (Node.relationship "i" "In").weak⟩] := by
    cases isNamed <;> cbv
  rw [only]
  exact List.mem_cons_self

/-- Rooms without a name take over the name of their building. -/
theorem dependent_keys_unnamed :
    ∃ lower, (resolution (Adjacency.ofDiagram (rooms false)) none).tables.get? "r" = some lower ∧
      "name" ∈ lower.keyNames := by
  have attributes : (Adjacency.ofDiagram (rooms false)).attributesOf
      (Node.entity "r" "Room").weak = ⟨["no"], ["use"], []⟩ := by cbv
  have buildingKey : (resolution (Adjacency.ofDiagram (rooms false)) none).tables.keyNames "b" =
      ["name"] := by cbv
  rcases (dependent_keys (rooms false)).2 _ (rooms_ownership false) with
    ⟨upper, lower, foundUpper, foundLower, _, each⟩
  have isKey : "name" ∈ upper.keyNames := by
    rw [← TableMap.keyNames_of_get? foundUpper]
    exact buildingKey ▸ List.mem_cons_self
  refine ⟨lower, foundLower, (each "name" isKey).1.mpr (.inl ?_)⟩
  rw [attributes]
  exact fun plain => absurd plain.1 (by decide)

/-- Where rooms have a name of their own, that of the building is not in their key. -/
theorem not_dependent_keys_all :
    ¬ ∀ diagram : Diagram,
      let index := Adjacency.ofDiagram diagram
      let final := (resolution index none).tables
      ∀ link ∈ index.ownerships,
        final.keyNames link.owner.id ⊆ final.keyNames link.dependent.id := by
  intro all
  have buildingKey : (resolution (Adjacency.ofDiagram (rooms true)) none).tables.keyNames "b" =
      ["name"] := by cbv
  have roomKey : (resolution (Adjacency.ofDiagram (rooms true)) none).tables.keyNames "r" =
      ["no"] := by cbv
  have included := all (rooms true) _ (rooms_ownership true)
  change TableMap.keyNames _ "b" ⊆ TableMap.keyNames _ "r" at included
  rw [buildingKey, roomKey] at included
  exact absurd included (by decide)

end Derivation

end ErSchema
