import ErSchema.Proofs.Naming
import Mathlib

/-! # The keys of superclasses in their subclasses

Every key column of a superclass ends in the key of each subclass. It is marked as
a reference there as well unless the subclass has a key attribute of that name:
a column that is in the key already is left as it is, whether the name arrives
from a superclass or from an owner. -/

namespace ErSchema

/-! ## What every step of the loop does to a table -/

namespace Derivation

/-- A relation between tables that each taking over of one key satisfies. -/
structure Carried (change : Table → Table → Prop) : Prop where
  refl : ∀ table, change table table
  trans : ∀ {first second third}, change first second → change second third →
    change first third
  owned : ∀ source state key, change state.2 (Ownership.importKey source state key).2
  inherited : ∀ source state key, change state.2 (Hierarchy.importKey source state key).2

namespace Carried

variable {change : Table → Table → Prop}

/-- Taking over a key either leaves the table, appends a column or promotes a plain one. -/
theorem of_changes (refl : ∀ table, change table table)
    (trans : ∀ {first second third}, change first second → change second third →
      change first third)
    (push : ∀ (table : Table) (key : Column) (source : String),
      change table (table.push (.inheritedKey key.name source)))
    (promote : ∀ {table : Table} {name : String} {existing : Column},
      table.column? name = some existing → existing.isKey = false → existing.isForeign = false →
        ∀ source, change table (table.update name (Hierarchy.promote source))) :
    Carried change where
  refl := refl
  trans := trans
  owned source state key := by
    unfold Ownership.importKey
    split
    case isTrue => exact refl state.2
    case isFalse => exact push state.2 key source
  inherited source state key := by
    unfold Hierarchy.importKey
    split
    case h_1 existing found =>
      split
      case isTrue => exact refl state.2
      case isFalse plain =>
        rw [Bool.or_eq_true, not_or, Bool.not_eq_true, Bool.not_eq_true] at plain
        exact promote found plain.1 plain.2 source
    case h_2 => exact push state.2 key source

variable (carried : Carried change)
include carried

theorem absorb {take : Nat × Table → Column → Nat × Table}
    (each : ∀ state key, change state.2 (take state key).2) (keys : List Column)
    (state : Nat × TableMap) (id : String) :
    TableMap.Revises change state.2 (TableMap.absorb take keys state id).2 := by
  cases found : state.2.get? id with
  | none =>
      rw [TableMap.absorb_of_none found]
      exact .refl carried.refl state.2
  | some table =>
      rw [TableMap.absorb_of_some found]
      refine .modify carried.refl fun same foundSame => ?_
      obtain rfl : table = same := Option.some.inj (found.symm.trans foundSame)
      have start : change table (0, table).2 := carried.refl table
      exact List.foldlRecOn (motive := fun taken => change table taken.2) keys take start
        fun taken sofar key _ => carried.trans sofar (each taken key)

/-- A fold of steps changes the tables as its steps do. -/
theorem foldl {α : Type} {step : Nat × TableMap → α → Nat × TableMap}
    (each : ∀ state item, TableMap.Revises change state.2 (step state item).2)
    (items : List α) (state : Nat × TableMap) :
    TableMap.Revises change state.2 (items.foldl step state).2 :=
  List.foldlRecOn (motive := fun found => TableMap.Revises change state.2 found.2) items step
    (.refl carried.refl state.2) fun found sofar item _ =>
      sofar.trans carried.trans (each found item)

theorem ownerships (links : List Ownership) (tables : TableMap) :
    TableMap.Revises change tables (Ownership.propagate links tables).2 :=
  carried.foldl (fun state _ => carried.absorb (carried.owned _) _ state _) links (0, tables)

theorem hierarchies (hierarchies : List Hierarchy) (tables : TableMap) :
    TableMap.Revises change tables (Hierarchy.propagate hierarchies tables).2 := by
  have step (state : Nat × TableMap) (hierarchy : Hierarchy) :
      TableMap.Revises change state.2 (Hierarchy.step state hierarchy).2 :=
    carried.foldl (fun inner subclass => carried.absorb (carried.inherited _) _ inner _)
      hierarchy.subclasses state
  exact carried.foldl step hierarchies (0, tables)

theorem pass (links : List Ownership) (hierarchies : List Hierarchy) (tables : TableMap) :
    TableMap.Revises change tables (Derivation.pass links hierarchies tables).2 :=
  (carried.ownerships links tables).trans carried.trans (carried.hierarchies hierarchies _)

theorem flowed (links : List Ownership) (hierarchies : List Hierarchy) (base : TableMap)
    (made : Nat) :
    TableMap.Revises change base (Derivation.flowed links hierarchies base made) := by
  induction made with
  | zero => exact .refl carried.refl base
  | succ made induction =>
      rw [flowed_succ]
      exact induction.trans carried.trans (carried.pass links hierarchies _)

end Carried

end Derivation

/-! ## Columns that stay and columns that come -/

/-- Key columns stay as they are, and what is new is part of the key and a
reference. -/
structure Table.KeepsKey (before after : Table) : Prop where
  kept : ∀ column ∈ before.columns, column.isKey = true → column ∈ after.columns
  added : ∀ column ∈ after.columns,
    column ∈ before.columns ∨ column.isKey = true ∧ column.isForeign = true

namespace Table.KeepsKey

theorem refl (table : Table) : table.KeepsKey table :=
  ⟨fun _ member _ => member, fun _ => .inl⟩

theorem trans {first second third : Table} (earlier : first.KeepsKey second)
    (later : second.KeepsKey third) : first.KeepsKey third where
  kept column member isKey := later.kept column (earlier.kept column member isKey) isKey
  added column member := by
    rcases later.added column member with middle | new
    · exact earlier.added column middle
    · exact .inr new

theorem push (table : Table) (key : Column) (source : String) :
    table.KeepsKey (table.push (.inheritedKey key.name source)) where
  kept column member _ := by
    unfold Table.push
    split
    · exact member
    · exact List.mem_append_left _ member
  added column member := by
    rcases mem_columns_push member with old | rfl
    · exact .inl old
    · exact .inr ⟨rfl, rfl⟩

/-- Only a plain column is promoted. -/
theorem promote {table : Table} {name : String} {existing : Column}
    (found : table.column? name = some existing) (plain : existing.isKey = false)
    (source : String) : table.KeepsKey (table.update name (Hierarchy.promote source)) := by
  rcases update_split (Hierarchy.promote source) found with ⟨before, after, old, new⟩
  constructor
  · intro column member isKey
    rw [old] at member
    rw [new]
    rcases List.mem_append.mp member with earlier | here
    · exact List.mem_append_left _ earlier
    · rcases List.mem_cons.mp here with rfl | later
      · exact absurd (isKey.symm.trans plain) Bool.true_eq_false.mp
      · exact List.mem_append_right _ (List.mem_cons_of_mem _ later)
  · intro column member
    rw [new] at member
    rw [old]
    rcases List.mem_append.mp member with earlier | here
    · exact .inl (List.mem_append_left _ earlier)
    · rcases List.mem_cons.mp here with rfl | later
      · exact .inr ⟨rfl, rfl⟩
      · exact .inl (List.mem_append_right _ (List.mem_cons_of_mem _ later))

theorem carried : Derivation.Carried Table.KeepsKey :=
  .of_changes refl trans push fun found notKey _ => promote found notKey

end Table.KeepsKey

/-! ## Which key columns are references -/

namespace Derivation

theorem isForeign_of_mem_entityTable {entity : Node} {attributes : Attributes} {column : Column}
    (member : column ∈ (entityTable entity attributes).columns) : column.isForeign = false := by
  rcases Table.mem_columns_pushAll member with absent | own
  · exact absurd absent List.not_mem_nil
  · rcases List.mem_append.mp own with key | plain
    · rcases List.mem_map.mp key with ⟨_, _, rfl⟩
      rfl
    · rcases List.mem_map.mp plain with ⟨_, _, rfl⟩
      rfl

section
variable {index : Adjacency} (wellFormed : index.WellFormed) (limit : Option Nat)
include wellFormed

/-- In the key of an entity exactly what it took over is a reference. -/
theorem isForeign_iff_of_mem_settled {entity : Node} (member : entity ∈ index.entities)
    {table : Table} (found : (settled index limit).tables.get? entity.id = some table)
    {column : Column} (isColumn : column ∈ table.columns) (isKey : column.isKey = true) :
    column.isForeign = true ↔ column.name ∉ (index.attributesOf entity).primaryKeys := by
  rcases exists_flowed_settled index limit with ⟨made, equal⟩
  have keeps := Table.KeepsKey.carried.flowed index.ownerships index.hierarchies
    (baseTables index) made
  rw [← equal] at keeps
  rcases keeps.get?_some (get?_baseTables wellFormed member) with ⟨same, foundSame, since⟩
  obtain rfl : table = same := Option.some.inj (found.symm.trans foundSame)
  have distinct : table.names.Nodup :=
    ((inherits_settled index limit).regular (ready_baseTables wellFormed).regular table
      (TableMap.mem_toTables_of_get? found)).distinct
  have ownKey : column.name ∈ (entityTable entity (index.attributesOf entity)).keyNames ↔ _ :=
    mem_keyNames_entityTable
  rw [← ownKey]
  constructor
  · intro foreign own
    rcases Table.mem_keyNames.mp own with ⟨key, isOwn, keyIsKey, named⟩
    have stays := since.kept key isOwn keyIsKey
    obtain rfl : key = column := List.inj_on_of_nodup_map distinct stays isColumn named
    rw [isForeign_of_mem_entityTable isOwn] at foreign
    cases foreign
  · intro taken
    rcases since.added column isColumn with own | new
    · exact absurd (Table.mem_keyNames.mpr ⟨column, own, isKey, rfl⟩) taken
    · exact new.2

/-- The table of an entity in a schema has the columns that the loop left there. -/
theorem isForeign_iff_of_mem_resolution {entity : Node} (member : entity ∈ index.entities)
    {table : Table} (found : (resolution index limit).tables.get? entity.id = some table)
    {column : Column} (isColumn : column ∈ table.columns) (isKey : column.isKey = true) :
    column.isForeign = true ↔ column.name ∉ (index.attributesOf entity).primaryKeys := by
  rcases (reached_resolution wellFormed limit).tables.get?_some_before found with
    ⟨earlier, foundEarlier, appends⟩
  rcases appends.columns with ⟨added, columns, folded⟩
  rw [columns] at isColumn
  rcases List.mem_append.mp isColumn with old | new
  · exact isForeign_iff_of_mem_settled wellFormed limit member foundEarlier old isKey
  · exact absurd (isKey.symm.trans (folded column new).isKey) Bool.true_eq_false.mp

theorem keyNames_resolution (id : String) :
    (resolution index limit).tables.keyNames id = (settled index limit).tables.keyNames id := by
  rw [TableMap.keyNames, (reached_resolution wellFormed limit).primaryKey_eq, TableMap.keyNames]

/-- In the key of an entity are the names that have a path to it. -/
theorem mem_keyNames_resolution {entity : Node} (member : entity ∈ index.entities)
    {name : String} :
    name ∈ (resolution index none).tables.keyNames entity.id ↔
      index.HasKeyPath name entity := by
  rcases exists_settles (ready_baseTables wellFormed) with ⟨quiet, inTime, settles⟩
  rw [size_baseTables wellFormed] at inTime
  have stopped : settled index none = _ := settles.settle_eq (lt_passLimit inTime nofun)
  rw [keyNames_resolution wellFormed, stopped]
  exact ⟨hasKeyPath_of_mem_flowed wellFormed member, mem_flowed_of_hasKeyPath wellFormed settles⟩

/-- The key of a superclass is part of the key of its subclasses. -/
theorem keyNames_subset_of_mem_hierarchies {hierarchy : Hierarchy}
    (member : hierarchy ∈ index.hierarchies) {subclass : Node}
    (isSubclass : subclass ∈ hierarchy.subclasses) :
    (resolution index none).tables.keyNames hierarchy.superclass.id ⊆
      (resolution index none).tables.keyNames subclass.id := by
  rcases wellFormed.classes_of_mem_hierarchies member with ⟨isSuperclass, areEntities⟩
  intro name isKey
  have path := (mem_keyNames_resolution wellFormed isSuperclass).mp isKey
  exact (mem_keyNames_resolution wellFormed (areEntities subclass isSubclass)).mpr
    (path.step (.inherited member isSubclass))

end

/-- The table of a subclass has one column for each column of the superclass's
key. It belongs to the key, and it is a reference exactly if the subclass has no
key attribute of that name itself. -/
theorem subclass_keys (diagram : Diagram) :
    let index := Adjacency.ofDiagram diagram
    let final := (resolution index none).tables
    ((ofDiagram diagram none).schema.baseTables = final.toTables ∧
        final.ids = index.entities.map Node.id) ∧
      ∀ hierarchy ∈ index.hierarchies, ∀ subclass ∈ hierarchy.subclasses,
        ∃ upper lower, final.get? hierarchy.superclass.id = some upper ∧
          final.get? subclass.id = some lower ∧ lower.names.Nodup ∧
          ∀ name ∈ upper.keyNames, ∃ column ∈ lower.columns, column.name = name ∧
            column.isKey = true ∧
            (column.isForeign = true ↔ name ∉ (index.attributesOf subclass).primaryKeys) := by
  intro index final
  have wellFormed : index.WellFormed := Adjacency.wellFormed_ofDiagram diagram
  have ids := ids_of_reached wellFormed none (reached_resolution wellFormed none)
  refine ⟨⟨baseTables_ofDiagram none diagram, ids⟩, fun hierarchy member subclass isSubclass => ?_⟩
  rcases wellFormed.classes_of_mem_hierarchies member with ⟨isSuperclass, areEntities⟩
  have isEntity := areEntities subclass isSubclass
  rcases exists_get?_resolution wellFormed none isSuperclass with ⟨upper, foundUpper, _⟩
  rcases exists_get?_resolution wellFormed none isEntity with ⟨lower, foundLower, _⟩
  have drawn : index.Spelled fun _ => True := fun _ _ _ => trivial
  have distinct := ((spelled_resolution .any wellFormed drawn none).tables lower
    (TableMap.mem_toTables_of_get? foundLower)).distinct
  refine ⟨upper, lower, foundUpper, foundLower, distinct, fun name isKeyName => ?_⟩
  rw [← TableMap.keyNames_of_get? foundUpper] at isKeyName
  have inherited := keyNames_subset_of_mem_hierarchies wellFormed member isSubclass isKeyName
  rw [TableMap.keyNames_of_get? foundLower] at inherited
  rcases Table.mem_keyNames.mp inherited with ⟨column, isColumn, isKey, rfl⟩
  exact ⟨column, isColumn, rfl, isKey,
    isForeign_iff_of_mem_resolution wellFormed none isEntity foundLower isColumn isKey⟩

/-- Students are persons; both have a number of the same name, which is the key of
a person and may be that of a student. -/
def persons (isKey : Bool) : Diagram where
  nodes := [Node.entity "p" "Person", (Node.simpleAttribute "i" "ssn").primaryKey,
    Node.entity "s" "Student",
    { Node.simpleAttribute "j" "ssn" with isPrimaryKey := isKey }, Node.isa "h"]
  edges := [.between "p" "i", .between "s" "j", .between "p" "h", .between "h" "s"]

/-- Drawn at one height, the first connected is the superclass. -/
theorem persons_hierarchy (isKey : Bool) :
    ⟨Node.isa "h", Node.entity "p" "Person", [Node.entity "s" "Student"]⟩ ∈
      (Adjacency.ofDiagram (persons isKey)).hierarchies := by
  have members : (Adjacency.ofDiagram (persons isKey)).members (Node.isa "h") =
      [Node.entity "p" "Person", Node.entity "s" "Student"] := by rfl
  have isaNodes : (Adjacency.ofDiagram (persons isKey)).isaNodes = [Node.isa "h"] := by rfl
  have first : superclassPlace? [Node.entity "p" "Person", Node.entity "s" "Student"] =
      some 0 := by
    simp [superclassPlace?, firstLeast?, Node.entity, Node.ofKind]
  rw [Adjacency.hierarchies, isaNodes]
  apply List.mem_filterMap.mpr
  refine ⟨Node.isa "h", List.mem_cons_self, ?_⟩
  rw [Adjacency.hierarchyOf?, members]
  simp only [first]
  rfl

/-- A key attribute of the superclass is in its key in the end. -/
theorem ssn_mem_keyNames_person {isKey : Bool} {upper : Table}
    (found : (resolution (Adjacency.ofDiagram (persons isKey)) none).tables.get? "p" =
      some upper) : "ssn" ∈ upper.keyNames := by
  let index := Adjacency.ofDiagram (persons isKey)
  have wellFormed : index.WellFormed := Adjacency.wellFormed_ofDiagram _
  have isSuperclass := (wellFormed.classes_of_mem_hierarchies (persons_hierarchy isKey)).1
  have key : (index.attributesOf (Node.entity "p" "Person")).primaryKeys = ["ssn"] := by
    cases isKey <;> cbv
  have base : "ssn" ∈ (baseTables index).keyNames "p" ↔ _ :=
    mem_keyNames_baseTables wellFormed isSuperclass
  rw [← TableMap.keyNames_of_get? found, keyNames_resolution wellFormed]
  apply (inherits_settled index none).keyNames_subset
  exact base.mpr (key ▸ List.mem_cons_self)

/-- An ordinary attribute of the student is made a key and a reference. -/
theorem subclass_keys_promoted :
    ∃ lower, (resolution (Adjacency.ofDiagram (persons false)) none).tables.get? "s" =
        some lower ∧
      ∃ column ∈ lower.columns, column.name = "ssn" ∧ column.isKey = true ∧
        column.isForeign = true := by
  have isSubclass : Node.entity "s" "Student" ∈ [Node.entity "s" "Student"] :=
    List.mem_cons_self
  rcases (subclass_keys (persons false)).2 _ (persons_hierarchy false) _ isSubclass with
    ⟨upper, lower, foundUpper, foundLower, _, each⟩
  have own : ((Adjacency.ofDiagram (persons false)).attributesOf
      (Node.entity "s" "Student")).primaryKeys = [] := by cbv
  rcases each "ssn" (ssn_mem_keyNames_person foundUpper) with ⟨column, isColumn, named, isKey, iff⟩
  refine ⟨lower, foundLower, column, isColumn, named, isKey, iff.mpr ?_⟩
  rw [own]
  exact List.not_mem_nil

/-- Where the student has a key attribute of that name, it is no reference. -/
theorem not_subclass_keys_foreign :
    ¬ ∀ diagram : Diagram,
      let index := Adjacency.ofDiagram diagram
      let final := (resolution index none).tables
      ∀ hierarchy ∈ index.hierarchies, ∀ subclass ∈ hierarchy.subclasses,
        ∀ upper lower, final.get? hierarchy.superclass.id = some upper →
          final.get? subclass.id = some lower →
            ∀ name ∈ upper.keyNames, ∃ column ∈ lower.columns, column.name = name ∧
              column.isKey = true ∧ column.isForeign = true := by
  intro foreign
  let index := Adjacency.ofDiagram (persons true)
  have wellFormed : index.WellFormed := Adjacency.wellFormed_ofDiagram _
  have isSubclass : Node.entity "s" "Student" ∈ [Node.entity "s" "Student"] :=
    List.mem_cons_self
  rcases wellFormed.classes_of_mem_hierarchies (persons_hierarchy true) with
    ⟨isSuperclass, areEntities⟩
  have isEntity := areEntities _ isSubclass
  rcases exists_get?_resolution wellFormed none isSuperclass with ⟨upper, foundUpper, _⟩
  rcases exists_get?_resolution wellFormed none isEntity with ⟨lower, foundLower, _⟩
  have own : (index.attributesOf (Node.entity "s" "Student")).primaryKeys = ["ssn"] := by cbv
  rcases foreign _ _ (persons_hierarchy true) _ isSubclass upper lower foundUpper foundLower
    "ssn" (ssn_mem_keyNames_person foundUpper) with ⟨column, isColumn, named, isKey, isForeign⟩
  rw [isForeign_iff_of_mem_resolution wellFormed none isEntity foundLower isColumn isKey,
    named, own] at isForeign
  exact isForeign List.mem_cons_self

end Derivation

end ErSchema
