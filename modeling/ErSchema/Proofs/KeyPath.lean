import ErSchema.Proofs.Outcome
import Mathlib.Logic.Relation

/-! # Where the columns of a key come from

A name is in the key of an entity exactly if a path of ownerships and
hierarchies leads there from an entity that has it as a key attribute. The
tables that the loop settles on contain no name without a path, because the ends
of such paths are closed under every step; and they contain every name with a
path, because the last pass had nothing to add. -/

namespace ErSchema

namespace Adjacency

/-- A step along which a key of that name is taken over. A dependent that has
the name as a plain column of its own does not take it from an owner. -/
inductive KeyStep (index : Adjacency) (name : String) : Node → Node → Prop
  | owned {link : Ownership} (isLink : link ∈ index.ownerships)
      (enters : ¬(name ∈ (index.attributesOf link.dependent).ordinary ∧
        name ∉ (index.attributesOf link.dependent).primaryKeys)) :
      KeyStep index name link.owner link.dependent
  | inherited {hierarchy : Hierarchy} {subclass : Node}
      (isHierarchy : hierarchy ∈ index.hierarchies)
      (isSubclass : subclass ∈ hierarchy.subclasses) :
      KeyStep index name hierarchy.superclass subclass

/-- A path leads to the entity from one that has the name as a key attribute. -/
def HasKeyPath (index : Adjacency) (name : String) (entity : Node) : Prop :=
  ∃ origin ∈ index.entities, name ∈ (index.attributesOf origin).primaryKeys ∧
    Relation.ReflTransGen (index.KeyStep name) origin entity

theorem HasKeyPath.step {index : Adjacency} {name : String} {earlier later : Node}
    (path : index.HasKeyPath name earlier) (step : index.KeyStep name earlier later) :
    index.HasKeyPath name later := by
  rcases path with ⟨origin, isEntity, key, steps⟩
  exact ⟨origin, isEntity, key, steps.tail step⟩

end Adjacency

namespace Derivation

variable {index : Adjacency} (wellFormed : index.WellFormed)
include wellFormed

theorem openAt_baseTables_iff {entity : Node} (member : entity ∈ index.entities)
    {name : String} :
    OpenAt (baseTables index) name entity.id ↔
      ¬(name ∈ (index.attributesOf entity).ordinary ∧
        name ∉ (index.attributesOf entity).primaryKeys) := by
  unfold OpenAt
  rw [mem_names_baseTables wellFormed member, mem_keyNames_baseTables wellFormed member]
  tauto

/-- No step leads out of the ends of the paths. -/
theorem closed_hasKeyPath (name : String) :
    Closed index.ownerships index.hierarchies (baseTables index) name fun id =>
      ∃ entity ∈ index.entities, entity.id = id ∧ index.HasKeyPath name entity where
  owned link member opened := by
    rintro ⟨entity, isEntity, same, path⟩
    rcases wellFormed.ends_of_mem_ownerships member with ⟨isDependent, isOwner⟩
    rcases wellFormed.eq_of_entity_id_eq isEntity isOwner same with rfl
    have enters := (openAt_baseTables_iff wellFormed isDependent).mp opened
    exact ⟨link.dependent, isDependent, rfl, path.step (.owned member enters)⟩
  inherited hierarchy member subclass isSubclass := by
    rintro ⟨entity, isEntity, same, path⟩
    rcases wellFormed.classes_of_mem_hierarchies member with ⟨isSuperclass, areEntities⟩
    rcases wellFormed.eq_of_entity_id_eq isEntity isSuperclass same with rfl
    exact ⟨subclass, areEntities subclass isSubclass, rfl,
      path.step (.inherited member isSubclass)⟩

theorem hasKeyPath_of_mem_flowed {made : Nat} {name : String} {entity : Node}
    (member : entity ∈ index.entities)
    (key : name ∈ (flowed index.ownerships index.hierarchies (baseTables index)
      made).keyNames entity.id) : index.HasKeyPath name entity := by
  have begins : ∀ id, name ∈ (baseTables index).keyNames id →
      ∃ entity ∈ index.entities, entity.id = id ∧ index.HasKeyPath name entity := by
    intro id first
    rcases TableMap.mem_keyNames.mp first with ⟨table, found, _⟩
    have known : id ∈ (baseTables index).ids :=
      TableMap.isSome_get?_iff.mp (Option.isSome_iff_exists.mpr ⟨table, found⟩)
    rw [ids_baseTables wellFormed] at known
    rcases List.mem_map.mp known with ⟨entity, isEntity, rfl⟩
    rw [mem_keyNames_baseTables wellFormed isEntity] at first
    exact ⟨entity, isEntity, rfl, entity, isEntity, first, .refl⟩
  rcases flowed_within (ready_baseTables wellFormed)
      (closed_hasKeyPath wellFormed name) begins made entity.id key with
    ⟨found, isFound, same, path⟩
  exact wellFormed.eq_of_entity_id_eq isFound member same ▸ path

theorem mem_flowed_of_hasKeyPath {quiet : Nat}
    (settles : Settles index.ownerships index.hierarchies (baseTables index) quiet)
    {name : String} {entity : Node} (path : index.HasKeyPath name entity) :
    name ∈ (flowed index.ownerships index.hierarchies (baseTables index)
      quiet).keyNames entity.id := by
  rcases path with ⟨origin, isEntity, key, steps⟩
  have inherits := inherits_flowed index.ownerships index.hierarchies (baseTables index) quiet
  have nothing : ∀ id, name ∈ (pass index.ownerships index.hierarchies
      (flowed index.ownerships index.hierarchies (baseTables index) quiet)).2.keyNames id →
      name ∈ (flowed index.ownerships index.hierarchies (baseTables index)
        quiet).keyNames id := by
    rw [settles.pass_eq]
    exact fun _ => id
  have closed := closed_of_pass_same (ready_baseTables wellFormed) inherits nothing
  induction steps with
  | refl =>
      apply inherits.keyNames_subset origin.id
      rwa [mem_keyNames_baseTables wellFormed isEntity]
  | tail _ step induction =>
      cases step with
      | owned isLink enters =>
          have isDependent := (wellFormed.ends_of_mem_ownerships isLink).1
          exact closed.owned _ isLink
            ((openAt_baseTables_iff wellFormed isDependent).mpr enters) induction
      | inherited isHierarchy isSubclass =>
          exact closed.inherited _ isHierarchy _ isSubclass induction

omit wellFormed in
/-- The schema has one table for each entity, and a name is in its key exactly
if it has a path to the entity. -/
theorem keyNames_baseTables_iff_hasKeyPath (diagram : Diagram) :
    let index := Adjacency.ofDiagram diagram
    List.Forall₂ (fun entity table => table.name = entity.name ∧
        ∀ name, name ∈ table.keyNames ↔ index.HasKeyPath name entity)
      index.entities (ofDiagram diagram none).schema.baseTables := by
  intro index
  have wellFormed := Adjacency.wellFormed_ofDiagram diagram
  rcases exists_settles (ready_baseTables wellFormed) with ⟨quiet, inTime, settles⟩
  rw [size_baseTables wellFormed] at inTime
  have stopped : settled index none = _ :=
    settles.settle_eq (lt_passLimit inTime (by simp))
  rw [baseTables_ofDiagram]
  refine forall₂_imp_of_mem (fun entity isEntity table _ facts => ?_)
    (forall₂_resolution wellFormed none)
  rcases facts with ⟨named, _, primaryKey⟩
  refine ⟨named, fun name => ?_⟩
  have keyNames : table.keyNames = (settled index none).tables.keyNames entity.id :=
    congrArg (List.map Column.name) primaryKey
  rw [keyNames, stopped]
  exact ⟨hasKeyPath_of_mem_flowed wellFormed isEntity,
    mem_flowed_of_hasKeyPath wellFormed settles⟩

end Derivation

end ErSchema
