import ErSchema.Proofs.Propagation

/-! # The tables of a schema

A schema has one table for each entity, in the order of the entities. It is the
one on which the loop settled, with what relationships folded into it; all other
tables are derived and say so. -/

namespace ErSchema

namespace Derivation

/-- The state once these relationships have been resolved. -/
def resolutionAfter (index : Adjacency) (limit : Option Nat) (relationships : List Node) :
    Resolution :=
  relationships.foldl (Resolution.resolveOne index index.ownerships)
    ⟨(settled index limit).tables, [], []⟩

def resolution (index : Adjacency) (limit : Option Nat) : Resolution :=
  resolutionAfter index limit (index.nodes.filter (·.isRelationship))

theorem tables_ofDiagram (diagram : Diagram) (limit : Option Nat) :
    let index := Adjacency.ofDiagram diagram
    (ofDiagram diagram limit).schema.tables =
      (resolution index limit).tables.toTables ++
        index.entities.flatMap (multivaluedTables index (settled index limit).tables) ++
        (resolution index limit).derived :=
  rfl

variable {index : Adjacency} (wellFormed : index.WellFormed) (limit : Option Nat)
include wellFormed

theorem reached_resolutionAfter (relationships : List Node) :
    Resolution.Reached index (settled index limit).tables
      (resolutionAfter index limit relationships) :=
  Resolution.reached_foldl wellFormed _ relationships

theorem reached_resolution :
    Resolution.Reached index (settled index limit).tables (resolution index limit) :=
  reached_resolutionAfter wellFormed limit _

theorem ids_of_reached {state : Resolution}
    (reached : Resolution.Reached index (settled index limit).tables state) :
    state.tables.ids = index.entities.map Node.id := by
  rw [reached.tables.ids_eq, (inherits_settled index limit).ids_eq, ids_baseTables wellFormed]

/-- The table of an entity keeps its name and kind, and its key from when the
loop ended. -/
theorem exists_get?_resolution {entity : Node} (member : entity ∈ index.entities) :
    ∃ table, (resolution index limit).tables.get? entity.id = some table ∧
      table.name = entity.name ∧ table.kind = .entity ∧
      table.primaryKey = (settled index limit).tables.primaryKey entity.id := by
  rcases (inherits_settled index limit).get?_some (get?_baseTables wellFormed member) with
    ⟨middle, foundMiddle, inherits⟩
  rcases (reached_resolution wellFormed limit).tables.get?_some foundMiddle with
    ⟨table, found, appends⟩
  refine ⟨table, found, ?_, ?_, ?_⟩
  · simp [appends.name, inherits.name, entityTable, Table.empty]
  · simp [appends.kind, inherits.kind, entityTable, Table.empty]
  · rw [TableMap.primaryKey_of_get? foundMiddle]
    exact appends.primaryKey_eq fun _ => Resolution.Folded.isKey

theorem forall₂_resolution :
    List.Forall₂ (fun entity table => table.name = entity.name ∧ table.kind = .entity ∧
        table.primaryKey = (settled index limit).tables.primaryKey entity.id)
      index.entities (resolution index limit).tables.toTables := by
  have ids := ids_of_reached wellFormed limit (reached_resolution wellFormed limit)
  have found := TableMap.forall₂_get? (ids ▸ wellFormed.distinct_entities) ids.symm
  refine forall₂_imp_of_mem (fun entity isEntity table _ atEntity => ?_) found
  rcases exists_get?_resolution wellFormed limit isEntity with ⟨same, foundSame, facts⟩
  rwa [Option.some.inj (atEntity.symm.trans foundSame)]

theorem kind_of_mem_resolution {table : Table}
    (member : table ∈ (resolution index limit).tables.toTables) : table.kind = .entity := by
  rcases exists_left_of_forall₂ (forall₂_resolution wellFormed limit) member with
    ⟨_, _, _, kind, _⟩
  exact kind

theorem kind_of_mem_derived {table : Table} (member : table ∈ (resolution index limit).derived) :
    table.kind ≠ .entity :=
  ((reached_resolution wellFormed limit).derived table member).kind_ne

omit wellFormed in
theorem kind_of_mem_multivaluedTables {tables : TableMap} {entities : List Node} {table : Table}
    (member : table ∈ entities.flatMap (multivaluedTables index tables)) :
    table.kind = .multivalued := by
  rcases List.mem_flatMap.mp member with ⟨entity, _, listed⟩
  unfold multivaluedTables at listed
  split at listed
  · exact absurd listed List.not_mem_nil
  · rcases List.mem_map.mp listed with ⟨name, _, rfl⟩
    simp

section
omit wellFormed
variable (diagram : Diagram)

/-- The entity tables of a schema are those that relationships were resolved in. -/
theorem baseTables_ofDiagram :
    (ofDiagram diagram limit).schema.baseTables =
      (resolution (Adjacency.ofDiagram diagram) limit).tables.toTables := by
  have wellFormed := Adjacency.wellFormed_ofDiagram diagram
  rw [Schema.baseTables, tables_ofDiagram, List.filter_append, List.filter_append]
  rw [List.filter_eq_self.mpr, List.filter_eq_nil_iff.mpr, List.filter_eq_nil_iff.mpr,
    List.append_nil, List.append_nil]
  · intro table member
    simpa using kind_of_mem_derived wellFormed limit member
  · intro table member
    simp [kind_of_mem_multivaluedTables member]
  · intro table member
    simpa using kind_of_mem_resolution wellFormed limit member

theorem derivedTables_ofDiagram :
    let index := Adjacency.ofDiagram diagram
    (ofDiagram diagram limit).schema.derivedTables =
      index.entities.flatMap (multivaluedTables index (settled index limit).tables) ++
        (resolution index limit).derived := by
  intro index
  have wellFormed : index.WellFormed := Adjacency.wellFormed_ofDiagram diagram
  rw [Schema.derivedTables, tables_ofDiagram, List.filter_append, List.filter_append]
  rw [List.filter_eq_nil_iff.mpr, List.filter_eq_self.mpr, List.filter_eq_self.mpr,
    List.nil_append]
  · intro table member
    simpa using kind_of_mem_derived wellFormed limit member
  · intro table member
    simp [kind_of_mem_multivaluedTables member]
  · intro table member
    simp [kind_of_mem_resolution wellFormed limit member]

end

end Derivation

end ErSchema
