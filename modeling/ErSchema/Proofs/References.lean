import ErSchema.Proofs.Outcome

/-! # What references refer to

A reference names a table of the same schema that has a key, and a part of the
key that was taken over has the name that it has at its source. Both are true of
the tables from the first on: a source never loses a name from its key, so what
is taken over in one step is still backed after all later ones. -/

namespace ErSchema

namespace Column

/-- A column has a source exactly if it is a reference, and then the source is
one of `tables` and has a key. -/
structure Resolves (tables : List Table) (column : Column) : Prop where
  marked : column.source.isSome = column.isForeign
  keyed : ∀ source ∈ column.source,
    ∃ target ∈ tables, target.name = source ∧ target.primaryKey ≠ []

/-- Its source has a key column of the same name. -/
def IsKeyOfSource (tables : List Table) (column : Column) : Prop :=
  ∃ target ∈ tables, column.source = some target.name ∧ column.name ∈ target.keyNames

end Column

/-- All columns resolve. Only a junction table may rename what it takes over. -/
structure Table.Resolves (tables : List Table) (table : Table) : Prop where
  columns : ∀ column ∈ table.columns, column.Resolves tables
  inherited : table.kind ≠ .junction → ∀ column ∈ table.columns, column.isKey = true →
    column.isForeign = true → column.IsKeyOfSource tables

/-- References lead to tables of the schema itself. -/
def Schema.Resolves (schema : Schema) : Prop :=
  ∀ table ∈ schema.tables, table.Resolves schema.tables

/-! ## Tables that stand for others -/

/-- For each table there is one of the same name with all of its key. -/
def Covers (tables more : List Table) : Prop :=
  ∀ table ∈ tables, ∃ target ∈ more,
    target.name = table.name ∧ table.keyNames ⊆ target.keyNames

theorem Table.primaryKey_ne_nil_of_subset {table target : Table}
    (included : table.keyNames ⊆ target.keyNames) (keyed : table.primaryKey ≠ []) :
    target.primaryKey ≠ [] := by
  rcases primaryKey_ne_nil_iff.mp keyed with ⟨name, member⟩
  exact primaryKey_ne_nil_iff.mpr ⟨name, included member⟩

section
variable {tables more : List Table} (covers : Covers tables more) {column : Column}
include covers

theorem Column.Resolves.mono (resolves : column.Resolves tables) : column.Resolves more where
  marked := resolves.marked
  keyed source isSource := by
    rcases resolves.keyed source isSource with ⟨table, member, named, keyed⟩
    rcases covers table member with ⟨target, isTarget, same, included⟩
    exact ⟨target, isTarget, same.trans named,
      Table.primaryKey_ne_nil_of_subset included keyed⟩

theorem Column.IsKeyOfSource.mono (isKey : column.IsKeyOfSource tables) :
    column.IsKeyOfSource more := by
  rcases isKey with ⟨table, member, source, name⟩
  rcases covers table member with ⟨target, isTarget, same, included⟩
  exact ⟨target, isTarget, same ▸ source, included name⟩

end

theorem TableMap.Revises.covers {before after : TableMap}
    (revision : TableMap.Revises Table.Inherits before after) :
    Covers before.toTables after.toTables := by
  intro table member
  rcases revision.exists_after member with ⟨later, isLater, inherits⟩
  exact ⟨later, isLater, inherits.name, inherits.keyNames⟩

/-! ## Columns of each origin -/

theorem Column.resolves_own {tables : List Table} {column : Column}
    (source : column.source = none) (foreign : column.isForeign = false) :
    column.Resolves tables where
  marked := by rw [source, foreign, Option.isSome_none]
  keyed := by simp [source]

/-- Some table of that name has all of these names in its key. -/
def Offers (tables : List Table) (source : String) (keys : List Column) : Prop :=
  ∀ key ∈ keys, ∃ target ∈ tables, target.name = source ∧ key.name ∈ target.keyNames

theorem Offers.mono {tables more : List Table} {source : String} {keys : List Column}
    (covers : Covers tables more) (offers : Offers tables source keys) :
    Offers more source keys := by
  intro key member
  rcases offers key member with ⟨table, isTable, named, isKey⟩
  rcases covers table isTable with ⟨target, isTarget, same, included⟩
  exact ⟨target, isTarget, same.trans named, included isKey⟩

section
variable {tables : List Table} {source : String} {keys : List Column} {key : Column}
  (offers : Offers tables source keys) (member : key ∈ keys)
include offers member

theorem Offers.resolves : (Column.inheritedKey key.name source).Resolves tables where
  marked := rfl
  keyed found isSource := by
    rcases offers key member with ⟨target, isTarget, named, isKey⟩
    have equal : source = found := Option.some.inj isSource
    exact ⟨target, isTarget, named.trans equal, Table.primaryKey_ne_nil_iff.mpr ⟨_, isKey⟩⟩

theorem Offers.isKeyOfSource : (Column.inheritedKey key.name source).IsKeyOfSource tables := by
  rcases offers key member with ⟨target, isTarget, named, isKey⟩
  exact ⟨target, isTarget, congrArg some named.symm, isKey⟩

end

theorem Table.resolves_multivalued {tables : List Table} {owner : Table}
    (offers : Offers tables owner.name owner.primaryKey) (attributeName : String) :
    (owner.multivalued attributeName).Resolves tables where
  columns column member := by
    rcases mem_columns_multivalued member with ⟨key, isKey, rfl⟩ | ⟨name, rfl⟩
    · exact offers.resolves isKey
    · exact Column.resolves_own rfl rfl
  inherited _ column member _ foreign := by
    rcases mem_columns_multivalued member with ⟨key, isKey, rfl⟩ | ⟨name, rfl⟩
    · exact offers.isKeyOfSource isKey
    · exact absurd foreign Bool.false_ne_true

/-! ## While keys flow -/

namespace TableMap

def Resolves (tables : TableMap) : Prop :=
  ∀ table ∈ tables.toTables, table.Resolves tables.toTables

theorem resolves_absorb {source : String} {take : Nat × Table → Column → Nat × Table}
    (takes : Takes source take) {keys : List Column} {state : Nat × TableMap}
    (offers : Offers state.2.toTables source keys) (resolves : state.2.Resolves)
    (id : String) : (absorb take keys state id).2.Resolves := by
  have revision := revises_absorb takes keys state id
  have covers := (revision.mono Table.Imports.toInherits).covers
  have offersStill := offers.mono covers
  intro table member
  rcases revision.exists_before member with ⟨earlier, isEarlier, imports⟩
  have before := resolves earlier isEarlier
  constructor
  · intro column isColumn
    rcases imports.origin column isColumn with old | ⟨key, isKey, rfl⟩
    · exact (before.columns column old).mono covers
    · exact offersStill.resolves isKey
  · intro kind column isColumn isKey foreign
    rcases imports.origin column isColumn with old | ⟨key, imported, rfl⟩
    · exact (before.inherited (imports.kind ▸ kind) column old isKey foreign).mono covers
    · exact offersStill.isKeyOfSource imported

/-- The tables of these nodes, where there are any, have the names of the nodes. -/
def Named (tables : TableMap) (nodes : List Node) : Prop :=
  ∀ node ∈ nodes, ∀ table, tables.get? node.id = some table → table.name = node.name

theorem Revises.named {before after : TableMap} {nodes : List Node}
    (revision : Revises Table.Inherits before after) (named : before.Named nodes) :
    after.Named nodes := by
  intro node member table found
  rcases revision.get?_some_before found with ⟨earlier, foundEarlier, inherits⟩
  exact inherits.name.trans (named node member earlier foundEarlier)

theorem Named.offers {tables : TableMap} {nodes : List Node} (named : tables.Named nodes)
    {node : Node} (member : node ∈ nodes) :
    Offers tables.toTables node.name (tables.primaryKey node.id) := by
  intro key isKey
  have inKey : key.name ∈ tables.keyNames node.id := List.mem_map_of_mem isKey
  rcases mem_keyNames.mp inKey with ⟨table, found, isKeyName⟩
  exact ⟨table, mem_toTables_of_get? found, named node member table found, isKeyName⟩

end TableMap

section
variable {nodes : List Node} {tables : TableMap} (named : tables.Named nodes)
  (resolves : tables.Resolves)
include named resolves

theorem Ownership.resolves_propagate {links : List Ownership}
    (owners : ∀ link ∈ links, link.owner ∈ nodes) : (propagate links tables).2.Resolves := by
  let Kept (state : Nat × TableMap) : Prop := state.2.Named nodes ∧ state.2.Resolves
  have kept : Kept (propagate links tables) := by
    apply List.foldlRecOn (motive := Kept) links step ⟨named, resolves⟩
    intro state kept link member
    refine ⟨(flows_step state link).inherits.named kept.1, ?_⟩
    exact TableMap.resolves_absorb (takes_importKey _) (kept.1.offers (owners link member))
      kept.2 _
  exact kept.2

theorem Hierarchy.resolves_propagate {hierarchies : List Hierarchy}
    (superclasses : ∀ hierarchy ∈ hierarchies, hierarchy.superclass ∈ nodes) :
    (propagate hierarchies tables).2.Resolves := by
  let Kept (state : Nat × TableMap) : Prop := state.2.Named nodes ∧ state.2.Resolves
  have kept : Kept (propagate hierarchies tables) := by
    apply List.foldlRecOn (motive := Kept) hierarchies step ⟨named, resolves⟩
    intro state kept hierarchy member
    refine ⟨(flows_step state hierarchy).inherits.named kept.1, ?_⟩
    -- The superclass offers the key that was read until all subclasses have it.
    let keys := state.2.primaryKey hierarchy.superclass.id
    let Inner (inner : Nat × TableMap) : Prop :=
      Offers inner.2.toTables hierarchy.superclass.name keys ∧ inner.2.Resolves
    have start : Inner state := ⟨kept.1.offers (superclasses hierarchy member), kept.2⟩
    have inner : Inner (step state hierarchy) := by
      apply List.foldlRecOn (motive := Inner) hierarchy.subclasses _ start
      intro found sofar subclass _
      refine ⟨sofar.1.mono (flows_subclassStep _ keys found subclass).inherits.covers, ?_⟩
      exact TableMap.resolves_absorb (takes_importKey _) sofar.1 sofar.2 _
    exact inner.2
  exact kept.2

end

namespace Derivation

variable {index : Adjacency} (wellFormed : index.WellFormed)
include wellFormed

theorem named_baseTables : (baseTables index).Named index.entities := by
  intro entity member table found
  rw [get?_baseTables wellFormed member] at found
  cases found
  simp [entityTable, Table.empty]

theorem resolves_baseTables : (baseTables index).Resolves := by
  intro table member
  simp only [TableMap.toTables, entries_baseTables wellFormed, List.map_map] at member
  rcases List.mem_map.mp member with ⟨entity, _, rfl⟩
  have own : ∀ column ∈ (entityTable entity (index.attributesOf entity)).columns,
      column.source = none ∧ column.isForeign = false := by
    intro column isColumn
    rcases Table.mem_columns_pushAll isColumn with absent | pushed
    · exact absurd absent List.not_mem_nil
    · rcases List.mem_append.mp pushed with key | plain
      · rcases List.mem_map.mp key with ⟨_, _, rfl⟩
        exact ⟨rfl, rfl⟩
      · rcases List.mem_map.mp plain with ⟨_, _, rfl⟩
        exact ⟨rfl, rfl⟩
  exact ⟨fun column isColumn => Column.resolves_own (own column isColumn).1
      (own column isColumn).2,
    fun _ column isColumn _ foreign => by simp [(own column isColumn).2] at foreign⟩

theorem resolves_flowed (made : Nat) :
    (flowed index.ownerships index.hierarchies (baseTables index) made).Resolves := by
  induction made with
  | zero => exact resolves_baseTables wellFormed
  | succ made induction =>
      rw [flowed_succ]
      have named := (inherits_flowed index.ownerships index.hierarchies (baseTables index)
        made).named (named_baseTables wellFormed)
      have owned := Ownership.resolves_propagate named induction fun link member =>
        (wellFormed.ends_of_mem_ownerships member).2
      have flows := Ownership.flows_propagate index.ownerships
        (flowed index.ownerships index.hierarchies (baseTables index) made)
      exact Hierarchy.resolves_propagate (flows.inherits.named named) owned
        fun hierarchy member => (wellFormed.classes_of_mem_hierarchies member).1

/-- However early the loop is stopped. -/
theorem resolves_settled (limit : Option Nat) : (settled index limit).tables.Resolves := by
  rcases exists_flowed_settled index limit with ⟨made, equal⟩
  rw [equal]
  exact resolves_flowed wellFormed made

theorem named_settled (limit : Option Nat) :
    (settled index limit).tables.Named index.entities :=
  (inherits_settled index limit).named (named_baseTables wellFormed)

end Derivation

/-! ## Once relationships are resolved

`tables` may be any tables that cover those on which the loop settled. -/

section
variable {index : Adjacency} {origin : TableMap} {tables : List Table}
  (covers : Covers origin.toTables tables)
include covers

theorem TableMap.Named.exists_keyed (named : origin.Named index.entities) {node : Node}
    (member : node ∈ index.entities) (keyed : origin.primaryKey node.id ≠ []) :
    ∃ target ∈ tables, target.name = node.name ∧ target.primaryKey ≠ [] := by
  rcases List.exists_mem_of_ne_nil _ keyed with ⟨key, isKey⟩
  rcases (named.offers member).mono covers key isKey with ⟨target, isTarget, same, inKey⟩
  exact ⟨target, isTarget, same, Table.primaryKey_ne_nil_iff.mpr ⟨_, inKey⟩⟩

theorem Resolution.Folded.resolves (named : origin.Named index.entities) {column : Column}
    (folded : Folded index origin column) : column.Resolves tables := by
  rcases folded with ⟨_, rfl⟩ | ⟨target, isTarget, keyed, _, rfl⟩
  · exact Column.resolves_own rfl rfl
  · refine ⟨rfl, fun source isSource => ?_⟩
    cases isSource
    exact named.exists_keyed covers isTarget keyed

theorem Table.Appends.resolves (named : origin.Named index.entities) {before after : Table}
    (appends : before.Appends (Resolution.Folded index origin) after)
    (resolves : before.Resolves origin.toTables) : after.Resolves tables := by
  rcases appends.columns with ⟨added, columns, folded⟩
  constructor
  · intro column member
    rcases List.mem_append.mp (columns ▸ member) with old | new
    · exact (resolves.columns column old).mono covers
    · exact (folded column new).resolves covers named
  · intro kind column member isKey foreign
    rcases List.mem_append.mp (columns ▸ member) with old | new
    · exact (resolves.inherited (appends.kind ▸ kind) column old isKey foreign).mono covers
    · exact absurd isKey (by simp [(folded column new).isKey])

theorem Resolution.Derived.resolves (named : origin.Named index.entities)
    {others : List Table} (included : others ⊆ tables) {table : Table}
    (derived : Derived index origin others table) : table.Resolves tables := by
  cases derived with
  | junction relationship attributes entities =>
      refine ⟨fun column member => ?_, fun kind => absurd (junctionTable_kind ..) kind⟩
      rcases mem_columns_junctionTable member with
        ⟨foreign, source⟩ | ⟨participant, isParticipant, keyed, foreign, source⟩
      · exact Column.resolves_own source foreign
      · refine ⟨by rw [foreign, source, Option.isSome_some], fun found isSource => ?_⟩
        cases source.symm.trans isSource
        exact named.exists_keyed covers (entities participant isParticipant) keyed
  | @ofEntity owner isOwner attributeName =>
      rcases covers owner isOwner with ⟨target, isTarget, same, keys⟩
      exact Table.resolves_multivalued (fun key isKey =>
        ⟨target, isTarget, same, keys (List.mem_map_of_mem isKey)⟩) attributeName
  | @ofJunction owner isOwner _ attributeName =>
      exact Table.resolves_multivalued (fun key isKey =>
        ⟨owner, included isOwner, rfl, List.mem_map_of_mem isKey⟩) attributeName

end

namespace Derivation

/-- The references of every schema resolve, also when the loop was stopped. -/
theorem schema_resolves (diagram : Diagram) (limit : Option Nat) :
    (ofDiagram diagram limit).schema.Resolves := by
  let index := Adjacency.ofDiagram diagram
  let tables := (ofDiagram diagram limit).schema.tables
  have wellFormed : index.WellFormed := Adjacency.wellFormed_ofDiagram diagram
  have reached := reached_resolution wellFormed limit
  have named := named_settled wellFormed limit
  have covers : Covers (settled index limit).tables.toTables tables := by
    intro table member
    rcases reached.tables.exists_after member with ⟨later, isLater, appends⟩
    have primaryKey := appends.primaryKey_eq fun _ => Resolution.Folded.isKey
    refine ⟨later, ?_, appends.name, ?_⟩
    · exact List.mem_append_left _ (List.mem_append_left _ isLater)
    · rw [Table.keyNames, Table.keyNames, primaryKey]
      exact List.Subset.refl _
  intro table member
  rcases List.mem_append.mp member with front | derived
  · rcases List.mem_append.mp front with entity | values
    · rcases reached.tables.exists_before entity with ⟨before, isBefore, appends⟩
      exact appends.resolves covers named (resolves_settled wellFormed limit before isBefore)
    · rcases List.mem_flatMap.mp values with ⟨entity, _, listed⟩
      have source : Resolution.Derived index (settled index limit).tables [] table := by
        unfold multivaluedTables at listed
        split at listed
        case h_1 => exact absurd listed List.not_mem_nil
        case h_2 owner found =>
          rcases List.mem_map.mp listed with ⟨name, _, rfl⟩
          exact .ofEntity (TableMap.mem_toTables_of_get? found) name
      exact source.resolves covers named (List.nil_subset _)
  · exact (reached.derived table derived).resolves covers named
      (List.subset_append_right _ _)

end Derivation

end ErSchema
