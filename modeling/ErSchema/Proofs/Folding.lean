import ErSchema.Proofs.Entities

/-! # What the resolution of relationships leaves alone

When relationships are resolved all keys are known, and they stay: a table of an
entity only gets further columns, and none of them belongs to its key. So what a
relationship derives is the same whether it is read off the tables before the
others were resolved or after. -/

namespace ErSchema

namespace Table

/-! ## Appended columns -/

/-- Further columns stand behind the old ones, each as `allowed` says. -/
structure Appends (allowed : Column → Prop) (before after : Table) : Prop where
  name : after.name = before.name
  kind : after.kind = before.kind
  columns : ∃ added, after.columns = before.columns ++ added ∧
    ∀ column ∈ added, allowed column

namespace Appends

variable {allowed : Column → Prop}

theorem refl (table : Table) : table.Appends allowed table :=
  ⟨rfl, rfl, [], (List.append_nil _).symm, by simp⟩

theorem trans {first second third : Table} (earlier : first.Appends allowed second)
    (later : second.Appends allowed third) : first.Appends allowed third := by
  rcases earlier.columns with ⟨added, columns, addedAllowed⟩
  rcases later.columns with ⟨more, moreColumns, moreAllowed⟩
  refine ⟨later.name.trans earlier.name, later.kind.trans earlier.kind, added ++ more, ?_, ?_⟩
  · rw [moreColumns, columns, List.append_assoc]
  · intro column member
    exact (List.mem_append.mp member).elim (addedAllowed column) (moreAllowed column)

theorem primaryKey_eq {before after : Table} (appends : before.Appends allowed after)
    (plain : ∀ column, allowed column → column.isKey = false) :
    after.primaryKey = before.primaryKey := by
  rcases appends.columns with ⟨added, columns, addedAllowed⟩
  have noKeys : added.filter (·.isKey) = [] := by
    simpa using fun column member => plain column (addedAllowed column member)
  simp [primaryKey, columns, noKeys]

end Appends

/-- Items that are made columns under free names become one column each. -/
theorem foldl_push {α : Type} {make : Table → α → Column}
    (free : ∀ table item, (make table item).name ∉ table.names) (items : List α)
    (table : Table) :
    ∃ added, items.foldl (fun table item => table.push (make table item)) table =
        { table with columns := table.columns ++ added } ∧
      List.Forall₂ (fun item column => ∃ earlier, column = make earlier item) items added := by
  induction items generalizing table with
  | nil => exact ⟨[], by simp, .nil⟩
  | cons item rest induction =>
      rcases induction (table.push (make table item)) with ⟨added, columns, made⟩
      refine ⟨make table item :: added, ?_, .cons ⟨table, rfl⟩ made⟩
      rw [List.foldl_cons, columns, push_of_not_mem (free table item)]
      simp

/-- The key columns of a target become references under names of their own. -/
theorem appends_foreignKeys {allowed : Column → Prop} {target : Node} {keys : List Column}
    (each : ∀ key ∈ keys, ∀ name, allowed (.foreignKey name target.name)) (role : String)
    (table : Table) :
    table.Appends allowed (keys.foldl (Resolution.pushForeignKey target role) table) := by
  have free : ∀ (table : Table) (key : Column),
      (Column.foreignKey (table.uniqueName (role ++ key.name) target.name) target.name).name ∉
        table.names := fun table key => table.uniqueName_free _ target.name
  rcases foldl_push free keys table with ⟨added, columns, made⟩
  change keys.foldl (Resolution.pushForeignKey target role) table = _ at columns
  refine columns ▸ ⟨rfl, rfl, added, rfl, fun column member => ?_⟩
  rcases exists_left_of_forall₂ made member with ⟨key, isKey, earlier, rfl⟩
  exact each key isKey _

/-! ## The table of a multivalued attribute -/

@[simp] theorem multivalued_name (owner : Table) (attributeName : String) :
    (owner.multivalued attributeName).name = owner.name ++ "_" ++ attributeName := by
  simp [multivalued, empty]

@[simp] theorem multivalued_kind (owner : Table) (attributeName : String) :
    (owner.multivalued attributeName).kind = .multivalued := by
  simp [multivalued, empty]

theorem mem_columns_multivalued {owner : Table} {attributeName : String} {column : Column}
    (member : column ∈ (owner.multivalued attributeName).columns) :
    (∃ key ∈ owner.primaryKey, column = .inheritedKey key.name owner.name) ∨
      ∃ name, column = .key name := by
  rcases mem_columns_push member with keyed | value
  · rcases mem_columns_pushAll keyed with absent | inherited
    · exact absurd absent List.not_mem_nil
    · rcases List.mem_map.mp inherited with ⟨key, isKey, rfl⟩
      exact .inl ⟨key, isKey, rfl⟩
  · exact .inr ⟨_, value⟩

/-- It depends on nothing of its owner but the name and the key. -/
theorem multivalued_congr {owner other : Table} (name : owner.name = other.name)
    (primaryKey : owner.primaryKey = other.primaryKey) (attributeName : String) :
    owner.multivalued attributeName = other.multivalued attributeName := by
  simp only [multivalued, name, primaryKey]

end Table

/-! ## Junction tables -/

namespace Junction

theorem importedKeys_congr {tables others : TableMap} {participants : List Node}
    (same : ∀ participant ∈ participants,
      tables.primaryKey participant.id = others.primaryKey participant.id) (met : List String) :
    importedKeys tables met participants = importedKeys others met participants := by
  induction participants generalizing met with
  | nil => rfl
  | cons participant rest induction =>
      have both := List.forall_mem_cons.mp same
      simp only [importedKeys, both.1, induction both.2]

theorem mem_importedKeys {tables : TableMap} {participants : List Node} {met : List String}
    {column : Column} (member : column ∈ importedKeys tables met participants) :
    ∃ participant ∈ participants, tables.primaryKey participant.id ≠ [] ∧
      ∃ name, column = .inheritedKey name participant.name := by
  induction participants generalizing met with
  | nil => simp [importedKeys] at member
  | cons participant rest induction =>
      rcases List.mem_append.mp member with own | others
      · rcases List.mem_map.mp own with ⟨key, isKey, rfl⟩
        exact ⟨participant, List.mem_cons_self, List.ne_nil_of_mem isKey, _, rfl⟩
      · rcases induction others with ⟨found, isParticipant, keyed⟩
        exact ⟨found, List.mem_cons_of_mem _ isParticipant, keyed⟩

theorem qualify_renamed (all : List Column) (column : Column) :
    ∃ name, qualify all column = column.renamed name := by
  unfold qualify
  split
  · split
    · exact ⟨_, rfl⟩
    · exact ⟨column.name, rfl⟩
  · exact ⟨column.name, rfl⟩

end Junction

/-- Only the keys of the participants matter. -/
theorem junctionTable_congr {tables others : TableMap} {participants : List Node}
    (same : ∀ participant ∈ participants,
      tables.primaryKey participant.id = others.primaryKey participant.id)
    (relationship : Node) (attributes : Attributes) :
    junctionTable relationship attributes participants tables =
      junctionTable relationship attributes participants others := by
  simp only [junctionTable, Junction.candidates, Junction.importedKeys_congr same]

section
variable (relationship : Node) (attributes : Attributes) (participants : List Node)
  (tables : TableMap)

/-- No candidate is lost and none changes but for its name. -/
theorem junctionTable_columns :
    ∃ columns, junctionTable relationship attributes participants tables =
        { name := relationship.name, kind := .junction, columns := columns } ∧
      List.Forall₂ (fun candidate column => ∃ name, column = candidate.renamed name)
        (Junction.candidates attributes participants tables) columns := by
  have free : ∀ (table : Table) (column : Column),
      (column.renamed (table.numberedName column.name)).name ∉ table.names :=
    fun table column => table.numberedName_free column.name
  let all := Junction.candidates attributes participants tables
  rcases Table.foldl_push free (all.map (Junction.qualify all))
      (.empty relationship.name .junction) with ⟨columns, equal, made⟩
  refine ⟨columns, equal, ?_⟩
  rw [List.forall₂_map_left_iff] at made
  refine made.imp fun candidate column both => ?_
  rcases both with ⟨earlier, rfl⟩
  rcases Junction.qualify_renamed all candidate with ⟨name, renamed⟩
  exact ⟨_, by rw [renamed]; rfl⟩

theorem junctionTable_name :
    (junctionTable relationship attributes participants tables).name = relationship.name := by
  rcases junctionTable_columns relationship attributes participants tables with ⟨_, equal, _⟩
  rw [equal]

theorem junctionTable_kind :
    (junctionTable relationship attributes participants tables).kind = .junction := by
  rcases junctionTable_columns relationship attributes participants tables with ⟨_, equal, _⟩
  rw [equal]

end

/-- A column of a junction table is the relationship's own or part of the key of
a participant that has one. -/
theorem mem_columns_junctionTable {relationship : Node} {attributes : Attributes}
    {participants : List Node} {tables : TableMap} {column : Column}
    (member : column ∈ (junctionTable relationship attributes participants tables).columns) :
    (column.isForeign = false ∧ column.source = none) ∨
      ∃ participant ∈ participants, tables.primaryKey participant.id ≠ [] ∧
        column.isForeign = true ∧ column.source = some participant.name := by
  rcases junctionTable_columns relationship attributes participants tables with
    ⟨columns, equal, made⟩
  rw [equal] at member
  rcases exists_left_of_forall₂ made member with ⟨candidate, isCandidate, name, rfl⟩
  rcases List.mem_append.mp isCandidate with own | imported
  · left
    rcases List.mem_append.mp own with key | plain
    · rcases List.mem_map.mp key with ⟨_, _, rfl⟩
      exact ⟨rfl, rfl⟩
    · rcases List.mem_map.mp plain with ⟨_, _, rfl⟩
      exact ⟨rfl, rfl⟩
  · right
    rcases Junction.mem_importedKeys imported with ⟨participant, isParticipant, keyed, _, rfl⟩
    exact ⟨participant, isParticipant, keyed, rfl, rfl⟩

end ErSchema
