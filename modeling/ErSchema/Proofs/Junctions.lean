import ErSchema.Proofs.Folding
import ErSchema.Proofs.NamesInTurn

/-! # The columns of a junction table

A junction table has one column for each attribute of the relationship and for
each key column of each participant, whatever they are called: an entity that
takes part again does so in another role, an imported name that is wanted more
than once carries its source, and what then still collides is numbered. -/

namespace ErSchema

/-- What a column is apart from its name. -/
def Column.unnamed (column : Column) : Column :=
  column.renamed ""

theorem Column.unnamed_renamed (column : Column) (name : String) :
    (column.renamed name).unnamed = column.unnamed :=
  rfl

namespace Junction

/-! ## What is imported -/

/-- A key column of a participant, under the name that it brings along. -/
structure Import where
  source : String
  candidate : String

def Import.column (key : Import) : Column :=
  .inheritedKey key.candidate key.source

/-- With its source in front if the candidate is not the only one of that name. -/
def Import.wanted (candidates : List String) (key : Import) : String :=
  if 1 < candidates.count key.candidate then key.source ++ "_" ++ key.candidate
  else key.candidate

/-- The key columns of the participant at that place; an entity that stands at an
earlier place too is in another role. -/
def importsAt (tables : TableMap) (participants : List Node) (place : Nat)
    (participant : Node) : List Import :=
  let repeated := participant.id ∈ (participants.take place).map Node.id
  let role := if repeated then otherRole else ""
  (tables.primaryKey participant.id).map fun key => ⟨participant.name, role ++ key.name⟩

def imports (tables : TableMap) (participants : List Node) : List Import :=
  participants.zipIdx.flatMap fun seat => importsAt tables participants seat.2 seat.1

theorem importedKeys_behind (tables : TableMap) (front rest : List Node) {met : List String}
    (isMet : ∀ id, id ∈ met ↔ id ∈ front.map Node.id) :
    importedKeys tables met rest = ((rest.zipIdx front.length).flatMap fun seat =>
      importsAt tables (front ++ rest) seat.2 seat.1).map Import.column := by
  induction rest generalizing front met with
  | nil => rfl
  | cons participant rest induction =>
      have isMetNext (id : String) : id ∈ participant.id :: met ↔
          id ∈ (front ++ [participant]).map Node.id := by
        simp [isMet, or_comm]
      have others := induction (front ++ [participant]) isMetNext
      rw [List.length_append, List.length_singleton, List.append_assoc,
        List.singleton_append] at others
      rw [importedKeys, others, List.zipIdx_cons, List.flatMap_cons, List.map_append]
      simp [importsAt, isMet, Import.column]

theorem importedKeys_eq (tables : TableMap) (participants : List Node) :
    importedKeys tables [] participants = (imports tables participants).map Import.column :=
  importedKeys_behind tables [] participants fun _ => Iff.rfl

theorem unnamed_imports (tables : TableMap) (participants : List Node) :
    ((imports tables participants).map Import.column).map Column.unnamed =
      participants.flatMap fun participant =>
        (tables.primaryKey participant.id).map fun _ => .inheritedKey "" participant.name := by
  let anonymous (participant : Node) : List Column :=
    (tables.primaryKey participant.id).map fun _ => .inheritedKey "" participant.name
  calc ((imports tables participants).map Import.column).map Column.unnamed
      = participants.zipIdx.flatMap fun seat => anonymous seat.1 := by
        simp [imports, importsAt, anonymous, List.map_flatMap, Function.comp_def, Import.column,
          Column.unnamed, Column.renamed, Column.inheritedKey]
    _ = (participants.zipIdx.map Prod.fst).flatMap anonymous := by rw [List.flatMap_map]
    _ = participants.flatMap anonymous := by rw [List.zipIdx_map_fst]

/-! ## What each column wants to be called -/

theorem map_unnamed_candidates (attributes : Attributes) (participants : List Node)
    (tables : TableMap) :
    (candidates attributes participants tables).map Column.unnamed =
      attributes.primaryKeys.map (fun _ => .key "") ++
        attributes.ordinary.map (fun _ => .plain "") ++
        participants.flatMap fun participant =>
          (tables.primaryKey participant.id).map fun _ => .inheritedKey "" participant.name := by
  rw [candidates, importedKeys_eq, List.map_append, unnamed_imports, List.map_append,
    List.map_map, List.map_map]
  rfl

theorem map_name_candidates (attributes : Attributes) (participants : List Node)
    (tables : TableMap) :
    (candidates attributes participants tables).map Column.name =
      attributes.stored ++ (imports tables participants).map (·.candidate) := by
  simp [candidates, importedKeys_eq, Attributes.stored, Function.comp_def, Column.key,
    Column.plain, Import.column, Column.inheritedKey]

theorem unnamed_qualify (all : List Column) (column : Column) :
    (qualify all column).unnamed = column.unnamed := by
  rcases qualify_renamed all column with ⟨name, renamed⟩
  rw [renamed, Column.unnamed_renamed]

theorem name_qualify_own (all : List Column) {column : Column} (own : column.source = none) :
    (qualify all column).name = column.name := by
  rw [qualify, own]

theorem name_qualify_import (all : List Column) (key : Import) :
    (qualify all key.column).name = key.wanted (all.map Column.name) := by
  have count : all.countP (fun other => other.name = key.candidate) =
      (all.map Column.name).count key.candidate := by
    rw [List.count, List.countP_map]
    rfl
  simp only [qualify, Import.column, Column.inheritedKey, Import.wanted, ← count]
  exact apply_ite Column.name ..

/-- Own columns want the names of their attributes. -/
theorem map_name_qualified (attributes : Attributes) (participants : List Node)
    (tables : TableMap) :
    let all := candidates attributes participants tables
    (all.map (qualify all)).map Column.name = attributes.stored ++
      (imports tables participants).map (Import.wanted (all.map Column.name)) := by
  intro all
  let own := attributes.primaryKeys.map Column.key ++ attributes.ordinary.map Column.plain
  have sourceless : ∀ column ∈ own, column.source = none := by
    simp [own, or_imp, forall_and, Column.key, Column.plain]
  have ownNames : (own.map (qualify all)).map Column.name = attributes.stored := by
    calc (own.map (qualify all)).map Column.name
        = own.map Column.name := by
          rw [List.map_map]
          exact List.map_congr_left fun column member =>
            name_qualify_own all (sourceless column member)
      _ = attributes.stored := by
          simp [own, Attributes.stored, Function.comp_def, Column.key, Column.plain]
  have importedNames : ((importedKeys tables [] participants).map (qualify all)).map Column.name =
      (imports tables participants).map (Import.wanted (all.map Column.name)) := by
    rw [importedKeys_eq, List.map_map, List.map_map]
    exact List.map_congr_left fun key _ => name_qualify_import all key
  change ((own ++ importedKeys tables [] participants).map (qualify all)).map Column.name = _
  rw [List.map_append, List.map_append, ownNames, importedNames]

end Junction

/-- A junction table has a key column for each key attribute, a plain one for each
ordinary attribute, and for each participant a key column for each column of its
key; names are distinct and each is the wanted one, or that with the least free
number. -/
theorem junctionTable_keeps_all (relationship : Node) (attributes : Attributes)
    (participants : List Node) (tables : TableMap) :
    let table := junctionTable relationship attributes participants tables
    let imports := Junction.imports tables participants
    let candidates := attributes.stored ++ imports.map (·.candidate)
    table.columns.map Column.unnamed =
        attributes.primaryKeys.map (fun _ => .key "") ++
          attributes.ordinary.map (fun _ => .plain "") ++
          participants.flatMap (fun participant =>
            (tables.primaryKey participant.id).map fun _ => .inheritedKey "" participant.name) ∧
      table.names.Nodup ∧
      NamedInTurn Table.Numbered []
        (attributes.stored ++ imports.map (Junction.Import.wanted candidates)) table.names := by
  intro table imports candidates
  let all := Junction.candidates attributes participants tables
  let qualified := all.map (Junction.qualify all)
  rcases Table.foldl_push_named (fun taken column => Table.Numbered taken column.name)
      (fun table column => table.numberedName column.name) Column.renamed (fun _ _ => rfl)
      (fun table column => table.numbered_numberedName column.name) Table.Numbered.not_mem
      qualified (.empty relationship.name .junction) with ⟨names, inTurn, pushed⟩
  have columns : table.columns = List.zipWith Column.renamed qualified names :=
    congrArg Table.columns pushed
  have tableNames : table.names = names := by
    rw [Table.names, columns, inTurn.map_name_zipWith fun _ _ => rfl]
  refine ⟨?_, tableNames ▸ inTurn.nodup_append Table.Numbered.not_mem List.nodup_nil, ?_⟩
  · calc table.columns.map Column.unnamed
        = qualified.map Column.unnamed := by
          rw [columns, inTurn.map_zipWith fun column name => column.unnamed_renamed name]
      _ = all.map Column.unnamed := by
          rw [List.map_map]
          exact List.map_congr_left fun column _ => Junction.unnamed_qualify all column
      _ = _ := Junction.map_unnamed_candidates attributes participants tables
  · have wanted : qualified.map Column.name =
        attributes.stored ++ imports.map (Junction.Import.wanted candidates) := by
      rw [Junction.map_name_qualified, Junction.map_name_candidates]
    rw [tableNames, ← wanted]
    exact inTurn.map

example :
    let part := Node.entity "p" "Part"
    let tables := TableMap.empty.insert "p" ((Table.empty "Part" .entity).push (.key "no"))
    (junctionTable (Node.relationship "c" "Contains") ⟨["no", "no"], [], []⟩ [part, part]
      tables).names = ["no", "no_2", "Part_no", "other_no"] := by
  decide +kernel

end ErSchema
