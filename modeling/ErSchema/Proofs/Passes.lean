import ErSchema.Proofs.Subclasses
import Mathlib

/-! # What a pass adds and what it counts

A pass leaves every column where it stands and under its name. It may promote a plain
column to a key column that refers to a table, and it appends columns of that sort
under new names. What it returns is the number of columns promoted and appended, so a
pass that returns zero has changed nothing. Nothing is asked of the tables or the links
for this: names may repeat, tables may be missing, and one table may give and take in
the same pass. -/

namespace ErSchema

/-! ## One column -/

namespace Column

/-- A column stays as it is, or it was plain and is now a key taken over. -/
inductive Advances (before : Column) : Column → Prop
  | kept : Advances before before
  | promoted (notKey : before.isKey = false) (notForeign : before.isForeign = false)
      (source : String) : Advances before (.inheritedKey before.name source)

/-- Whether a plain column has become part of the key and a reference. -/
def isPromoted (before after : Column) : Bool :=
  !before.isKey && !before.isForeign && after.isKey && after.isForeign

namespace Advances

variable {before middle after : Column}

theorem trans (earlier : before.Advances middle) (later : middle.Advances after) :
    before.Advances after := by
  cases earlier with
  | kept => exact later
  | promoted notKey notForeign source =>
      cases later with
      | kept => exact .promoted notKey notForeign source
      | promoted again => exact absurd again Bool.noConfusion

theorem name_eq (advances : before.Advances after) : after.name = before.name := by
  cases advances <;> rfl

/-- Only a plain column advances. -/
theorem eq_of_isKey (advances : before.Advances after) (isKey : before.isKey = true) :
    after = before := by
  cases advances with
  | kept => rfl
  | promoted notKey => exact absurd (isKey.symm.trans notKey) Bool.noConfusion

end Advances

theorem eq_of_forall₂_advances {before after : List Column}
    (advances : List.Forall₂ Advances before after)
    (keys : ∀ column ∈ before, column.isKey = true) : after = before := by
  induction advances with
  | nil => rfl
  | cons first _ induction =>
      obtain ⟨isKey, others⟩ := List.forall_mem_cons.mp keys
      rw [first.eq_of_isKey isKey, induction others]

/-- The key gains the columns that are promoted. -/
theorem length_filter_isKey {before after : List Column}
    (advances : List.Forall₂ Advances before after) :
    (after.filter (·.isKey)).length = (before.filter (·.isKey)).length +
      (before.zip after).countP fun pair => pair.1.isPromoted pair.2 := by
  induction advances with
  | nil => rfl
  | @cons column _ _ _ first _ induction =>
      rw [List.zip_cons_cons, List.countP_cons]
      cases first with
      | kept =>
          cases isKey : column.isKey with
          | false => simp [isPromoted, isKey, induction]
          | true => simp [isPromoted, isKey, induction]; omega
      | promoted notKey notForeign source =>
          simp [isPromoted, inheritedKey, notKey, notForeign, induction]
          omega

end Column

/-! ## One table -/

namespace Table

/-- Columns keep their places, and key columns under new names are appended. -/
structure Advances (before after : Table) : Prop where
  name : after.name = before.name
  kind : after.kind = before.kind
  columns : ∃ kept added, after.columns = kept ++ added ∧
    List.Forall₂ Column.Advances before.columns kept ∧
    (∀ column ∈ added, ∃ name source, column = .inheritedKey name source) ∧
    (added.map Column.name).Nodup ∧ ∀ column ∈ added, column.name ∉ before.names

/-- The columns appended and the columns promoted. -/
def gained (before after : Table) : Nat :=
  (after.columns.drop before.columns.length).length +
    (before.columns.zip after.columns).countP fun pair => pair.1.isPromoted pair.2

namespace Advances

theorem refl (table : Table) : table.Advances table where
  name := rfl
  kind := rfl
  columns := ⟨table.columns, [], (List.append_nil _).symm,
    List.forall₂_same.mpr fun _ _ => .kept, List.forall_mem_nil _, List.nodup_nil,
    List.forall_mem_nil _⟩

theorem trans {first second third : Table} (earlier : first.Advances second)
    (later : second.Advances third) : first.Advances third where
  name := later.name.trans earlier.name
  kind := later.kind.trans earlier.kind
  columns := by
    obtain ⟨kept, added, split, advances, keys, distinct, fresh⟩ := earlier.columns
    obtain ⟨laterKept, laterAdded, laterSplit, laterAdvances, laterKeys, laterDistinct,
      laterFresh⟩ := later.columns
    have names : second.names = first.names ++ added.map Column.name := by
      rw [Table.names, split, List.map_append,
        map_eq_of_forall₂ advances fun _ _ => Column.Advances.name_eq, Table.names]
    simp only [names, List.mem_append, not_or] at laterFresh
    rw [split] at laterAdvances
    have front : List.Forall₂ Column.Advances kept (laterKept.take kept.length) :=
      (List.forall₂_take_append laterKept kept added laterAdvances.flip).flip
    -- What was appended is part of the key, so that it is not promoted later.
    have back : laterKept.drop kept.length = added := by
      apply Column.eq_of_forall₂_advances
        (List.forall₂_drop_append laterKept kept added laterAdvances.flip).flip
      intro column isAdded
      obtain ⟨_, _, rfl⟩ := keys column isAdded
      rfl
    refine ⟨laterKept.take kept.length, added ++ laterAdded, ?_, ?_, ?_, ?_, ?_⟩
    · rw [laterSplit, ← List.append_assoc, ← back, List.take_append_drop]
    · exact forall₂_trans (fun first next => first.trans next) advances front
    · exact List.forall_mem_append.mpr ⟨keys, laterKeys⟩
    · rw [List.map_append]
      refine List.nodup_append.mpr ⟨distinct, laterDistinct, ?_⟩
      intro name isAdded other isLater same
      obtain ⟨column, isColumn, rfl⟩ := List.mem_map.mp isLater
      exact (laterFresh column isColumn).2 (same ▸ isAdded)
    · exact List.forall_mem_append.mpr ⟨fresh, fun column isLater => (laterFresh column isLater).1⟩

theorem push (table : Table) (key : Column) (source : String) :
    table.Advances (table.push (.inheritedKey key.name source)) := by
  by_cases taken : key.name ∈ table.names
  · have same : table.push (.inheritedKey key.name source) = table := push_of_mem taken
    rw [same]
    exact refl table
  · have pushed : table.push (.inheritedKey key.name source) =
        { table with columns := table.columns ++ [.inheritedKey key.name source] } :=
      push_of_not_mem taken
    rw [pushed]
    refine ⟨rfl, rfl, table.columns, [.inheritedKey key.name source], rfl,
      List.forall₂_same.mpr fun _ _ => .kept, ?_, List.nodup_singleton _, ?_⟩
    · exact List.forall_mem_singleton.mpr ⟨_, _, rfl⟩
    · exact List.forall_mem_singleton.mpr taken

theorem promote {table : Table} {name : String} {existing : Column}
    (found : table.column? name = some existing) (notKey : existing.isKey = false)
    (notForeign : existing.isForeign = false) (source : String) :
    table.Advances (table.update name (Hierarchy.promote source)) := by
  obtain ⟨before, after, old, new⟩ := update_split (Hierarchy.promote source) found
  refine ⟨rfl, rfl, _, [], (List.append_nil _).symm, ?_, List.forall_mem_nil _,
    List.nodup_nil, List.forall_mem_nil _⟩
  rw [old, new]
  have same (columns : List Column) : List.Forall₂ Column.Advances columns columns :=
    List.forall₂_same.mpr fun _ _ => .kept
  exact List.rel_append (same before) (.cons (.promoted notKey notForeign source) (same after))

theorem carried : Derivation.Carried Table.Advances :=
  .of_changes refl trans push promote

/-- All that a table gains is part of its key. -/
theorem keyLength_eq {before after : Table} (advances : before.Advances after) :
    after.keyLength = before.keyLength + before.gained after := by
  obtain ⟨kept, added, split, front, keys, _⟩ := advances.columns
  have places : kept.length = before.columns.length := front.length_eq.symm
  have behind : after.columns.drop before.columns.length = added := by
    rw [split, ← places, List.drop_left]
  have paired : before.columns.zip after.columns = before.columns.zip kept := by
    have cut : (before.columns ++ []).zip (kept ++ added) =
        before.columns.zip kept ++ [].zip added := List.zip_append places.symm
    rwa [List.append_nil, List.zip_nil_left, List.append_nil, ← split] at cut
  have all : added.filter (·.isKey) = added := by
    apply List.filter_eq_self.mpr
    intro column isAdded
    obtain ⟨_, _, rfl⟩ := keys column isAdded
    rfl
  rw [keyLength, primaryKey, split, List.filter_append, List.length_append, all,
    Column.length_filter_isKey front, keyLength, primaryKey, gained, behind, paired]
  omega

end Advances

end Table

/-! ## All tables -/

namespace TableMap

/-- The columns that the tables gain together. -/
def gained (before after : TableMap) : Nat :=
  ((before.toTables.zip after.toTables).map fun pair => pair.1.gained pair.2).sum

theorem Revises.keyLength_eq_add {before after : TableMap}
    (revision : Revises Table.Advances before after) :
    after.keyLength = before.keyLength + before.gained after := by
  rcases before with ⟨entries⟩
  rcases after with ⟨afterEntries⟩
  change List.Forall₂ _ entries afterEntries at revision
  induction revision with
  | nil => rfl
  | cons first _ induction =>
      have own := first.2.keyLength_eq
      simp only [keyLength, gained, toTables, List.map_cons, List.flatMap_cons, List.length_append,
        List.zip_cons_cons, List.sum_cons, Table.keyLength] at induction own ⊢
      omega

end TableMap

/-! ## A pass -/

/-- What comes of a pass: the tables advance, and what is returned counts by how much. -/
structure TableMap.Counted (before : TableMap) (result : Nat × TableMap) : Prop where
  advances : Revises Table.Advances before result.2
  count : result.1 = before.gained result.2
  unchanged : result.1 = 0 ↔ result.2 = before

theorem Flows.counted {tables : TableMap} {result : Nat × TableMap}
    (flows : Flows (0, tables) result)
    (advances : TableMap.Revises Table.Advances tables result.2) : tables.Counted result where
  advances := advances
  count := by
    have honest := flows.counts.honest
    have longer := advances.keyLength_eq_add
    dsimp only at honest
    omega
  unchanged := by
    refine ⟨flows.counts.quiet, fun same => ?_⟩
    have honest := flows.counts.honest
    rw [same] at honest
    dsimp only at honest
    omega

/-- A pass along links or hierarchies, whatever they are, returns the number of columns
that it promoted and appended in whatever tables there are. -/
theorem propagate_counted (tables : TableMap) :
    (∀ links, tables.Counted (Ownership.propagate links tables)) ∧
      ∀ hierarchies, tables.Counted (Hierarchy.propagate hierarchies tables) := by
  constructor
  · intro links
    exact (Ownership.flows_propagate links tables).counted
      (Table.Advances.carried.ownerships links tables)
  · intro hierarchies
    exact (Hierarchy.flows_propagate hierarchies tables).counted
      (Table.Advances.carried.hierarchies hierarchies tables)

end ErSchema
