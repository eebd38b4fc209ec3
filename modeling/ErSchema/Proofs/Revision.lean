import ErSchema.TableMap
import ErSchema.Proofs.Columns
import Mathlib.Data.List.Forall2

/-! # Revising the tables of a schema

No routine adds a table to the map of entity tables or takes one away: each
changes tables where they stand. What is true of one changed table is therefore
stated once, as a relation between a table before and after, and carried to the
whole map. -/

namespace ErSchema

/-! ## Lists that correspond member by member -/

theorem exists_left_of_forall₂ {α β : Type} {related : α → β → Prop} {lefts : List α}
    {rights : List β} (pairs : List.Forall₂ related lefts rights) {right : β}
    (member : right ∈ rights) : ∃ left ∈ lefts, related left right := by
  induction pairs with
  | nil => simp at member
  | @cons head _ _ _ both _ induction =>
      rcases List.mem_cons.mp member with rfl | later
      · exact ⟨head, List.mem_cons_self, both⟩
      · rcases induction later with ⟨left, isLeft, related⟩
        exact ⟨left, List.mem_cons_of_mem _ isLeft, related⟩

theorem exists_right_of_forall₂ {α β : Type} {related : α → β → Prop} {lefts : List α}
    {rights : List β} (pairs : List.Forall₂ related lefts rights) {left : α}
    (member : left ∈ lefts) : ∃ right ∈ rights, related left right :=
  exists_left_of_forall₂ pairs.flip member

theorem forall₂_imp_of_mem {α β : Type} {related wider : α → β → Prop} {lefts : List α}
    {rights : List β}
    (implies : ∀ left ∈ lefts, ∀ right ∈ rights, related left right → wider left right)
    (pairs : List.Forall₂ related lefts rights) : List.Forall₂ wider lefts rights := by
  refine List.forall₂_iff_zip.mpr ⟨pairs.length_eq, fun {left right} both => ?_⟩
  rcases List.of_mem_zip both with ⟨isLeft, isRight⟩
  exact implies left isLeft right isRight (List.forall₂_zip pairs both)

theorem forall₂_trans {α β γ : Type} {first : α → β → Prop} {second : β → γ → Prop}
    {both : α → γ → Prop} (transitive : ∀ {left middle right}, first left middle →
      second middle right → both left right) {lefts : List α} {middles : List β}
    {rights : List γ} (earlier : List.Forall₂ first lefts middles)
    (later : List.Forall₂ second middles rights) : List.Forall₂ both lefts rights := by
  induction earlier generalizing rights with
  | nil =>
      cases later with
      | nil => exact .nil
  | cons head _ induction =>
      cases later with
      | cons next rest => exact .cons (transitive head next) (induction rest)

theorem map_eq_of_forall₂ {α β γ : Type} {related : α → β → Prop} {lefts : List α}
    {rights : List β} {before : α → γ} {after : β → γ}
    (pairs : List.Forall₂ related lefts rights)
    (same : ∀ left right, related left right → after right = before left) :
    rights.map after = lefts.map before := by
  induction pairs with
  | nil => rfl
  | cons pair _ induction => rw [List.map_cons, List.map_cons, same _ _ pair, induction]

namespace TableMap

def ids (tables : TableMap) : List String :=
  tables.entries.map (·.1)

def names (tables : TableMap) (id : String) : List String :=
  ((tables.get? id).map (·.names)).getD []

def keyNames (tables : TableMap) (id : String) : List String :=
  (tables.primaryKey id).map Column.name

/-! ## Reading -/

theorem names_of_get? {tables : TableMap} {id : String} {table : Table}
    (found : tables.get? id = some table) : tables.names id = table.names := by
  simp [names, found]

theorem primaryKey_of_get? {tables : TableMap} {id : String} {table : Table}
    (found : tables.get? id = some table) : tables.primaryKey id = table.primaryKey := by
  simp [primaryKey, found]

theorem keyNames_of_get? {tables : TableMap} {id : String} {table : Table}
    (found : tables.get? id = some table) : tables.keyNames id = table.keyNames := by
  rw [keyNames, primaryKey_of_get? found, Table.keyNames]

theorem primaryKey_of_none {tables : TableMap} {id : String}
    (missing : tables.get? id = none) : tables.primaryKey id = [] := by
  simp [primaryKey, missing]

theorem keyNames_of_none {tables : TableMap} {id : String}
    (missing : tables.get? id = none) : tables.keyNames id = [] := by
  rw [keyNames, primaryKey_of_none missing, List.map_nil]

theorem mem_keyNames {tables : TableMap} {id name : String} :
    name ∈ tables.keyNames id ↔
      ∃ table, tables.get? id = some table ∧ name ∈ table.keyNames := by
  cases found : tables.get? id with
  | none => simp [keyNames_of_none found]
  | some table => simp [keyNames_of_get? found]

theorem mem_toTables_of_get? {tables : TableMap} {id : String} {table : Table}
    (found : tables.get? id = some table) : table ∈ tables.toTables := by
  rcases Option.map_eq_some_iff.mp found with ⟨entry, search, rfl⟩
  exact List.mem_map_of_mem (List.mem_of_find?_eq_some search)

theorem isSome_get?_iff {tables : TableMap} {id : String} :
    (tables.get? id).isSome = true ↔ id ∈ tables.ids := by
  simp [get?, ids]

theorem exists_get?_of_mem_ids {tables : TableMap} {id : String} (known : id ∈ tables.ids) :
    ∃ table, tables.get? id = some table :=
  Option.isSome_iff_exists.mp (isSome_get?_iff.mpr known)

theorem get?_of_not_mem {tables : TableMap} {id : String} (absent : id ∉ tables.ids) :
    tables.get? id = none :=
  Option.not_isSome_iff_eq_none.mp (mt isSome_get?_iff.mp absent)

/-- With distinct identifiers no entry hides another. -/
theorem get?_of_mem {tables : TableMap} (distinct : tables.ids.Nodup)
    {id : String} {table : Table} (member : (id, table) ∈ tables.entries) :
    tables.get? id = some table := by
  rcases tables with ⟨entries⟩
  induction entries with
  | nil => simp at member
  | cons entry rest induction =>
      have parts := List.nodup_cons.mp distinct
      rcases List.mem_cons.mp member with equal | later
      · simp [get?, ← equal]
      · have different : entry.1 ≠ id := by
          intro equal
          exact parts.1 (List.mem_map.mpr ⟨(id, table), later, equal.symm⟩)
        have search := induction parts.2 later
        simpa [get?, different] using search

/-- Tables under distinct identifiers are found in the order of their entries. -/
theorem forall₂_get? {α : Type} {idOf : α → String} {items : List α} {tables : TableMap}
    (distinct : tables.ids.Nodup) (same : items.map idOf = tables.ids) :
    List.Forall₂ (fun item table => tables.get? (idOf item) = some table) items
      tables.toTables := by
  have paired : List.Forall₂ Eq (items.map idOf) (tables.entries.map (·.1)) := by
    rw [List.forall₂_eq_eq_eq]
    exact same
  rw [List.forall₂_map_left_iff, List.forall₂_map_right_iff] at paired
  rw [toTables, List.forall₂_map_right_iff]
  refine forall₂_imp_of_mem (fun item _ entry isEntry equal => ?_) paired
  exact equal ▸ get?_of_mem distinct isEntry

/-! ## Modifying -/

theorem get?_modify (tables : TableMap) (id other : String) (revise : Table → Table) :
    (tables.modify id revise).get? other =
      if other = id then (tables.get? id).map revise else tables.get? other := by
  rcases tables with ⟨entries⟩
  induction entries with
  | nil => simp [modify, modifyEntries, get?]
  | cons entry rest induction =>
      simp only [modify, get?] at induction ⊢
      by_cases here : entry.1 = id
      · by_cases same : other = id
        · simp [modifyEntries, here, same]
        · simp [modifyEntries, here, same, Ne.symm same]
      · by_cases asked : entry.1 = other
        · have different : other ≠ id := asked ▸ here
          simp [modifyEntries, asked, different]
        · simp only [modifyEntries, if_neg here, List.find?_cons, decide_eq_false here,
            decide_eq_false asked]
          exact induction

theorem get?_modify_self {tables : TableMap} {id : String} {table : Table}
    (found : tables.get? id = some table) (revise : Table → Table) :
    (tables.modify id revise).get? id = some (revise table) := by
  simp [get?_modify, found]

theorem get?_modify_of_ne {id other : String} (different : other ≠ id)
    (tables : TableMap) (revise : Table → Table) :
    (tables.modify id revise).get? other = tables.get? other := by
  simp [get?_modify, different]

theorem modify_eq_self {tables : TableMap} {id : String} {table : Table}
    (found : tables.get? id = some table) {revise : Table → Table}
    (unchanged : revise table = table) : tables.modify id revise = tables := by
  rcases tables with ⟨entries⟩
  induction entries with
  | nil => rfl
  | cons entry rest induction =>
      simp only [modify, mk.injEq, get?] at induction found ⊢
      by_cases here : entry.1 = id
      · have equal : entry.2 = table := by simpa [here] using found
        rw [modifyEntries, if_pos here, equal, unchanged, ← equal]
      · rw [modifyEntries, if_neg here, induction (by simpa [here] using found)]

/-! ## Revisions -/

/-- Every table stands where it stood, changed at most as `change` says. -/
def Revises (change : Table → Table → Prop) (before after : TableMap) : Prop :=
  List.Forall₂ (fun earlier later => later.1 = earlier.1 ∧ change earlier.2 later.2)
    before.entries after.entries

namespace Revises

variable {change : Table → Table → Prop} {before middle after : TableMap}

theorem refl (reflexive : ∀ table, change table table) (tables : TableMap) :
    Revises change tables tables :=
  List.forall₂_same.mpr fun entry _ => ⟨rfl, reflexive entry.2⟩

theorem trans
    (transitive : ∀ {first second third}, change first second → change second third →
      change first third)
    (earlier : Revises change before middle) (later : Revises change middle after) :
    Revises change before after :=
  forall₂_trans (fun first next => ⟨next.1.trans first.1, transitive first.2 next.2⟩) earlier later

theorem mono {wider : Table → Table → Prop}
    (implies : ∀ {earlier later}, change earlier later → wider earlier later)
    (revision : Revises change before after) : Revises wider before after :=
  List.Forall₂.imp (fun _ _ both => ⟨both.1, implies both.2⟩) revision

theorem ids_eq (revision : Revises change before after) : after.ids = before.ids := by
  rcases before with ⟨entries⟩
  rcases after with ⟨afterEntries⟩
  change List.Forall₂ _ entries afterEntries at revision
  induction revision with
  | nil => rfl
  | cons head _ induction => exact congrArg₂ List.cons head.1 induction

theorem rel_get? (revision : Revises change before after) (id : String) :
    Option.Rel change (before.get? id) (after.get? id) := by
  rcases before with ⟨entries⟩
  rcases after with ⟨afterEntries⟩
  change List.Forall₂ _ entries afterEntries at revision
  induction revision with
  | nil => exact .none
  | @cons earlier later _ _ head _ induction =>
      unfold get? at induction ⊢
      by_cases here : earlier.1 = id
      · simpa [head.1, here] using Option.Rel.some head.2
      · simpa [head.1, here] using induction

theorem get?_some (revision : Revises change before after) {id : String} {table : Table}
    (found : before.get? id = some table) :
    ∃ later, after.get? id = some later ∧ change table later := by
  have related := revision.rel_get? id
  rw [found] at related
  generalize after.get? id = result at related
  cases related with
  | some changed => exact ⟨_, rfl, changed⟩

theorem get?_some_before (revision : Revises change before after) {id : String}
    {table : Table} (found : after.get? id = some table) :
    ∃ earlier, before.get? id = some earlier ∧ change earlier table := by
  have related := revision.rel_get? id
  rw [found] at related
  generalize before.get? id = origin at related
  cases related with
  | some changed => exact ⟨_, rfl, changed⟩

/-- A change of one table under a reflexive relation. -/
theorem modify (reflexive : ∀ table, change table table) {tables : TableMap} {id : String}
    {revise : Table → Table}
    (changed : ∀ table, tables.get? id = some table → change table (revise table)) :
    Revises change tables (tables.modify id revise) := by
  rcases tables with ⟨entries⟩
  induction entries with
  | nil => exact .nil
  | cons entry rest induction =>
      simp only [Revises, TableMap.modify, get?] at induction changed ⊢
      by_cases here : entry.1 = id
      · rw [modifyEntries, if_pos here]
        exact .cons ⟨rfl, changed entry.2 (by simp [here])⟩
          (List.forall₂_same.mpr fun other _ => ⟨rfl, reflexive other.2⟩)
      · rw [modifyEntries, if_neg here]
        exact .cons ⟨rfl, reflexive entry.2⟩
          (induction fun table found => changed table (by simpa [here] using found))

theorem exists_before (revision : Revises change before after) {table : Table}
    (member : table ∈ after.toTables) : ∃ earlier ∈ before.toTables, change earlier table := by
  rcases List.mem_map.mp member with ⟨entry, isEntry, rfl⟩
  rcases exists_left_of_forall₂ revision isEntry with ⟨earlier, isEarlier, _, changed⟩
  exact ⟨earlier.2, List.mem_map_of_mem isEarlier, changed⟩

theorem exists_after (revision : Revises change before after) {table : Table}
    (member : table ∈ before.toTables) : ∃ later ∈ after.toTables, change table later := by
  rcases List.mem_map.mp member with ⟨entry, isEntry, rfl⟩
  rcases exists_right_of_forall₂ revision isEntry with ⟨later, isLater, _, changed⟩
  exact ⟨later.2, List.mem_map_of_mem isLater, changed⟩

end Revises

theorem ids_modify (tables : TableMap) (id : String) (change : Table → Table) :
    (tables.modify id change).ids = tables.ids := by
  have revised : Revises (fun _ _ => True) tables (tables.modify id change) :=
    Revises.modify (fun _ => trivial) fun _ _ => trivial
  exact revised.ids_eq

theorem modify_of_not_mem {tables : TableMap} {id : String} (absent : id ∉ tables.ids)
    (change : Table → Table) : tables.modify id change = tables := by
  have revised : Revises Eq tables (tables.modify id change) := by
    apply Revises.modify fun _ => rfl
    intro table found
    rw [get?_of_not_mem absent] at found
    cases found
  have same : List.Forall₂ Eq tables.entries (tables.modify id change).entries :=
    List.Forall₂.imp (fun _ _ both => Prod.ext both.1.symm both.2) revised
  rw [List.forall₂_eq_eq_eq] at same
  exact congrArg mk same.symm

end TableMap

end ErSchema
