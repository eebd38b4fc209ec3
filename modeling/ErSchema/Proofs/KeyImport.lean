import ErSchema.Derivation
import ErSchema.Proofs.Revision

/-! # Taking over a key

Weak entities and subclasses take over keys in two ways that differ only in what
they do with a name that the table already has. What both do to a table, and
what their counts say about it, is stated here once; each then adds the rule of
its own about names. -/

namespace ErSchema

/-! ## Tables that only take over keys -/

namespace Table

/-- Names are distinct and every reference belongs to the key. So are the tables
of the entities until relationships are folded into them. -/
structure Regular (table : Table) : Prop where
  distinct : table.names.Nodup
  foreign : ∀ column ∈ table.columns, column.isForeign = true → column.isKey = true

/-- The key grows, and a new name is always a name in the key. -/
structure Inherits (before after : Table) : Prop where
  name : after.name = before.name
  kind : after.kind = before.kind
  keyNames : before.keyNames ⊆ after.keyNames
  names : ∀ name, name ∈ after.names ↔ name ∈ before.names ∨ name ∈ after.keyNames
  regular : before.Regular → after.Regular

/-- The same, with every new column taken over from one of `keys`. -/
structure Imports (source : String) (keys : List Column) (before after : Table) : Prop
    extends before.Inherits after where
  origin : ∀ column ∈ after.columns, column ∈ before.columns ∨
    ∃ key ∈ keys, column = .inheritedKey key.name source

namespace Inherits

theorem refl (table : Table) : table.Inherits table where
  name := rfl
  kind := rfl
  keyNames := List.Subset.refl _
  names name := by
    have included := @keyNames_subset_names table name
    exact ⟨Or.inl, fun either => either.elim id included⟩
  regular := id

theorem trans {first second third : Table} (earlier : first.Inherits second)
    (later : second.Inherits third) : first.Inherits third where
  name := later.name.trans earlier.name
  kind := later.kind.trans earlier.kind
  keyNames := List.Subset.trans earlier.keyNames later.keyNames
  names name := by
    have retained := @later.keyNames name
    rw [later.names, earlier.names]
    tauto
  regular := later.regular ∘ earlier.regular

end Inherits

namespace Imports

variable {source : String} {keys : List Column}

theorem refl (table : Table) : table.Imports source keys table :=
  { Inherits.refl table with origin := fun _ => .inl }

theorem trans {first second third : Table} (earlier : first.Imports source keys second)
    (later : second.Imports source keys third) : first.Imports source keys third :=
  { earlier.toInherits.trans later.toInherits with
    origin := by
      intro column member
      rcases later.origin column member with middle | imported
      · exact earlier.origin column middle
      · exact .inr imported }

theorem mono {more : List Column} {before after : Table}
    (included : keys ⊆ more) (imports : before.Imports source keys after) :
    before.Imports source more after :=
  { imports with
    origin := by
      intro column member
      rcases imports.origin column member with old | ⟨key, found, equal⟩
      · exact .inl old
      · exact .inr ⟨key, included found, equal⟩ }

end Imports

theorem Regular.push {table : Table} (regular : table.Regular) {column : Column}
    (foreign : column.isForeign = true → column.isKey = true) :
    (table.push column).Regular := by
  by_cases taken : column.name ∈ table.names
  · rwa [push_of_mem taken]
  · rw [push_of_not_mem taken]
    constructor
    · have distinct := regular.distinct
      simp only [names, List.map_append, List.map_cons, List.map_nil] at taken distinct ⊢
      exact List.nodup_append.mpr ⟨distinct, by simp, by simpa using fun a => taken a⟩
    · intro found member
      rcases List.mem_append.mp member with old | new
      · exact regular.foreign found old
      · rwa [List.mem_singleton.mp new]

/-- Both ways of taking over a key append it under a free name. -/
theorem imports_push {table : Table} {key : Column} {source : String} :
    table.Imports source [key] (table.push (.inheritedKey key.name source)) where
  name := push_name _ _
  kind := push_kind _ _
  keyNames := fun _ old => mem_keyNames_push.mpr (.inl old)
  names name := by
    have included := @keyNames_subset_names table name
    rw [mem_names_push, mem_keyNames_push]
    by_cases equal : name = key.name
    · subst name
      by_cases taken : key.name ∈ table.names <;> simp [Column.inheritedKey, taken]
    · simp only [Column.inheritedKey, equal, false_and, or_false]
      exact ⟨Or.inl, fun either => either.elim id included⟩
  regular regular := regular.push fun _ => rfl
  origin column member := by
    rcases mem_columns_push member with old | equal
    · exact .inl old
    · exact .inr ⟨key, List.mem_cons_self, equal⟩

def keyLength (table : Table) : Nat :=
  table.primaryKey.length

theorem keyLength_push {table : Table} (column : Column) (free : column.name ∉ table.names)
    (key : column.isKey = true) : (table.push column).keyLength = table.keyLength + 1 := by
  simp [keyLength, primaryKey, push_of_not_mem free, key]

/-! ## Promoting a plain column

The column of a name that is found is the one that is changed, and it keeps its
place between the others. -/

theorem updateColumns_split {name : String} (change : Column → Column)
    {columns : List Column} {existing : Column}
    (found : columns.find? (fun column => column.name = name) = some existing) :
    ∃ before after, columns = before ++ existing :: after ∧
      updateColumns name change columns = before ++ change existing :: after := by
  induction columns with
  | nil => simp at found
  | cons column rest induction =>
      by_cases here : column.name = name
      · have equal : column = existing := by simpa [here] using found
        subst column
        exact ⟨[], rest, rfl, by simp [updateColumns, here]⟩
      · rcases induction (by simpa [here] using found) with ⟨before, after, old, new⟩
        exact ⟨column :: before, after, by simp [old], by simp [updateColumns, here, new]⟩

theorem update_split {table : Table} {name : String} {existing : Column}
    (change : Column → Column) (found : table.column? name = some existing) :
    ∃ before after, table.columns = before ++ existing :: after ∧
      (table.update name change).columns = before ++ change existing :: after :=
  updateColumns_split change found

theorem name_of_column? {table : Table} {name : String} {existing : Column}
    (found : table.column? name = some existing) : existing.name = name := by
  simpa using List.find?_some found

theorem not_mem_names_of_column? {table : Table} {name : String}
    (missing : table.column? name = none) : name ∉ table.names := by
  simpa [column?, names] using missing

theorem promote_eq_inheritedKey (source : String) (column : Column) :
    Hierarchy.promote source column = .inheritedKey column.name source :=
  rfl

section
variable {table : Table} {name source : String} {existing : Column}
  (found : table.column? name = some existing)
include found

theorem names_update_promote :
    (table.update name (Hierarchy.promote source)).names = table.names := by
  rcases update_split (Hierarchy.promote source) found with ⟨before, after, old, new⟩
  simp only [names, new, old, promote_eq_inheritedKey]
  simp [Column.inheritedKey]

theorem mem_keyNames_update_promote {other : String} :
    other ∈ (table.update name (Hierarchy.promote source)).keyNames ↔
      other ∈ table.keyNames ∨ other = name := by
  rcases update_split (Hierarchy.promote source) found with ⟨before, after, old, new⟩
  have named := name_of_column? found
  simp only [mem_keyNames, new, old, List.mem_append, List.mem_cons,
    promote_eq_inheritedKey, named]
  constructor
  · rintro ⟨column, earlier | rfl | later, key, equal⟩
    · exact .inl ⟨column, .inl earlier, key, equal⟩
    · exact .inr equal.symm
    · exact .inl ⟨column, .inr (.inr later), key, equal⟩
  · rintro (⟨column, earlier | rfl | later, key, equal⟩ | rfl)
    · exact ⟨column, .inl earlier, key, equal⟩
    · exact ⟨_, .inr (.inl rfl), rfl, named.symm.trans equal⟩
    · exact ⟨column, .inr (.inr later), key, equal⟩
    · exact ⟨_, .inr (.inl rfl), rfl, rfl⟩

theorem keyLength_update_promote (plain : existing.isKey = false) :
    (table.update name (Hierarchy.promote source)).keyLength = table.keyLength + 1 := by
  rcases update_split (Hierarchy.promote source) found with ⟨before, after, old, new⟩
  simp only [keyLength, primaryKey, new, old, promote_eq_inheritedKey, List.filter_append,
    List.filter_cons, plain, Column.inheritedKey]
  simp
  omega

theorem imports_update_promote {key : Column} (named : name = key.name) :
    table.Imports source [key] (table.update name (Hierarchy.promote source)) where
  name := rfl
  kind := rfl
  keyNames := fun _ old => (mem_keyNames_update_promote found).mpr (.inl old)
  names other := by
    have included := keyNames_subset_names (table.update name (Hierarchy.promote source))
    rw [names_update_promote found] at included ⊢
    exact ⟨Or.inl, fun either => either.elim id fun key => included key⟩
  regular regular := by
    rcases update_split (Hierarchy.promote source) found with ⟨before, after, old, new⟩
    constructor
    · rw [names_update_promote found]
      exact regular.distinct
    · have foreign := regular.foreign
      simp only [new, old, List.mem_append, List.mem_cons] at foreign ⊢
      rintro column (earlier | rfl | later)
      · exact foreign column (.inl earlier)
      · exact fun _ => rfl
      · exact foreign column (.inr (.inr later))
  origin column member := by
    rcases update_split (Hierarchy.promote source) found with ⟨before, after, old, new⟩
    simp only [new, old, List.mem_append, List.mem_cons] at member ⊢
    rcases member with earlier | rfl | later
    · exact .inl (.inl earlier)
    · refine .inr ⟨key, .inl rfl, ?_⟩
      rw [promote_eq_inheritedKey, name_of_column? found, named]
    · exact .inl (.inr (.inr later))

end

end Table

/-! ## What the counts say

Both ways count the columns that they add to a key, so a count says by how much
the key grew, and a count that stayed where it was says that nothing changed. -/

structure Counts {α : Type} (size : α → Nat) (before after : Nat × α) : Prop where
  honest : after.1 + size before.2 = before.1 + size after.2
  grows : before.1 ≤ after.1
  quiet : after.1 = before.1 → after.2 = before.2

namespace Counts

variable {α : Type} {size : α → Nat} {before middle after : Nat × α}

theorem refl (state : Nat × α) : Counts size state state :=
  ⟨rfl, Nat.le_refl _, fun _ => rfl⟩

theorem trans (earlier : Counts size before middle) (later : Counts size middle after) :
    Counts size before after where
  honest := by
    have first := earlier.honest
    have second := later.honest
    omega
  grows := Nat.le_trans earlier.grows later.grows
  quiet same := by
    have first := earlier.grows
    have second := later.grows
    rw [later.quiet (by omega), earlier.quiet (by omega)]

end Counts

/-- A way of taking over one key column from `source` into a table, counting. -/
def Takes (source : String) (take : Nat × Table → Column → Nat × Table) : Prop :=
  ∀ state key, Counts Table.keyLength state (take state key) ∧
    state.2.Imports source [key] (take state key).2

theorem Takes.foldl {source : String} {take : Nat × Table → Column → Nat × Table}
    (takes : Takes source take) (keys : List Column) (state : Nat × Table) :
    Counts Table.keyLength state (keys.foldl take state) ∧
      state.2.Imports source keys (keys.foldl take state).2 := by
  induction keys generalizing state with
  | nil => exact ⟨.refl state, .refl state.2⟩
  | cons key rest induction =>
      have first := takes state key
      have others := induction (take state key)
      exact ⟨first.1.trans others.1,
        (first.2.mono (by simp)).trans (others.2.mono (List.subset_cons_self key rest))⟩

namespace Ownership

theorem takes_importKey (source : String) : Takes source (importKey source) := by
  intro state key
  unfold importKey
  split
  case isTrue => exact ⟨.refl state, .refl state.2⟩
  case isFalse free =>
    rw [Table.has_iff] at free
    refine ⟨⟨?_, Nat.le_succ state.1, fun same => ?_⟩, Table.imports_push⟩
    · rw [Table.keyLength_push (.inheritedKey key.name source) free rfl]
      exact Nat.add_right_comm state.1 1 state.2.keyLength
    · exact absurd same (Nat.succ_ne_self state.1)

/-- A name that the table has is left as it is, key or not. -/
theorem mem_keyNames_importKey {source name : String} {state : Nat × Table} {key : Column} :
    name ∈ (importKey source state key).2.keyNames ↔ name ∈ state.2.keyNames ∨
      (name = key.name ∧ name ∉ state.2.names) := by
  unfold importKey
  split
  case isTrue taken =>
    rw [Table.has_iff] at taken
    exact ⟨Or.inl, fun either => either.elim id fun both => absurd (both.1 ▸ taken) both.2⟩
  case isFalse free =>
    rw [Table.mem_keyNames_push]
    simp only [Column.inheritedKey, true_and]
    grind

theorem mem_names_importKey {source name : String} {state : Nat × Table} {key : Column} :
    name ∈ (importKey source state key).2.names ↔
      name ∈ state.2.names ∨ name = key.name := by
  unfold importKey
  split
  case isTrue taken =>
    rw [Table.has_iff] at taken
    exact ⟨Or.inl, fun either => either.elim id fun equal => equal ▸ taken⟩
  case isFalse => exact Table.mem_names_push

theorem mem_keyNames_importKeys {source name : String} {keys : List Column}
    {state : Nat × Table} :
    name ∈ (keys.foldl (importKey source) state).2.keyNames ↔ name ∈ state.2.keyNames ∨
      (name ∈ keys.map Column.name ∧ name ∉ state.2.names) := by
  induction keys generalizing state with
  | nil => simp
  | cons key rest induction =>
      rw [List.foldl_cons, induction, mem_keyNames_importKey, mem_names_importKey,
        List.map_cons, List.mem_cons]
      tauto

end Ownership

namespace Hierarchy

theorem takes_importKey (source : String) : Takes source (importKey source) := by
  intro state key
  unfold importKey
  split
  case h_1 existing found =>
    split
    case isTrue => exact ⟨.refl state, .refl state.2⟩
    case isFalse plain =>
      simp only [Bool.or_eq_true, not_or, Bool.not_eq_true] at plain
      refine ⟨⟨?_, Nat.le_succ state.1, fun same => ?_⟩,
        Table.imports_update_promote found rfl⟩
      · rw [Table.keyLength_update_promote found plain.1]
        exact Nat.add_right_comm state.1 1 state.2.keyLength
      · exact absurd same (Nat.succ_ne_self state.1)
  case h_2 missing =>
    refine ⟨⟨?_, Nat.le_succ state.1, fun same => ?_⟩, Table.imports_push⟩
    · rw [Table.keyLength_push (.inheritedKey key.name source)
        (Table.not_mem_names_of_column? missing) rfl]
      exact Nat.add_right_comm state.1 1 state.2.keyLength
    · exact absurd same (Nat.succ_ne_self state.1)

/-- Where every reference belongs to the key, each name ends in the key. -/
theorem mem_keyNames_importKey {source name : String} {state : Nat × Table} {key : Column}
    (regular : state.2.Regular) :
    name ∈ (importKey source state key).2.keyNames ↔
      name ∈ state.2.keyNames ∨ name = key.name := by
  unfold importKey
  split
  case h_1 existing found =>
    split
    case isTrue either =>
      have key : existing.isKey = true := by
        rcases Bool.or_eq_true_iff.mp either with key | foreign
        · exact key
        · exact regular.foreign existing (List.mem_of_find?_eq_some found) foreign
      refine ⟨Or.inl, fun either => either.elim id fun equal => ?_⟩
      exact Table.mem_keyNames.mpr ⟨existing, List.mem_of_find?_eq_some found, key,
        (Table.name_of_column? found).trans equal.symm⟩
    case isFalse => exact Table.mem_keyNames_update_promote found
  case h_2 missing =>
    rw [Table.mem_keyNames_push]
    simp [Column.inheritedKey, Table.not_mem_names_of_column? missing]

theorem mem_keyNames_importKeys {source name : String} {keys : List Column}
    {state : Nat × Table} (regular : state.2.Regular) :
    name ∈ (keys.foldl (importKey source) state).2.keyNames ↔
      name ∈ state.2.keyNames ∨ name ∈ keys.map Column.name := by
  induction keys generalizing state with
  | nil => simp
  | cons key rest induction =>
      have next := (takes_importKey source state key).2.regular regular
      rw [List.foldl_cons, induction next, mem_keyNames_importKey regular, List.map_cons,
        List.mem_cons, or_assoc]

end Hierarchy

end ErSchema
