import ErSchema.Table
import Mathlib.Data.List.Nodup
import Mathlib.Order.Bounds.Basic
import Mathlib.Tactic.ByContra

/-! # The names in a table

Other tables see of a table which names it has and which of them belong to its
key. A column is pushed only under a free name, so every routine that must not
lose a column first asks for one, and the search for it always succeeds. -/

namespace ErSchema

theorem Decimal.natText_injective : Function.Injective Decimal.natText := by
  intro left right equal
  have digits : Nat.toDigits 10 left = Nat.toDigits 10 right := String.ofList_inj.mp equal
  rw [← Nat.ofDigitChars_ten_toDigits (n := left), digits, Nat.ofDigitChars_ten_toDigits]

namespace Table

def names (table : Table) : List String :=
  table.columns.map Column.name

def keyNames (table : Table) : List String :=
  table.primaryKey.map Column.name

theorem has_iff {table : Table} {name : String} :
    table.has name = true ↔ name ∈ table.names := by
  simp [has, names]

theorem mem_names {table : Table} {name : String} :
    name ∈ table.names ↔ ∃ column ∈ table.columns, column.name = name :=
  List.mem_map

theorem mem_keyNames {table : Table} {name : String} :
    name ∈ table.keyNames ↔
      ∃ column ∈ table.columns, column.isKey = true ∧ column.name = name := by
  simp [keyNames, primaryKey, and_assoc]

theorem keyNames_subset_names (table : Table) : table.keyNames ⊆ table.names := by
  intro name member
  rcases mem_keyNames.mp member with ⟨column, present, _, named⟩
  exact mem_names.mpr ⟨column, present, named⟩

theorem primaryKey_ne_nil_iff {table : Table} :
    table.primaryKey ≠ [] ↔ ∃ name, name ∈ table.keyNames := by
  rw [List.ne_nil_iff_exists_cons]
  cases equal : table.primaryKey <;> simp [keyNames, equal]

/-- Every column is displayed once. -/
theorem perm_displayOrder (table : Table) : table.displayOrder.Perm table.columns := by
  let rest := table.columns.filter fun column => !column.isKey
  have plain : table.columns.filter (fun column => !column.isKey && !column.isForeign) =
      rest.filter fun column => !column.isForeign := by
    rw [List.filter_filter]
    exact List.filter_congr fun column _ => Bool.and_comm _ _
  have foreign : table.columns.filter (fun column => !column.isKey && column.isForeign) =
      rest.filter fun column => column.isForeign := by
    rw [List.filter_filter]
    exact List.filter_congr fun column _ => Bool.and_comm _ _
  have others : (rest.filter (fun column => !column.isForeign) ++
      rest.filter fun column => column.isForeign).Perm rest :=
    List.perm_append_comm.trans (List.filter_append_perm _ rest)
  rw [displayOrder, plain, foreign, List.append_assoc]
  exact (others.append_left _).trans (List.filter_append_perm _ table.columns)

/-! ## Pushing -/

theorem push_of_mem {table : Table} {column : Column}
    (taken : column.name ∈ table.names) : table.push column = table := by
  simp [push, has_iff.mpr taken]

theorem push_of_not_mem {table : Table} {column : Column}
    (free : column.name ∉ table.names) :
    table.push column = { table with columns := table.columns ++ [column] } := by
  rw [← has_iff] at free
  simp [push, free]

@[simp] theorem push_name (table : Table) (column : Column) :
    (table.push column).name = table.name := by
  unfold push
  split <;> rfl

@[simp] theorem push_kind (table : Table) (column : Column) :
    (table.push column).kind = table.kind := by
  unfold push
  split <;> rfl

theorem mem_names_push {table : Table} {column : Column} {name : String} :
    name ∈ (table.push column).names ↔ name ∈ table.names ∨ name = column.name := by
  by_cases taken : column.name ∈ table.names
  · rw [push_of_mem taken]
    exact ⟨Or.inl, fun either => either.elim id fun equal => equal ▸ taken⟩
  · rw [push_of_not_mem taken]
    simp [names]

theorem mem_keyNames_push {table : Table} {column : Column} {name : String} :
    name ∈ (table.push column).keyNames ↔ name ∈ table.keyNames ∨
      (name = column.name ∧ column.isKey = true ∧ column.name ∉ table.names) := by
  by_cases taken : column.name ∈ table.names
  · rw [push_of_mem taken]
    simp [taken]
  · rw [push_of_not_mem taken]
    cases key : column.isKey <;> simp [keyNames, primaryKey, key, taken]

theorem mem_columns_push {table : Table} {column found : Column}
    (member : found ∈ (table.push column).columns) :
    found ∈ table.columns ∨ found = column := by
  unfold push at member
  split at member
  · exact .inl member
  · simpa using member

@[simp] theorem pushAll_name (table : Table) (columns : List Column) :
    (table.pushAll columns).name = table.name :=
  List.foldlRecOn (motive := fun found => found.name = table.name) columns push rfl
    fun found same column _ => (push_name found column).trans same

@[simp] theorem pushAll_kind (table : Table) (columns : List Column) :
    (table.pushAll columns).kind = table.kind :=
  List.foldlRecOn (motive := fun found => found.kind = table.kind) columns push rfl
    fun found same column _ => (push_kind found column).trans same

theorem mem_names_pushAll {table : Table} {columns : List Column} {name : String} :
    name ∈ (table.pushAll columns).names ↔
      name ∈ table.names ∨ name ∈ columns.map Column.name := by
  induction columns generalizing table with
  | nil => simp [pushAll]
  | cons column rest induction =>
      change name ∈ ((table.push column).pushAll rest).names ↔ _
      rw [induction, mem_names_push, List.map_cons, List.mem_cons, or_assoc]

theorem mem_columns_pushAll {table : Table} {columns : List Column} {found : Column}
    (member : found ∈ (table.pushAll columns).columns) :
    found ∈ table.columns ∨ found ∈ columns := by
  induction columns generalizing table with
  | nil => exact .inl member
  | cons column rest induction =>
      rcases @induction (table.push column) member with pushed | later
      · rcases mem_columns_push pushed with old | equal
        · exact .inl old
        · exact .inr (equal ▸ List.mem_cons_self)
      · exact .inr (List.mem_cons_of_mem column later)

/-! ## Free names -/

theorem suffixed_injective (name : String) : Function.Injective (suffixed name) := by
  intro left right equal
  exact Decimal.natText_injective ((String.append_right_inj _).mp equal)

theorem suffixed_ne (name : String) (number : Nat) : suffixed name number ≠ name := by
  intro equal
  have lengths := congrArg String.length equal
  have underscore : "_".length = 1 := rfl
  simp only [suffixed, String.length_append] at lengths
  omega

/-- With the name itself taken, the `n` columns cannot also take the `n`
numbered names that are tried. -/
theorem exists_free_suffix {table : Table} {name : String} (taken : name ∈ table.names) :
    ∃ candidate ∈ (List.range' 2 table.columns.length).map (suffixed name),
      candidate ∉ table.names := by
  by_contra allTried
  push Not at allTried
  let candidates := (List.range' 2 table.columns.length).map (suffixed name)
  have distinct : (name :: candidates).Nodup := by
    refine List.nodup_cons.mpr ⟨fun member => ?_,
      List.Nodup.map (suffixed_injective name) List.nodup_range'⟩
    rcases List.mem_map.mp member with ⟨number, _, equal⟩
    exact suffixed_ne name number equal
  have allTaken : name :: candidates ⊆ table.names :=
    List.cons_subset.mpr ⟨taken, allTried⟩
  have tooMany := distinct.length_le_of_subset allTaken
  simp only [candidates, names, List.length_cons, List.length_map,
    List.length_range'] at tooMany
  omega

/-- The wanted name if it is free, and else that name with the least number from two
on that makes it free. -/
inductive Numbered (taken : List String) (wanted : String) : String → Prop
  | free (isFree : wanted ∉ taken) : Numbered taken wanted wanted
  | numbered (isTaken : wanted ∈ taken) {number : Nat}
      (least : IsLeast {number | 2 ≤ number ∧ suffixed wanted number ∉ taken} number) :
      Numbered taken wanted (suffixed wanted number)

theorem Numbered.not_mem {taken : List String} {wanted name : String}
    (numbered : Numbered taken wanted name) : name ∉ taken := by
  cases numbered with
  | free isFree => exact isFree
  | numbered _ least => exact least.1.2

theorem numbered_numberedName (table : Table) (name : String) :
    Numbered table.names name (table.numberedName name) := by
  unfold numberedName
  split
  case isTrue isTaken =>
    have taken := has_iff.mp isTaken
    rw [List.find?_map]
    cases found : (List.range' 2 table.columns.length).find?
        ((fun candidate => !table.has candidate) ∘ suffixed name) with
    | none =>
        rcases exists_free_suffix taken with ⟨candidate, isTried, isFree⟩
        rcases List.mem_map.mp isTried with ⟨number, inRange, rfl⟩
        have tried := List.find?_eq_none.mp found number inRange
        rw [← has_iff] at isFree
        simp [isFree] at tried
    | some number =>
        rcases List.find?_range'_eq_some.mp found with ⟨isFree, inRange, earlier⟩
        refine .numbered taken ⟨⟨(List.mem_range'_1.mp inRange).1, ?_⟩, fun other both => ?_⟩
        · rw [← has_iff]
          simpa using isFree
        · by_contra smaller
          have isTaken : table.has (suffixed name other) = true := by
            simpa using earlier other both.1 (Nat.not_le.mp smaller)
          exact both.2 (has_iff.mp isTaken)
  case isFalse isFree => exact .free (by rwa [← has_iff])

theorem numberedName_free (table : Table) (name : String) :
    table.numberedName name ∉ table.names :=
  (numbered_numberedName table name).not_mem

theorem numberedName_eq (table : Table) (name : String) :
    table.numberedName name = name ∨
      ∃ number, 2 ≤ number ∧ table.numberedName name = suffixed name number := by
  generalize named : table.numberedName name = chosen
  cases named ▸ numbered_numberedName table name with
  | free => exact .inl rfl
  | numbered _ least => exact .inr ⟨_, least.1.1, rfl⟩

theorem uniqueName_free (table : Table) (candidate qualifier : String) :
    table.uniqueName candidate qualifier ∉ table.names := by
  unfold uniqueName
  split
  case isTrue => exact numberedName_free table _
  case isFalse free => rwa [← has_iff]

end Table

end ErSchema
