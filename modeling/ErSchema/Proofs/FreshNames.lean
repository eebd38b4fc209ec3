import ErSchema.Proofs.Columns

/-! # Free names and the least number that makes one

A taken name is followed by the least number from two on that makes it free. The columns
can take only so many of the numbered names, so the number is at most one more than there
are columns, and a search that goes on longer finds the same one. -/

namespace ErSchema

namespace Table

/-- The first free name among as many numbered ones as are tried, from two on. -/
def firstFree? (table : Table) (wanted : String) (tries : Nat) : Option String :=
  ((List.range' 2 tries).map (suffixed wanted)).find? fun candidate => !table.has candidate

/-- The number is the least from two on that makes the wanted name free. It is at most one
more than there are columns, and the search comes to it however long it may go on. -/
structure LeastNumber (table : Table) (wanted : String) (number : Nat) : Prop where
  least : IsLeast {number | 2 ≤ number ∧ suffixed wanted number ∉ table.names} number
  bound : number ≤ table.columns.length + 1
  found : ∀ tries, table.columns.length ≤ tries →
    table.firstFree? wanted tries = some (suffixed wanted number)

variable {table : Table} {wanted : String}

/-- A search that has found a name finds the same one when it may go on longer. -/
theorem firstFree?_of_le {tries more : Nat} {name : String}
    (found : table.firstFree? wanted tries = some name) (le : tries ≤ more) :
    table.firstFree? wanted more = some name := by
  obtain ⟨rest, rfl⟩ := Nat.exists_eq_add_of_le le
  rw [firstFree?, ← List.range'_append_1, List.map_append, List.find?_append]
  rw [firstFree?] at found
  rw [found, Option.some_or]

theorem exists_firstFree? (taken : wanted ∈ table.names) :
    ∃ name, table.firstFree? wanted table.columns.length = some name := by
  obtain ⟨candidate, isTried, isFree⟩ := exists_free_suffix taken
  apply Option.isSome_iff_exists.mp
  rw [firstFree?, List.find?_isSome]
  rw [← has_iff] at isFree
  exact ⟨candidate, isTried, by simpa using isFree⟩

theorem exists_leastNumber (taken : wanted ∈ table.names) :
    ∃ number, table.LeastNumber wanted number ∧
      table.numberedName wanted = suffixed wanted number := by
  obtain ⟨name, found⟩ := exists_firstFree? taken
  have chosen : table.numberedName wanted = name := by
    rw [numberedName, if_pos (has_iff.mpr taken)]
    exact congrArg (Option.getD · wanted) found
  have named := numbered_numberedName table wanted
  rw [chosen] at named
  cases named with
  | free isFree => exact absurd taken isFree
  | @numbered _ number least =>
      obtain ⟨candidate, isTried, isFree⟩ := exists_free_suffix taken
      obtain ⟨tried, inRange, rfl⟩ := List.mem_map.mp isTried
      obtain ⟨fromTwo, below⟩ := List.mem_range'_1.mp inRange
      have notLarger : number ≤ tried := least.2 ⟨fromTwo, isFree⟩
      exact ⟨number, ⟨least, by omega, fun tries enough => firstFree?_of_le found enough⟩, chosen⟩

/-- A generated name is free: the wanted name if it is, else, where names are qualified, the
qualified one, and else the one with the least number that makes it free. -/
theorem generated_names_free (table : Table) (wanted qualifier : String) :
    table.numberedName wanted ∉ table.names ∧
      table.uniqueName wanted qualifier ∉ table.names ∧
      (wanted ∉ table.names →
        table.numberedName wanted = wanted ∧ table.uniqueName wanted qualifier = wanted) ∧
      (wanted ∈ table.names → ∃ number, table.LeastNumber wanted number ∧
        table.numberedName wanted = suffixed wanted number) ∧
      (wanted ∈ table.names → qualifier ++ "_" ++ wanted ∉ table.names →
        table.uniqueName wanted qualifier = qualifier ++ "_" ++ wanted) ∧
      (wanted ∈ table.names → qualifier ++ "_" ++ wanted ∈ table.names →
        ∃ number, table.LeastNumber (qualifier ++ "_" ++ wanted) number ∧
          table.uniqueName wanted qualifier = suffixed (qualifier ++ "_" ++ wanted) number) := by
  have free {name : String} (isFree : name ∉ table.names) : table.numberedName name = name := by
    rw [numberedName, if_neg (mt has_iff.mp isFree)]
  have qualified (taken : wanted ∈ table.names) : table.uniqueName wanted qualifier =
      table.numberedName (qualifier ++ "_" ++ wanted) := by
    rw [uniqueName, if_pos (has_iff.mpr taken)]
  refine ⟨numberedName_free table wanted, uniqueName_free table wanted qualifier, ?_,
    exists_leastNumber, ?_, ?_⟩
  · intro isFree
    refine ⟨free isFree, ?_⟩
    rw [uniqueName, if_neg (mt has_iff.mp isFree)]
  · intro taken qualifiedFree
    rw [qualified taken, free qualifiedFree]
  · intro taken qualifiedTaken
    rw [qualified taken]
    exact exists_leastNumber qualifiedTaken

end Table

end ErSchema
