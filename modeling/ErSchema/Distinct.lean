/-! # Keeping the first of each key

Several rules say that only the first member with a given key counts: the first
node of an identifier, the first link between two entities. -/

namespace ErSchema

/-- The members whose key no earlier member has, in order. -/
def firstBy {α β : Type} [DecidableEq β] (key : α → β) : List α → List α
  | [] => []
  | member :: rest =>
      member :: (firstBy key rest).filter fun later => key later ≠ key member

/-- The members whose key an earlier member, or one of `seen`, has. -/
def repeatedBy {α β : Type} [DecidableEq β] (key : α → β) (seen : List β) :
    List α → List α
  | [] => []
  | member :: rest =>
      if key member ∈ seen then member :: repeatedBy key seen rest
      else repeatedBy key (key member :: seen) rest

example : firstBy (· % 3) [4, 1, 5, 3, 2] = [4, 5, 3] := by decide
example : repeatedBy (· % 3) [] [4, 1, 5, 3, 2] = [1, 2] := by decide

section
variable {α β : Type} [DecidableEq β] (key : α → β)

theorem firstBy_sublist (members : List α) : (firstBy key members).Sublist members := by
  induction members with
  | nil => exact .slnil
  | cons member rest induction =>
      exact (List.filter_sublist.trans induction).cons_cons member

theorem pairwise_firstBy (members : List α) :
    (firstBy key members).Pairwise fun earlier later => key earlier ≠ key later := by
  induction members with
  | nil => exact .nil
  | cons member rest induction =>
      refine .cons (fun later found => ?_) (induction.filter _)
      have different := (List.mem_filter.1 found).2
      exact fun equal => by simp [equal] at different

theorem exists_mem_firstBy {members : List α} {member : α} (present : member ∈ members) :
    ∃ first ∈ firstBy key members, key first = key member := by
  induction members with
  | nil => simp at present
  | cons head rest induction =>
      by_cases equal : key member = key head
      · exact ⟨head, List.mem_cons_self, equal.symm⟩
      · rcases List.mem_cons.1 present with same | later
        · exact absurd (congrArg key same) equal
        · obtain ⟨first, found, sameKey⟩ := induction later
          exact ⟨first, List.mem_cons_of_mem _ (List.mem_filter.2
            ⟨found, by simpa [sameKey] using equal⟩), sameKey⟩

theorem mem_map_firstBy {members : List α} {value : β} :
    value ∈ (firstBy key members).map key ↔ value ∈ members.map key := by
  constructor
  · exact fun member => ((firstBy_sublist key members).map key).subset member
  · intro member
    obtain ⟨found, isMember, rfl⟩ := List.mem_map.mp member
    obtain ⟨first, isFirst, same⟩ := exists_mem_firstBy key isMember
    exact List.mem_map.mpr ⟨first, isFirst, same⟩

/-- What is kept is what a search for its key finds first. -/
theorem mem_firstBy_iff {members : List α} {member : α} :
    member ∈ firstBy key members ↔
      members.find? (fun other => key other = key member) = some member := by
  induction members with
  | nil => simp [firstBy]
  | cons head rest induction =>
      rw [firstBy, List.mem_cons, List.mem_filter, induction, List.find?_cons]
      by_cases same : key head = key member
      · simp [same, eq_comm]
      · have other : member ≠ head := fun equal => same (congrArg key equal.symm)
        simp [same, other, Ne.symm same]

/-- Of the members of several groups, one is kept if it is kept in its group and no
earlier group has its key. -/
theorem mem_firstBy_flatMap {γ : Type} {groups : List γ} {members : γ → List α} {member : α} :
    member ∈ firstBy key (groups.flatMap members) ↔
      ∃ before group after, groups = before ++ group :: after ∧
        member ∈ firstBy key (members group) ∧
        ∀ earlier ∈ before, ∀ other ∈ members earlier, key other ≠ key member := by
  simp only [mem_firstBy_iff, List.find?_flatMap, List.findSome?_eq_some_iff,
    List.find?_eq_none, decide_eq_true_eq, ne_eq]

end

end ErSchema
