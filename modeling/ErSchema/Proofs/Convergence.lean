import ErSchema.Proofs.Entities
import Mathlib.Data.Finset.Card
import Mathlib.Data.Finset.Dedup
import Mathlib.Data.Nat.Find

/-! # Passes come to an end

For one name, the tables that have it in their key are a set that grows with
every pass, and that stays as it is from the first pass that leaves it alone.
A set that starts with one entity and must gain one in every pass has no room
for more passes than there are entities. -/

namespace ErSchema

/-- A growing chain of sets that stops for good once it stops has, when it is
still growing, one element for each step made and one to start with. -/
theorem card_of_still_growing {α : Type} (sets : Nat → Finset α)
    (grows : ∀ step, sets step ⊆ sets (step + 1))
    (settles : ∀ step, sets (step + 1) = sets step → sets (step + 2) = sets (step + 1))
    (started : (sets 0).Nonempty) :
    ∀ step, sets (step + 1) ≠ sets step → step + 2 ≤ (sets (step + 1)).card := by
  intro step
  induction step with
  | zero =>
      intro growing
      have larger := Finset.card_lt_card ((grows 0).ssubset_of_ne growing.symm)
      have first := started.card_pos
      omega
  | succ step induction =>
      intro growing
      have larger := Finset.card_lt_card ((grows (step + 1)).ssubset_of_ne growing.symm)
      have earlier := induction fun same => growing (settles step same)
      omega

namespace TableMap

/-- The nodes whose table has the name in its key. -/
def holders (tables : TableMap) (name : String) : Finset String :=
  tables.ids.toFinset.filter fun id => name ∈ tables.keyNames id

theorem mem_holders {tables : TableMap} {name id : String} :
    id ∈ tables.holders name ↔ name ∈ tables.keyNames id := by
  simp only [holders, Finset.mem_filter, List.mem_toFinset, and_iff_right_iff_imp]
  intro key
  rcases mem_keyNames.mp key with ⟨table, found, _⟩
  exact isSome_get?_iff.mp (Option.isSome_iff_exists.mpr ⟨table, found⟩)

theorem card_holders_le (tables : TableMap) (name : String) :
    (tables.holders name).card ≤ tables.size := by
  calc (tables.holders name).card
      ≤ tables.ids.toFinset.card := Finset.card_filter_le _ _
    _ ≤ tables.ids.length := List.toFinset_card_le _
    _ = tables.size := List.length_map _

theorem keyLength_eq_length {tables : TableMap} (distinct : tables.ids.Nodup) :
    tables.keyLength = (tables.ids.flatMap tables.keyNames).length := by
  unfold keyLength toTables ids
  rw [List.length_flatMap, List.length_flatMap, List.map_map, List.map_map]
  congr 1
  refine List.map_congr_left fun entry member => ?_
  have found := get?_of_mem distinct member
  simp [keyNames_of_get? found, Table.keyNames]

theorem Regular.keyNames_nodup {tables : TableMap} (regular : tables.Regular) (id : String) :
    (tables.keyNames id).Nodup := by
  cases found : tables.get? id with
  | none => simp [keyNames_of_none found]
  | some table =>
      rw [keyNames_of_get? found]
      have distinct := (regular table (mem_toTables_of_get? found)).distinct
      exact distinct.sublist (List.filter_sublist.map Column.name)

/-- Tables that took over keys but have the same names in them as before have
keys of the same length. -/
theorem Revises.keyLength_eq {before after : TableMap}
    (revision : Revises Table.Inherits before after) (distinct : before.ids.Nodup)
    (regular : before.Regular)
    (same : ∀ id, after.keyNames id ⊆ before.keyNames id) :
    after.keyLength = before.keyLength := by
  have afterDistinct : after.ids.Nodup := revision.ids_eq ▸ distinct
  rw [keyLength_eq_length distinct, keyLength_eq_length afterDistinct, revision.ids_eq,
    List.length_flatMap, List.length_flatMap]
  congr 1
  refine List.map_congr_left fun id _ => Nat.le_antisymm ?_ ?_
  · exact ((revision.regular regular).keyNames_nodup id).length_le_of_subset (same id)
  · exact (regular.keyNames_nodup id).length_le_of_subset (revision.keyNames_subset id)

end TableMap

namespace Derivation

/-- The tables after a number of passes. -/
def afterPasses (pass : TableMap → Nat × TableMap) (made : Nat) (tables : TableMap) :
    TableMap :=
  (fun tables => (pass tables).2)^[made] tables

theorem afterPasses_succ (pass : TableMap → Nat × TableMap) (made : Nat)
    (tables : TableMap) :
    afterPasses pass (made + 1) tables = (pass (afterPasses pass made tables)).2 :=
  Function.iterate_succ_apply' _ made tables

/-- The loop stops with the first pass that counts nothing, if it is allowed. -/
theorem settle_of_quiet {pass : TableMap → Nat × TableMap} {quiet allowed : Nat}
    {tables : TableMap}
    (busy : ∀ made < quiet, (pass (afterPasses pass made tables)).1 ≠ 0)
    (still : (pass (afterPasses pass quiet tables)).1 = 0) (enough : quiet < allowed) :
    settle pass allowed tables = ⟨(pass (afterPasses pass quiet tables)).2, false⟩ := by
  induction quiet generalizing allowed tables with
  | zero =>
      rcases Nat.exists_eq_add_of_lt enough with ⟨rest, rfl⟩
      have first : (pass tables).1 = 0 := still
      simp [settle, first, afterPasses]
  | succ quiet induction =>
      obtain ⟨rest, rfl⟩ : ∃ rest, allowed = rest + 1 := ⟨allowed - 1, by omega⟩
      have first : (pass tables).1 ≠ 0 := busy 0 (Nat.zero_lt_succ quiet)
      have laterBusy : ∀ made < quiet,
          (pass (afterPasses pass made (pass tables).2)).1 ≠ 0 :=
        fun made fewer => busy (made + 1) (Nat.succ_lt_succ fewer)
      have later := induction laterBusy still (Nat.lt_of_succ_lt_succ enough)
      simpa [settle, first, afterPasses] using later

variable (links : List Ownership) (hierarchies : List Hierarchy) (base : TableMap)

/-- The tables that passes over these links and hierarchies lead to. -/
def flowed (made : Nat) : TableMap :=
  afterPasses (pass links hierarchies) made base

theorem flowed_succ (made : Nat) :
    flowed links hierarchies base (made + 1) =
      (pass links hierarchies (flowed links hierarchies base made)).2 :=
  afterPasses_succ _ made base

theorem flows_flowed_succ (made : Nat) :
    Flows (0, flowed links hierarchies base made)
      (pass links hierarchies (flowed links hierarchies base made)) :=
  flows_pass links hierarchies _

theorem inherits_flowed (made : Nat) :
    TableMap.Revises Table.Inherits base (flowed links hierarchies base made) := by
  induction made with
  | zero => exact .refl .refl base
  | succ made induction =>
      rw [flowed_succ]
      exact induction.trans .trans (flows_flowed_succ links hierarchies base made).inherits

variable {links hierarchies base}

/-- A pass that counts something brings some name into some key. -/
theorem exists_new_holder (ready : Ready links hierarchies base) {made : Nat}
    (busy : (pass links hierarchies (flowed links hierarchies base made)).1 ≠ 0) :
    ∃ name, (flowed links hierarchies base (made + 1)).holders name ≠
      (flowed links hierarchies base made).holders name := by
  by_contra unmoved
  push Not at unmoved
  have sofar := inherits_flowed links hierarchies base made
  have flows := flows_flowed_succ links hierarchies base made
  have same : (pass links hierarchies (flowed links hierarchies base made)).2.keyLength =
      (flowed links hierarchies base made).keyLength := by
    refine flows.inherits.keyLength_eq (sofar.ids_eq ▸ ready.distinct)
      (sofar.regular ready.regular) fun id name key => ?_
    rw [← flowed_succ] at key
    exact TableMap.mem_holders.mp (unmoved name ▸ TableMap.mem_holders.mpr key)
  have honest := flows.counts.honest
  dsimp only at honest
  omega

theorem holders_grow (name : String) (made : Nat) :
    (flowed links hierarchies base made).holders name ⊆
      (flowed links hierarchies base (made + 1)).holders name := by
  intro id member
  rw [TableMap.mem_holders] at member ⊢
  rw [flowed_succ]
  exact (flows_flowed_succ links hierarchies base made).keyNames member

/-- A name that a pass moves nowhere is not moved by the next pass either: what
moves it does not depend on any other name. -/
theorem holders_settle (ready : Ready links hierarchies base) (name : String) (made : Nat)
    (same : (flowed links hierarchies base (made + 1)).holders name =
      (flowed links hierarchies base made).holders name) :
    (flowed links hierarchies base (made + 2)).holders name =
      (flowed links hierarchies base (made + 1)).holders name := by
  have sofar := inherits_flowed links hierarchies base made
  have next := inherits_flowed links hierarchies base (made + 1)
  have stays : ∀ id, name ∈ (flowed links hierarchies base (made + 1)).keyNames id →
      name ∈ (flowed links hierarchies base made).keyNames id := fun id key =>
    TableMap.mem_holders.mp (same ▸ TableMap.mem_holders.mpr key)
  have closed := closed_of_pass_same ready sofar
    (flowed_succ links hierarchies base made ▸ stays)
  refine Finset.Subset.antisymm (fun id member => ?_) (holders_grow name (made + 1))
  rw [same, TableMap.mem_holders]
  rw [TableMap.mem_holders, flowed_succ] at member
  exact pass_within closed ready.regular next stays id member

/-- Passes carry a name no farther than the links lead. -/
theorem flowed_within (ready : Ready links hierarchies base) {name : String}
    {reached : String → Prop} (closed : Closed links hierarchies base name reached)
    (within : ∀ id, name ∈ base.keyNames id → reached id) (made : Nat) :
    ∀ id, name ∈ (flowed links hierarchies base made).keyNames id → reached id := by
  induction made with
  | zero => exact within
  | succ made induction =>
      rw [flowed_succ]
      exact pass_within closed ready.regular (inherits_flowed links hierarchies base made)
        induction

/-- A name that no table starts with comes into none. -/
theorem holders_eq_empty (ready : Ready links hierarchies base) {name : String}
    (empty : base.holders name = ∅) (made : Nat) :
    (flowed links hierarchies base made).holders name = ∅ := by
  have nowhere : Closed links hierarchies base name fun _ => False := ⟨by simp, by simp⟩
  have never := flowed_within ready nowhere
    (fun id key => Finset.notMem_empty id (empty ▸ TableMap.mem_holders.mpr key)) made
  exact Finset.eq_empty_of_forall_notMem fun id member =>
    never id (TableMap.mem_holders.mp member)

/-- As long as a pass counts something, fewer passes than tables were made
before it, and one table is spare. -/
theorem made_lt_of_busy (ready : Ready links hierarchies base) {made : Nat}
    (busy : (pass links hierarchies (flowed links hierarchies base made)).1 ≠ 0) :
    made + 2 ≤ base.size := by
  rcases exists_new_holder ready busy with ⟨name, growing⟩
  have started : ((flowed links hierarchies base 0).holders name).Nonempty := by
    rw [Finset.nonempty_iff_ne_empty]
    intro empty
    exact growing (by rw [holders_eq_empty ready empty, holders_eq_empty ready empty])
  have enough := card_of_still_growing _ (holders_grow name) (holders_settle ready name)
    started made growing
  have bound := (flowed links hierarchies base (made + 1)).card_holders_le name
  have same : (flowed links hierarchies base (made + 1)).size = base.size := by
    have ids := congrArg List.length (inherits_flowed links hierarchies base (made + 1)).ids_eq
    simpa [TableMap.ids, TableMap.size] using ids
  omega

/-- There is a first pass that counts nothing, and it comes in time. -/
theorem exists_first_quiet (ready : Ready links hierarchies base) :
    ∃ quiet < max base.size 1,
      (∀ made < quiet, (pass links hierarchies (flowed links hierarchies base made)).1 ≠ 0) ∧
        (pass links hierarchies (flowed links hierarchies base quiet)).1 = 0 := by
  have eventually : ∃ made,
      (pass links hierarchies (flowed links hierarchies base made)).1 = 0 := by
    by_contra busy
    push Not at busy
    have tooMany := made_lt_of_busy ready (busy base.size)
    omega
  refine ⟨Nat.find eventually, ?_, fun made fewer => Nat.find_min eventually fewer,
    Nat.find_spec eventually⟩
  cases first : Nat.find eventually with
  | zero => omega
  | succ made =>
      have busy : (pass links hierarchies (flowed links hierarchies base made)).1 ≠ 0 :=
        Nat.find_min eventually (by omega)
      have bound := made_lt_of_busy ready busy
      omega

end Derivation

end ErSchema
