import ErSchema.Proofs.KeyImport

/-! # Keys flowing through the tables

Every step of a pass takes the key of one table over into another. What a pass
does to one name is followed from two sides. A name never leaves a set of
entities that is closed under the links it can take; and a pass carries it
across every such link from where it stood when the pass began. -/

namespace ErSchema

/-! ## One table takes over keys -/

namespace TableMap

/-- The number of key columns in all tables. -/
def keyLength (tables : TableMap) : Nat :=
  (tables.toTables.flatMap Table.primaryKey).length

def Regular (tables : TableMap) : Prop :=
  ∀ table ∈ tables.toTables, table.Regular

theorem keyLength_modify {tables : TableMap} {id : String} {table : Table}
    (found : tables.get? id = some table) (revise : Table → Table) :
    (tables.modify id revise).keyLength + table.keyLength =
      tables.keyLength + (revise table).keyLength := by
  rcases tables with ⟨entries⟩
  induction entries with
  | nil => simp [get?] at found
  | cons entry rest induction =>
      simp only [keyLength, toTables, modify, get?] at induction found ⊢
      by_cases here : entry.1 = id
      · have equal : entry.2 = table := by simpa [here] using found
        simp only [modifyEntries, if_pos here, List.map_cons, List.flatMap_cons,
          List.length_append, equal, Table.keyLength]
        omega
      · have later := induction (by simpa [here] using found)
        simp only [modifyEntries, if_neg here, List.map_cons, List.flatMap_cons,
          List.length_append]
        omega

theorem Revises.regular {before after : TableMap}
    (revision : Revises Table.Inherits before after) (regular : before.Regular) :
    after.Regular := by
  intro table member
  rcases revision.exists_before member with ⟨earlier, isEarlier, inherits⟩
  exact inherits.regular (regular earlier isEarlier)

theorem Revises.keyNames_subset {before after : TableMap}
    (revision : Revises Table.Inherits before after) (id : String) :
    before.keyNames id ⊆ after.keyNames id := by
  intro name member
  rcases mem_keyNames.mp member with ⟨table, found, key⟩
  rcases revision.get?_some found with ⟨later, foundLater, inherits⟩
  exact mem_keyNames.mpr ⟨later, foundLater, inherits.keyNames key⟩

theorem Revises.mem_names {before after : TableMap}
    (revision : Revises Table.Inherits before after) {id name : String} :
    name ∈ after.names id ↔ name ∈ before.names id ∨ name ∈ after.keyNames id := by
  have related := revision.rel_get? id
  simp only [names, keyNames, primaryKey]
  generalize before.get? id = old at related ⊢
  generalize after.get? id = new at related ⊢
  cases related with
  | none => simp
  | some inherits => exact inherits.names name

/-- Take `keys` over into the table of a node, if it has one, and count. -/
def absorb (take : Nat × Table → Column → Nat × Table) (keys : List Column)
    (state : Nat × TableMap) (id : String) : Nat × TableMap :=
  match state.2.get? id with
  | none => state
  | some table =>
      let (taken, extended) := keys.foldl take (0, table)
      (state.1 + taken, state.2.modify id fun _ => extended)

theorem absorb_of_none {take : Nat × Table → Column → Nat × Table} {keys : List Column}
    {state : Nat × TableMap} {id : String} (missing : state.2.get? id = none) :
    absorb take keys state id = state := by
  simp [absorb, missing]

theorem absorb_of_some {take : Nat × Table → Column → Nat × Table} {keys : List Column}
    {state : Nat × TableMap} {id : String} {table : Table}
    (found : state.2.get? id = some table) :
    absorb take keys state id =
      (state.1 + (keys.foldl take (0, table)).1,
        state.2.modify id fun _ => (keys.foldl take (0, table)).2) := by
  simp [absorb, found]

theorem mem_keyNames_absorb {take : Nat × Table → Column → Nat × Table}
    {keys : List Column} {state : Nat × TableMap} {id other name : String} :
    name ∈ (absorb take keys state id).2.keyNames other ↔
      (other ≠ id ∧ name ∈ state.2.keyNames other) ∨
        (other = id ∧ ∃ table, state.2.get? id = some table ∧
          name ∈ (keys.foldl take (0, table)).2.keyNames) := by
  cases found : state.2.get? id with
  | none =>
      rw [absorb_of_none found]
      by_cases same : other = id
      · simp [same, keyNames_of_none found]
      · simp [same]
  | some table =>
      rw [absorb_of_some found]
      by_cases same : other = id
      · subst other
        simp [keyNames_of_get? (get?_modify_self found _)]
      · simp [same, mem_keyNames, get?_modify_of_ne same]

section
variable {source : String} {take : Nat × Table → Column → Nat × Table}
  (takes : Takes source take) (keys : List Column) (state : Nat × TableMap) (id : String)
include takes

theorem counts_absorb : Counts keyLength state (absorb take keys state id) := by
  cases found : state.2.get? id with
  | none =>
      rw [absorb_of_none found]
      exact .refl state
  | some table =>
      rw [absorb_of_some found]
      have counts := (takes.foldl keys (0, table)).1
      have taken := counts.honest
      have total := keyLength_modify found fun _ => (keys.foldl take (0, table)).2
      refine ⟨?_, Nat.le_add_right _ _, fun same => ?_⟩
      · dsimp only at taken ⊢
        omega
      · exact modify_eq_self found (counts.quiet (by simpa using same))

theorem revises_absorb :
    Revises (Table.Imports source keys) state.2 (absorb take keys state id).2 := by
  cases found : state.2.get? id with
  | none =>
      rw [absorb_of_none found]
      exact .refl .refl state.2
  | some table =>
      rw [absorb_of_some found]
      refine .modify .refl fun same foundSame => ?_
      obtain rfl : table = same := Option.some.inj (found.symm.trans foundSame)
      exact (takes.foldl keys (0, table)).2

end

end TableMap

/-! ## Steps -/

/-- One state of the tables comes from another by taking over keys, counted. -/
structure Flows (before after : Nat × TableMap) : Prop where
  counts : Counts TableMap.keyLength before after
  inherits : TableMap.Revises Table.Inherits before.2 after.2

namespace Flows

theorem refl (state : Nat × TableMap) : Flows state state :=
  ⟨.refl state, .refl .refl state.2⟩

theorem trans {first second third : Nat × TableMap} (earlier : Flows first second)
    (later : Flows second third) : Flows first third :=
  ⟨earlier.counts.trans later.counts, earlier.inherits.trans .trans later.inherits⟩

theorem foldl {α : Type} {step : Nat × TableMap → α → Nat × TableMap}
    (each : ∀ state item, Flows state (step state item)) (items : List α)
    (state : Nat × TableMap) : Flows state (items.foldl step state) :=
  List.foldlRecOn items step (.refl state) fun found flows item _ =>
    flows.trans (each found item)

/-- What comes before one item and what comes after it. -/
theorem around {α : Type} {step : Nat × TableMap → α → Nat × TableMap}
    (each : ∀ state item, Flows state (step state item)) {items : List α} {item : α}
    (member : item ∈ items) (state : Nat × TableMap) :
    ∃ before, Flows state before ∧ Flows (step before item) (items.foldl step state) := by
  rcases List.append_of_mem member with ⟨earlier, later, rfl⟩
  refine ⟨earlier.foldl step state, .foldl each earlier state, ?_⟩
  rw [List.foldl_append, List.foldl_cons]
  exact .foldl each later _

theorem keyNames {before after : Nat × TableMap} (flows : Flows before after)
    {id name : String} (member : name ∈ before.2.keyNames id) : name ∈ after.2.keyNames id :=
  flows.inherits.keyNames_subset id member

theorem absorb {source : String} {take : Nat × Table → Column → Nat × Table}
    (takes : Takes source take) (keys : List Column) (state : Nat × TableMap)
    (id : String) : Flows state (TableMap.absorb take keys state id) :=
  ⟨TableMap.counts_absorb takes keys state id,
    (TableMap.revises_absorb takes keys state id).mono Table.Imports.toInherits⟩

end Flows

namespace Ownership

theorem step_eq_absorb (state : Nat × TableMap) (link : Ownership) :
    step state link = TableMap.absorb (importKey link.owner.name)
      (state.2.primaryKey link.owner.id) state link.dependent.id :=
  rfl

theorem flows_step (state : Nat × TableMap) (link : Ownership) :
    Flows state (step state link) :=
  .absorb (takes_importKey link.owner.name) _ state link.dependent.id

theorem flows_propagate (links : List Ownership) (tables : TableMap) :
    Flows (0, tables) (propagate links tables) :=
  .foldl flows_step links (0, tables)

theorem mem_keyNames_step {state : Nat × TableMap} {link : Ownership} {id name : String} :
    name ∈ (step state link).2.keyNames id ↔ name ∈ state.2.keyNames id ∨
      (id = link.dependent.id ∧ id ∈ state.2.ids ∧
        name ∈ state.2.keyNames link.owner.id ∧ name ∉ state.2.names id) := by
  rw [step_eq_absorb, TableMap.mem_keyNames_absorb]
  by_cases same : id = link.dependent.id
  · subst id
    have ownerNames : (state.2.primaryKey link.owner.id).map Column.name =
        state.2.keyNames link.owner.id := rfl
    simp only [ne_eq, not_true_eq_false, false_and, false_or, true_and,
      mem_keyNames_importKeys, ownerNames]
    rw [← TableMap.isSome_get?_iff]
    cases found : state.2.get? link.dependent.id with
    | none => simp [TableMap.keyNames_of_none found]
    | some table => simp [TableMap.keyNames_of_get? found, TableMap.names_of_get? found]
  · simp [same]

end Ownership

namespace Hierarchy

theorem subclassStep_eq_absorb (source : String) (keys : List Column)
    (state : Nat × TableMap) (subclass : Node) :
    subclassStep source keys state subclass =
      TableMap.absorb (importKey source) keys state subclass.id :=
  rfl

theorem flows_subclassStep (source : String) (keys : List Column)
    (state : Nat × TableMap) (subclass : Node) :
    Flows state (subclassStep source keys state subclass) :=
  .absorb (takes_importKey source) keys state subclass.id

theorem flows_step (state : Nat × TableMap) (hierarchy : Hierarchy) :
    Flows state (step state hierarchy) :=
  .foldl (flows_subclassStep _ _) hierarchy.subclasses state

theorem flows_propagate (hierarchies : List Hierarchy) (tables : TableMap) :
    Flows (0, tables) (propagate hierarchies tables) :=
  .foldl flows_step hierarchies (0, tables)

theorem mem_keyNames_subclassStep {source : String} {keys : List Column}
    {state : Nat × TableMap} {subclass : Node} {id name : String}
    (regular : state.2.Regular) :
    name ∈ (subclassStep source keys state subclass).2.keyNames id ↔
      name ∈ state.2.keyNames id ∨
        (id = subclass.id ∧ id ∈ state.2.ids ∧ name ∈ keys.map Column.name) := by
  rw [subclassStep_eq_absorb, TableMap.mem_keyNames_absorb]
  by_cases same : id = subclass.id
  · subst id
    rw [← TableMap.isSome_get?_iff]
    cases found : state.2.get? subclass.id with
    | none => simp [TableMap.keyNames_of_none found]
    | some table =>
        have start : (0, table).2.Regular :=
          regular table (TableMap.mem_toTables_of_get? found)
        simp [TableMap.keyNames_of_get? found, mem_keyNames_importKeys start]
  · simp [same]

end Hierarchy

/-! ## One name through a pass

`base` holds the tables before any key has flowed. A dependent that has a name
as a plain column there never takes it over as an owner's key; a subclass does. -/

namespace Derivation

/-- The name is free in that table or belongs to its key. -/
def OpenAt (base : TableMap) (name id : String) : Prop :=
  name ∈ base.names id → name ∈ base.keyNames id

/-- Nothing leads out of the entities in `reached`. -/
structure Closed (links : List Ownership) (hierarchies : List Hierarchy)
    (base : TableMap) (name : String) (reached : String → Prop) : Prop where
  owned : ∀ link ∈ links, OpenAt base name link.dependent.id →
    reached link.owner.id → reached link.dependent.id
  inherited : ∀ hierarchy ∈ hierarchies, ∀ subclass ∈ hierarchy.subclasses,
    reached hierarchy.superclass.id → reached subclass.id

end Derivation

open ErSchema.Derivation

section
variable {base : TableMap} {name : String} {reached : String → Prop}

theorem Ownership.step_within {state : Nat × TableMap} {link : Ownership}
    (inherits : TableMap.Revises Table.Inherits base state.2)
    (closed : OpenAt base name link.dependent.id →
      reached link.owner.id → reached link.dependent.id)
    (within : ∀ id, name ∈ state.2.keyNames id → reached id) :
    ∀ id, name ∈ (step state link).2.keyNames id → reached id := by
  intro id member
  rcases mem_keyNames_step.mp member with old | ⟨equal, _, owned, free⟩
  · exact within id old
  · subst equal
    refine closed (fun plain => ?_) (within _ owned)
    exact absurd (inherits.mem_names.mpr (.inl plain)) free

theorem Ownership.propagate_within {links : List Ownership} {tables : TableMap}
    (inherits : TableMap.Revises Table.Inherits base tables)
    (closed : ∀ link ∈ links, OpenAt base name link.dependent.id →
      reached link.owner.id → reached link.dependent.id)
    (within : ∀ id, name ∈ tables.keyNames id → reached id) :
    ∀ id, name ∈ (propagate links tables).2.keyNames id → reached id := by
  let Kept (state : Nat × TableMap) : Prop :=
    TableMap.Revises Table.Inherits base state.2 ∧
      ∀ id, name ∈ state.2.keyNames id → reached id
  have kept : Kept (propagate links tables) := by
    apply List.foldlRecOn (motive := Kept) links step ⟨inherits, within⟩
    intro state ⟨revision, inside⟩ link member
    exact ⟨revision.trans .trans (flows_step state link).inherits,
      step_within revision (closed link member) inside⟩
  exact kept.2

theorem Hierarchy.propagate_within {hierarchies : List Hierarchy} {tables : TableMap}
    (regular : tables.Regular)
    (closed : ∀ hierarchy ∈ hierarchies, ∀ subclass ∈ hierarchy.subclasses,
      reached hierarchy.superclass.id → reached subclass.id)
    (within : ∀ id, name ∈ tables.keyNames id → reached id) :
    ∀ id, name ∈ (propagate hierarchies tables).2.keyNames id → reached id := by
  let Kept (state : Nat × TableMap) : Prop :=
    state.2.Regular ∧ ∀ id, name ∈ state.2.keyNames id → reached id
  have kept : Kept (propagate hierarchies tables) := by
    apply List.foldlRecOn (motive := Kept) hierarchies step ⟨regular, within⟩
    intro state kept hierarchy member
    -- The key is read before the subclasses change, from tables still inside.
    have source := kept.2 hierarchy.superclass.id
    refine List.foldlRecOn (motive := Kept) hierarchy.subclasses
      (subclassStep _ (state.2.primaryKey hierarchy.superclass.id)) kept ?_
    intro inner innerKept subclass isSubclass
    refine ⟨(flows_subclassStep _ _ inner subclass).inherits.regular innerKept.1, ?_⟩
    intro id found
    rcases (mem_keyNames_subclassStep innerKept.1).mp found with old | ⟨equal, _, key⟩
    · exact innerKept.2 id old
    · exact equal ▸ closed hierarchy member subclass isSubclass (source key)
  exact kept.2

theorem Ownership.propagate_reaches {links : List Ownership} {link : Ownership}
    {tables : TableMap} (member : link ∈ links)
    (inherits : TableMap.Revises Table.Inherits base tables)
    (present : link.dependent.id ∈ base.ids) (opened : OpenAt base name link.dependent.id)
    (owned : name ∈ tables.keyNames link.owner.id) :
    name ∈ (propagate links tables).2.keyNames link.dependent.id := by
  rcases Flows.around flows_step member (0, tables) with ⟨before, earlier, later⟩
  have sinceBase := inherits.trans .trans earlier.inherits
  refine later.keyNames (mem_keyNames_step.mpr ?_)
  by_cases taken : name ∈ before.2.names link.dependent.id
  · left
    rcases sinceBase.mem_names.mp taken with plain | key
    · exact sinceBase.keyNames_subset _ (opened plain)
    · exact key
  · right
    exact ⟨rfl, sinceBase.ids_eq ▸ present, earlier.keyNames owned, taken⟩

theorem Hierarchy.propagate_reaches {hierarchies : List Hierarchy} {hierarchy : Hierarchy}
    {subclass : Node} {tables : TableMap} (member : hierarchy ∈ hierarchies)
    (isSubclass : subclass ∈ hierarchy.subclasses) (regular : tables.Regular)
    (present : subclass.id ∈ tables.ids)
    (key : name ∈ tables.keyNames hierarchy.superclass.id) :
    name ∈ (propagate hierarchies tables).2.keyNames subclass.id := by
  rcases Flows.around flows_step member (0, tables) with ⟨before, earlier, later⟩
  rcases Flows.around (flows_subclassStep hierarchy.superclass.name
      (before.2.primaryKey hierarchy.superclass.id)) isSubclass before with
    ⟨inner, innerEarlier, innerLater⟩
  have sofar := earlier.inherits.trans .trans innerEarlier.inherits
  refine later.keyNames (innerLater.keyNames ?_)
  refine (mem_keyNames_subclassStep (sofar.regular regular)).mpr (.inr ⟨rfl, ?_, ?_⟩)
  · exact sofar.ids_eq ▸ present
  · exact earlier.keyNames key

end

/-! ## Whole passes -/

namespace Derivation

theorem flows_pass (links : List Ownership) (hierarchies : List Hierarchy)
    (tables : TableMap) : Flows (0, tables) (pass links hierarchies tables) := by
  have owned := Ownership.flows_propagate links tables
  have inherited := Hierarchy.flows_propagate hierarchies (Ownership.propagate links tables).2
  refine ⟨⟨?_, Nat.zero_le _, fun quiet => ?_⟩, owned.inherits.trans .trans inherited.inherits⟩
  · have first := owned.counts.honest
    have second := inherited.counts.honest
    simp only [pass] at first second ⊢
    omega
  · simp only [pass, Nat.add_eq_zero_iff] at quiet
    exact (inherited.counts.quiet quiet.2).trans (owned.counts.quiet quiet.1)

variable {links : List Ownership} {hierarchies : List Hierarchy}

/-- A pass that counts nothing leaves each of its halves with nothing to do. -/
theorem propagate_of_pass_quiet {tables : TableMap}
    (quiet : (pass links hierarchies tables).1 = 0) :
    Ownership.propagate links tables = (0, tables) ∧
      Hierarchy.propagate hierarchies tables = (0, tables) := by
  simp only [pass, Nat.add_eq_zero_iff] at quiet
  have owned := (Ownership.flows_propagate links tables).counts.quiet quiet.1
  have same : Ownership.propagate links tables = (0, tables) := Prod.ext quiet.1 owned
  rw [same] at quiet
  exact ⟨same, Prod.ext quiet.2
    ((Hierarchy.flows_propagate hierarchies tables).counts.quiet quiet.2)⟩

variable {base tables : TableMap} {name : String} {reached : String → Prop}

theorem pass_within (closed : Closed links hierarchies base name reached)
    (regular : base.Regular) (inherits : TableMap.Revises Table.Inherits base tables)
    (within : ∀ id, name ∈ tables.keyNames id → reached id) :
    ∀ id, name ∈ (pass links hierarchies tables).2.keyNames id → reached id := by
  have owned := Ownership.propagate_within inherits closed.owned within
  have flows := Ownership.flows_propagate links tables
  exact Hierarchy.propagate_within ((inherits.trans .trans flows.inherits).regular regular)
    closed.inherited owned

/-- What the tables are like when the passes begin: one for each dependent and
each subclass, and no two under one identifier. -/
structure Ready (links : List Ownership) (hierarchies : List Hierarchy)
    (base : TableMap) : Prop where
  distinct : base.ids.Nodup
  regular : base.Regular
  dependents : ∀ link ∈ links, link.dependent.id ∈ base.ids
  subclasses : ∀ hierarchy ∈ hierarchies, ∀ subclass ∈ hierarchy.subclasses,
    subclass.id ∈ base.ids

/-- If a pass moves a name nowhere, nothing leads out of where it stands. -/
theorem closed_of_pass_same (ready : Ready links hierarchies base)
    (inherits : TableMap.Revises Table.Inherits base tables)
    (same : ∀ id, name ∈ (pass links hierarchies tables).2.keyNames id →
      name ∈ tables.keyNames id) :
    Closed links hierarchies base name (fun id => name ∈ tables.keyNames id) where
  owned link member opened owned := by
    have reached := Ownership.propagate_reaches member inherits
      (ready.dependents link member) opened owned
    exact same _ ((Hierarchy.flows_propagate hierarchies _).keyNames reached)
  inherited hierarchy member subclass isSubclass key := by
    have flows := Ownership.flows_propagate links tables
    have sofar := inherits.trans .trans flows.inherits
    have present : subclass.id ∈ (Ownership.propagate links tables).2.ids :=
      sofar.ids_eq ▸ ready.subclasses hierarchy member subclass isSubclass
    exact same _ (Hierarchy.propagate_reaches member isSubclass
      (sofar.regular ready.regular) present (flows.keyNames key))

end Derivation

end ErSchema
