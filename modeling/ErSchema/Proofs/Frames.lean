import ErSchema.Proofs.Convergence
import ErSchema.Proofs.Resolution

/-! # Tables that stand around others

A routine that asks only for some nodes does not see the tables of other nodes:
with further tables before and after its own it counts, changes, derives and
reports the same, and leaves the further tables alone. -/

namespace ErSchema

structure Frame where
  front : TableMap
  back : TableMap

namespace Frame

def around (frame : Frame) (tables : TableMap) : TableMap :=
  ⟨frame.front.entries ++ tables.entries ++ frame.back.entries⟩

/-- No table of the frame is the node's. -/
def Leaves (frame : Frame) (id : String) : Prop :=
  id ∉ frame.front.ids ∧ id ∉ frame.back.ids

theorem modifyEntries_append {id : String} (change : Table → Table)
    {front : List (String × Table)} (absent : id ∉ front.map (·.1))
    (rest : List (String × Table)) :
    TableMap.modifyEntries id change (front ++ rest) =
      front ++ TableMap.modifyEntries id change rest := by
  induction front with
  | nil => rfl
  | cons entry others induction =>
      rcases not_or.mp (List.mem_cons.not.mp absent) with ⟨different, elsewhere⟩
      rw [List.cons_append, TableMap.modifyEntries, if_neg (Ne.symm different),
        induction elsewhere, List.cons_append]

theorem modifyEntries_append_left {id : String} (change : Table → Table)
    {back : List (String × Table)} (absent : id ∉ back.map (·.1))
    (entries : List (String × Table)) :
    TableMap.modifyEntries id change (entries ++ back) =
      TableMap.modifyEntries id change entries ++ back := by
  induction entries with
  | nil =>
      have unchanged := modifyEntries_append change absent []
      rwa [List.append_nil, TableMap.modifyEntries, List.append_nil] at unchanged
  | cons entry rest induction =>
      rw [List.cons_append, TableMap.modifyEntries, TableMap.modifyEntries]
      split
      · rfl
      · rw [induction, List.cons_append]

section
variable {frame : Frame} {id : String} (leaves : frame.Leaves id)
include leaves

theorem get?_around (tables : TableMap) : (frame.around tables).get? id = tables.get? id := by
  have absent {others : TableMap} (missing : id ∉ others.ids) :
      others.entries.find? (fun entry => entry.1 = id) = none :=
    Option.map_eq_none_iff.mp (TableMap.get?_of_not_mem missing)
  simp [TableMap.get?, around, absent leaves.1, absent leaves.2]

theorem primaryKey_around (tables : TableMap) :
    (frame.around tables).primaryKey id = tables.primaryKey id := by
  rw [TableMap.primaryKey, TableMap.primaryKey, get?_around leaves]

theorem modify_around (tables : TableMap) (change : Table → Table) :
    (frame.around tables).modify id change = frame.around (tables.modify id change) := by
  have before := modifyEntries_append change leaves.1 (tables.entries ++ frame.back.entries)
  have after := modifyEntries_append_left change leaves.2 tables.entries
  rw [after, ← List.append_assoc, ← List.append_assoc] at before
  exact congrArg TableMap.mk before

end

/-! ## Taking over keys -/

/-- For this item the step counts and changes in the frame what it does without
it. -/
def Keeps {α : Type} (frame : Frame) (step : Nat × TableMap → α → Nat × TableMap)
    (item : α) : Prop :=
  ∀ counted more tables, step (counted + more, frame.around tables) item =
    (counted + (step (more, tables) item).1, frame.around (step (more, tables) item).2)

variable {frame : Frame}

theorem foldl_keeps {α : Type} {step : Nat × TableMap → α → Nat × TableMap} {items : List α}
    (each : ∀ item ∈ items, frame.Keeps step item) (counted more : Nat) (tables : TableMap) :
    items.foldl step (counted + more, frame.around tables) =
      (counted + (items.foldl step (more, tables)).1,
        frame.around (items.foldl step (more, tables)).2) := by
  induction items generalizing more tables with
  | nil => rfl
  | cons item rest induction =>
      have both := List.forall_mem_cons.mp each
      rw [List.foldl_cons, both.1 counted more tables]
      exact induction both.2 _ _

theorem keeps_absorb {id : String} (leaves : frame.Leaves id)
    (take : Nat × Table → Column → Nat × Table) (keys : List Column) :
    frame.Keeps (TableMap.absorb take keys) id := by
  intro counted more tables
  let alone : Nat × TableMap := (more, tables)
  cases found : tables.get? id with
  | none =>
      have nothing : TableMap.absorb take keys alone id = alone := TableMap.absorb_of_none found
      rw [nothing, TableMap.absorb_of_none ((get?_around leaves tables).trans found)]
  | some table =>
      have taken : TableMap.absorb take keys alone id = _ := TableMap.absorb_of_some found
      rw [taken, TableMap.absorb_of_some ((get?_around leaves tables).trans found)]
      exact Prod.ext (Nat.add_assoc _ _ _) (modify_around leaves tables _)

theorem keeps_ownershipStep {link : Ownership} (dependent : frame.Leaves link.dependent.id)
    (owner : frame.Leaves link.owner.id) : frame.Keeps Ownership.step link := by
  intro counted more tables
  simp only [Ownership.step_eq_absorb, primaryKey_around owner]
  exact keeps_absorb dependent _ _ counted more tables

theorem keeps_hierarchyStep {hierarchy : Hierarchy}
    (superclass : frame.Leaves hierarchy.superclass.id)
    (subclasses : ∀ subclass ∈ hierarchy.subclasses, frame.Leaves subclass.id) :
    frame.Keeps Hierarchy.step hierarchy := by
  intro counted more tables
  simp only [Hierarchy.step, primaryKey_around superclass]
  refine foldl_keeps (fun subclass member => ?_) counted more tables
  exact keeps_absorb (subclasses subclass member) _ _

end Frame

/-! ## Resolving relationships -/

/-- What stands around the tables of a resolution, and what was derived and
reported before it. -/
structure Setting extends Frame where
  derived : List Table
  diagnostics : List Diagnostic

namespace Setting

def surround (setting : Setting) (state : Resolution) : Resolution :=
  ⟨setting.around state.tables, setting.derived ++ state.derived,
    setting.diagnostics ++ state.diagnostics⟩

variable (setting : Setting) (state : Resolution)

theorem report_surround (diagnostics : List Diagnostic) :
    (setting.surround state).report diagnostics =
      setting.surround (state.report diagnostics) := by
  simp [surround, Resolution.report]

theorem derive_surround (tables : List Table) :
    (setting.surround state).derive tables = setting.surround (state.derive tables) := by
  simp [surround, Resolution.derive]

variable {setting}

theorem foldKey_surround {holder target : Node} (leavesHolder : setting.Leaves holder.id)
    (leavesTarget : setting.Leaves target.id) (role : String) :
    (setting.surround state).foldKey holder target role =
      setting.surround (state.foldKey holder target role) := by
  simp only [Resolution.foldKey, surround, Frame.primaryKey_around leavesTarget,
    Frame.modify_around leavesHolder]

theorem foldAttributes_surround (relationship : Node) (attributes : Attributes)
    {holder : Node} (leaves : setting.Leaves holder.id) :
    (setting.surround state).foldAttributes relationship attributes holder =
      setting.surround (state.foldAttributes relationship attributes holder) := by
  cases found : state.tables.get? holder.id with
  | none => simp only [Resolution.foldAttributes, surround, Frame.get?_around leaves, found]
  | some table =>
      simp only [Resolution.foldAttributes, surround, Frame.get?_around leaves, found,
        Frame.modify_around leaves, List.append_assoc]

theorem foldl_foldAttributes_surround (relationship : Node) (attributes : Attributes)
    {holders : List Node} (leaves : ∀ holder ∈ holders, setting.Leaves holder.id) :
    holders.foldl (fun state holder => state.foldAttributes relationship attributes holder)
        (setting.surround state) =
      setting.surround (holders.foldl
        (fun state holder => state.foldAttributes relationship attributes holder) state) := by
  induction holders generalizing state with
  | nil => rfl
  | cons holder rest induction =>
      have both := List.forall_mem_cons.mp leaves
      rw [List.foldl_cons, List.foldl_cons, foldAttributes_surround _ _ _ both.1]
      exact induction _ both.2

theorem pushJunction_surround (relationship : Node) (attributes : Attributes)
    {participants : List Node} (leaves : ∀ node ∈ participants, setting.Leaves node.id) :
    (setting.surround state).pushJunction relationship attributes participants =
      setting.surround (state.pushJunction relationship attributes participants) := by
  have same : junctionTable relationship attributes participants (setting.around state.tables) =
      junctionTable relationship attributes participants state.tables :=
    junctionTable_congr
      (fun node member => Frame.primaryKey_around (leaves node member) state.tables) _ _
  unfold Resolution.pushJunction
  rw [← derive_surround, ← same]
  rfl

theorem foldInto_surround (relationship : Node) (attributes : Attributes)
    {holder target : Node} (leavesHolder : setting.Leaves holder.id)
    (leavesTarget : setting.Leaves target.id) (role : String) :
    (setting.surround state).foldInto relationship attributes holder target role =
      setting.surround (state.foldInto relationship attributes holder target role) := by
  simp only [Resolution.foldInto, foldKey_surround state leavesHolder leavesTarget,
    foldAttributes_surround _ relationship attributes leavesHolder]

theorem resolveBinary_surround (relationship : Node) (attributes : Attributes)
    {first second : Neighbor} (leavesFirst : setting.Leaves first.node.id)
    (leavesSecond : setting.Leaves second.node.id) :
    (setting.surround state).resolveBinary relationship attributes first second =
      setting.surround (state.resolveBinary relationship attributes first second) := by
  unfold Resolution.resolveBinary
  cases Shape.classify first.card second.card with
  | manyToMany => exact pushJunction_surround state _ _ (by simp [leavesFirst, leavesSecond])
  | oneToMany side =>
      cases side with
      | first => exact foldInto_surround state _ _ leavesFirst leavesSecond _
      | second => exact foldInto_surround state _ _ leavesSecond leavesFirst _
  | oneToOne =>
      rw [report_surround]
      exact foldInto_surround _ _ _ leavesFirst leavesSecond _

/-- A relationship changes and reads the tables of the entities of its graph. -/
theorem resolveOne_surround {index : Adjacency} (wellFormed : index.WellFormed)
    {links : List Ownership} (dependents : ∀ link ∈ links, link.dependent ∈ index.entities)
    (leaves : ∀ entity ∈ index.entities, setting.Leaves entity.id) (relationship : Node) :
    Resolution.resolveOne index links (setting.surround state) relationship =
      setting.surround (Resolution.resolveOne index links state relationship) := by
  have participate : ∀ neighbor ∈ index.entityNeighbors relationship.id,
      neighbor.node ∈ index.entities := fun _ => wellFormed.node_of_mem_entityNeighbors
  have nodes : ∀ node ∈ (index.entityNeighbors relationship.id).map (·.node),
      setting.Leaves node.id := by
    intro node member
    rcases List.mem_map.mp member with ⟨neighbor, isNeighbor, rfl⟩
    exact leaves _ (participate neighbor isNeighbor)
  have holders : ∀ node ∈ Resolution.dependents relationship
      ((index.entityNeighbors relationship.id).map (·.node)) links, setting.Leaves node.id := by
    intro node member
    rcases Resolution.mem_dependents member with participant | ⟨link, isLink, rfl⟩
    · exact nodes node participant
    · exact leaves _ (dependents link isLink)
  unfold Resolution.resolveOne
  simp only [report_surround]
  generalize state.report (index.attributeProblems relationship) = told
  split
  · exact foldl_foldAttributes_surround told relationship _ holders
  · generalize index.entityNeighbors relationship.id = participants at participate nodes
    match participants with
    | [] => rfl
    | [single] => rfl
    | [first, second] =>
        exact resolveBinary_surround told _ _ (leaves _ (participate first (by simp)))
          (leaves _ (participate second (by simp)))
    | first :: second :: third :: rest => exact pushJunction_surround told _ _ nodes

theorem foldl_resolveOne_surround (setting : Setting) (state : Resolution) {index : Adjacency}
    (wellFormed : index.WellFormed) {links : List Ownership} (dependents : ∀ link ∈ links, link.dependent ∈ index.entities)
    (leaves : ∀ entity ∈ index.entities, setting.Leaves entity.id) (relationships : List Node) :
    relationships.foldl (Resolution.resolveOne index links) (setting.surround state) =
      setting.surround (relationships.foldl (Resolution.resolveOne index links) state) := by
  induction relationships generalizing state with
  | nil => rfl
  | cons relationship rest induction =>
      rw [List.foldl_cons, List.foldl_cons,
        resolveOne_surround state wellFormed dependents leaves, induction]

end Setting

end ErSchema
