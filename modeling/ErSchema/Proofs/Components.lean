import ErSchema.Proofs.Frames
import ErSchema.Proofs.Inert

/-! # Diagrams side by side

Two diagrams without common identifiers and without connections between them do
not influence each other when they are derived as one. The graph splits into the
two graphs; a pass over both is a pass over each; and the loop, which goes on
until neither changes, leaves each with the tables that it settles on alone. -/

namespace ErSchema

namespace Diagram

/-- The nodes and the connections of both, those of the first before those of the
second. -/
def beside (left right : Diagram) : Diagram :=
  ⟨left.nodes ++ right.nodes, left.edges ++ right.edges⟩

/-- No connection of the one diagram names a node of the other. -/
def LeavesAlone (diagram other : Diagram) : Prop :=
  ∀ edge ∈ diagram.edges, ∀ node ∈ other.nodes, edge.start ≠ node.id ∧ edge.finish ≠ node.id

/-- Neither diagram has an identifier of the other, nor a connection to it. -/
structure Unconnected (left right : Diagram) : Prop where
  nodes : ∀ node ∈ left.nodes, ∀ other ∈ right.nodes, node.id ≠ other.id
  onward : left.LeavesAlone right
  backward : right.LeavesAlone left

end Diagram

theorem firstBy_append {α β : Type} [DecidableEq β] {key : α → β} {first second : List α}
    (apart : ∀ member ∈ first, ∀ other ∈ second, key member ≠ key other) :
    firstBy key (first ++ second) = firstBy key first ++ firstBy key second := by
  induction first with
  | nil => rfl
  | cons member rest induction =>
      have both := List.forall_mem_cons.mp apart
      have kept : (firstBy key second).filter (fun later => key later ≠ key member) =
          firstBy key second := by
        refine List.filter_eq_self.mpr fun other isOther => ?_
        simpa using (both.1 other ((firstBy_sublist key second).subset isOther)).symm
      rw [List.cons_append, firstBy, induction both.2, List.filter_append, kept]
      rfl

/-! ## Graphs that split -/

namespace Adjacency

/-- Whatever is in the graph is in one of the two parts; the connections of the
second come after those of the first. -/
structure Splits (shift : Nat) (left right whole : Adjacency) : Prop where
  first : Agrees id left whole
  second : Agrees (· + shift) right whole
  nodes : whole.nodes = left.nodes ++ right.nodes

namespace Splits

variable {shift : Nat} {left right whole : Adjacency} (splits : Splits shift left right whole)
include splits

theorem apart {node other : Node} (isNode : node ∈ left.nodes) (isOther : other ∈ right.nodes) :
    node.id ≠ other.id := by
  have distinct := splits.first.wholeFormed.distinct
  rw [splits.nodes, List.map_append] at distinct
  exact (List.nodup_append.mp distinct).2.2 _ (List.mem_map_of_mem isNode) _
    (List.mem_map_of_mem isOther)

theorem filter_nodes (wanted : Node → Bool) :
    whole.nodes.filter wanted = left.nodes.filter wanted ++ right.nodes.filter wanted := by
  rw [splits.nodes, List.filter_append]

theorem entities_eq : whole.entities = left.entities ++ right.entities :=
  splits.filter_nodes _

theorem apart_entities {entity other : Node} (isEntity : entity ∈ left.entities)
    (isOther : other ∈ right.entities) : entity.id ≠ other.id :=
  splits.apart (mem_entities.mp isEntity).1 (mem_entities.mp isOther).1

theorem ownerships_eq : whole.ownerships = left.ownerships ++ right.ownerships := by
  have each {renumber : Nat → Nat} {part : Adjacency} (agrees : Agrees renumber part whole) :
      part.weakEntities.flatMap whole.ownershipsOf = part.weakEntities.flatMap part.ownershipsOf := by
    refine List.flatMap_congr fun weak member => ?_
    rcases List.mem_filter.mp member with ⟨isNode, isWeakEntity⟩
    exact agrees.ownershipsOf_eq isNode (Bool.and_eq_true_iff.mp isWeakEntity).1
  have weak : whole.weakEntities = left.weakEntities ++ right.weakEntities :=
    splits.filter_nodes _
  rw [ownerships_eq_firstBy, weak, List.flatMap_append, each splits.first, each splits.second]
  refine firstBy_append fun link isLink other isOther same => ?_
  rcases List.mem_flatMap.mp isLink with ⟨dependent, isDependent, given⟩
  rcases List.mem_flatMap.mp isOther with ⟨otherDependent, isOtherDependent, otherGiven⟩
  refine splits.apart (List.mem_of_mem_filter isDependent)
    (List.mem_of_mem_filter isOtherDependent) ?_
  rw [← (mem_ownershipsOf given).1, ← (mem_ownershipsOf otherGiven).1]
  exact congrArg Prod.fst same

theorem hierarchies_eq : whole.hierarchies = left.hierarchies ++ right.hierarchies := by
  have each {renumber : Nat → Nat} {part : Adjacency} (agrees : Agrees renumber part whole) :
      part.isaNodes.filterMap whole.hierarchyOf? = part.isaNodes.filterMap part.hierarchyOf? := by
    refine List.filterMap_congr fun isa member => ?_
    rcases List.mem_filter.mp member with ⟨isNode, isIsa⟩
    exact (agrees.hierarchyOf?_eq isNode isIsa).2
  have isaNodes : whole.isaNodes = left.isaNodes ++ right.isaNodes := splits.filter_nodes _
  rw [hierarchies, isaNodes, List.filterMap_append, each splits.first, each splits.second]
  rfl

/-- The links that a relationship gave stay in its part. -/
theorem ownerships_through {relationship : Node} :
    (relationship ∈ left.nodes →
      (whole.ownerships.filter fun link => link.relationship.id = relationship.id) =
        left.ownerships.filter fun link => link.relationship.id = relationship.id) ∧
    (relationship ∈ right.nodes →
      (whole.ownerships.filter fun link => link.relationship.id = relationship.id) =
        right.ownerships.filter fun link => link.relationship.id = relationship.id) := by
  have inside {renumber : Nat → Nat} {part : Adjacency} (agrees : Agrees renumber part whole)
      {link : Ownership} (member : link ∈ part.ownerships) : link.relationship ∈ part.nodes := by
    rcases List.mem_flatMap.mp ((firstBy_sublist _ _).subset member) with ⟨weak, _, given⟩
    rcases (mem_ownershipsOf given).2 with ⟨connection, isNeighbor, same⟩
    exact same ▸ agrees.partFormed.node_of_mem_neighbors isNeighbor
  rw [splits.ownerships_eq, List.filter_append]
  constructor
  · intro isLeft
    have none : (right.ownerships.filter fun link =>
        link.relationship.id = relationship.id) = [] := by
      refine List.filter_eq_nil_iff.mpr fun link member => ?_
      simpa using (splits.apart isLeft (inside splits.second member)).symm
    rw [none, List.append_nil]
  · intro isRight
    have none : (left.ownerships.filter fun link =>
        link.relationship.id = relationship.id) = [] := by
      refine List.filter_eq_nil_iff.mpr fun link member => ?_
      simpa using splits.apart (inside splits.first member) isRight
    rw [none, List.nil_append]

end Splits

end Adjacency

/-! ## Tables of two parts -/

namespace TableMap

def beside (left right : TableMap) : TableMap :=
  ⟨left.entries ++ right.entries⟩

theorem beside_eq_left (left right : TableMap) :
    left.beside right = (Frame.mk empty right).around left :=
  rfl

theorem beside_eq_right (left right : TableMap) :
    left.beside right = (Frame.mk left empty).around right := by
  simp [beside, Frame.around, empty]

theorem toTables_beside (left right : TableMap) :
    (left.beside right).toTables = left.toTables ++ right.toTables :=
  List.map_append

theorem leaves_left {id : String} {right : TableMap} (absent : id ∉ right.ids) :
    (Frame.mk empty right).Leaves id :=
  ⟨List.not_mem_nil, absent⟩

theorem leaves_right {id : String} {left : TableMap} (absent : id ∉ left.ids) :
    (Frame.mk left empty).Leaves id :=
  ⟨absent, List.not_mem_nil⟩

/-- A fold over the items of both parts does to each what it does alone. -/
theorem foldl_beside {α : Type} {step : Nat × TableMap → α → Nat × TableMap}
    {lefts rights : List α} {left right : TableMap}
    (keepsLeft : ∀ item ∈ lefts, (Frame.mk empty right).Keeps step item)
    (keepsRight : ∀ item ∈ rights,
      (Frame.mk (lefts.foldl step (0, left)).2 empty).Keeps step item) :
    (lefts ++ rights).foldl step (0, left.beside right) =
      ((lefts.foldl step (0, left)).1 + (rights.foldl step (0, right)).1,
        (lefts.foldl step (0, left)).2.beside (rights.foldl step (0, right)).2) := by
  have leftwards := Frame.foldl_keeps keepsLeft 0 0 left
  have rightwards := Frame.foldl_keeps keepsRight (lefts.foldl step (0, left)).1 0 right
  simp only [Nat.zero_add, Nat.add_zero, ← beside_eq_left, ← beside_eq_right]
    at leftwards rightwards
  rw [List.foldl_append, leftwards, rightwards]

end TableMap

namespace Derivation

open TableMap (beside_eq_left beside_eq_right leaves_left leaves_right)

/-- Nothing is asked about these identifiers. -/
structure Avoids (links : List Ownership) (hierarchies : List Hierarchy) (ids : List String) :
    Prop where
  owned : ∀ link ∈ links, link.dependent.id ∉ ids ∧ link.owner.id ∉ ids
  inherited : ∀ hierarchy ∈ hierarchies, hierarchy.superclass.id ∉ ids ∧
    ∀ subclass ∈ hierarchy.subclasses, subclass.id ∉ ids

section
variable {leftLinks rightLinks : List Ownership} {leftHierarchies rightHierarchies : List Hierarchy}
  {left right : TableMap}

theorem pass_beside (leftAvoids : Avoids leftLinks leftHierarchies right.ids)
    (rightAvoids : Avoids rightLinks rightHierarchies left.ids) :
    pass (leftLinks ++ rightLinks) (leftHierarchies ++ rightHierarchies) (left.beside right) =
      ((pass leftLinks leftHierarchies left).1 + (pass rightLinks rightHierarchies right).1,
        (pass leftLinks leftHierarchies left).2.beside
          (pass rightLinks rightHierarchies right).2) := by
  let leftOwned := Ownership.propagate leftLinks left
  let rightOwned := Ownership.propagate rightLinks right
  have leftIds : leftOwned.2.ids = left.ids :=
    (Ownership.flows_propagate leftLinks left).inherits.ids_eq
  have rightIds : rightOwned.2.ids = right.ids :=
    (Ownership.flows_propagate rightLinks right).inherits.ids_eq
  have settledIds : (Hierarchy.propagate leftHierarchies leftOwned.2).2.ids = left.ids :=
    (Hierarchy.flows_propagate leftHierarchies leftOwned.2).inherits.ids_eq.trans leftIds
  have owned : Ownership.propagate (leftLinks ++ rightLinks) (left.beside right) =
      (leftOwned.1 + rightOwned.1, leftOwned.2.beside rightOwned.2) := by
    refine TableMap.foldl_beside (fun link member => ?_) fun link member => ?_
    · have absent := leftAvoids.owned link member
      exact Frame.keeps_ownershipStep (leaves_left absent.1) (leaves_left absent.2)
    · have absent := rightAvoids.owned link member
      rw [← leftIds] at absent
      exact Frame.keeps_ownershipStep (leaves_right absent.1) (leaves_right absent.2)
  have inherited : Hierarchy.propagate (leftHierarchies ++ rightHierarchies)
        (leftOwned.2.beside rightOwned.2) =
      ((Hierarchy.propagate leftHierarchies leftOwned.2).1 +
          (Hierarchy.propagate rightHierarchies rightOwned.2).1,
        (Hierarchy.propagate leftHierarchies leftOwned.2).2.beside
          (Hierarchy.propagate rightHierarchies rightOwned.2).2) := by
    refine TableMap.foldl_beside (fun hierarchy member => ?_) fun hierarchy member => ?_
    · have absent := leftAvoids.inherited hierarchy member
      rw [← rightIds] at absent
      exact Frame.keeps_hierarchyStep (leaves_left absent.1) fun subclass isSubclass =>
        leaves_left (absent.2 subclass isSubclass)
    · have absent := rightAvoids.inherited hierarchy member
      rw [← settledIds] at absent
      exact Frame.keeps_hierarchyStep (leaves_right absent.1) fun subclass isSubclass =>
        leaves_right (absent.2 subclass isSubclass)
  simp only [pass, owned, inherited]
  exact Prod.ext (Nat.add_add_add_comm _ _ _ _) rfl

theorem flowed_beside (leftAvoids : Avoids leftLinks leftHierarchies right.ids)
    (rightAvoids : Avoids rightLinks rightHierarchies left.ids) (made : Nat) :
    flowed (leftLinks ++ rightLinks) (leftHierarchies ++ rightHierarchies) (left.beside right)
        made =
      (flowed leftLinks leftHierarchies left made).beside
        (flowed rightLinks rightHierarchies right made) := by
  induction made with
  | zero => rfl
  | succ made induction =>
      rw [flowed_succ, flowed_succ, flowed_succ, induction, pass_beside]
      · rwa [(inherits_flowed rightLinks rightHierarchies right made).ids_eq]
      · rwa [(inherits_flowed leftLinks leftHierarchies left made).ids_eq]

end

theorem flowed_of_settles {links : List Ownership} {hierarchies : List Hierarchy}
    {base : TableMap} {quiet made : Nat} (settles : Settles links hierarchies base quiet)
    (enough : quiet ≤ made) :
    flowed links hierarchies base made = flowed links hierarchies base quiet := by
  induction made, enough using Nat.le_induction with
  | base => rfl
  | succ made _ induction => rw [flowed_succ, induction, settles.pass_eq]

/-- Where a pass changes nothing, the loop without a limit ends. -/
theorem settled_of_quiet {index : Adjacency} (wellFormed : index.WellFormed) {made : Nat}
    (still : (pass index.ownerships index.hierarchies
      (flowed index.ownerships index.hierarchies (baseTables index) made)).1 = 0) :
    (settled index none).tables =
      flowed index.ownerships index.hierarchies (baseTables index) made := by
  rcases exists_settles (ready_baseTables wellFormed) with ⟨quiet, inTime, settles⟩
  rw [size_baseTables wellFormed] at inTime
  have enough : quiet ≤ made := Nat.le_of_not_lt fun earlier => settles.busy made earlier still
  rw [flowed_of_settles settles enough]
  exact congrArg Settled.tables (settle_unlimited settles inTime)

section
variable {shift : Nat} {left right whole : Adjacency}
  (splits : Adjacency.Splits shift left right whole)
include splits

theorem baseTables_beside : baseTables whole = (baseTables left).beside (baseTables right) := by
  have each {renumber : Nat → Nat} {part : Adjacency}
      (agrees : Adjacency.Agrees renumber part whole) :
      (part.entities.map fun entity =>
          (entity.id, entityTable entity (whole.attributesOf entity))) =
        (baseTables part).entries := by
    rw [entries_baseTables agrees.partFormed]
    refine List.map_congr_left fun entity member => ?_
    rw [agrees.sharesAttributes.attributesOf_entity member]
  have entries : (baseTables whole).entries =
      (baseTables left).entries ++ (baseTables right).entries := by
    rw [entries_baseTables splits.first.wholeFormed, splits.entities_eq, List.map_append,
      each splits.first, each splits.second]
  exact congrArg TableMap.mk entries

/-- The entities of one part have no tables in the other. -/
theorem absent_entities (tables others : TableMap) (ids : tables.ids = (baseTables left).ids)
    (otherIds : others.ids = (baseTables right).ids) :
    (∀ entity ∈ left.entities, entity.id ∉ others.ids) ∧
      ∀ entity ∈ right.entities, entity.id ∉ tables.ids := by
  rw [ids, otherIds, ids_baseTables splits.first.partFormed,
    ids_baseTables splits.second.partFormed]
  refine ⟨fun entity isEntity listed => ?_, fun entity isEntity listed => ?_⟩
  · rcases List.mem_map.mp listed with ⟨other, isOther, same⟩
    exact splits.apart_entities isEntity isOther same.symm
  · rcases List.mem_map.mp listed with ⟨other, isOther, same⟩
    exact splits.apart_entities isOther isEntity same

omit splits in
theorem avoids_of_absent {index : Adjacency} (wellFormed : index.WellFormed) {ids : List String}
    (absent : ∀ entity ∈ index.entities, entity.id ∉ ids) :
    Avoids index.ownerships index.hierarchies ids where
  owned _ member :=
    have ends := wellFormed.ends_of_mem_ownerships member
    ⟨absent _ ends.1, absent _ ends.2⟩
  inherited _ member :=
    have classes := wellFormed.classes_of_mem_hierarchies member
    ⟨absent _ classes.1, fun subclass isSubclass => absent _ (classes.2 subclass isSubclass)⟩

/-- Passes that only one part needs do nothing to the other. -/
theorem settled_beside :
    (settled whole none).tables = (settled left none).tables.beside (settled right none).tables := by
  have absent := absent_entities splits (baseTables left) (baseTables right) rfl rfl
  have leftAvoids := avoids_of_absent splits.first.partFormed absent.1
  have rightAvoids := avoids_of_absent splits.second.partFormed absent.2
  have flows := flowed_beside leftAvoids rightAvoids
  rw [← splits.ownerships_eq, ← splits.hierarchies_eq, ← baseTables_beside splits] at flows
  rcases exists_settles (ready_baseTables splits.first.wholeFormed) with ⟨quiet, _, settles⟩
  have still := congrArg Prod.fst settles.pass_eq
  rw [settled_of_quiet splits.first.wholeFormed still, flows]
  rw [flows, splits.ownerships_eq, splits.hierarchies_eq, pass_beside] at still
  · rcases Nat.add_eq_zero_iff.mp still with ⟨leftStill, rightStill⟩
    rw [settled_of_quiet splits.first.partFormed leftStill,
      settled_of_quiet splits.second.partFormed rightStill]
  · rwa [(inherits_flowed right.ownerships right.hierarchies _ quiet).ids_eq]
  · rwa [(inherits_flowed left.ownerships left.hierarchies _ quiet).ids_eq]

/-- Each relationship finds its entities in its own part. -/
theorem resolution_beside :
    let leftEnd := resolution left none
    let rightEnd := resolution right none
    resolution whole none = ⟨leftEnd.tables.beside rightEnd.tables,
      leftEnd.derived ++ rightEnd.derived, leftEnd.diagnostics ++ rightEnd.diagnostics⟩ := by
  intro leftEnd rightEnd
  let leftStart : Resolution := ⟨(settled left none).tables, [], []⟩
  let rightStart : Resolution := ⟨(settled right none).tables, [], []⟩
  let besideRight : Setting := ⟨⟨.empty, rightStart.tables⟩, [], []⟩
  let besideLeft : Setting := ⟨⟨leftEnd.tables, .empty⟩, leftEnd.derived, leftEnd.diagnostics⟩
  have leftFormed := splits.first.partFormed
  have rightFormed := splits.second.partFormed
  have rightIds : rightStart.tables.ids = (baseTables right).ids :=
    (inherits_settled right none).ids_eq
  have leftIds : leftEnd.tables.ids = (baseTables left).ids :=
    (reached_resolution leftFormed none).tables.ids_eq.trans (inherits_settled left none).ids_eq
  have startAbsent := absent_entities splits (baseTables left) rightStart.tables rfl rightIds
  have endAbsent := absent_entities splits leftEnd.tables rightStart.tables leftIds rightIds
  have leftwards := Setting.foldl_resolveOne_surround besideRight leftStart leftFormed
    (fun _ member => (leftFormed.ends_of_mem_ownerships member).1)
    (fun entity isEntity => leaves_left (startAbsent.1 entity isEntity))
    (left.nodes.filter (·.isRelationship))
  have rightwards := Setting.foldl_resolveOne_surround besideLeft rightStart rightFormed
    (fun _ member => (rightFormed.ends_of_mem_ownerships member).1)
    (fun entity isEntity => leaves_right (endAbsent.2 entity isEntity))
    (right.nodes.filter (·.isRelationship))
  have start : (⟨(settled whole none).tables, [], []⟩ : Resolution) =
      besideRight.surround leftStart := by
    rw [settled_beside splits]
    rfl
  have between : besideRight.surround leftEnd = besideLeft.surround rightStart := by
    simp [Setting.surround, besideRight, besideLeft, rightStart, Frame.around, TableMap.empty]
  have finish : besideLeft.surround rightEnd = ⟨leftEnd.tables.beside rightEnd.tables,
      leftEnd.derived ++ rightEnd.derived, leftEnd.diagnostics ++ rightEnd.diagnostics⟩ := by
    simp [Setting.surround, besideLeft, Frame.around, TableMap.empty, TableMap.beside]
  calc resolution whole none
      = (whole.nodes.filter (·.isRelationship)).foldl
          (Resolution.resolveOne whole whole.ownerships)
          ⟨(settled whole none).tables, [], []⟩ := rfl
    _ = (right.nodes.filter (·.isRelationship)).foldl
          (Resolution.resolveOne right right.ownerships) (besideRight.surround leftEnd) := by
        rw [start, splits.filter_nodes, List.foldl_append,
          splits.first.foldl_resolveOne_eq fun _ => splits.ownerships_through.1,
          splits.second.foldl_resolveOne_eq fun _ => splits.ownerships_through.2, leftwards]
        rfl
    _ = besideLeft.surround rightEnd := by
        rw [between, rightwards]
        rfl
    _ = _ := finish

theorem multivaluedTables_beside :
    whole.entities.flatMap (multivaluedTables whole (settled whole none).tables) =
      left.entities.flatMap (multivaluedTables left (settled left none).tables) ++
        right.entities.flatMap (multivaluedTables right (settled right none).tables) := by
  have absent := absent_entities splits _ _ (inherits_settled left none).ids_eq
    (inherits_settled right none).ids_eq
  have here : left.entities.flatMap (multivaluedTables whole (settled whole none).tables) =
      left.entities.flatMap (multivaluedTables left (settled left none).tables) := by
    refine List.flatMap_congr fun entity member => ?_
    rw [multivaluedTables, multivaluedTables,
      splits.first.sharesAttributes.attributesOf_entity member, settled_beside splits,
      beside_eq_left, Frame.get?_around (leaves_left (absent.1 entity member))]
  have there : right.entities.flatMap (multivaluedTables whole (settled whole none).tables) =
      right.entities.flatMap (multivaluedTables right (settled right none).tables) := by
    refine List.flatMap_congr fun entity member => ?_
    rw [multivaluedTables, multivaluedTables,
      splits.second.sharesAttributes.attributesOf_entity member, settled_beside splits,
      beside_eq_right, Frame.get?_around (leaves_right (absent.2 entity member))]
  rw [splits.entities_eq, List.flatMap_append, here, there]

end

end Derivation

/-! ## The graph of two diagrams -/

namespace Adjacency

theorem neighbors_eq_nil {links : List Link} {id : String}
    (apart : ∀ link ∈ links, link.start.id ≠ id ∧ link.finish.id ≠ id) :
    links.filterMap (·.neighborOf? id) = [] := by
  refine List.filterMap_eq_nil_iff.mpr fun link member => ?_
  simp [Link.neighborOf?, apart link member]

theorem linkOf?_add (nodes : List Node) (edge : Edge) (place shift : Nat) :
    linkOf? nodes edge (place + shift) =
      (linkOf? nodes edge place).map (·.renumbered (· + shift)) := by
  unfold linkOf?
  cases find? nodes edge.start with
  | none => rfl
  | some start =>
      cases find? nodes edge.finish with
      | none => rfl
      | some finish =>
          by_cases same : edge.start = edge.finish
          · simp [same]
          · simp [same, Link.renumbered]

theorem find?_append (left right : List Node) (id : String) :
    find? (left ++ right) id = (find? left id).or (find? right id) :=
  List.find?_append

end Adjacency

namespace Diagram

variable {left right : Diagram}

theorem LeavesAlone.find?_eq_none (alone : left.LeavesAlone right) {edge : Edge}
    (isEdge : edge ∈ left.edges) :
    Adjacency.find? (firstBy Node.id right.nodes) edge.start = none ∧
      Adjacency.find? (firstBy Node.id right.nodes) edge.finish = none := by
  have apart := alone edge isEdge
  rw [Adjacency.find?_eq_none_iff, Adjacency.find?_eq_none_iff, mem_map_firstBy, mem_map_firstBy]
  constructor
  · intro listed
    rcases List.mem_map.mp listed with ⟨node, isNode, same⟩
    exact (apart node isNode).1 same.symm
  · intro listed
    rcases List.mem_map.mp listed with ⟨node, isNode, same⟩
    exact (apart node isNode).2 same.symm

namespace Unconnected

variable (unconnected : left.Unconnected right)
include unconnected

theorem nodes_beside :
    (Adjacency.ofDiagram (left.beside right)).nodes =
      (Adjacency.ofDiagram left).nodes ++ (Adjacency.ofDiagram right).nodes :=
  firstBy_append unconnected.nodes

theorem links_beside :
    (Adjacency.ofDiagram (left.beside right)).links =
      (Adjacency.ofDiagram left).links ++
        (Adjacency.ofDiagram right).links.map (·.renumbered (· + left.edges.length)) := by
  have split : (left.beside right).edges.zipIdx = left.edges.zipIdx ++
      right.edges.zipIdx.map fun entry => (entry.1, entry.2 + left.edges.length) := by
    change (left.edges ++ right.edges).zipIdx = _
    rw [List.zipIdx_append, List.zipIdx_eq_map_add (l := right.edges), Nat.zero_add]
    simp only [Nat.add_comm]
  change (left.beside right).edges.zipIdx.filterMap (fun entry =>
    Adjacency.linkOf? (Adjacency.ofDiagram (left.beside right)).nodes entry.1 entry.2) = _
  rw [split, List.filterMap_append, List.filterMap_map, unconnected.nodes_beside]
  congr 1
  · apply List.filterMap_congr
    rintro ⟨edge, place⟩ member
    have isEdge : edge ∈ left.edges := (List.mem_zipIdx' member).2 ▸ List.getElem_mem _
    have missing := unconnected.onward.find?_eq_none isEdge
    simp only [Adjacency.linkOf?, Adjacency.find?_append]
    simp only [Adjacency.ofDiagram, missing.1, missing.2, Option.or_none]
  · change _ = List.map _ (right.edges.zipIdx.filterMap _)
    rw [List.map_filterMap]
    apply List.filterMap_congr
    rintro ⟨edge, place⟩ member
    have isEdge : edge ∈ right.edges := (List.mem_zipIdx' member).2 ▸ List.getElem_mem _
    have missing := unconnected.backward.find?_eq_none isEdge
    rw [← Adjacency.linkOf?_add]
    simp only [Function.comp_apply, Adjacency.linkOf?, Adjacency.find?_append]
    simp only [Adjacency.ofDiagram, missing.1, missing.2, Option.none_or]

theorem splits : Adjacency.Splits left.edges.length (.ofDiagram left) (.ofDiagram right)
    (.ofDiagram (left.beside right)) := by
  have leftFormed := Adjacency.wellFormed_ofDiagram left
  have rightFormed := Adjacency.wellFormed_ofDiagram right
  have wholeFormed := Adjacency.wellFormed_ofDiagram (left.beside right)
  have nodes := unconnected.nodes_beside
  have apart : ∀ node ∈ (Adjacency.ofDiagram left).nodes,
      ∀ other ∈ (Adjacency.ofDiagram right).nodes, node.id ≠ other.id :=
    fun node isNode other isOther => unconnected.nodes node
      ((firstBy_sublist _ _).subset isNode) other ((firstBy_sublist _ _).subset isOther)
  have neighbors (id : String) : (Adjacency.ofDiagram (left.beside right)).neighbors id =
      (Adjacency.ofDiagram left).neighbors id ++
        ((Adjacency.ofDiagram right).neighbors id).map
          (·.renumbered (· + left.edges.length)) := by
    rw [Adjacency.neighbors, unconnected.links_beside, List.filterMap_append, List.filterMap_map,
      Adjacency.neighbors, Adjacency.neighbors, List.map_filterMap]
    congr 1
    exact List.filterMap_congr fun link _ => link.neighborOf?_renumbered _ id
  refine ⟨⟨leftFormed, wholeFormed, ?_, fun node isNode => ?_, fun _ _ _ _ same => same⟩,
    ⟨rightFormed, wholeFormed, ?_, fun node isNode => ?_, fun _ _ _ _ same => ?_⟩, nodes⟩
  · rw [nodes]
    exact List.subset_append_left _ _
  · have elsewhere : (Adjacency.ofDiagram right).neighbors node.id = [] := by
      refine Adjacency.neighbors_eq_nil fun link isLink => ?_
      have ends := rightFormed.ends link isLink
      exact ⟨(apart node isNode _ ends.1).symm, (apart node isNode _ ends.2).symm⟩
    rw [Adjacency.relevant, neighbors, elsewhere, List.map_nil, List.append_nil]
    exact (List.map_id _).symm
  · rw [nodes]
    exact List.subset_append_right _ _
  · have elsewhere : (Adjacency.ofDiagram left).neighbors node.id = [] := by
      refine Adjacency.neighbors_eq_nil fun link isLink => ?_
      have ends := leftFormed.ends link isLink
      exact ⟨apart _ ends.1 node isNode, apart _ ends.2 node isNode⟩
    rw [Adjacency.relevant, neighbors, elsewhere, List.nil_append, List.filter_map]
    rfl
  · exact Nat.add_right_cancel same

end Unconnected

end Diagram

/-! ## Deriving two diagrams as one -/

namespace Derivation

/-- The tables of the multivalued attributes of the entities. -/
def entityValues (index : Adjacency) : List Table :=
  index.entities.flatMap (multivaluedTables index (settled index none).tables)

/-- The tables that the relationships lead to. -/
def relationshipTables (index : Adjacency) : List Table :=
  (resolution index none).derived

/-- The schema of two unconnected diagrams has the tables of both, each as it is
in the schema of its own diagram, whatever is wrong with the other diagram. -/
theorem tables_beside {left right : Diagram} (unconnected : left.Unconnected right) :
    let leftIndex := Adjacency.ofDiagram left
    let rightIndex := Adjacency.ofDiagram right
    let both := (ofDiagram (left.beside right) none).schema
    let alone := (ofDiagram left none).schema
    let other := (ofDiagram right none).schema
    both.baseTables = alone.baseTables ++ other.baseTables ∧
      alone.derivedTables = entityValues leftIndex ++ relationshipTables leftIndex ∧
      other.derivedTables = entityValues rightIndex ++ relationshipTables rightIndex ∧
      both.derivedTables = entityValues leftIndex ++ entityValues rightIndex ++
        relationshipTables leftIndex ++ relationshipTables rightIndex := by
  intro leftIndex rightIndex both alone other
  have splits := unconnected.splits
  refine ⟨?_, derivedTables_ofDiagram none left, derivedTables_ofDiagram none right, ?_⟩
  · rw [baseTables_ofDiagram, baseTables_ofDiagram, baseTables_ofDiagram,
      resolution_beside splits]
    exact TableMap.toTables_beside _ _
  · rw [derivedTables_ofDiagram, resolution_beside splits, multivaluedTables_beside splits]
    exact (List.append_assoc _ _ _).symm

/-- Another author, with no connection to the first. -/
def penName : Diagram where
  nodes := [Node.entity "p" "Author", (Node.simpleAttribute "k" "name").primaryKey,
    Node.multivaluedAttribute "m" "alias"]
  edges := [.between "p" "k", .between "p" "m", .between "p" "q"]

theorem tables_beside_penName :
    mutualOwners.Unconnected penName ∧
      (ofDiagram (mutualOwners.beside penName) none).schema.baseTables =
        (ofDiagram mutualOwners none).schema.baseTables ++
          (ofDiagram penName none).schema.baseTables := by
  have unconnected : mutualOwners.Unconnected penName := by
    refine ⟨?_, ?_, ?_⟩
    · decide
    · unfold Diagram.LeavesAlone
      decide
    · unfold Diagram.LeavesAlone
      decide
  exact ⟨unconnected, (tables_beside unconnected).1⟩

end Derivation

end ErSchema
