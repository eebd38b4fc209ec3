import ErSchema.Proofs.FinalTables
import ErSchema.Proofs.Levels

/-! # Graphs that look alike

What is asked about a node depends on its kind: attributes are looked for at an
entity, a relationship or another attribute, entities at a relationship or an
ISA node, relationships at an entity, and nothing else. A part of a graph in
which every node meets the same nodes, in the same order, gives the same
attributes, owners and hierarchies as the whole, and resolves its relationships
in the same way. The connections may have other numbers, if different ones have
different numbers again. -/

namespace ErSchema

namespace NodeKind

/-- A connection between nodes of these kinds means something. -/
def meets : NodeKind → NodeKind → Bool
  | .ofAttribute _, .ofAttribute _ => true
  | .ofAttribute _, .entity | .entity, .ofAttribute _ => true
  | .ofAttribute _, .relationship | .relationship, .ofAttribute _ => true
  | .entity, .relationship | .relationship, .entity => true
  | .entity, .isa | .isa, .entity => true
  | _, _ => false

theorem meets_comm (left right : NodeKind) : left.meets right = right.meets left := by
  cases left <;> cases right <;> rfl

/-- Nodes of this kind may have attributes. -/
def bears : NodeKind → Bool
  | .entity | .relationship | .ofAttribute _ => true
  | .isa | .label => false

end NodeKind

namespace Node

theorem kind_of_isEntity {node : Node} (isEntity : node.isEntity = true) :
    node.kind = .entity := by
  simpa [Node.isEntity] using isEntity

theorem kind_of_isRelationship {node : Node} (isRelationship : node.isRelationship = true) :
    node.kind = .relationship := by
  simpa [Node.isRelationship] using isRelationship

theorem kind_of_isIsa {node : Node} (isIsa : node.isIsa = true) : node.kind = .isa := by
  simpa [Node.isIsa] using isIsa

theorem kind_of_isAttribute {node : Node} (isAttribute : node.isAttribute = true) :
    ∃ kind, node.kind = .ofAttribute kind := by
  unfold Node.isAttribute at isAttribute
  split at isAttribute
  case h_1 kind equal => exact ⟨kind, equal⟩
  case h_2 => exact absurd isAttribute Bool.false_ne_true

theorem meets_attribute {node other : Node} (bears : node.kind.bears = true)
    (isAttribute : other.isAttribute = true) : node.kind.meets other.kind = true := by
  rcases kind_of_isAttribute isAttribute with ⟨kind, equal⟩
  rw [equal]
  generalize node.kind = own at bears
  cases own <;> first | rfl | exact absurd bears Bool.false_ne_true

end Node

def Neighbor.renumbered (renumber : Nat → Nat) (neighbor : Neighbor) : Neighbor :=
  { neighbor with edge := renumber neighbor.edge }

/-- Keeping the first of each key commutes with a change that keeps equal keys
equal and different keys different. -/
theorem firstBy_map {α α' β β' : Type} [DecidableEq β] [DecidableEq β'] {key : α → β}
    {key' : α' → β'} (change : α → α') {members : List α}
    (same : ∀ left ∈ members, ∀ right ∈ members,
      key' (change left) = key' (change right) ↔ key left = key right) :
    firstBy key' (members.map change) = (firstBy key members).map change := by
  induction members with
  | nil => rfl
  | cons member rest induction =>
      have later := induction fun left isLeft right isRight =>
        same left (List.mem_cons_of_mem _ isLeft) right (List.mem_cons_of_mem _ isRight)
      simp only [List.map_cons, firstBy, later, List.filter_map]
      congr 2
      refine List.filter_congr fun other isOther => ?_
      have both := same other (List.mem_cons_of_mem _ ((firstBy_sublist key rest).subset isOther))
        member List.mem_cons_self
      simp [both]

namespace Adjacency

/-! ## Attributes

An owner has the same attributes in two graphs if each node that may have any
meets the same ones in both. -/

/-- Where attributes may be looked for in the part, both graphs have the same. -/
structure SharesAttributes (part whole : Adjacency) : Prop where
  partFormed : part.WellFormed
  wholeFormed : whole.WellFormed
  ids : part.nodes.map Node.id ⊆ whole.nodes.map Node.id
  neighbors : ∀ node ∈ part.nodes, node.kind.bears = true →
    whole.attributeNeighbors node.id = part.attributeNeighbors node.id

theorem bears_of_isAttribute {node : Node} (isAttribute : node.isAttribute = true) :
    node.kind.bears = true := by
  rcases Node.kind_of_isAttribute isAttribute with ⟨kind, equal⟩
  rw [equal]
  rfl

/-- Identifiers at which attributes may be looked for. -/
def BearsAt (part : Adjacency) (id : String) : Prop :=
  ∃ node ∈ part.nodes, node.id = id ∧ node.kind.bears = true

namespace SharesAttributes

variable {part whole : Adjacency} (shares : SharesAttributes part whole)
include shares

theorem nextLayer_eq {known : Levels} {frontier : List String}
    (bears : ∀ id ∈ frontier, BearsAt part id) :
    whole.nextLayer known frontier = part.nextLayer known frontier := by
  have same : frontier.flatMap (fun reached => (whole.attributeNeighbors reached).map Node.id) =
      frontier.flatMap fun reached => (part.attributeNeighbors reached).map Node.id := by
    refine List.flatMap_congr fun id member => ?_
    rcases bears id member with ⟨node, isNode, rfl, bearing⟩
    rw [shares.neighbors node isNode bearing]
  rw [nextLayer, nextLayer, same]

theorem growLevels_eq {rounds level : Nat} {frontier : List String} {known : Levels}
    (bears : ∀ id ∈ frontier, BearsAt part id) :
    whole.growLevels rounds level frontier known =
      part.growLevels rounds level frontier known := by
  induction rounds generalizing level frontier known with
  | zero => rfl
  | succ rounds induction =>
      rw [growLevels_succ, growLevels_succ, shares.nextLayer_eq bears]
      split
      · rfl
      · refine induction fun id member => ?_
        rcases mem_nextLayer.mp member with ⟨⟨_, _, node, isNeighbor, rfl⟩, _⟩
        rcases shares.partFormed.attribute_of_mem_attributeNeighbors isNeighbor with
          ⟨isNode, isAttribute⟩
        exact ⟨node, isNode, rfl, bears_of_isAttribute isAttribute⟩

theorem length_nodes_le : part.nodes.length ≤ whole.nodes.length := by
  have fewer := shares.partFormed.distinct.length_le_of_subset shares.ids
  rwa [List.length_map, List.length_map] at fewer

theorem levels_eq {owner : Node} (isNode : owner ∈ part.nodes)
    (bears : owner.kind.bears = true) : whole.levels owner.id = part.levels owner.id := by
  have begins : ∀ id ∈ [owner.id], BearsAt part id := by
    intro id member
    exact ⟨owner, isNode, (List.mem_singleton.mp member).symm, bears⟩
  rw [levels, shares.growLevels_eq begins]
  exact shares.partFormed.growLevels_of_le _ _ _ (List.length_filter_le _ _)
    shares.length_nodes_le

theorem parts_eq (levels : Levels) {node : Node} (isNode : node ∈ part.nodes)
    (bears : node.kind.bears = true) (level : Nat) :
    whole.parts levels node.id level = part.parts levels node.id level := by
  rw [parts, parts, shares.neighbors node isNode bears]

/-- The walk asks only whether the attributes of the part are still to visit. -/
theorem walk_eq (levels : Levels) {unvisited others : List String} {stack : List Visit}
    (distinct : unvisited.Nodup) (othersDistinct : others.Nodup)
    (same : ∀ node ∈ part.nodes, node.id ∈ unvisited ↔ node.id ∈ others)
    (stacked : ∀ visit ∈ stack, visit.node ∈ part.nodes ∧ visit.node.isAttribute = true) :
    whole.walk levels others stack = part.walk levels unvisited stack := by
  induction unvisited, stack using walk.induct part levels generalizing others with
  | case1 => simp [walk]
  | case2 unvisited visit stack unused induction =>
      have both := List.forall_mem_cons.mp stacked
      rcases both.1 with ⟨isNode, isAttribute⟩
      rw [walk, walk, if_pos unused, if_pos ((same _ isNode).mp unused),
        shares.parts_eq levels isNode (bears_of_isAttribute isAttribute)]
      congr 1
      refine induction (distinct.erase _) (othersDistinct.erase _) (fun node member => ?_)
        fun next member => ?_
      · rw [distinct.mem_erase_iff, othersDistinct.mem_erase_iff, same node member]
      · rcases List.mem_append.mp member with found | old
        · rcases List.mem_map.mp found with ⟨node, isPart, rfl⟩
          exact shares.partFormed.attribute_of_mem_attributeNeighbors
            (List.mem_of_mem_filter isPart)
        · exact both.2 next old
  | case3 unvisited visit stack used induction =>
      have both := List.forall_mem_cons.mp stacked
      rw [walk, walk, if_neg used, if_neg (mt (same _ both.1.1).mpr used)]
      exact induction distinct othersDistinct same both.2

theorem visits_eq {owner : Node} (isNode : owner ∈ part.nodes)
    (bears : owner.kind.bears = true) : whole.visits owner.id = part.visits owner.id := by
  rw [visits, visits, shares.levels_eq isNode bears, shares.parts_eq _ isNode bears]
  refine shares.walk_eq _ shares.partFormed.distinct shares.wholeFormed.distinct
    (fun node member => ?_) fun visit begins => ?_
  · have known : node.id ∈ part.nodes.map Node.id := List.mem_map_of_mem member
    exact iff_of_true known (shares.ids known)
  · rcases List.mem_map.mp begins with ⟨node, isPart, rfl⟩
    exact shares.partFormed.attribute_of_mem_attributeNeighbors (List.mem_of_mem_filter isPart)

theorem attributesOf_eq {owner : Node} (isNode : owner ∈ part.nodes)
    (bears : owner.kind.bears = true) : whole.attributesOf owner = part.attributesOf owner := by
  have same : whole.leaves owner.id = part.leaves owner.id := by
    rw [leaves, leaves, shares.visits_eq isNode bears, shares.levels_eq isNode bears]
    congr 1
    refine List.filter_congr fun visit member => ?_
    rcases shares.partFormed.attribute_of_mem_visits member with ⟨isVisited, isAttribute⟩
    rw [shares.parts_eq _ isVisited (bears_of_isAttribute isAttribute)]
  rw [attributesOf, attributesOf, same]

theorem attributesOf_entity {entity : Node} (member : entity ∈ part.entities) :
    whole.attributesOf entity = part.attributesOf entity := by
  rcases mem_entities.mp member with ⟨isNode, isEntity⟩
  exact shares.attributesOf_eq isNode (Node.kind_of_isEntity isEntity ▸ rfl)

end SharesAttributes

/-! ## Graphs with the same neighbours -/

/-- The neighbours that may matter to the node. -/
def relevant (index : Adjacency) (node : Node) : List Neighbor :=
  (index.neighbors node.id).filter fun neighbor => node.kind.meets neighbor.node.kind

structure Agrees (renumber : Nat → Nat) (part whole : Adjacency) : Prop where
  partFormed : part.WellFormed
  wholeFormed : whole.WellFormed
  nodes : part.nodes ⊆ whole.nodes
  relevant : ∀ node ∈ part.nodes,
    whole.relevant node = (part.relevant node).map (·.renumbered renumber)
  apart : ∀ left ∈ part.links, ∀ right ∈ part.links,
    renumber left.edge = renumber right.edge → left.edge = right.edge

theorem exists_link_of_mem_neighbors {index : Adjacency} {id : String} {neighbor : Neighbor}
    (member : neighbor ∈ index.neighbors id) : ∃ link ∈ index.links, link.edge = neighbor.edge := by
  rcases List.mem_filterMap.mp member with ⟨link, isLink, seen⟩
  refine ⟨link, isLink, ?_⟩
  unfold Link.neighborOf? at seen
  split at seen
  · cases seen
    rfl
  · split at seen <;> cases seen
    rfl

namespace Agrees

variable {renumber : Nat → Nat} {part whole : Adjacency} (agrees : Agrees renumber part whole)
include agrees

theorem filter_neighbors {node : Node} (isNode : node ∈ part.nodes) (wanted : Node → Bool)
    (meets : ∀ other ∈ whole.nodes, wanted other = true → node.kind.meets other.kind = true) :
    (whole.neighbors node.id).filter (fun neighbor => wanted neighbor.node) =
      ((part.neighbors node.id).filter fun neighbor => wanted neighbor.node).map
        (·.renumbered renumber) := by
  have narrowed (index : Adjacency) (formed : index.WellFormed) (within : index.nodes ⊆ whole.nodes) :
      (index.neighbors node.id).filter (fun neighbor => wanted neighbor.node) =
        (index.relevant node).filter fun neighbor => wanted neighbor.node := by
    rw [Adjacency.relevant, List.filter_filter]
    refine List.filter_congr fun neighbor member => ?_
    have met := meets neighbor.node (within (formed.node_of_mem_neighbors member))
    cases asked : wanted neighbor.node with
    | false => rfl
    | true => simp [met asked]
  rw [narrowed whole agrees.wholeFormed (List.Subset.refl _),
    narrowed part agrees.partFormed agrees.nodes, agrees.relevant node isNode, List.filter_map]
  rfl

theorem attributeNeighbors_eq {node : Node} (isNode : node ∈ part.nodes)
    (bears : node.kind.bears = true) :
    whole.attributeNeighbors node.id = part.attributeNeighbors node.id := by
  have neighbors := agrees.filter_neighbors isNode Node.isAttribute
    fun _ _ isAttribute => Node.meets_attribute bears isAttribute
  rw [attributeNeighbors, attributeNeighbors, List.filter_map, List.filter_map]
  simp only [Function.comp_def, neighbors, List.map_map]
  rfl

theorem sharesAttributes : SharesAttributes part whole where
  partFormed := agrees.partFormed
  wholeFormed := agrees.wholeFormed
  ids := List.map_subset Node.id agrees.nodes
  neighbors _ isNode bears := agrees.attributeNeighbors_eq isNode bears

/-- A node with a level matters to an attribute. -/
theorem meets_of_lookup {owner node other : Node} (isOwner : owner ∈ part.nodes)
    (bears : owner.kind.bears = true) (nodeIsAttribute : node.isAttribute = true)
    (isOther : other ∈ whole.nodes) {level : Nat}
    (found : (part.levels owner.id).lookup other.id = some level) :
    node.kind.meets other.kind = true := by
  rw [NodeKind.meets_comm]
  refine Node.meets_attribute ?_ nodeIsAttribute
  rcases agrees.partFormed.owner_or_attribute_of_lookup found with same |
    ⟨leveled, isNode, same, isAttribute⟩
  · rwa [agrees.wholeFormed.eq_of_id_eq isOther (agrees.nodes isOwner) same]
  · rw [← agrees.wholeFormed.eq_of_id_eq (agrees.nodes isNode) isOther same]
    exact bears_of_isAttribute isAttribute

theorem cycleLinks_eq {owner : Node} (isNode : owner ∈ part.nodes)
    (bears : owner.kind.bears = true) :
    whole.cycleLinks owner.id =
      (part.cycleLinks owner.id).map fun met => (renumber met.1, met.2) := by
  let seen (index : Adjacency) (visit : Visit) : List (Nat × Node) :=
    ((index.neighbors visit.node.id).filter fun neighbor =>
      (part.levels owner.id).lookup neighbor.node.id = some visit.level).map fun neighbor =>
        (neighbor.edge, visit.node)
  have renumbered : (part.visits owner.id).flatMap (seen whole) =
      ((part.visits owner.id).flatMap (seen part)).map fun met => (renumber met.1, met.2) := by
    rw [List.map_flatMap]
    refine List.flatMap_congr fun visit member => ?_
    rcases agrees.partFormed.attribute_of_mem_visits member with ⟨isVisited, isAttribute⟩
    have neighbors := agrees.filter_neighbors isVisited
      (fun other => (part.levels owner.id).lookup other.id = some visit.level)
      fun other isOther found => agrees.meets_of_lookup isNode bears isAttribute isOther
        (of_decide_eq_true found)
    simp only [seen, neighbors, List.map_map]
    rfl
  have edges : ∀ met ∈ (part.visits owner.id).flatMap (seen part),
      ∃ link ∈ part.links, link.edge = met.1 := by
    intro met member
    rcases List.mem_flatMap.mp member with ⟨visit, _, listed⟩
    rcases List.mem_map.mp listed with ⟨neighbor, isNeighbor, rfl⟩
    exact exists_link_of_mem_neighbors (List.mem_of_mem_filter isNeighbor)
  rw [cycleLinks, cycleLinks, agrees.sharesAttributes.visits_eq isNode bears,
    agrees.sharesAttributes.levels_eq isNode bears]
  change firstBy _ ((part.visits owner.id).flatMap (seen whole)) =
    (firstBy _ ((part.visits owner.id).flatMap (seen part))).map _
  rw [renumbered]
  refine firstBy_map _ fun left isLeft right isRight => ?_
  rcases edges left isLeft with ⟨leftLink, isLeftLink, leftEdge⟩
  rcases edges right isRight with ⟨rightLink, isRightLink, rightEdge⟩
  refine ⟨fun equal => ?_, congrArg renumber⟩
  rw [← leftEdge, ← rightEdge] at equal ⊢
  exact agrees.apart leftLink isLeftLink rightLink isRightLink equal

theorem attributeProblems_eq {owner : Node} (isNode : owner ∈ part.nodes)
    (bears : owner.kind.bears = true) :
    whole.attributeProblems owner = part.attributeProblems owner := by
  rw [attributeProblems, attributeProblems, agrees.cycleLinks_eq isNode bears, List.map_map]
  rfl

/-! ## Entities at a relationship or an ISA node -/

theorem entityNeighbors_eq {node : Node} (isNode : node ∈ part.nodes)
    (joins : node.kind.meets .entity = true) :
    whole.entityNeighbors node.id =
      (part.entityNeighbors node.id).map (·.renumbered renumber) :=
  agrees.filter_neighbors isNode Node.isEntity fun _ _ isEntity =>
    Node.kind_of_isEntity isEntity ▸ joins

theorem participants_eq {node : Node} (isNode : node ∈ part.nodes)
    (joins : node.kind.meets .entity = true) :
    (whole.entityNeighbors node.id).map (·.node) = (part.entityNeighbors node.id).map (·.node) := by
  rw [agrees.entityNeighbors_eq isNode joins, List.map_map]
  rfl

theorem hierarchyOf?_eq {isa : Node} (isNode : isa ∈ part.nodes) (isIsa : isa.isIsa = true) :
    whole.members isa = part.members isa ∧ whole.hierarchyOf? isa = part.hierarchyOf? isa := by
  have joins : isa.kind.meets .entity = true := Node.kind_of_isIsa isIsa ▸ rfl
  have members : whole.members isa = part.members isa := by
    rw [Adjacency.members, Adjacency.members, agrees.participants_eq isNode joins]
  refine ⟨members, ?_⟩
  rw [hierarchyOf?, hierarchyOf?, members]

/-! ## Owners of a weak entity -/

theorem ownersThrough_eq {weak : Node} {connection : Neighbor}
    (isNode : connection.node ∈ part.nodes)
    (isRelationship : connection.node.isRelationship = true) :
    whole.ownersThrough weak (connection.renumbered renumber) =
      part.ownersThrough weak connection := by
  have joins : connection.node.kind.meets .entity = true :=
    Node.kind_of_isRelationship isRelationship ▸ rfl
  have entities := agrees.entityNeighbors_eq isNode joins
  change List.map _ ((whole.entityNeighbors connection.node.id).filter _) = _
  rw [entities, List.filter_map, List.map_map]
  rfl

end Agrees

/-- The links that the connections of a weak entity give it. -/
def ownershipsOf (index : Adjacency) (weak : Node) : List Ownership :=
  ((index.neighbors weak.id).filter fun connection =>
    connection.node.isRelationship && connection.node.isWeak).flatMap (index.ownersThrough weak)

theorem mem_ownershipsOf {index : Adjacency} {weak : Node} {link : Ownership}
    (member : link ∈ index.ownershipsOf weak) :
    link.dependent = weak ∧ ∃ connection ∈ index.neighbors weak.id,
      link.relationship = connection.node := by
  rcases List.mem_flatMap.mp member with ⟨connection, isConnection, given⟩
  rcases List.mem_map.mp given with ⟨other, _, rfl⟩
  exact ⟨rfl, connection, List.mem_of_mem_filter isConnection, rfl⟩

theorem ownerships_eq_firstBy (index : Adjacency) :
    index.ownerships = firstBy (fun link => (link.dependent.id, link.owner.id))
      (index.weakEntities.flatMap index.ownershipsOf) :=
  rfl

namespace Agrees

variable {renumber : Nat → Nat} {part whole : Adjacency} (agrees : Agrees renumber part whole)
include agrees

theorem ownershipsOf_eq {weak : Node} (isNode : weak ∈ part.nodes)
    (isEntity : weak.isEntity = true) : whole.ownershipsOf weak = part.ownershipsOf weak := by
  have connections := agrees.filter_neighbors isNode
    (fun node => node.isRelationship && node.isWeak) fun other _ identifies => by
      rw [Node.kind_of_isEntity isEntity,
        Node.kind_of_isRelationship (Bool.and_eq_true_iff.mp identifies).1]
      rfl
  rw [ownershipsOf, ownershipsOf, connections, List.flatMap_map]
  refine List.flatMap_congr fun connection member => ?_
  rcases List.mem_filter.mp member with ⟨isNeighbor, identifies⟩
  exact agrees.ownersThrough_eq (agrees.partFormed.node_of_mem_neighbors isNeighbor)
    (Bool.and_eq_true_iff.mp identifies).1

/-! ## One relationship -/

theorem relationshipProblems_eq {relationship : Node} (isNode : relationship ∈ part.nodes)
    (isRelationship : relationship.isRelationship = true) :
    Resolution.relationshipProblems whole relationship =
      Resolution.relationshipProblems part relationship := by
  have kind := Node.kind_of_isRelationship isRelationship
  unfold Resolution.relationshipProblems
  rw [agrees.entityNeighbors_eq isNode (kind ▸ rfl)]
  match part.entityNeighbors relationship.id with
  | [] => rfl
  | [single] => rfl
  | [first, second] => rfl
  | first :: second :: third :: rest => simp [Neighbor.renumbered, Function.comp_def]

/-- A relationship looks at the links that it gave itself. -/
theorem resolveOne_eq {relationship : Node} (isNode : relationship ∈ part.nodes)
    (isRelationship : relationship.isRelationship = true) {links others : List Ownership}
    (same : (others.filter fun link => link.relationship.id = relationship.id) =
      links.filter fun link => link.relationship.id = relationship.id) (state : Resolution) :
    Resolution.resolveOne whole others state relationship =
      Resolution.resolveOne part links state relationship := by
  have kind := Node.kind_of_isRelationship isRelationship
  have bears : relationship.kind.bears = true := kind ▸ rfl
  have dependents (participants : List Node) :
      Resolution.dependents relationship participants others =
        Resolution.dependents relationship participants links := by
    rw [Resolution.dependents, Resolution.dependents, same]
  unfold Resolution.resolveOne
  rw [agrees.entityNeighbors_eq isNode (kind ▸ rfl),
    agrees.sharesAttributes.attributesOf_eq isNode bears, agrees.attributeProblems_eq isNode bears]
  simp only [dependents, List.map_map, Function.comp_def]
  match part.entityNeighbors relationship.id with
  | [] => rfl
  | [single] => rfl
  | [first, second] => rfl
  | first :: second :: third :: rest => rfl

theorem foldl_resolveOne_eq {links others : List Ownership}
    (same : ∀ relationship ∈ part.nodes,
      (others.filter fun link => link.relationship.id = relationship.id) =
        links.filter fun link => link.relationship.id = relationship.id) (state : Resolution) :
    (part.nodes.filter (·.isRelationship)).foldl (Resolution.resolveOne whole others) state =
      (part.nodes.filter (·.isRelationship)).foldl (Resolution.resolveOne part links) state := by
  refine List.foldl_ext _ _ _ fun state relationship member => ?_
  rcases List.mem_filter.mp member with ⟨isNode, isRelationship⟩
  exact agrees.resolveOne_eq isNode isRelationship (same relationship isNode) state

end Agrees

end Adjacency

end ErSchema
