import ErSchema.Proofs.Inert

/-! # A relationship made a label

A label means nothing, and neither does a connection to one. So leaving out a
relationship with its connections comes to drawing it as a label instead, and
that changes no other node and no number of a connection. What is asked about
attributes, entities and hierarchies then has the answer that it had before. -/

namespace ErSchema

/-- A change of members that are not wanted afterwards comes to leaving them out. -/
theorem filter_map_eq_filter {α : Type} {change : α → α} {kept wanted : α → Bool}
    {members : List α}
    (same : ∀ member ∈ members, kept member = true → change member = member)
    (gone : ∀ member ∈ members, kept member = false → wanted (change member) = false) :
    (members.map change).filter wanted =
      members.filter fun member => kept member && wanted member := by
  induction members with
  | nil => rfl
  | cons member rest induction =>
      have sameBoth := List.forall_mem_cons.mp same
      have goneBoth := List.forall_mem_cons.mp gone
      rw [List.map_cons, List.filter_cons, List.filter_cons, induction sameBoth.2 goneBoth.2]
      cases isKept : kept member with
      | true => simp [sameBoth.1 isKept]
      | false => simp [goneBoth.1 isKept]

namespace Node

/-- A label in its place, if the node has this identifier. -/
def muted (id : String) (node : Node) : Node :=
  if node.id = id then { node with kind := .label } else node

@[simp] theorem muted_id (id : String) (node : Node) : (node.muted id).id = node.id := by
  unfold muted
  split <;> rfl

theorem muted_of_ne {id : String} {node : Node} (different : node.id ≠ id) :
    node.muted id = node :=
  if_neg different

theorem muted_kind {id : String} {node : Node} (same : node.id = id) :
    (node.muted id).kind = .label := by
  rw [muted, if_pos same]

end Node

def Neighbor.muted (id : String) (neighbor : Neighbor) : Neighbor :=
  { neighbor with node := neighbor.node.muted id }

namespace Link

def muted (id : String) (link : Link) : Link :=
  { link with start := link.start.muted id, finish := link.finish.muted id }

theorem neighborOf?_muted (hidden : String) (link : Link) (id : String) :
    (link.muted hidden).neighborOf? id = (link.neighborOf? id).map (·.muted hidden) := by
  unfold neighborOf? muted
  simp only [Node.muted_id]
  split
  · rfl
  · split <;> rfl

end Link

/-- The node with this identifier and all its repeats are labels. -/
def Diagram.mute (diagram : Diagram) (id : String) : Diagram :=
  { diagram with nodes := diagram.nodes.map (Node.muted id) }

namespace Adjacency

/-! ## The graph with the label -/

theorem nodes_mute (diagram : Diagram) (hidden : String) :
    (ofDiagram (diagram.mute hidden)).nodes =
      (ofDiagram diagram).nodes.map (Node.muted hidden) := by
  apply firstBy_map
  intro left _ right _
  rw [Node.muted_id, Node.muted_id]

theorem find?_muted (nodes : List Node) (hidden id : String) :
    find? (nodes.map (Node.muted hidden)) id = (find? nodes id).map (Node.muted hidden) := by
  simp [find?, List.find?_map]

theorem linkOf?_muted (nodes : List Node) (hidden : String) (edge : Edge) (place : Nat) :
    linkOf? (nodes.map (Node.muted hidden)) edge place =
      (linkOf? nodes edge place).map (·.muted hidden) := by
  unfold linkOf?
  rw [find?_muted, find?_muted]
  cases find? nodes edge.start with
  | none => rfl
  | some start =>
      cases find? nodes edge.finish with
      | none => rfl
      | some finish =>
          by_cases loop : edge.start = edge.finish
          · simp [loop]
          · simp [loop, Link.muted]

theorem links_mute (diagram : Diagram) (hidden : String) :
    (ofDiagram (diagram.mute hidden)).links = (ofDiagram diagram).links.map (·.muted hidden) := by
  change List.filterMap _ _ = (List.filterMap _ _).map _
  rw [List.map_filterMap]
  apply List.filterMap_congr
  rintro ⟨edge, place⟩ _
  change linkOf? (ofDiagram (diagram.mute hidden)).nodes edge place = _
  rw [nodes_mute, linkOf?_muted]
  rfl

/-- The second graph has a label for a relationship of the first. -/
structure Mutes (relationship : Node) (index muted : Adjacency) : Prop where
  formed : index.WellFormed
  mutedFormed : muted.WellFormed
  counts : relationship ∈ index.nodes
  isRelationship : relationship.isRelationship = true
  nodes : muted.nodes = index.nodes.map (Node.muted relationship.id)
  links : muted.links = index.links.map (·.muted relationship.id)

theorem mutes_mute {diagram : Diagram} {relationship : Node}
    (counts : relationship ∈ (ofDiagram diagram).nodes)
    (isRelationship : relationship.isRelationship = true) :
    Mutes relationship (ofDiagram diagram) (ofDiagram (diagram.mute relationship.id)) where
  formed := wellFormed_ofDiagram diagram
  mutedFormed := wellFormed_ofDiagram _
  counts := counts
  isRelationship := isRelationship
  nodes := nodes_mute diagram relationship.id
  links := links_mute diagram relationship.id

/-- Asks for neither relationships nor labels. -/
def Overlooks (wanted : Node → Bool) : Prop :=
  ∀ node : Node, wanted node = true → node.kind ≠ .relationship ∧ node.kind ≠ .label

theorem overlooks_isEntity : Overlooks Node.isEntity := by
  intro node isEntity
  rw [Node.kind_of_isEntity isEntity]
  decide

theorem overlooks_isIsa : Overlooks Node.isIsa := by
  intro node isIsa
  rw [Node.kind_of_isIsa isIsa]
  decide

theorem overlooks_isAttribute : Overlooks Node.isAttribute := by
  intro node isAttribute
  rcases Node.kind_of_isAttribute isAttribute with ⟨kind, equal⟩
  rw [equal]
  exact ⟨NodeKind.noConfusion, NodeKind.noConfusion⟩

namespace Mutes

variable {relationship : Node} {index muted : Adjacency}
  (mutes : Mutes relationship index muted)
include mutes

theorem different {node : Node} (isNode : node ∈ index.nodes) (other : node.kind ≠ .relationship) :
    node.id ≠ relationship.id := by
  intro same
  rw [mutes.formed.eq_of_id_eq isNode mutes.counts same] at other
  exact other (Node.kind_of_isRelationship mutes.isRelationship)

theorem filter_nodes {wanted : Node → Bool}
    (labels : ∀ node, wanted node = true → node.kind ≠ .label) :
    muted.nodes.filter wanted =
      index.nodes.filter fun node => node.id ≠ relationship.id && wanted node := by
  rw [mutes.nodes]
  apply filter_map_eq_filter
  · exact fun node _ kept => Node.muted_of_ne (of_decide_eq_true kept)
  · intro node _ gone
    have hidden : node.id = relationship.id := not_not.mp (of_decide_eq_false gone)
    exact Bool.eq_false_iff.mpr fun asked => labels _ asked (Node.muted_kind hidden)

theorem filter_nodes_overlooking {wanted : Node → Bool} (overlooks : Overlooks wanted) :
    muted.nodes.filter wanted = index.nodes.filter wanted := by
  rw [mutes.filter_nodes fun node asked => (overlooks node asked).2]
  apply List.filter_congr
  intro node isNode
  cases asked : wanted node with
  | false => exact Bool.and_false _
  | true => simp [mutes.different isNode (overlooks node asked).1]

theorem entities_eq : muted.entities = index.entities :=
  mutes.filter_nodes_overlooking overlooks_isEntity

theorem weakEntities_eq : muted.weakEntities = index.weakEntities :=
  mutes.filter_nodes_overlooking fun node isWeakEntity =>
    overlooks_isEntity node (Bool.and_eq_true_iff.mp isWeakEntity).1

theorem isaNodes_eq : muted.isaNodes = index.isaNodes :=
  mutes.filter_nodes_overlooking overlooks_isIsa

theorem relationships_eq : Derivation.relationshipsOf muted =
    (Derivation.relationshipsOf index).filter fun other => other.id ≠ relationship.id := by
  rw [Derivation.relationshipsOf, mutes.filter_nodes, Derivation.relationshipsOf,
    List.filter_filter]
  intro node isRelationship
  rw [Node.kind_of_isRelationship isRelationship]
  exact NodeKind.noConfusion

/-! ## Neighbours -/

theorem neighbors_eq (id : String) :
    muted.neighbors id = (index.neighbors id).map (·.muted relationship.id) := by
  rw [neighbors, neighbors, mutes.links, List.filterMap_map, List.map_filterMap]
  exact List.filterMap_congr fun link _ => link.neighborOf?_muted relationship.id id

theorem filter_neighbors (wanted : Node → Bool)
    (labels : ∀ node, wanted node = true → node.kind ≠ .label) (id : String) :
    (muted.neighbors id).filter (fun neighbor => wanted neighbor.node) =
      (index.neighbors id).filter fun neighbor =>
        neighbor.node.id ≠ relationship.id && wanted neighbor.node := by
  rw [mutes.neighbors_eq]
  apply filter_map_eq_filter
  · intro neighbor _ kept
    rw [Neighbor.muted, Node.muted_of_ne (of_decide_eq_true kept)]
  · intro neighbor _ gone
    have hidden : neighbor.node.id = relationship.id := not_not.mp (of_decide_eq_false gone)
    exact Bool.eq_false_iff.mpr fun asked => labels _ asked (Node.muted_kind hidden)

theorem filter_neighbors_overlooking {wanted : Node → Bool} (overlooks : Overlooks wanted)
    (id : String) :
    (muted.neighbors id).filter (fun neighbor => wanted neighbor.node) =
      (index.neighbors id).filter fun neighbor => wanted neighbor.node := by
  rw [mutes.filter_neighbors wanted fun node asked => (overlooks node asked).2]
  apply List.filter_congr
  intro neighbor isNeighbor
  have isNode := mutes.formed.node_of_mem_neighbors isNeighbor
  cases asked : wanted neighbor.node with
  | false => exact Bool.and_false _
  | true => simp [mutes.different isNode (overlooks neighbor.node asked).1]

theorem entityNeighbors_eq (id : String) :
    muted.entityNeighbors id = index.entityNeighbors id :=
  mutes.filter_neighbors_overlooking overlooks_isEntity id

theorem attributeNeighbors_eq (id : String) :
    muted.attributeNeighbors id = index.attributeNeighbors id := by
  rw [attributeNeighbors, attributeNeighbors, List.filter_map, List.filter_map]
  exact congrArg _ (mutes.filter_neighbors_overlooking overlooks_isAttribute id)

/-! ## Attributes and hierarchies -/

theorem sharesAttributes : SharesAttributes index muted where
  partFormed := mutes.formed
  wholeFormed := mutes.mutedFormed
  ids := by
    rw [mutes.nodes, List.map_map]
    simp [Function.comp_def]
  neighbors node _ _ := mutes.attributeNeighbors_eq node.id

theorem attributeProblems_eq {owner : Node} (isNode : owner ∈ index.nodes)
    (bears : owner.kind.bears = true) :
    muted.attributeProblems owner = index.attributeProblems owner := by
  have same : muted.cycleLinks owner.id = index.cycleLinks owner.id := by
    rw [cycleLinks, cycleLinks, mutes.sharesAttributes.visits_eq isNode bears,
      mutes.sharesAttributes.levels_eq isNode bears]
    congr 1
    apply List.flatMap_congr
    intro visit _
    rw [mutes.neighbors_eq, List.filter_map, List.map_map]
    simp [Neighbor.muted, Function.comp_def]
  rw [attributeProblems, attributeProblems, same]

theorem members_eq (isa : Node) : muted.members isa = index.members isa := by
  rw [members, members, mutes.entityNeighbors_eq]

theorem hierarchyOf?_eq (isa : Node) : muted.hierarchyOf? isa = index.hierarchyOf? isa := by
  rw [hierarchyOf?, hierarchyOf?, mutes.members_eq]

theorem hierarchies_eq : muted.hierarchies = index.hierarchies := by
  rw [hierarchies, hierarchies, mutes.isaNodes_eq, funext mutes.hierarchyOf?_eq]

theorem hierarchyProblems_eq : muted.hierarchyProblems = index.hierarchyProblems := by
  simp only [hierarchyProblems, mutes.isaNodes_eq, mutes.hierarchyOf?_eq, mutes.members_eq]

/-! ## Other relationships -/

theorem relationshipProblems_eq (other : Node) :
    Resolution.relationshipProblems muted other = Resolution.relationshipProblems index other := by
  rw [Resolution.relationshipProblems, Resolution.relationshipProblems, mutes.entityNeighbors_eq]

theorem resolveOne_eq {other : Node} (isOther : other ∈ Derivation.relationshipsOf index)
    (links : List Ownership) (state : Resolution) :
    Resolution.resolveOne muted links state other =
      Resolution.resolveOne index links state other := by
  rcases List.mem_filter.mp isOther with ⟨isNode, isRelationship⟩
  have bears : other.kind.bears = true := Node.kind_of_isRelationship isRelationship ▸ rfl
  unfold Resolution.resolveOne
  rw [mutes.entityNeighbors_eq, mutes.sharesAttributes.attributesOf_eq isNode bears,
    mutes.attributeProblems_eq isNode bears]

end Mutes

end Adjacency

/-! ## Leaving a node out -/

namespace Diagram

/-- Without the node of this identifier, the repeats of it, which do not count,
and the connections that touch it. -/
def without (diagram : Diagram) (id : String) : Diagram where
  nodes := diagram.nodes.filter fun node => node.id ≠ id
  edges := diagram.edges.filter fun edge => edge.start ≠ id && edge.finish ≠ id

end Diagram

/-- The first of each key can be taken before or after other keys are left out. -/
theorem firstBy_filter {α β : Type} [DecidableEq β] (key : α → β) (kept : β → Bool)
    (members : List α) :
    firstBy key (members.filter fun member => kept (key member)) =
      (firstBy key members).filter fun member => kept (key member) := by
  induction members with
  | nil => rfl
  | cons member rest induction =>
      cases isKept : kept (key member) with
      | true =>
          have front (others : List α) :
              (member :: others).filter (fun member => kept (key member)) =
                member :: others.filter fun member => kept (key member) :=
            List.filter_cons_of_pos isKept
          rw [front, firstBy, firstBy, front, induction, List.filter_filter, List.filter_filter]
          congr 1
          exact List.filter_congr fun other _ => Bool.and_comm _ _
      | false =>
          have gone (others : List α) :
              (member :: others).filter (fun member => kept (key member)) =
                others.filter fun member => kept (key member) :=
            List.filter_cons_of_neg (Bool.eq_false_iff.mp isKept)
          rw [gone, firstBy, gone, induction, List.filter_filter]
          apply List.filter_congr
          intro other _
          by_cases same : key other = key member
          · simp [same, isKept]
          · simp [same]

namespace Diagram

theorem find?_filter_ne (nodes : List Node) (hidden id : String) :
    Adjacency.find? (nodes.filter fun node => node.id ≠ hidden) id =
      if id = hidden then none else Adjacency.find? nodes id := by
  unfold Adjacency.find?
  rw [List.find?_filter]
  split
  case isTrue same =>
    subst same
    simp
  case isFalse different =>
    congr 1
    funext node
    by_cases found : node.id = id
    · simp [found, different]
    · simp [found]

/-- A connection to the label means nothing, and all others mean what they did. -/
theorem joins_muted (nodes : List Node) (hidden : String) (edge : Edge) :
    joins (nodes.map (Node.muted hidden)) edge =
      ((edge.start ≠ hidden && edge.finish ≠ hidden) &&
        joins (nodes.filter fun node => node.id ≠ hidden) edge) := by
  have kind {id : String} {node : Node} (found : Adjacency.find? nodes id = some node) :
      (node.muted hidden).kind = if id = hidden then .label else node.kind := by
    rw [← Adjacency.id_of_find? found, Node.muted]
    split <;> rfl
  unfold joins
  rw [Adjacency.find?_muted, Adjacency.find?_muted, find?_filter_ne, find?_filter_ne]
  cases foundStart : Adjacency.find? nodes edge.start with
  | none => simp
  | some start =>
      cases foundFinish : Adjacency.find? nodes edge.finish with
      | none => simp
      | some finish =>
          rw [Option.map_some, Option.map_some]
          dsimp only
          rw [kind foundStart, kind foundFinish]
          by_cases atStart : edge.start = hidden
          · simp [atStart, NodeKind.meets]
          · by_cases atFinish : edge.finish = hidden
            · simp [atFinish, NodeKind.meets]
            · simp [atStart, atFinish]

/-- What matters of a diagram with the label is what matters without the node. -/
theorem essential_mute (diagram : Diagram) (hidden : String) :
    (diagram.mute hidden).essential = (diagram.without hidden).essential := by
  have muted : firstBy Node.id (diagram.mute hidden).nodes =
      (firstBy Node.id diagram.nodes).map (Node.muted hidden) :=
    Adjacency.nodes_mute diagram hidden
  have kept : firstBy Node.id (diagram.without hidden).nodes =
      (firstBy Node.id diagram.nodes).filter fun node => node.id ≠ hidden :=
    firstBy_filter Node.id (fun id => id ≠ hidden) diagram.nodes
  have nodes : (firstBy Node.id (diagram.mute hidden).nodes).filter (fun node =>
        node.kind ≠ .label) =
      (firstBy Node.id (diagram.without hidden).nodes).filter fun node => node.kind ≠ .label := by
    have leftOut : ((firstBy Node.id diagram.nodes).map (Node.muted hidden)).filter (fun node =>
          node.kind ≠ .label) =
        (firstBy Node.id diagram.nodes).filter fun node =>
          node.id ≠ hidden && node.kind ≠ .label := by
      apply filter_map_eq_filter
      · exact fun node _ isKept => Node.muted_of_ne (of_decide_eq_true isKept)
      · intro node _ gone
        have same : node.id = hidden := not_not.mp (of_decide_eq_false gone)
        simp [Node.muted_kind same]
    rw [muted, kept, leftOut, List.filter_filter]
    exact List.filter_congr fun node _ => Bool.and_comm _ _
  have edges : diagram.edges.filter (joins (firstBy Node.id (diagram.mute hidden).nodes)) =
      (diagram.without hidden).edges.filter
        (joins (firstBy Node.id (diagram.without hidden).nodes)) := by
    rw [muted, kept, without, List.filter_filter]
    apply List.filter_congr
    intro edge _
    rw [joins_muted, Bool.and_comm]
  exact congrArg₂ Diagram.mk nodes edges

end Diagram

end ErSchema
