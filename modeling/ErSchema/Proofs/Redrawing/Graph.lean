import ErSchema.Proofs.Components

/-! # Graphs drawn anew

A graph may be drawn anew with other identifiers, and with other details where no
rule looks at them: a label's text, the weakness of an attribute, the height of
anything but an entity. Whatever is asked about such a graph has the same answer
as before, up to the new nodes. -/

namespace ErSchema

/-- Another node that every rule takes for this one, under a renamed identifier. -/
structure Node.Alike (rename : String → String) (node other : Node) : Prop where
  id : other.id = rename node.id
  kind : other.kind = node.kind
  name : node.kind ≠ .label → other.name = node.name
  weak : node.isEntity = true ∨ node.isRelationship = true → other.isWeak = node.isWeak
  key : node.kind = .ofAttribute .simple → other.isPrimaryKey = node.isPrimaryKey
  height : node.isEntity = true → other.position.y = node.position.y

namespace Node.Alike

variable {rename : String → String} {node other : Node} (alike : node.Alike rename other)
include alike

theorem isEntity : other.isEntity = node.isEntity := by
  rw [Node.isEntity, Node.isEntity, alike.kind]

theorem isRelationship : other.isRelationship = node.isRelationship := by
  rw [Node.isRelationship, Node.isRelationship, alike.kind]

theorem isIsa : other.isIsa = node.isIsa := by
  rw [Node.isIsa, Node.isIsa, alike.kind]

theorem isAttribute : other.isAttribute = node.isAttribute := by
  rw [Node.isAttribute, Node.isAttribute, alike.kind]

theorem entity_name (isEntity : node.isEntity = true) : other.name = node.name :=
  alike.name (Node.kind_of_isEntity isEntity ▸ NodeKind.noConfusion)

theorem relationship_name (isRelationship : node.isRelationship = true) :
    other.name = node.name :=
  alike.name (Node.kind_of_isRelationship isRelationship ▸ NodeKind.noConfusion)

theorem attribute_name (isAttribute : node.isAttribute = true) : other.name = node.name := by
  rcases Node.kind_of_isAttribute isAttribute with ⟨kind, equal⟩
  exact alike.name (equal ▸ NodeKind.noConfusion)

theorem roleOf?_eq (isAttribute : node.isAttribute = true) :
    Attributes.roleOf? other = Attributes.roleOf? node := by
  rcases Node.kind_of_isAttribute isAttribute with ⟨kind, equal⟩
  rw [Attributes.roleOf?, Attributes.roleOf?, alike.attribute_name isAttribute, alike.kind, equal]
  cases kind with
  | simple => rw [alike.key equal]
  | multivalued => rfl
  | derived => rfl

end Node.Alike

/-- The label at the entity's end of a connection between an entity and a
relationship is the only one that is asked for, and only whether it says many. -/
structure Neighbor.Alike (redraw : Node → Node) (own : Node) (neighbor other : Neighbor) :
    Prop where
  edge : other.edge = neighbor.edge
  node : other.node = redraw neighbor.node
  ownCard : own.isEntity = true → neighbor.node.isRelationship = true →
    other.ownCard.isMany = neighbor.ownCard.isMany
  card : own.isRelationship = true → neighbor.node.isEntity = true →
    other.card.isMany = neighbor.card.isMany

/-! ## Lists with related members -/

section
variable {α β γ : Type} {related : α → β → Prop} {members : List α} {others : List β}

theorem flatMap_eq_of_forall₂ {before : α → List γ} {after : β → List γ}
    (pairs : List.Forall₂ related members others)
    (same : ∀ member other, related member other → after other = before member) :
    others.flatMap after = members.flatMap before := by
  rw [List.flatMap_def, List.flatMap_def, map_eq_of_forall₂ pairs same]

theorem forall₂_filter {before : α → Bool} {after : β → Bool}
    (pairs : List.Forall₂ related members others)
    (same : ∀ member other, related member other → after other = before member) :
    List.Forall₂ related (members.filter before) (others.filter after) := by
  refine List.rel_filter (fun member other pair => ?_) pairs
  change before member = true ↔ after other = true
  rw [same member other pair]

theorem filter_map_congr {wanted : α → Bool} {change : α → β} {asked : β → Bool}
    (same : ∀ member ∈ members, asked (change member) = wanted member) :
    (members.map change).filter asked = (members.filter wanted).map change := by
  rw [List.filter_map]
  exact congrArg _ (List.filter_congr same)

end

theorem firstLeast?_map {α β : Type} {change : α → β} {rank : α → Int} {newRank : β → Int}
    {members : List α} (same : ∀ member ∈ members, newRank (change member) = rank member) :
    firstLeast? newRank (members.map change) = firstLeast? rank members := by
  induction members with
  | nil => rfl
  | cons member rest induction =>
      have both := List.forall_mem_cons.mp same
      have ranked (place : Nat) : ((rest.map change)[place]?).any (fun least =>
            newRank least < newRank (change member)) =
          (rest[place]?).any fun least => rank least < rank member := by
        rw [List.getElem?_map, both.1]
        cases found : rest[place]? with
        | none => rfl
        | some least => simp [both.2 least (List.mem_of_getElem? found)]
      unfold firstLeast?
      rw [List.map_cons]
      dsimp only
      rw [induction both.2]
      cases firstLeast? rank rest with
      | none => rfl
      | some place => simp only [ranked]

/-! ## Everything else that holds nodes -/

def Ownership.redrawn (redraw : Node → Node) (link : Ownership) : Ownership :=
  ⟨redraw link.dependent, redraw link.owner, redraw link.relationship⟩

def Hierarchy.redrawn (redraw : Node → Node) (hierarchy : Hierarchy) : Hierarchy :=
  ⟨redraw hierarchy.isa, redraw hierarchy.superclass, hierarchy.subclasses.map redraw⟩

def Adjacency.Visit.redrawn (redraw : Node → Node) (visit : Adjacency.Visit) :
    Adjacency.Visit :=
  { visit with node := redraw visit.node }

/-- The same levels of the renamed identifiers. -/
def Levels.renamed (rename : String → String) (levels : Levels) : Levels :=
  levels.map (Prod.map rename id)

theorem Levels.lookup_renamed {rename : String → String} (injective : Function.Injective rename)
    (levels : Levels) (id : String) :
    (levels.renamed rename).lookup (rename id) = levels.lookup id := by
  induction levels with
  | nil => rfl
  | cons entry rest induction =>
      rcases entry with ⟨known, level⟩
      change List.lookup (rename id) ((rename known, level) :: Levels.renamed rename rest) = _
      rw [List.lookup_cons, List.lookup_cons, induction]
      by_cases same : id = known
      · simp [same]
      · rw [beq_eq_false_iff_ne.mpr same, beq_eq_false_iff_ne.mpr (injective.ne same)]

namespace Adjacency

theorem WellFormed.neighbors_of_not_mem {index : Adjacency} (formed : index.WellFormed)
    {id : String} (stranger : id ∉ index.nodes.map Node.id) : index.neighbors id = [] := by
  refine neighbors_eq_nil fun link member => ?_
  have ends := formed.ends link member
  exact ⟨fun same => stranger (same ▸ List.mem_map_of_mem ends.1),
    fun same => stranger (same ▸ List.mem_map_of_mem ends.2)⟩

/-- The second graph is the first one drawn anew: the same nodes meet the same
nodes, through the same connections in the same order. -/
structure Redraws (rename : String → String) (redraw : Node → Node)
    (index redrawn : Adjacency) : Prop where
  formed : index.WellFormed
  redrawnFormed : redrawn.WellFormed
  injective : Function.Injective rename
  alike : ∀ node ∈ index.nodes, node.Alike rename (redraw node)
  nodes : redrawn.nodes = index.nodes.map redraw
  neighbors : ∀ node ∈ index.nodes, List.Forall₂ (Neighbor.Alike redraw node)
    (index.neighbors node.id) (redrawn.neighbors (rename node.id))

namespace Redraws

variable {rename : String → String} {redraw : Node → Node} {index redrawn : Adjacency}
  (redraws : Redraws rename redraw index redrawn)
include redraws

/-! ## Nodes and their neighbours -/

theorem id_redraw {node : Node} (isNode : node ∈ index.nodes) :
    (redraw node).id = rename node.id :=
  (redraws.alike node isNode).id

theorem ids_redraw {nodes : List Node} (areNodes : nodes ⊆ index.nodes) :
    (nodes.map redraw).map Node.id = (nodes.map Node.id).map rename := by
  rw [List.map_map, List.map_map]
  exact List.map_congr_left fun node member => redraws.id_redraw (areNodes member)

theorem length_nodes : redrawn.nodes.length = index.nodes.length := by
  rw [redraws.nodes, List.length_map]

/-- Nodes with the same new identifier had the same one. -/
theorem id_redraw_eq_iff {node other : Node} (isNode : node ∈ index.nodes)
    (isOther : other ∈ index.nodes) :
    (redraw node).id = (redraw other).id ↔ node.id = other.id := by
  rw [redraws.id_redraw isNode, redraws.id_redraw isOther]
  exact redraws.injective.eq_iff

theorem filter_nodes {wanted : Node → Bool}
    (same : ∀ node ∈ index.nodes, wanted (redraw node) = wanted node) :
    redrawn.nodes.filter wanted = (index.nodes.filter wanted).map redraw := by
  rw [redraws.nodes]
  exact filter_map_congr same

theorem entities_redraw : redrawn.entities = index.entities.map redraw :=
  redraws.filter_nodes fun node isNode => (redraws.alike node isNode).isEntity

theorem relationshipsOf_redraw : Derivation.relationshipsOf redrawn =
    (Derivation.relationshipsOf index).map redraw :=
  redraws.filter_nodes fun node isNode => (redraws.alike node isNode).isRelationship

theorem isaNodes_redraw : redrawn.isaNodes = index.isaNodes.map redraw :=
  redraws.filter_nodes fun node isNode => (redraws.alike node isNode).isIsa

theorem weakEntities_redraw : redrawn.weakEntities = index.weakEntities.map redraw := by
  refine redraws.filter_nodes fun node isNode => ?_
  have alike := redraws.alike node isNode
  rw [alike.isEntity]
  cases isEntity : node.isEntity with
  | false => rfl
  | true => rw [alike.weak (.inl isEntity)]

theorem neighbors_redraw {node : Node} (isNode : node ∈ index.nodes) :
    List.Forall₂ (fun neighbor other => neighbor.node ∈ index.nodes ∧
        neighbor.Alike redraw node other)
      (index.neighbors node.id) (redrawn.neighbors (redraw node).id) := by
  rw [redraws.id_redraw isNode]
  exact (List.forall₂_and_left _ _).mpr
    ⟨fun _ => redraws.formed.node_of_mem_neighbors, redraws.neighbors node isNode⟩

/-- Also where there is no node, and so no neighbour in either graph. -/
theorem ends_redraw (id : String) :
    (redrawn.neighbors (rename id)).map (·.node) =
      ((index.neighbors id).map (·.node)).map redraw := by
  by_cases known : id ∈ index.nodes.map Node.id
  · rcases List.mem_map.mp known with ⟨node, isNode, rfl⟩
    rw [List.map_map]
    exact map_eq_of_forall₂ (redraws.neighbors node isNode) fun _ _ alike => alike.node
  · have stranger : rename id ∉ redrawn.nodes.map Node.id := by
      rw [redraws.nodes, redraws.ids_redraw (List.Subset.refl _),
        List.mem_map_of_injective redraws.injective]
      exact known
    rw [redraws.formed.neighbors_of_not_mem known,
      redraws.redrawnFormed.neighbors_of_not_mem stranger]
    rfl

theorem node_of_mem_ends {id : String} {node : Node}
    (member : node ∈ (index.neighbors id).map (·.node)) : node ∈ index.nodes := by
  rcases List.mem_map.mp member with ⟨neighbor, isNeighbor, rfl⟩
  exact redraws.formed.node_of_mem_neighbors isNeighbor

theorem attributeNeighbors_redraw (id : String) :
    redrawn.attributeNeighbors (rename id) = (index.attributeNeighbors id).map redraw := by
  rw [attributeNeighbors, attributeNeighbors, redraws.ends_redraw]
  exact filter_map_congr fun node member =>
    (redraws.alike node (redraws.node_of_mem_ends member)).isAttribute

theorem entityNeighbors_redraw {node : Node} (isNode : node ∈ index.nodes) :
    List.Forall₂ (fun neighbor other => neighbor.node ∈ index.entities ∧
        neighbor.Alike redraw node other)
      (index.entityNeighbors node.id) (redrawn.entityNeighbors (redraw node).id) := by
  have pairs : List.Forall₂ (fun neighbor other => neighbor.node ∈ index.nodes ∧
        neighbor.Alike redraw node other)
      (index.entityNeighbors node.id) (redrawn.entityNeighbors (redraw node).id) :=
    forall₂_filter (redraws.neighbors_redraw isNode) fun neighbor other pair => by
      rw [pair.2.node, (redraws.alike _ pair.1).isEntity]
  exact (List.forall₂_and_left _ _).mpr
    ⟨fun _ => redraws.formed.node_of_mem_entityNeighbors, pairs.imp fun _ _ pair => pair.2⟩

theorem participants_redraw {node : Node} (isNode : node ∈ index.nodes) :
    (redrawn.entityNeighbors (redraw node).id).map (·.node) =
      ((index.entityNeighbors node.id).map (·.node)).map redraw := by
  rw [List.map_map]
  exact map_eq_of_forall₂ (redraws.entityNeighbors_redraw isNode) fun _ _ pair => pair.2.node

/-! ## Levels and walks -/

theorem nextLayer_redraw (known : Levels) (frontier : List String) :
    redrawn.nextLayer (known.renamed rename) (frontier.map rename) =
      (index.nextLayer known frontier).map rename := by
  have touched : ((frontier.map rename).flatMap fun reached =>
        (redrawn.attributeNeighbors reached).map Node.id) =
      (frontier.flatMap fun reached => (index.attributeNeighbors reached).map Node.id).map
        rename := by
    rw [List.flatMap_map, List.map_flatMap]
    refine List.flatMap_congr fun reached _ => ?_
    rw [redraws.attributeNeighbors_redraw]
    exact redraws.ids_redraw fun node member =>
      (redraws.formed.attribute_of_mem_attributeNeighbors member).1
  have distinct (found : List String) :
      firstBy id (found.map rename) = (firstBy id found).map rename :=
    firstBy_map rename fun _ _ _ _ => redraws.injective.eq_iff
  rw [nextLayer, nextLayer, touched, distinct]
  exact filter_map_congr fun found _ => by
    rw [Levels.lookup_renamed redraws.injective]

theorem growLevels_redraw (rounds level : Nat) (frontier : List String) (known : Levels) :
    redrawn.growLevels rounds level (frontier.map rename) (known.renamed rename) =
      (index.growLevels rounds level frontier known).renamed rename := by
  induction rounds generalizing level frontier known with
  | zero => rfl
  | succ rounds induction =>
      rw [growLevels_succ, growLevels_succ, redraws.nextLayer_redraw]
      by_cases layer : index.nextLayer known frontier = []
      · rw [if_pos layer, layer]
        rfl
      · rw [if_neg layer, if_neg (by simpa using layer), ← induction]
        simp [Levels.renamed, Function.comp_def]

theorem levels_redraw (owner : String) :
    redrawn.levels (rename owner) = (index.levels owner).renamed rename := by
  rw [levels, levels, redraws.length_nodes]
  exact redraws.growLevels_redraw _ 0 [owner] [(owner, 0)]

theorem parts_redraw (levels : Levels) (id : String) (level : Nat) :
    redrawn.parts (levels.renamed rename) (rename id) level =
      (index.parts levels id level).map redraw := by
  rw [parts, parts, redraws.attributeNeighbors_redraw]
  refine filter_map_congr fun found member => ?_
  rw [redraws.id_redraw (redraws.formed.attribute_of_mem_attributeNeighbors member).1,
    Levels.lookup_renamed redraws.injective]

/-- The walk takes the same way, through the new nodes. -/
theorem walk_redraw (levels : Levels) (unvisited : List String) {stack : List Visit}
    (stacked : ∀ visit ∈ stack, visit.node ∈ index.nodes) :
    redrawn.walk (levels.renamed rename) (unvisited.map rename)
        (stack.map (Visit.redrawn redraw)) =
      (index.walk levels unvisited stack).map (Visit.redrawn redraw) := by
  induction unvisited, stack using walk.induct index levels with
  | case1 => simp [walk]
  | case2 unvisited visit stack unused induction =>
      have both := List.forall_mem_cons.mp stacked
      have sameId : (visit.redrawn redraw).node.id = rename visit.node.id :=
        redraws.id_redraw both.1
      have still : (visit.redrawn redraw).node.id ∈ unvisited.map rename := by
        rw [sameId]
        exact List.mem_map_of_mem unused
      have later := induction fun next member => by
        rcases List.mem_append.mp member with found | old
        · rcases List.mem_map.mp found with ⟨part, isPart, rfl⟩
          exact (redraws.formed.attribute_of_mem_attributeNeighbors
            (List.mem_of_mem_filter isPart)).1
        · exact both.2 next old
      rw [List.map_cons, walk, walk, if_pos still, if_pos unused, List.map_cons, ← later, sameId,
        redraws.parts_redraw, List.map_erase redraws.injective, List.map_append]
      simp [Visit.redrawn, Function.comp_def]
  | case3 unvisited visit stack used induction =>
      have both := List.forall_mem_cons.mp stacked
      have sameId : (visit.redrawn redraw).node.id = rename visit.node.id :=
        redraws.id_redraw both.1
      have gone : (visit.redrawn redraw).node.id ∉ unvisited.map rename := by
        rwa [sameId, List.mem_map_of_injective redraws.injective]
      rw [List.map_cons, walk, walk, if_neg gone, if_neg used]
      exact induction both.2

theorem visits_redraw (owner : String) :
    redrawn.visits (rename owner) = (index.visits owner).map (Visit.redrawn redraw) := by
  have begins : ∀ visit ∈ (index.parts (index.levels owner) owner 0).map (⟨·, 1⟩ : Node → Visit),
      visit.node ∈ index.nodes := by
    intro visit member
    rcases List.mem_map.mp member with ⟨part, isPart, rfl⟩
    exact (redraws.formed.attribute_of_mem_attributeNeighbors (List.mem_of_mem_filter isPart)).1
  have walked := redraws.walk_redraw (index.levels owner) (index.nodes.map Node.id) begins
  rw [visits, visits, ← walked, redraws.levels_redraw, redraws.parts_redraw, redraws.nodes,
    redraws.ids_redraw (List.Subset.refl _)]
  simp only [List.map_map]
  rfl

/-! ## Attributes -/

theorem leaves_redraw (owner : String) :
    redrawn.leaves (rename owner) = (index.leaves owner).map redraw := by
  have kept : ((index.visits owner).map (Visit.redrawn redraw)).filter (fun visit =>
        (redrawn.parts ((index.levels owner).renamed rename) visit.node.id visit.level).isEmpty) =
      ((index.visits owner).filter fun visit =>
        (index.parts (index.levels owner) visit.node.id visit.level).isEmpty).map
          (Visit.redrawn redraw) := by
    refine filter_map_congr fun visit member => ?_
    have sameId : (visit.redrawn redraw).node.id = rename visit.node.id :=
      redraws.id_redraw (redraws.formed.attribute_of_mem_visits member).1
    rw [sameId, redraws.parts_redraw, List.isEmpty_map]
    rfl
  rw [leaves, leaves, redraws.visits_redraw, redraws.levels_redraw, kept, List.map_map,
    List.map_map]
  rfl

theorem attributesOf_redraw {owner : Node} (isNode : owner ∈ index.nodes) :
    redrawn.attributesOf (redraw owner) = index.attributesOf owner := by
  have leaf {node : Node} (member : node ∈ index.leaves owner.id) :
      node ∈ index.nodes ∧ node.isAttribute = true := by
    rcases List.mem_map.mp member with ⟨visit, isVisit, rfl⟩
    exact redraws.formed.attribute_of_mem_visits (List.mem_of_mem_filter isVisit)
  have names (role : Attributes.Role) :
      (((index.leaves owner.id).map redraw).filter fun leaf =>
          Attributes.roleOf? leaf = some role).map Node.name =
        ((index.leaves owner.id).filter fun leaf =>
          Attributes.roleOf? leaf = some role).map Node.name := by
    rw [filter_map_congr fun node member => by
      rw [(redraws.alike node (leaf member).1).roleOf?_eq (leaf member).2], List.map_map]
    refine List.map_congr_left fun node member => ?_
    have isLeaf := leaf (List.mem_of_mem_filter member)
    exact (redraws.alike node isLeaf.1).attribute_name isLeaf.2
  rw [attributesOf, attributesOf, redraws.id_redraw isNode, redraws.leaves_redraw]
  simp only [Attributes.ofLeaves, names]

theorem cycleLinks_redraw (owner : String) :
    redrawn.cycleLinks (rename owner) = (index.cycleLinks owner).map (Prod.map id redraw) := by
  have met : (redrawn.visits (rename owner)).flatMap (fun visit =>
        ((redrawn.neighbors visit.node.id).filter fun neighbor =>
          ((index.levels owner).renamed rename).lookup neighbor.node.id =
            some visit.level).map fun neighbor => (neighbor.edge, visit.node)) =
      ((index.visits owner).flatMap fun visit =>
        ((index.neighbors visit.node.id).filter fun neighbor =>
          (index.levels owner).lookup neighbor.node.id = some visit.level).map fun neighbor =>
            (neighbor.edge, visit.node)).map (Prod.map id redraw) := by
    rw [redraws.visits_redraw, List.flatMap_map, List.map_flatMap]
    refine List.flatMap_congr fun visit member => ?_
    have isNode := (redraws.formed.attribute_of_mem_visits member).1
    rw [List.map_map]
    refine map_eq_of_forall₂ (forall₂_filter (redraws.neighbors_redraw isNode) ?_) ?_
    · rintro neighbor other ⟨isNeighbor, alike⟩
      rw [alike.node, redraws.id_redraw isNeighbor, Levels.lookup_renamed redraws.injective]
      rfl
    · rintro neighbor other ⟨_, alike⟩
      rw [alike.edge]
      rfl
  simp only [cycleLinks, redraws.levels_redraw, met]
  exact firstBy_map _ fun _ _ _ _ => Iff.rfl

theorem attributeProblems_redraw {owner : Node} (isNode : owner ∈ index.nodes)
    (unlabelled : owner.kind ≠ .label) :
    redrawn.attributeProblems (redraw owner) = index.attributeProblems owner := by
  rw [attributeProblems, attributeProblems, redraws.id_redraw isNode, redraws.cycleLinks_redraw,
    List.map_map, (redraws.alike owner isNode).name unlabelled]
  refine List.map_congr_left fun link member => ?_
  rcases List.mem_flatMap.mp ((firstBy_sublist _ _).subset member) with ⟨visit, isVisit, listed⟩
  rcases List.mem_map.mp listed with ⟨neighbor, _, rfl⟩
  have visited := redraws.formed.attribute_of_mem_visits isVisit
  exact congrArg _ ((redraws.alike visit.node visited.1).attribute_name visited.2)

/-! ## Owners -/

theorem ownersThrough_redraw {weak : Node} {connection other : Neighbor}
    (isWeak : weak ∈ index.entities) (isNode : connection.node ∈ index.nodes)
    (isRelationship : connection.node.isRelationship = true)
    (alike : connection.Alike redraw weak other) :
    redrawn.ownersThrough (redraw weak) other =
      (index.ownersThrough weak connection).map (Ownership.redrawn redraw) := by
  have weakNode := mem_entities.mp isWeak
  rw [ownersThrough, ownersThrough, List.map_map, alike.node]
  refine map_eq_of_forall₂ (forall₂_filter (redraws.entityNeighbors_redraw isNode) ?_) ?_
  · rintro candidate met ⟨isCandidate, met_alike⟩
    rcases mem_entities.mp isCandidate with ⟨isCandidateNode, isEntity⟩
    have own := alike.ownCard weakNode.2 isRelationship
    have card := met_alike.card isRelationship isEntity
    have weakness := (redraws.alike _ isCandidateNode).weak (.inl isEntity)
    have ids := redraws.id_redraw_eq_iff isCandidateNode weakNode.1
    simp only [isOwner, met_alike.node, own, card, weakness, ne_eq, ids]
  · rintro candidate met ⟨_, met_alike⟩
    rw [met_alike.node]
    rfl

theorem connections_redraw {weak : Node} (isNode : weak ∈ index.nodes) :
    List.Forall₂ (fun connection other => connection.node ∈ index.nodes ∧
        connection.node.isRelationship = true ∧ connection.Alike redraw weak other)
      ((index.neighbors weak.id).filter fun connection =>
        connection.node.isRelationship && connection.node.isWeak)
      ((redrawn.neighbors (redraw weak).id).filter fun connection =>
        connection.node.isRelationship && connection.node.isWeak) := by
  have pairs : List.Forall₂ (fun connection other => connection.node ∈ index.nodes ∧
        connection.Alike redraw weak other)
      ((index.neighbors weak.id).filter fun connection =>
        connection.node.isRelationship && connection.node.isWeak)
      ((redrawn.neighbors (redraw weak).id).filter fun connection =>
        connection.node.isRelationship && connection.node.isWeak) :=
    forall₂_filter (redraws.neighbors_redraw isNode) fun connection other pair => by
      have alike := redraws.alike _ pair.1
      rw [pair.2.node, alike.isRelationship]
      cases isRelationship : connection.node.isRelationship with
      | false => rfl
      | true => rw [alike.weak (.inr isRelationship)]
  refine ((List.forall₂_and_left _ _).mpr ⟨fun connection member => ?_, pairs⟩).imp
    fun _ _ pair => ⟨pair.2.1, pair.1, pair.2.2⟩
  exact (Bool.and_eq_true_iff.mp (List.mem_filter.mp member).2).1

theorem ownershipsOf_redraw {weak : Node} (isWeak : weak ∈ index.entities) :
    redrawn.ownershipsOf (redraw weak) =
      (index.ownershipsOf weak).map (Ownership.redrawn redraw) := by
  rw [ownershipsOf, ownershipsOf, List.map_flatMap]
  refine flatMap_eq_of_forall₂ (redraws.connections_redraw (mem_entities.mp isWeak).1) ?_
  rintro connection other ⟨isNode, isRelationship, alike⟩
  exact redraws.ownersThrough_redraw isWeak isNode isRelationship alike

theorem ownerships_redraw :
    redrawn.ownerships = index.ownerships.map (Ownership.redrawn redraw) := by
  have listed : redrawn.weakEntities.flatMap redrawn.ownershipsOf =
      (index.weakEntities.flatMap index.ownershipsOf).map (Ownership.redrawn redraw) := by
    rw [redraws.weakEntities_redraw, List.flatMap_map, List.map_flatMap]
    refine List.flatMap_congr fun weak member => ?_
    rcases List.mem_filter.mp member with ⟨isNode, isWeakEntity⟩
    exact redraws.ownershipsOf_redraw
      (mem_entities.mpr ⟨isNode, (Bool.and_eq_true_iff.mp isWeakEntity).1⟩)
  have ends : ∀ link ∈ index.weakEntities.flatMap index.ownershipsOf,
      link.dependent ∈ index.nodes ∧ link.owner ∈ index.nodes := by
    intro link member
    rcases List.mem_flatMap.mp member with ⟨weak, isWeak, given⟩
    rcases List.mem_flatMap.mp given with ⟨connection, _, through⟩
    rcases List.mem_map.mp through with ⟨other, isOther, rfl⟩
    exact ⟨List.mem_of_mem_filter isWeak, (mem_entities.mp
      (redraws.formed.node_of_mem_entityNeighbors (List.mem_of_mem_filter isOther))).1⟩
  rw [ownerships_eq_firstBy, ownerships_eq_firstBy, listed]
  refine firstBy_map _ fun left isLeft right isRight => ?_
  rw [Prod.mk.injEq, Prod.mk.injEq]
  exact and_congr (redraws.id_redraw_eq_iff (ends left isLeft).1 (ends right isRight).1)
    (redraws.id_redraw_eq_iff (ends left isLeft).2 (ends right isRight).2)

/-! ## Hierarchies -/

theorem members_redraw {isa : Node} (isNode : isa ∈ index.nodes) :
    redrawn.members (redraw isa) = (index.members isa).map redraw := by
  have areEntities := redraws.formed.participants_subset isa.id
  rw [members, members, redraws.participants_redraw isNode]
  exact firstBy_map redraw fun left isLeft right isRight => redraws.id_redraw_eq_iff
    (mem_entities.mp (areEntities isLeft)).1 (mem_entities.mp (areEntities isRight)).1

theorem hierarchyOf?_redraw {isa : Node} (isNode : isa ∈ index.nodes) :
    redrawn.hierarchyOf? (redraw isa) =
      (index.hierarchyOf? isa).map (Hierarchy.redrawn redraw) := by
  have place : superclassPlace? ((index.members isa).map redraw) =
      superclassPlace? (index.members isa) := by
    rw [superclassPlace?, superclassPlace?, List.length_map,
      firstLeast?_map fun entity member => by
        have isEntity := mem_entities.mp (redraws.formed.mem_entities_of_mem_members member)
        rw [(redraws.alike entity isEntity.1).height isEntity.2]]
  rw [hierarchyOf?, hierarchyOf?, redraws.members_redraw isNode, place]
  cases superclassPlace? (index.members isa) with
  | none => rfl
  | some found =>
      cases superclass : (index.members isa)[found]? with
      | none => simp [superclass]
      | some superclass => simp [superclass, Hierarchy.redrawn, List.eraseIdx_map]

theorem hierarchies_redraw :
    redrawn.hierarchies = index.hierarchies.map (Hierarchy.redrawn redraw) := by
  rw [hierarchies, hierarchies, redraws.isaNodes_redraw, List.filterMap_map, List.map_filterMap]
  exact List.filterMap_congr fun isa member =>
    redraws.hierarchyOf?_redraw (List.mem_of_mem_filter member)

theorem hierarchyProblems_redraw : redrawn.hierarchyProblems = index.hierarchyProblems := by
  rw [hierarchyProblems, hierarchyProblems, redraws.isaNodes_redraw,
    filter_map_congr fun isa member => by
      rw [redraws.hierarchyOf?_redraw (List.mem_of_mem_filter member), Option.isNone_map],
    List.map_map]
  refine List.map_congr_left fun isa member => ?_
  rcases List.mem_filter.mp (List.mem_of_mem_filter member) with ⟨isNode, isIsa⟩
  have name := (redraws.alike isa isNode).name (Node.kind_of_isIsa isIsa ▸ NodeKind.noConfusion)
  rw [Function.comp_apply, redraws.members_redraw isNode, List.length_map, name]

end Redraws

end Adjacency

end ErSchema
