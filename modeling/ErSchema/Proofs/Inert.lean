import ErSchema.Proofs.Mirror

/-! # The inert parts of a diagram

Later nodes of an identifier, connections that mean nothing and labels can all
be left out of a diagram. The graph of what remains mirrors the graph of the
whole; only the places of the connections change. -/

namespace ErSchema

namespace Diagram

/-- Without the nodes whose identifier an earlier node has. -/
def withoutRepeats (diagram : Diagram) : Diagram :=
  { diagram with nodes := firstBy Node.id diagram.nodes }

/-- The connection joins two different nodes, of kinds that have to do with each
other. -/
def joins (nodes : List Node) (edge : Edge) : Bool :=
  match Adjacency.find? nodes edge.start, Adjacency.find? nodes edge.finish with
  | some start, some finish => edge.start ≠ edge.finish && start.kind.meets finish.kind
  | _, _ => false

def withoutIdleEdges (diagram : Diagram) : Diagram :=
  { diagram with edges := diagram.edges.filter (joins diagram.nodes) }

def withoutLabels (diagram : Diagram) : Diagram :=
  { diagram with nodes := diagram.nodes.filter fun node => node.kind ≠ .label }

/-- What of a diagram its tables depend on. -/
def essential (diagram : Diagram) : Diagram :=
  diagram.withoutRepeats.withoutIdleEdges.withoutLabels

end Diagram

theorem firstBy_of_nodup {α β : Type} [DecidableEq β] {key : α → β} {members : List α}
    (distinct : (members.map key).Nodup) : firstBy key members = members := by
  induction members with
  | nil => rfl
  | cons member rest induction =>
      rcases List.nodup_cons.mp distinct with ⟨fresh, others⟩
      rw [firstBy, induction others, List.filter_eq_self.mpr fun later isLater => ?_]
      exact decide_eq_true fun same => fresh (same ▸ List.mem_map_of_mem isLater)

/-! ## Renumbered connections -/

namespace Link

def renumbered (renumber : Nat → Nat) (link : Link) : Link :=
  { link with edge := renumber link.edge }

def matters (link : Link) : Bool :=
  link.start.kind.meets link.finish.kind

theorem neighborOf?_renumbered (renumber : Nat → Nat) (link : Link) (id : String) :
    (link.renumbered renumber).neighborOf? id =
      (link.neighborOf? id).map (·.renumbered renumber) := by
  unfold neighborOf? renumbered
  split
  · rfl
  · split <;> rfl

end Link

namespace Adjacency

theorem find?_eq_none_iff {nodes : List Node} {id : String} :
    find? nodes id = none ↔ id ∉ nodes.map Node.id := by
  simp [find?]

theorem find?_eq_some_iff {nodes : List Node} (distinct : (nodes.map Node.id).Nodup) {id : String}
    {node : Node} : find? nodes id = some node ↔ node ∈ nodes ∧ node.id = id := by
  constructor
  · exact fun found => ⟨List.mem_of_find?_eq_some found, id_of_find? found⟩
  · rintro ⟨isNode, rfl⟩
    cases found : find? nodes node.id with
    | none => exact absurd (List.mem_map_of_mem isNode) (find?_eq_none_iff.mp found)
    | some other =>
        rw [List.inj_on_of_nodup_map distinct (List.mem_of_find?_eq_some found) isNode
          (id_of_find? found)]

/-- Whatever is no label is still found when labels are left out. -/
theorem find?_unlabelled {nodes : List Node} {id : String} {node : Node}
    (found : find? nodes id = some node) (unlabelled : node.kind ≠ .label) :
    find? (nodes.filter fun node => node.kind ≠ .label) id = some node := by
  unfold find? at found ⊢
  rw [List.find?_filter]
  rcases List.find?_eq_some_iff_append.mp found with ⟨same, before, after, rfl, earlier⟩
  refine List.find?_eq_some_iff_append.mpr ⟨?_, before, after, rfl, fun other isEarlier => ?_⟩
  · simpa [unlabelled] using same
  · have different := earlier other isEarlier
    simp only [Bool.not_eq_true', decide_eq_false_iff_not] at different
    simp [different]

theorem neighborOf?_matters {index : Adjacency} (formed : index.WellFormed) {node : Node}
    (isNode : node ∈ index.nodes) {link : Link} (isLink : link ∈ index.links)
    {neighbor : Neighbor} (seen : link.neighborOf? node.id = some neighbor) :
    link.matters = node.kind.meets neighbor.node.kind := by
  have ends := formed.ends link isLink
  unfold Link.neighborOf? at seen
  split at seen
  case isTrue starts =>
    cases seen
    rw [← formed.eq_of_id_eq ends.1 isNode starts]
    rfl
  case isFalse =>
    split at seen
    case isTrue finishes =>
      cases seen
      rw [← formed.eq_of_id_eq ends.2 isNode finishes]
      exact NodeKind.meets_comm _ _
    case isFalse => cases seen

theorem relevant_eq_filterMap {index : Adjacency} (formed : index.WellFormed) {node : Node}
    (isNode : node ∈ index.nodes) :
    index.relevant node =
      (index.links.filter Link.matters).filterMap (·.neighborOf? node.id) := by
  rw [relevant, neighbors, List.filter_filterMap, List.filterMap_filter]
  refine List.filterMap_congr fun link isLink => ?_
  cases seen : link.neighborOf? node.id with
  | none => simp
  | some neighbor =>
      rw [neighborOf?_matters formed isNode isLink seen]
      rfl

/-- A part agrees with the whole if its links are those links of the whole that
matter, under other numbers. -/
theorem Agrees.of_links {renumber : Nat → Nat} {part whole : Adjacency}
    (partFormed : part.WellFormed) (wholeFormed : whole.WellFormed)
    (nodes : part.nodes ⊆ whole.nodes)
    (links : whole.links.filter Link.matters = part.links.map (·.renumbered renumber))
    (apart : ∀ left ∈ part.links, ∀ right ∈ part.links,
      renumber left.edge = renumber right.edge → left.edge = right.edge) :
    Agrees renumber part whole where
  partFormed := partFormed
  wholeFormed := wholeFormed
  nodes := nodes
  apart := apart
  relevant node isNode := by
    have allMatter : part.links.filter Link.matters = part.links := by
      refine List.filter_eq_self.mpr fun link isLink => ?_
      have kept : link.renumbered renumber ∈ whole.links.filter Link.matters :=
        links ▸ List.mem_map_of_mem isLink
      exact (List.mem_filter.mp kept).2
    rw [relevant_eq_filterMap wholeFormed (nodes isNode), relevant_eq_filterMap partFormed isNode,
      allMatter, links, List.filterMap_map, List.map_filterMap]
    exact List.filterMap_congr fun link _ => link.neighborOf?_renumbered renumber node.id

end Adjacency

/-! ## The graph of what remains -/

/-- Members that were given places, numbered anew: the new number leads back to
the old place. -/
theorem map_zipIdx_places {α : Type} (placed : List (α × Nat)) :
    (placed.map Prod.fst).zipIdx.map (fun (member, number) =>
      (member, (placed.map Prod.snd).getD number 0)) = placed := by
  refine List.ext_getElem (by simp) fun number inside inPlaced => ?_
  simp [List.getD_eq_getElem?_getD, List.getElem?_eq_getElem inPlaced]

namespace Diagram

variable (diagram : Diagram)

/-- The connections that mean something, with their places. -/
def joining : List (Edge × Nat) :=
  diagram.edges.zipIdx.filter fun (edge, _) => joins (firstBy Node.id diagram.nodes) edge

theorem edges_essential : diagram.essential.edges = diagram.joining.map Prod.fst := by
  have places := List.filter_map (f := Prod.fst) (l := diagram.edges.zipIdx)
    (p := joins (firstBy Node.id diagram.nodes))
  rw [List.zipIdx_map_fst] at places
  exact places

/-- The place in the diagram of a connection that is kept. -/
def placeOf (number : Nat) : Nat :=
  (diagram.joining.map Prod.snd).getD number 0

theorem nodup_places : (diagram.joining.map Prod.snd).Nodup := by
  have all : (diagram.edges.zipIdx.map Prod.snd).Nodup := by
    rw [List.zipIdx_map_snd]
    exact List.nodup_range'
  exact all.sublist (List.filter_sublist.map Prod.snd)

theorem placeOf_injective {left right : Nat} (leftKept : left < diagram.joining.length)
    (rightKept : right < diagram.joining.length)
    (same : diagram.placeOf left = diagram.placeOf right) : left = right := by
  have leftInside : left < (diagram.joining.map Prod.snd).length := by simpa using leftKept
  have rightInside : right < (diagram.joining.map Prod.snd).length := by simpa using rightKept
  simp only [placeOf, List.getD_eq_getElem?_getD, List.getElem?_eq_getElem leftInside,
    List.getElem?_eq_getElem rightInside, Option.getD_some] at same
  exact diagram.nodup_places.getElem_inj_iff.mp same

end Diagram

namespace Adjacency

variable (diagram : Diagram)

theorem nodes_essential :
    (ofDiagram diagram.essential).nodes =
      (ofDiagram diagram).nodes.filter fun node => node.kind ≠ .label :=
  firstBy_of_nodup ((wellFormed_ofDiagram diagram).distinct.sublist
    (List.filter_sublist.map Node.id))

/-- A connection that is kept makes the same link as before. -/
theorem linkOf?_essential {edge : Edge}
    (kept : Diagram.joins (ofDiagram diagram).nodes edge = true) (number : Nat) :
    linkOf? (ofDiagram diagram).nodes edge (diagram.placeOf number) =
      (linkOf? (ofDiagram diagram.essential).nodes edge number).map
        (·.renumbered diagram.placeOf) := by
  unfold Diagram.joins at kept
  split at kept
  case h_2 => exact absurd kept Bool.false_ne_true
  case h_1 start finish foundStart foundFinish =>
    rcases Bool.and_eq_true_iff.mp kept with ⟨different, meets⟩
    have startUnlabelled : start.kind ≠ .label := fun isLabel => by simp [isLabel, NodeKind.meets] at meets
    have finishUnlabelled : finish.kind ≠ .label := fun isLabel => by
      simp [isLabel, NodeKind.meets] at meets
    have apart : edge.start ≠ edge.finish := of_decide_eq_true different
    simp only [linkOf?, nodes_essential, foundStart, foundFinish,
      find?_unlabelled foundStart startUnlabelled, find?_unlabelled foundFinish finishUnlabelled,
      apart, if_false, Option.bind_eq_bind, Option.bind_some, Option.map_some]
    rfl

theorem matters_eq_joins {nodes : List Node} {edge : Edge} {place : Nat} {link : Link}
    (made : linkOf? nodes edge place = some link) : link.matters = Diagram.joins nodes edge := by
  rcases linkOf?_eq_some made with ⟨start, finish, apart⟩
  simp [Diagram.joins, start, finish, apart, Link.matters]

/-- The links that matter are those of the connections that mean something. -/
theorem filter_matters (nodes : List Node) (placed : List (Edge × Nat)) :
    (placed.filterMap fun (edge, place) => linkOf? nodes edge place).filter Link.matters =
      (placed.filter fun (edge, _) => Diagram.joins nodes edge).filterMap fun (edge, place) =>
        linkOf? nodes edge place := by
  rw [List.filter_filterMap, List.filterMap_filter]
  refine List.filterMap_congr fun (edge, place) _ => ?_
  dsimp only
  cases made : linkOf? nodes edge place with
  | none => simp
  | some link => simp [matters_eq_joins made, Option.filter]

theorem links_essential :
    (ofDiagram diagram).links.filter Link.matters =
      (ofDiagram diagram.essential).links.map (·.renumbered diagram.placeOf) := by
  let nodes := (ofDiagram diagram).nodes
  have mattering : (ofDiagram diagram).links.filter Link.matters =
      diagram.joining.filterMap fun (edge, place) => linkOf? nodes edge place :=
    filter_matters nodes diagram.edges.zipIdx
  have kept : (ofDiagram diagram.essential).links.map (·.renumbered diagram.placeOf) =
      (diagram.essential.edges.zipIdx.map fun (edge, number) =>
        (edge, diagram.placeOf number)).filterMap fun (edge, place) => linkOf? nodes edge place := by
    rw [List.filterMap_map]
    change (diagram.essential.edges.zipIdx.filterMap _).map _ = _
    rw [List.map_filterMap]
    refine List.filterMap_congr fun (edge, number) member => ?_
    have isKept : edge ∈ diagram.essential.edges := (List.mem_zipIdx' member).2 ▸ List.getElem_mem _
    exact (linkOf?_essential diagram (List.mem_filter.mp isKept).2 number).symm
  rw [mattering, kept, Diagram.edges_essential]
  exact congrArg _ (map_zipIdx_places diagram.joining).symm

theorem edge_lt_of_mem_links {link : Link} (member : link ∈ (ofDiagram diagram).links) :
    link.edge < diagram.edges.length := by
  rcases List.mem_filterMap.mp member with ⟨⟨edge, place⟩, isEdge, made⟩
  have inside := (List.mem_zipIdx' isEdge).1
  simp only [linkOf?, Option.bind_eq_bind, Option.bind_eq_some_iff,
    Option.ite_none_left_eq_some] at made
  rcases made with ⟨_, _, _, _, _, equal⟩
  cases equal
  exact inside

theorem mirrors_essential :
    Mirrors diagram.placeOf (ofDiagram diagram.essential) (ofDiagram diagram) where
  agrees := by
    refine .of_links (wellFormed_ofDiagram _) (wellFormed_ofDiagram _) ?_
      (links_essential diagram) fun left isLeft right isRight same => ?_
    · rw [nodes_essential]
      exact List.filter_subset_self _
    · have inside {link : Link} (member : link ∈ (ofDiagram diagram.essential).links) :
          link.edge < diagram.joining.length := by
        have bound := edge_lt_of_mem_links diagram.essential member
        rwa [Diagram.edges_essential, List.length_map] at bound
      exact diagram.placeOf_injective (inside isLeft) (inside isRight) same
  unlabelled := nodes_essential diagram

end Adjacency

/-! ## Findings about the drawing -/

namespace Diagnostic

/-- Findings about the drawing itself; all others are about what it means. -/
def isStray : Diagnostic → Bool
  | .missingEndpoint .. | .duplicateNode .. => true
  | _ => false

end Diagnostic

theorem repeatedBy_eq_filter {α β : Type} [DecidableEq β] (key : α → β) (seen : List β)
    (members : List α) :
    repeatedBy key seen members =
      (members.zipIdx.filter fun (member, place) =>
        key member ∈ seen ++ (members.take place).map key).map Prod.fst := by
  induction members generalizing seen with
  | nil => rfl
  | cons member rest induction =>
      have shifted : (member :: rest).zipIdx =
          (member, 0) :: rest.zipIdx.map fun (later, place) => (later, place + 1) := by
        rw [List.zipIdx_cons, List.zipIdx_succ]
      have others (known : List β) (same : ∀ value later,
          value ∈ known ++ later ↔ value ∈ seen ++ key member :: later) :
          repeatedBy key known rest =
            ((rest.zipIdx.map fun (later, place) => (later, place + 1)).filter
              fun (later, place) =>
                key later ∈ seen ++ ((member :: rest).take place).map key).map Prod.fst := by
        rw [induction, List.filter_map, List.map_map]
        simp only [Function.comp_def, List.take_succ_cons, List.map_cons, same]
      rw [shifted, List.filter_cons, repeatedBy]
      by_cases old : key member ∈ seen
      · simpa [old] using others seen fun value later => by grind
      · simpa [old] using others (key member :: seen) fun value later => by grind

namespace Diagram

variable (diagram : Diagram)

/-- One report for each node whose identifier an earlier node has. -/
def repeatReports : List Diagnostic :=
  (diagram.nodes.zipIdx.filter fun (node, place) =>
    node.id ∈ (diagram.nodes.take place).map Node.id).map fun (node, _) =>
      .duplicateNode node.id

/-- One report for each connection with an end that is no node. -/
def looseReports : List Diagnostic :=
  diagram.edges.zipIdx.filterMap fun (edge, place) =>
    if edge.start ∉ diagram.nodes.map Node.id then some (.missingEndpoint place edge.start)
    else if edge.finish ∉ diagram.nodes.map Node.id then
      some (.missingEndpoint place edge.finish)
    else none

theorem problems_eq_reports :
    Adjacency.problems diagram = diagram.repeatReports ++ diagram.looseReports := by
  have repeats : (repeatedBy Node.id [] diagram.nodes).map (fun node => .duplicateNode node.id) =
      diagram.repeatReports := by
    rw [repeatedBy_eq_filter, List.map_map]
    rfl
  have unknown (id : String) : (Adjacency.find? (firstBy Node.id diagram.nodes) id).isNone =
      decide (id ∉ diagram.nodes.map Node.id) := by
    rw [Bool.eq_iff_iff, Option.isNone_iff_eq_none, Adjacency.find?_eq_none_iff,
      mem_map_firstBy, decide_eq_true_iff]
  rw [Adjacency.problems, repeats, looseReports]
  congr 1
  apply List.filterMap_congr
  rintro ⟨edge, place⟩ _
  simp only [Adjacency.missingEnd?, unknown]
  -- The list of identifiers as it stands: only whether it has the ends matters.
  generalize diagram.nodes.map Node.id = known
  by_cases start : edge.start ∈ known
  · by_cases finish : edge.finish ∈ known
    · simp [start, finish]
    · simp [start, finish]
  · simp [start]

end Diagram

namespace Derivation

theorem isStray_of_mem_problems {diagram : Diagram} {found : Diagnostic}
    (member : found ∈ Adjacency.problems diagram) : found.isStray = true := by
  rcases Adjacency.mem_problems member with ⟨_, rfl⟩ | ⟨_, _, rfl⟩ <;> rfl

theorem isStray_of_mem_laterProblems {index : Adjacency} {limit : Option Nat}
    {found : Diagnostic} (member : found ∈ laterProblems index limit) :
    found.isStray = false := by
  have attributes {owner : Node} (cycle : found ∈ index.attributeProblems owner) :
      found.isStray = false := by
    rcases Adjacency.mem_attributeProblems cycle with ⟨_, rfl⟩
    rfl
  simp only [laterProblems, List.mem_append, List.mem_flatMap, List.mem_filterMap] at member
  rcases member with (((⟨_, _, cycle⟩ | hierarchy) | stopped) | ⟨_, _, made⟩) |
    ⟨_, _, cycle | problem⟩
  · exact attributes cycle
  · rcases Adjacency.mem_hierarchyProblems hierarchy with ⟨_, _, rfl⟩
    rfl
  · rw [mem_limitProblems stopped]
    rfl
  · rw [missingKey?_eq_some made]
    rfl
  · exact attributes cycle
  · rcases Resolution.mem_relationshipProblems problem with ⟨_, _, rfl⟩ | ⟨_, _, _, rfl⟩ <;> rfl

section
variable (diagram : Diagram) (limit : Option Nat)

theorem filter_isStray :
    (ofDiagram diagram limit).diagnostics.filter (·.isStray) = Adjacency.problems diagram := by
  rw [diagnostics_ofDiagram, List.filter_append,
    List.filter_eq_self.mpr fun _ => isStray_of_mem_problems,
    List.filter_eq_nil_iff.mpr fun _ member => by simp [isStray_of_mem_laterProblems member],
    List.append_nil]

theorem filter_not_isStray :
    (ofDiagram diagram limit).diagnostics.filter (!·.isStray) =
      laterProblems (.ofDiagram diagram) limit := by
  rw [diagnostics_ofDiagram, List.filter_append,
    List.filter_eq_nil_iff.mpr fun _ member => by simp [isStray_of_mem_problems member],
    List.filter_eq_self.mpr fun _ member => by simp [isStray_of_mem_laterProblems member],
    List.nil_append]

theorem schema_essential :
    (ofDiagram diagram limit).schema = (ofDiagram diagram.essential limit).schema :=
  schema_mirror (Adjacency.mirrors_essential diagram) limit

theorem laterProblems_essential :
    laterProblems (.ofDiagram diagram) limit = laterProblems (.ofDiagram diagram.essential) limit :=
  laterProblems_mirror (Adjacency.mirrors_essential diagram) limit

/-- What is left out changes neither a table nor what is found out about the
tables. What is found out about the drawing is exactly what its nodes and
connections say one by one. -/
theorem inert_parts :
    (ofDiagram diagram limit).schema = (ofDiagram diagram.essential limit).schema ∧
      (ofDiagram diagram limit).diagnostics.filter (!·.isStray) =
        (ofDiagram diagram.essential limit).diagnostics.filter (!·.isStray) ∧
      (ofDiagram diagram limit).diagnostics.filter (·.isStray) =
        diagram.repeatReports ++ diagram.looseReports := by
  refine ⟨schema_essential diagram limit, ?_, ?_⟩
  · rw [filter_not_isStray, filter_not_isStray, laterProblems_essential]
  · rw [filter_isStray, Diagram.problems_eq_reports]

end

end Derivation

end ErSchema
