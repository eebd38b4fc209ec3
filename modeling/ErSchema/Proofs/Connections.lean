import ErSchema.Proofs.Inert

/-! # Connections as they were drawn

A connection is drawn from one of its ends to the other and can be read from
either. The graph keeps those that join two different nodes, in the order in which
they were drawn, and the neighbours of a node are the other ends of its own. -/

namespace ErSchema

namespace Edge

def ends (edge : Edge) : List String :=
  [edge.start, edge.finish]

/-- The connection read from one of its ends: this end with the label at it, then
the other end with the label there. -/
inductive Runs (edge : Edge) : String → Cardinality → String → Cardinality → Prop
  | onward : edge.Runs edge.start edge.startCard edge.finish edge.finishCard
  | back : edge.Runs edge.finish edge.finishCard edge.start edge.startCard

variable {edge : Edge}

theorem exists_runs {id : String} (isEnd : id ∈ edge.ends) :
    ∃ card other otherCard, edge.Runs id card other otherCard := by
  rcases List.mem_pair.mp isEnd with rfl | rfl
  · exact ⟨_, _, _, .onward⟩
  · exact ⟨_, _, _, .back⟩

variable {near far : String}

theorem exists_runs_between (apart : near ≠ far) (isNear : near ∈ edge.ends)
    (isFar : far ∈ edge.ends) : ∃ nearCard farCard, edge.Runs near nearCard far farCard := by
  rcases List.mem_pair.mp isNear with rfl | rfl
  · obtain rfl := (List.mem_pair.mp isFar).resolve_left apart.symm
    exact ⟨_, _, .onward⟩
  · obtain rfl := (List.mem_pair.mp isFar).resolve_right apart.symm
    exact ⟨_, _, .back⟩

variable {nearCard farCard : Cardinality}

theorem Runs.symm (runs : edge.Runs near nearCard far farCard) :
    edge.Runs far farCard near nearCard := by
  cases runs with
  | onward => exact .back
  | back => exact .onward

theorem Runs.near_mem (runs : edge.Runs near nearCard far farCard) : near ∈ edge.ends := by
  cases runs with
  | onward => exact List.mem_cons_self
  | back => exact List.mem_cons_of_mem _ List.mem_cons_self

theorem Runs.forall_mem_ends (runs : edge.Runs near nearCard far farCard)
    {holds : String → Prop} : (∀ id ∈ edge.ends, holds id) ↔ holds near ∧ holds far := by
  cases runs with
  | onward => simp [ends]
  | back => simp [ends, and_comm]

theorem Runs.apart_iff (runs : edge.Runs near nearCard far farCard) :
    edge.start ≠ edge.finish ↔ near ≠ far := by
  cases runs with
  | onward => exact Iff.rfl
  | back => exact ne_comm

end Edge

/-- The connection drawn at that place joins the two. -/
def Diagram.Joins (diagram : Diagram) (place : Nat) (first second : String) : Prop :=
  ∃ edge ∈ diagram.edges[place]?, first ∈ edge.ends ∧ second ∈ edge.ends

theorem Link.edge_eq_of_neighborOf? {link : Link} {id : String} {neighbor : Neighbor}
    (seen : link.neighborOf? id = some neighbor) : neighbor.edge = link.edge := by
  unfold Link.neighborOf? at seen
  split at seen
  · cases seen
    rfl
  · split at seen
    · cases seen
      rfl
    · cases seen

namespace Adjacency

theorem linkOf?_eq_some_iff {nodes : List Node} (distinct : (nodes.map Node.id).Nodup)
    {edge : Edge} {place : Nat} {link : Link} :
    linkOf? nodes edge place = some link ↔
      link.start ∈ nodes ∧ link.finish ∈ nodes ∧ link.start.id ≠ link.finish.id ∧
        link.edge = place ∧
        ⟨link.start.id, link.finish.id, link.startCard, link.finishCard, edge.style⟩ = edge := by
  simp only [linkOf?, Option.bind_eq_bind, Option.bind_eq_some_iff,
    Option.ite_none_left_eq_some, find?_eq_some_iff distinct]
  constructor
  · rintro ⟨start, ⟨isStart, startId⟩, finish, ⟨isFinish, finishId⟩, apart, equal⟩
    cases equal
    rw [← startId, ← finishId] at apart
    exact ⟨isStart, isFinish, apart, rfl, by rw [startId, finishId]⟩
  · rintro ⟨isStart, isFinish, apart, rfl, drawn⟩
    rw [← drawn]
    exact ⟨link.start, ⟨isStart, rfl⟩, link.finish, ⟨isFinish, rfl⟩, apart, rfl⟩

section
variable {diagram : Diagram}

/-- The links are the connections that join two different nodes. -/
theorem mem_links_ofDiagram {link : Link} :
    link ∈ (ofDiagram diagram).links ↔
      link.start ∈ (ofDiagram diagram).nodes ∧ link.finish ∈ (ofDiagram diagram).nodes ∧
        link.start.id ≠ link.finish.id ∧
        ∃ style, diagram.edges[link.edge]? =
          some ⟨link.start.id, link.finish.id, link.startCard, link.finishCard, style⟩ := by
  have distinct := (wellFormed_ofDiagram diagram).distinct
  change link ∈ diagram.edges.zipIdx.filterMap _ ↔ _
  rw [List.mem_filterMap]
  constructor
  · rintro ⟨⟨edge, place⟩, isPlaced, made⟩
    have drawn := List.mem_zipIdx_iff_getElem?.mp isPlaced
    obtain ⟨isStart, isFinish, apart, rfl, equal⟩ := (linkOf?_eq_some_iff distinct).mp made
    exact ⟨isStart, isFinish, apart, edge.style, equal ▸ drawn⟩
  · rintro ⟨isStart, isFinish, apart, style, drawn⟩
    refine ⟨(_, link.edge), List.mem_zipIdx_iff_getElem?.mpr drawn, ?_⟩
    exact (linkOf?_eq_some_iff distinct).mpr ⟨isStart, isFinish, apart, rfl, rfl⟩

/-- They stand in the order in which they were drawn. -/
theorem pairwise_links :
    (ofDiagram diagram).links.Pairwise fun earlier later => earlier.edge < later.edge := by
  have distinct := (wellFormed_ofDiagram diagram).distinct
  have placed : diagram.edges.zipIdx.Pairwise fun earlier later => earlier.2 < later.2 := by
    apply List.Pairwise.of_map Prod.snd (S := (· < ·)) fun _ _ less => less
    rw [List.zipIdx_map_snd]
    exact List.pairwise_lt_range'
  apply List.pairwise_filterMap.mpr
  apply placed.imp
  intro earlier later before first isFirst second isSecond
  rw [((linkOf?_eq_some_iff distinct).mp isFirst).2.2.2.1,
    ((linkOf?_eq_some_iff distinct).mp isSecond).2.2.2.1]
  exact before

/-- The neighbours of a node are found at the other ends of its connections. -/
theorem mem_neighbors_ofDiagram {id : String} {neighbor : Neighbor} :
    neighbor ∈ (ofDiagram diagram).neighbors id ↔
      id ∈ (ofDiagram diagram).nodes.map Node.id ∧ neighbor.node ∈ (ofDiagram diagram).nodes ∧
        id ≠ neighbor.node.id ∧ ∃ edge, diagram.edges[neighbor.edge]? = some edge ∧
          edge.Runs id neighbor.ownCard neighbor.node.id neighbor.card := by
  constructor
  · intro isNeighbor
    obtain ⟨link, isLink, seen⟩ := List.mem_filterMap.mp isNeighbor
    obtain ⟨isStart, isFinish, apart, style, drawn⟩ := mem_links_ofDiagram.mp isLink
    unfold Link.neighborOf? at seen
    split at seen
    case isTrue starts =>
      cases seen
      subst starts
      exact ⟨List.mem_map_of_mem isStart, isFinish, apart, _, drawn, .onward⟩
    case isFalse =>
      split at seen
      case isTrue finishes =>
        cases seen
        subst finishes
        exact ⟨List.mem_map_of_mem isFinish, isStart, apart.symm, _, drawn, .back⟩
      case isFalse => cases seen
  · rintro ⟨isEnd, isNode, apart, edge, drawn, runs⟩
    obtain ⟨node, isOwn, rfl⟩ := List.mem_map.mp isEnd
    apply List.mem_filterMap.mpr
    rcases neighbor with ⟨place, other, ownCard, card⟩
    rcases edge with ⟨start, finish, startCard, finishCard, style⟩
    cases runs with
    | onward =>
        refine ⟨⟨place, node, other, ownCard, card⟩, ?_, ?_⟩
        · exact mem_links_ofDiagram.mpr ⟨isOwn, isNode, apart, style, drawn⟩
        · simp [Link.neighborOf?]
    | back =>
        refine ⟨⟨place, other, node, card, ownCard⟩, ?_, ?_⟩
        · exact mem_links_ofDiagram.mpr ⟨isNode, isOwn, apart.symm, style, drawn⟩
        · simp [Link.neighborOf?, apart.symm]

/-- Different nodes are neighbours by each connection that joins them. -/
theorem joins_iff_neighbor {id : String} {node : Node} {place : Nat}
    (isEnd : id ∈ (ofDiagram diagram).nodes.map Node.id) (isNode : node ∈ (ofDiagram diagram).nodes)
    (apart : id ≠ node.id) :
    diagram.Joins place id node.id ↔
      ∃ neighbor ∈ (ofDiagram diagram).neighbors id,
        neighbor.node = node ∧ neighbor.edge = place := by
  constructor
  · rintro ⟨edge, drawn, isNear, isFar⟩
    obtain ⟨nearCard, farCard, runs⟩ := Edge.exists_runs_between apart isNear isFar
    exact ⟨⟨place, node, nearCard, farCard⟩,
      mem_neighbors_ofDiagram.mpr ⟨isEnd, isNode, apart, edge, drawn, runs⟩, rfl, rfl⟩
  · rintro ⟨neighbor, isNeighbor, rfl, rfl⟩
    obtain ⟨_, _, _, edge, drawn, runs⟩ := mem_neighbors_ofDiagram.mp isNeighbor
    exact ⟨edge, drawn, runs.near_mem, runs.symm.near_mem⟩

theorem pairwise_neighbors (id : String) :
    ((ofDiagram diagram).neighbors id).Pairwise fun earlier later =>
      earlier.edge < later.edge := by
  apply List.pairwise_filterMap.mpr
  apply pairwise_links.imp
  intro earlier later before first isFirst second isSecond
  rw [Link.edge_eq_of_neighborOf? isFirst, Link.edge_eq_of_neighborOf? isSecond]
  exact before

theorem mem_ids_ofDiagram {id : String} :
    id ∈ (ofDiagram diagram).nodes.map Node.id ↔ id ∈ diagram.nodes.map Node.id :=
  mem_map_firstBy Node.id

/-- A connection as it is listed at one of its ends: its place, the other end, the label at
this end and the label at the other. -/
def entries (diagram : Diagram) (id : String) : List (Nat × String × Cardinality × Cardinality) :=
  ((ofDiagram diagram).neighbors id).map fun neighbor =>
    (neighbor.edge, neighbor.node.id, neighbor.ownCard, neighbor.card)

theorem mem_entries {near far : String} {place : Nat} {nearCard farCard : Cardinality} :
    (place, far, nearCard, farCard) ∈ entries diagram near ↔
      near ∈ diagram.nodes.map Node.id ∧ far ∈ diagram.nodes.map Node.id ∧ near ≠ far ∧
        ∃ edge, diagram.edges[place]? = some edge ∧ edge.Runs near nearCard far farCard := by
  simp only [← mem_ids_ofDiagram]
  constructor
  · intro listed
    rcases List.mem_map.mp listed with ⟨neighbor, isNeighbor, equal⟩
    cases equal
    rcases mem_neighbors_ofDiagram.mp isNeighbor with ⟨isEnd, isNode, apart, connected⟩
    exact ⟨isEnd, List.mem_map_of_mem isNode, apart, connected⟩
  · rintro ⟨isEnd, isOther, apart, connected⟩
    rcases List.mem_map.mp isOther with ⟨node, isNode, rfl⟩
    have isNeighbor : ⟨place, node, nearCard, farCard⟩ ∈ (ofDiagram diagram).neighbors near :=
      mem_neighbors_ofDiagram.mpr ⟨isEnd, isNode, apart, connected⟩
    exact List.mem_map.mpr ⟨_, isNeighbor, rfl⟩

/-- The graph is what was drawn. A node has its connections in the order in which they were
drawn, each once: those between two identifiers that are different and both defined. Each
leads to the first node with the identifier at the other end, with the labels at this end and
the other, so it is found from either end alike. -/
theorem neighbors_exact (diagram : Diagram) :
    (∀ id, ((ofDiagram diagram).neighbors id).Pairwise fun earlier later =>
      earlier.edge < later.edge) ∧
    (∀ id neighbor, neighbor ∈ (ofDiagram diagram).neighbors id ↔
      ∃ edge, diagram.edges[neighbor.edge]? = some edge ∧ edge.start ≠ edge.finish ∧
        (∀ defined ∈ edge.ends, defined ∈ diagram.nodes.map Node.id) ∧
        edge.Runs id neighbor.ownCard neighbor.node.id neighbor.card ∧
        diagram.nodes.find? (fun node => node.id = neighbor.node.id) = some neighbor.node) ∧
    ∀ near far place nearCard farCard,
      (place, far, nearCard, farCard) ∈ entries diagram near ↔
        (place, near, farCard, nearCard) ∈ entries diagram far := by
  refine ⟨pairwise_neighbors, fun id neighbor => ?_, fun near far place nearCard farCard => ?_⟩
  · have isFirst : neighbor.node ∈ (ofDiagram diagram).nodes ↔
        diagram.nodes.find? (fun node => node.id = neighbor.node.id) = some neighbor.node :=
      mem_firstBy_iff Node.id
    rw [mem_neighbors_ofDiagram, mem_ids_ofDiagram]
    constructor
    · rintro ⟨isEnd, isNode, apart, edge, drawn, runs⟩
      have isOther := mem_ids_ofDiagram.mp (List.mem_map_of_mem isNode)
      exact ⟨edge, drawn, runs.apart_iff.mpr apart, runs.forall_mem_ends.mpr ⟨isEnd, isOther⟩,
        runs, isFirst.mp isNode⟩
    · rintro ⟨edge, drawn, apart, defined, runs, found⟩
      exact ⟨(runs.forall_mem_ends.mp defined).1, isFirst.mpr found, runs.apart_iff.mp apart,
        edge, drawn, runs⟩
  · have turned (near far : String) (nearCard farCard : Cardinality)
        (listed : (place, far, nearCard, farCard) ∈ entries diagram near) :
        (place, near, farCard, nearCard) ∈ entries diagram far := by
      rcases mem_entries.mp listed with ⟨isEnd, isOther, apart, edge, drawn, runs⟩
      exact mem_entries.mpr ⟨isOther, isEnd, apart.symm, edge, drawn, runs.symm⟩
    exact ⟨turned near far nearCard farCard, turned far near farCard nearCard⟩

end

end Adjacency

end ErSchema
