import ErSchema.Proofs.Attributes.Distance
import ErSchema.Proofs.Connections
import Mathlib

/-! # Cycles of attributes

A connection between two attributes at one distance from the owner closes a cycle
and is reported once, with the attribute at which the walk meets it first. Every
other connection leads one step away from the owner or one step back, so without
such a connection there is no odd cycle, and with one there is. -/

/-! ## Odd cycles in odd walks -/

namespace SimpleGraph.Walk

variable {V : Type} {graph : SimpleGraph V}

/-- A walk that is no path comes back somewhere, and can be cut there. -/
theorem exists_loop {first last : V} (walk : graph.Walk first last) (again : ¬ walk.IsPath) :
    ∃ (middle : V) (loop : graph.Walk middle middle) (rest : graph.Walk first last),
      0 < loop.length ∧ loop.length + rest.length = walk.length := by
  classical
  induction walk with
  | nil => exact absurd .nil again
  | @cons first next last edge walk induction =>
      by_cases path : walk.IsPath
      · have back : first ∈ walk.support := by
          by_contra apart
          exact again (path.cons apart)
        refine ⟨first, .cons edge (walk.takeUntil first back), walk.dropUntil first back, ?_, ?_⟩
        · exact Nat.succ_pos _
        · have parts := congrArg Walk.length (walk.take_spec back)
          rw [length_append] at parts
          rw [length_cons, length_cons]
          omega
      · obtain ⟨middle, loop, rest, some, parts⟩ := induction path
        refine ⟨middle, loop, .cons edge rest, some, ?_⟩
        rw [length_cons, length_cons]
        omega

/-- A path back along an edge has no other edge. -/
theorem IsPath.length_eq_one {first last : V} {walk : graph.Walk first last} (path : walk.IsPath)
    (straight : s(first, last) ∈ walk.edges) : walk.length = 1 := by
  cases walk with
  | nil => exact absurd straight List.not_mem_nil
  | @cons _ next _ edge walk =>
      obtain ⟨rest, apart⟩ := (cons_isPath_iff edge walk).mp path
      rw [edges_cons, List.mem_cons] at straight
      rcases straight with same | later
      · obtain rfl : last = next := Sym2.congr_right.mp same
        rw [isPath_iff_nil.mp rest |>.eq_nil]
        rfl
      · exact absurd (walk.fst_mem_support_of_mem_edges later) apart

/-- Cut off its loops one by one, a closed walk of odd length comes to an odd cycle. -/
theorem exists_odd_cycle {vertex : V} (walk : graph.Walk vertex vertex)
    (odd : Odd walk.length) :
    ∃ (vertex : V) (cycle : graph.Walk vertex vertex), cycle.IsCycle ∧ Odd cycle.length := by
  induction length : walk.length using Nat.strong_induction_on generalizing vertex with
  | h total shorter =>
      subst length
      cases walk with
      | nil => simp at odd
      | @cons _ next _ edge walk =>
          rw [length_cons] at odd
          by_cases path : walk.IsPath
          · have turns : s(vertex, next) ∉ walk.edges := by
              intro straight
              have single := path.length_eq_one (Sym2.eq_swap ▸ straight)
              rw [single] at odd
              exact absurd odd (by decide)
            exact ⟨vertex, .cons edge walk, (cons_isCycle_iff walk edge).mpr ⟨path, turns⟩, odd⟩
          · obtain ⟨middle, loop, rest, some, parts⟩ := exists_loop walk path
            rw [length_cons] at shorter
            by_cases oddLoop : Odd loop.length
            · exact shorter loop.length (by omega) loop oddLoop rfl
            · have oddRest : Odd (Walk.cons edge rest).length := by
                rw [Nat.odd_iff] at odd oddLoop
                rw [length_cons, Nat.odd_iff]
                omega
              exact shorter (rest.length + 1) (by omega) (.cons edge rest) oddRest rfl

end SimpleGraph.Walk

namespace ErSchema

namespace Adjacency

/-! ## Connections at one distance -/

/-- The connection joins two different attributes at one distance from the owner. -/
structure JoinsPeers (index : Adjacency) (owner : String) (edge : Edge) : Prop where
  apart : edge.start ≠ edge.finish
  attributes : ∀ id ∈ edge.ends, ∃ node ∈ index.nodes, node.id = id ∧ node.isAttribute = true
  level : ∃ level, ∀ id ∈ edge.ends, index.IsDistance owner level id

section
variable {index : Adjacency} {owner : String}

/-- Only the owner is at no distance. -/
theorem IsDistance.positive {level : Nat} {first second : String} (apart : first ≠ second)
    (atFirst : index.IsDistance owner level first)
    (atSecond : index.IsDistance owner level second) : 0 < level := by
  apply Nat.pos_of_ne_zero
  rintro rfl
  exact apart ((isDistance_zero.mp atFirst).trans (isDistance_zero.mp atSecond).symm)

variable (wellFormed : index.WellFormed)
include wellFormed

/-- Everything with a distance is an attribute, but for the owner. -/
theorem WellFormed.attribute_of_distance {level : Nat} {id : String}
    (distance : index.IsDistance owner level id) (positive : 0 < level) :
    ∃ node ∈ index.nodes, node.id = id ∧ node.isAttribute = true := by
  have known := wellFormed.lookup_levels.mpr distance
  apply (wellFormed.owner_or_attribute_of_lookup known).resolve_left
  intro same
  have root := distance.unique (isDistance_zero.mpr same)
  omega

theorem WellFormed.joinsPeers_of_runs {edge : Edge} {near far : String}
    {nearCard farCard : Cardinality} (runs : edge.Runs near nearCard far farCard)
    (apart : near ≠ far) {level : Nat} (atNear : index.IsDistance owner level near)
    (atFar : index.IsDistance owner level far) : index.JoinsPeers owner edge := by
  have positive := atNear.positive apart atFar
  have distances := runs.forall_mem_ends.mpr ⟨atNear, atFar⟩
  exact ⟨runs.apart_iff.mpr apart,
    fun id isEnd => wellFormed.attribute_of_distance (distances id isEnd) positive,
    level, distances⟩

end

/-! ## What the walk reports -/

/-- The connections of a visited attribute to those at its level. -/
def peersOf (index : Adjacency) (owner : String) (visit : Visit) : List (Nat × Node) :=
  ((index.neighbors visit.node.id).filter fun neighbor =>
    (index.levels owner).lookup neighbor.node.id = some visit.level).map fun neighbor =>
      (neighbor.edge, visit.node)

theorem cycleLinks_eq_firstBy (index : Adjacency) (owner : String) :
    index.cycleLinks owner = firstBy (·.1) ((index.visits owner).flatMap (index.peersOf owner)) :=
  rfl

section
variable {diagram : Diagram} {owner : String}

theorem mem_peersOf {visit : Visit} (visited : visit ∈ (ofDiagram diagram).visits owner)
    {place : Nat} {met : Node} :
    (place, met) ∈ (ofDiagram diagram).peersOf owner visit ↔
      met = visit.node ∧ ∃ edge, diagram.edges[place]? = some edge ∧
        (ofDiagram diagram).JoinsPeers owner edge ∧ visit.node.id ∈ edge.ends := by
  have wellFormed := wellFormed_ofDiagram diagram
  have distance := (wellFormed.distance_of_mem_visits owner visited).2
  constructor
  · intro noted
    obtain ⟨neighbor, isPeer, equal⟩ := List.mem_map.mp noted
    obtain ⟨isNeighbor, sameLevel⟩ := List.mem_filter.mp isPeer
    cases equal
    have level := wellFormed.lookup_levels.mp (of_decide_eq_true sameLevel)
    obtain ⟨_, _, apart, edge, drawn, runs⟩ := mem_neighbors_ofDiagram.mp isNeighbor
    exact ⟨rfl, edge, drawn, wellFormed.joinsPeers_of_runs runs apart distance level, runs.near_mem⟩
  · rintro ⟨rfl, edge, drawn, joins, isEnd⟩
    obtain ⟨level, distances⟩ := joins.level
    obtain ⟨card, other, otherCard, runs⟩ := Edge.exists_runs isEnd
    have same : visit.level = level := distance.unique (distances _ isEnd)
    obtain ⟨peer, isNode, rfl, _⟩ := joins.attributes other runs.symm.near_mem
    have isOwn := List.mem_map_of_mem (f := Node.id)
      (wellFormed.attribute_of_mem_visits visited).1
    have peerLevel := wellFormed.lookup_levels.mpr (distances _ runs.symm.near_mem)
    refine List.mem_map.mpr ⟨⟨place, peer, card, otherCard⟩, List.mem_filter.mpr ⟨?_, ?_⟩, rfl⟩
    · exact mem_neighbors_ofDiagram.mpr
        ⟨isOwn, isNode, runs.apart_iff.mp joins.apart, edge, drawn, runs⟩
    · exact decide_eq_true (same ▸ peerLevel)

/-- The reported connections, each with its end that the walk visits first. -/
theorem mem_cycleLinks {place : Nat} {met : Node} :
    (place, met) ∈ (ofDiagram diagram).cycleLinks owner ↔
      ∃ edge, diagram.edges[place]? = some edge ∧ (ofDiagram diagram).JoinsPeers owner edge ∧
        (((ofDiagram diagram).visits owner).find? fun visit =>
          visit.node.id ∈ edge.ends).map (·.node) = some met := by
  rw [cycleLinks_eq_firstBy, mem_firstBy_flatMap]
  simp only [Option.map_eq_some_iff, List.find?_eq_some_iff_append]
  constructor
  · rintro ⟨before, visit, after, split, kept, unnoted⟩
    have visited (next : Visit) (isNext : next ∈ before ++ visit :: after) :
        next ∈ (ofDiagram diagram).visits owner := split ▸ isNext
    have noted := (firstBy_sublist _ _).subset kept
    obtain ⟨rfl, edge, drawn, joins, isEnd⟩ := (mem_peersOf (visited visit (by simp))).mp noted
    refine ⟨edge, drawn, joins, visit, ⟨decide_eq_true isEnd, before, after, split, ?_⟩, rfl⟩
    intro earlier isEarlier
    rw [Bool.not_eq_true', decide_eq_false_iff_not]
    intro early
    have isNoted := (mem_peersOf (visited earlier (List.mem_append_left _ isEarlier))).mpr
      ⟨rfl, edge, drawn, joins, early⟩
    exact unnoted earlier isEarlier (place, earlier.node) isNoted rfl
  · rintro ⟨edge, drawn, joins, visit, ⟨isEnd, before, after, split, earliest⟩, rfl⟩
    have visited (next : Visit) (isNext : next ∈ before ++ visit :: after) :
        next ∈ (ofDiagram diagram).visits owner := split ▸ isNext
    have noted := (mem_peersOf (visited visit (by simp))).mpr
      ⟨rfl, edge, drawn, joins, of_decide_eq_true isEnd⟩
    obtain ⟨⟨same, other⟩, kept, rfl⟩ := exists_mem_firstBy Prod.fst noted
    have isOther := (mem_peersOf (visited visit (by simp))).mp ((firstBy_sublist _ _).subset kept)
    refine ⟨before, visit, after, split, isOther.1 ▸ kept, ?_⟩
    rintro earlier isEarlier ⟨place, node⟩ isNoted rfl
    obtain ⟨_, edge', drawn', _, early⟩ :=
      (mem_peersOf (visited earlier (List.mem_append_left _ isEarlier))).mp isNoted
    obtain rfl : edge = edge' := Option.some.inj (drawn.symm.trans drawn')
    have late := earliest earlier isEarlier
    rw [Bool.not_eq_true', decide_eq_false_iff_not] at late
    exact late early

/-- Both ends of such a connection are visited, so one of them is visited first. -/
theorem mem_map_fst_cycleLinks {place : Nat} :
    place ∈ ((ofDiagram diagram).cycleLinks owner).map Prod.fst ↔
      ∃ edge, diagram.edges[place]? = some edge ∧ (ofDiagram diagram).JoinsPeers owner edge := by
  have wellFormed := wellFormed_ofDiagram diagram
  constructor
  · intro reported
    obtain ⟨⟨_, met⟩, isReported, rfl⟩ := List.mem_map.mp reported
    obtain ⟨edge, drawn, joins, _⟩ := mem_cycleLinks.mp isReported
    exact ⟨edge, drawn, joins⟩
  · rintro ⟨edge, drawn, joins⟩
    obtain ⟨level, distances⟩ := joins.level
    have runs : edge.Runs _ _ _ _ := .onward
    have isEnd := runs.near_mem
    obtain ⟨below, rfl⟩ := Nat.exists_eq_succ_of_ne_zero
      ((distances _ isEnd).positive joins.apart (distances _ runs.symm.near_mem)).ne'
    have visited := wellFormed.visited_of_distance owner (distances _ isEnd)
    obtain ⟨visit, isVisit, same⟩ := List.mem_map.mp visited
    rw [← same] at isEnd
    cases found : ((ofDiagram diagram).visits owner).find? fun visit =>
        visit.node.id ∈ edge.ends with
    | none => exact absurd (decide_eq_true isEnd) (List.find?_eq_none.mp found visit isVisit)
    | some first =>
        have reported : (place, first.node) ∈ (ofDiagram diagram).cycleLinks owner :=
          mem_cycleLinks.mpr ⟨edge, drawn, joins, congrArg (Option.map (·.node)) found⟩
        exact List.mem_map_of_mem reported

end

end Adjacency

/-! ## The graph of an owner and its attributes -/

/-- The owner, the attributes with a path from it, and the connections among them. A
connection of an attribute to itself is none. -/
def Diagram.attributeGraph (diagram : Diagram) (owner : String) :
    SimpleGraph {id // ∃ length, (Adjacency.ofDiagram diagram).AttributePath owner length id} where
  Adj first second :=
    first ≠ second ∧ ∃ edge ∈ diagram.edges, first.1 ∈ edge.ends ∧ second.1 ∈ edge.ends
  symm := by
    constructor
    rintro first second ⟨apart, edge, isEdge, isFirst, isSecond⟩
    exact ⟨apart.symm, edge, isEdge, isSecond, isFirst⟩
  loopless := by
    constructor
    rintro vertex ⟨apart, _⟩
    exact apart rfl

namespace Adjacency

section
variable {diagram : Diagram} {owner : String}

/-- A path that leads away from the owner joins nodes. -/
theorem AttributePath.ends_are_nodes {length : Nat} {id : String}
    (path : (ofDiagram diagram).AttributePath owner length id) :
    id = owner ∨ owner ∈ (ofDiagram diagram).nodes.map Node.id ∧
      id ∈ (ofDiagram diagram).nodes.map Node.id := by
  induction path with
  | refl => exact .inl rfl
  | @step _ before node _ isNeighbor induction =>
      obtain ⟨neighbor, seen, rfl, _⟩ := mem_attributeNeighbors.mp isNeighbor
      obtain ⟨isNode, isOther, _⟩ := mem_neighbors_ofDiagram.mp seen
      have far := List.mem_map_of_mem (f := Node.id) isOther
      rcases induction with rfl | both
      · exact .inr ⟨isNode, far⟩
      · exact .inr ⟨both.1, far⟩

variable {first second : {id // ∃ length, (ofDiagram diagram).AttributePath owner length id}}

theorem isNode_of_adj (adjacent : (diagram.attributeGraph owner).Adj first second) :
    first.1 ∈ (ofDiagram diagram).nodes.map Node.id := by
  obtain ⟨_, firstPath⟩ := first.2
  obtain ⟨_, secondPath⟩ := second.2
  rcases firstPath.ends_are_nodes with same | both
  · rcases secondPath.ends_are_nodes with alsoSame | both
    · exact absurd (Subtype.ext (same.trans alsoSame.symm)) adjacent.1
    · rw [same]
      exact both.1
  · exact both.2

theorem mem_attributeNeighbors_of_adj
    (adjacent : (diagram.attributeGraph owner).Adj first second) {node : Node}
    (isNode : node ∈ (ofDiagram diagram).nodes) (isAttribute : node.isAttribute = true)
    (same : node.id = second.1) : node ∈ (ofDiagram diagram).attributeNeighbors first := by
  have isOwn := isNode_of_adj adjacent
  obtain ⟨different, edge, isEdge, isFirst, isSecond⟩ := adjacent
  have apart : first.1 ≠ node.id := same ▸ mt Subtype.ext different
  obtain ⟨place, drawn⟩ := List.mem_iff_getElem?.mp isEdge
  obtain ⟨neighbor, isNeighbor, isSame, _⟩ :=
    (joins_iff_neighbor isOwn isNode apart).mp ⟨edge, drawn, isFirst, same ▸ isSecond⟩
  exact mem_attributeNeighbors.mpr ⟨neighbor, isNeighbor, isSame, isAttribute⟩

/-- Along a connection the distance changes by one at most. -/
theorem le_succ_of_adj (adjacent : (diagram.attributeGraph owner).Adj first second)
    {near far : Nat} (atFirst : (ofDiagram diagram).IsDistance owner near first)
    (atSecond : (ofDiagram diagram).IsDistance owner far second) : far ≤ near + 1 := by
  rcases Nat.eq_zero_or_pos far with rfl | positive
  · exact Nat.zero_le _
  · obtain ⟨node, isNode, same, isAttribute⟩ :=
      (wellFormed_ofDiagram diagram).attribute_of_distance atSecond positive
    have isNeighbor := mem_attributeNeighbors_of_adj adjacent isNode isAttribute same
    exact atFirst.le_succ isNeighbor (same ▸ atSecond)

/-- Without a connection at one distance, the distances alternate between even and odd. -/
theorem even_of_no_peers
    (without : ∀ edge ∈ diagram.edges, ¬ (ofDiagram diagram).JoinsPeers owner edge)
    (walk : (diagram.attributeGraph owner).Walk first first) : Even walk.length := by
  classical
  have reached (vertex : {id // ∃ length, (ofDiagram diagram).AttributePath owner length id}) :
      ∃ level, (ofDiagram diagram).IsDistance owner level vertex := by
    obtain ⟨_, path⟩ := vertex.2
    obtain ⟨level, _, distance⟩ := path.exists_distance
    exact ⟨level, distance⟩
  choose level distance using reached
  let coloring : (diagram.attributeGraph owner).Coloring Bool := by
    apply SimpleGraph.Coloring.mk fun vertex => decide (Even (level vertex))
    intro near far adjacent
    have onward := le_succ_of_adj adjacent (distance near) (distance far)
    have back := le_succ_of_adj adjacent.symm (distance far) (distance near)
    have different : level near ≠ level far := by
      intro same
      obtain ⟨apart, edge, isEdge, isNear, isFar⟩ := adjacent
      have apart := mt Subtype.ext apart
      obtain ⟨_, _, runs⟩ := Edge.exists_runs_between apart isNear isFar
      exact without edge isEdge ((wellFormed_ofDiagram diagram).joinsPeers_of_runs runs apart
        (distance near) (same ▸ distance far))
    rw [ne_eq, decide_eq_decide, Nat.even_iff, Nat.even_iff]
    omega
  exact (coloring.even_length_iff_congr walk).mpr Iff.rfl

theorem AttributePath.exists_walk {length : Nat} {id : String}
    (path : (ofDiagram diagram).AttributePath owner length id) :
    ∃ walk : (diagram.attributeGraph owner).Walk ⟨owner, 0, .refl⟩ ⟨id, length, path⟩,
      walk.length = length := by
  induction path with
  | refl => exact ⟨.nil, rfl⟩
  | @step length before node earlier isNeighbor induction =>
      obtain ⟨walk, same⟩ := induction
      obtain ⟨neighbor, seen, rfl, _⟩ := mem_attributeNeighbors.mp isNeighbor
      obtain ⟨_, _, apart, edge, drawn, runs⟩ := mem_neighbors_ofDiagram.mp seen
      have adjacent : (diagram.attributeGraph owner).Adj ⟨before, length, earlier⟩
          ⟨neighbor.node.id, length + 1, .step earlier isNeighbor⟩ :=
        ⟨fun equal => apart (congrArg Subtype.val equal), edge, List.mem_of_getElem? drawn,
          runs.near_mem, runs.symm.near_mem⟩
      exact ⟨walk.concat adjacent, by rw [SimpleGraph.Walk.length_concat, same]⟩

/-- Two shortest paths of one length and the connection between their ends make a closed
walk of odd length. -/
theorem JoinsPeers.exists_odd_cycle {edge : Edge} (isEdge : edge ∈ diagram.edges)
    (joins : (ofDiagram diagram).JoinsPeers owner edge) :
    ∃ (vertex : _) (cycle : (diagram.attributeGraph owner).Walk vertex vertex),
      cycle.IsCycle ∧ Odd cycle.length := by
  obtain ⟨level, distances⟩ := joins.level
  have runs : edge.Runs _ _ _ _ := .onward
  have toStart := (distances _ runs.near_mem).1
  have toFinish := (distances _ runs.symm.near_mem).1
  obtain ⟨outward, outwardLength⟩ := toStart.exists_walk
  obtain ⟨other, otherLength⟩ := toFinish.exists_walk
  have adjacent : (diagram.attributeGraph owner).Adj ⟨edge.start, level, toStart⟩
      ⟨edge.finish, level, toFinish⟩ :=
    ⟨fun equal => joins.apart (congrArg Subtype.val equal), edge, isEdge,
      runs.near_mem, runs.symm.near_mem⟩
  apply SimpleGraph.Walk.exists_odd_cycle ((outward.concat adjacent).append other.reverse)
  rw [SimpleGraph.Walk.length_append, SimpleGraph.Walk.length_concat,
    SimpleGraph.Walk.length_reverse, outwardLength, otherLength]
  exact ⟨level, by omega⟩

open Classical in
/-- A finding for each connection between two attributes at one distance and for no
other, which names the end visited first; none exactly if the owner and its attributes
make no odd cycle. -/
theorem attributeProblems_exact (diagram : Diagram) (owner : Node) :
    let index := Adjacency.ofDiagram diagram
    let cycles := index.cycleLinks owner.id
    index.attributeProblems owner =
        cycles.map (fun cycle => .attributeCycle owner.name cycle.2.name) ∧
      (∀ place, (cycles.map Prod.fst).count place =
        if ∃ edge ∈ diagram.edges[place]?, index.JoinsPeers owner.id edge then 1 else 0) ∧
      (∀ cycle ∈ cycles, ∃ edge ∈ diagram.edges[cycle.1]?,
        ((index.visits owner.id).find? fun visit => visit.node.id ∈ edge.ends).map (·.node) =
          some cycle.2) ∧
      (index.attributeProblems owner = [] ↔
        ¬ ∃ (vertex : _) (cycle : (diagram.attributeGraph owner.id).Walk vertex vertex),
          cycle.IsCycle ∧ Odd cycle.length) := by
  intro index cycles
  have reported : index.attributeProblems owner =
      cycles.map (fun cycle => .attributeCycle owner.name cycle.2.name) := rfl
  have distinct : (cycles.map Prod.fst).Nodup :=
    List.pairwise_map.mpr (pairwise_firstBy _ _)
  refine ⟨reported, fun place => ?_, ?_, ?_⟩
  · rw [distinct.count]
    exact if_congr mem_map_fst_cycleLinks rfl rfl
  · rintro ⟨place, met⟩ isReported
    obtain ⟨edge, drawn, _, first⟩ := mem_cycleLinks.mp isReported
    exact ⟨edge, drawn, first⟩
  · rw [reported, List.map_eq_nil_iff]
    constructor
    · rintro none ⟨vertex, cycle, _, odd⟩
      have without : ∀ edge ∈ diagram.edges, ¬ index.JoinsPeers owner.id edge := by
        intro edge isEdge joins
        obtain ⟨place, drawn⟩ := List.mem_iff_getElem?.mp isEdge
        have noted := mem_map_fst_cycleLinks.mpr ⟨edge, drawn, joins⟩
        change place ∈ cycles.map Prod.fst at noted
        rw [none] at noted
        exact List.not_mem_nil noted
      exact Nat.not_odd_iff_even.mpr (even_of_no_peers without cycle) odd
    · intro none
      apply List.eq_nil_iff_forall_not_mem.mpr
      rintro ⟨place, met⟩ isReported
      obtain ⟨edge, drawn, joins, _⟩ := mem_cycleLinks.mp isReported
      exact none (joins.exists_odd_cycle (List.mem_of_getElem? drawn))

end

end Adjacency

end ErSchema
