import ErSchema.Proofs.Attributes.Cycles
import Mathlib

/-! # Levels as distances in the drawing

The levels of an owner are a map: it has each identifier once. They are the lengths of
shortest walks along connections that come to attributes only, and the search for them
has ended by itself, so more rounds would change nothing. -/

namespace ErSchema

theorem lookup_eq_some_iff_mem {α β : Type} [BEq α] [LawfulBEq α] {entries : List (α × β)}
    (distinct : (entries.map Prod.fst).Nodup) {key : α} {value : β} :
    entries.lookup key = some value ↔ (key, value) ∈ entries := by
  rw [List.lookup_eq_some_iff]
  constructor
  · rintro ⟨before, after, rfl, _⟩
    exact List.mem_append_right _ List.mem_cons_self
  · intro isEntry
    obtain ⟨before, after, rfl⟩ := List.append_of_mem isEntry
    refine ⟨before, after, rfl, fun entry isBefore => ?_⟩
    rw [List.map_append, List.map_cons] at distinct
    have apart := (List.nodup_append.mp distinct).2.2 entry.1 (List.mem_map_of_mem isBefore)
      key List.mem_cons_self
    simpa using apart.symm

/-! ## Walks in a drawing -/

namespace Diagram

/-- The identifiers of a diagram, joined where a connection is drawn between two of them. -/
def graph (diagram : Diagram) : SimpleGraph String where
  Adj first second :=
    first ≠ second ∧ (first ∈ diagram.nodes.map Node.id ∧ second ∈ diagram.nodes.map Node.id) ∧
      ∃ edge ∈ diagram.edges, first ∈ edge.ends ∧ second ∈ edge.ends
  symm := by
    constructor
    rintro first second ⟨apart, defined, edge, isEdge, ends⟩
    exact ⟨apart.symm, defined.symm, edge, isEdge, ends.symm⟩
  loopless := by
    constructor
    rintro id ⟨apart, _⟩
    exact apart rfl

/-- The first node with the identifier is an attribute. -/
def IsAttribute (diagram : Diagram) (id : String) : Prop :=
  ∃ node ∈ diagram.nodes.find? fun node => node.id = id, node.isAttribute = true

/-- A walk of that length from the owner that comes to attributes only. -/
def AttributeWalk (diagram : Diagram) (owner : String) (length : Nat) (id : String) : Prop :=
  ∃ walk : diagram.graph.Walk owner id, walk.length = length ∧
    ∀ reached ∈ walk.support.tail, diagram.IsAttribute reached

end Diagram

namespace Adjacency

section
variable {diagram : Diagram} {owner : String}

theorem isAttribute_iff {id : String} :
    diagram.IsAttribute id ↔
      ∃ node ∈ (ofDiagram diagram).nodes, node.id = id ∧ node.isAttribute = true := by
  constructor
  · rintro ⟨node, found, isAttribute⟩
    have same : node.id = id := by simpa using List.find?_some found
    subst same
    exact ⟨node, (mem_firstBy_iff Node.id).mpr found, rfl, isAttribute⟩
  · rintro ⟨node, isNode, rfl, isAttribute⟩
    exact ⟨node, (mem_firstBy_iff Node.id).mp isNode, isAttribute⟩

/-- The neighbours of a node that are attributes are found along connections. -/
theorem mem_attributeNeighbors_iff_adj {id : String} {node : Node}
    (isNode : node ∈ (ofDiagram diagram).nodes) (isAttribute : node.isAttribute = true) :
    node ∈ (ofDiagram diagram).attributeNeighbors id ↔ diagram.graph.Adj id node.id := by
  have isOther : node.id ∈ (ofDiagram diagram).nodes.map Node.id := List.mem_map_of_mem isNode
  rw [mem_attributeNeighbors]
  constructor
  · rintro ⟨neighbor, isNeighbor, rfl, _⟩
    obtain ⟨isEnd, _, apart, edge, drawn, runs⟩ := mem_neighbors_ofDiagram.mp isNeighbor
    exact ⟨apart, ⟨mem_ids_ofDiagram.mp isEnd, mem_ids_ofDiagram.mp isOther⟩, edge,
      List.mem_of_getElem? drawn, runs.near_mem, runs.symm.near_mem⟩
  · rintro ⟨apart, ⟨isEnd, _⟩, edge, isEdge, both⟩
    obtain ⟨place, drawn⟩ := List.mem_iff_getElem?.mp isEdge
    obtain ⟨neighbor, isNeighbor, same, _⟩ :=
      (joins_iff_neighbor (mem_ids_ofDiagram.mpr isEnd) isNode apart).mp ⟨edge, drawn, both⟩
    exact ⟨neighbor, isNeighbor, same, isAttribute⟩

/-- A path goes on along a walk that comes to attributes only. -/
theorem AttributePath.walk {length : Nat} {id last : String}
    (path : (ofDiagram diagram).AttributePath owner length id) (walk : diagram.graph.Walk id last)
    (attributes : ∀ reached ∈ walk.support.tail, diagram.IsAttribute reached) :
    (ofDiagram diagram).AttributePath owner (length + walk.length) last := by
  -- Each step of the walk, from its start on, is one more at the end of the path.
  induction walk generalizing length with
  | nil => exact path
  | @cons id next last adjacent rest induction =>
      rw [SimpleGraph.Walk.support_cons, List.tail_cons] at attributes
      have isNext := attributes next rest.start_mem_support
      obtain ⟨node, isNode, rfl, isAttribute⟩ := isAttribute_iff.mp isNext
      have onward := induction
        (path.step ((mem_attributeNeighbors_iff_adj isNode isAttribute).mpr adjacent))
        fun reached later => attributes reached (List.mem_of_mem_tail later)
      rw [SimpleGraph.Walk.length_cons]
      rwa [Nat.add_assoc, Nat.add_comm 1] at onward

theorem attributePath_iff {length : Nat} {id : String} :
    (ofDiagram diagram).AttributePath owner length id ↔
      diagram.AttributeWalk owner length id := by
  constructor
  · intro path
    induction path with
    | refl => exact ⟨.nil, rfl, List.forall_mem_nil _⟩
    | @step length before node _ isNeighbor induction =>
        obtain ⟨walk, sameLength, attributes⟩ := induction
        obtain ⟨isNode, isAttribute⟩ :=
          (wellFormed_ofDiagram diagram).attribute_of_mem_attributeNeighbors isNeighbor
        have adjacent := (mem_attributeNeighbors_iff_adj isNode isAttribute).mp isNeighbor
        refine ⟨walk.concat adjacent, ?_, ?_⟩
        · rw [SimpleGraph.Walk.length_concat, sameLength]
        · rw [SimpleGraph.Walk.support_concat, List.tail_append_of_ne_nil walk.support_ne_nil]
          refine List.forall_mem_append.mpr ⟨attributes, List.forall_mem_singleton.mpr ?_⟩
          exact isAttribute_iff.mpr ⟨node, isNode, rfl, isAttribute⟩
  · rintro ⟨walk, rfl, attributes⟩
    have start : (ofDiagram diagram).AttributePath owner 0 owner := .refl
    have path := start.walk walk attributes
    rwa [Nat.zero_add] at path

theorem isDistance_iff {level : Nat} {id : String} :
    (ofDiagram diagram).IsDistance owner level id ↔
      IsLeast {length | diagram.AttributeWalk owner length id} level := by
  simp only [IsDistance, attributePath_iff]

end

/-! ## The map of levels -/

section
variable {index : Adjacency}

theorem nodup_nextLayer (known : Levels) (frontier : List String) :
    (index.nextLayer known frontier).Nodup :=
  (pairwise_firstBy id _).filter _

/-- A layer has identifiers that are not known yet, each once. -/
theorem nodup_growLevels (rounds level : Nat) (frontier : List String) {known : Levels}
    (distinct : (known.map Prod.fst).Nodup) :
    ((index.growLevels rounds level frontier known).map Prod.fst).Nodup := by
  induction rounds generalizing level frontier known with
  | zero => exact distinct
  | succ rounds induction =>
      rw [growLevels_succ]
      split
      case isTrue => exact distinct
      case isFalse =>
        apply induction
        have keys : ((index.nextLayer known frontier).map fun found => (found, level + 1)).map
            Prod.fst = index.nextLayer known frontier := by
          rw [List.map_map]
          exact List.map_id _
        rw [List.map_append, keys]
        refine List.nodup_append.mpr ⟨distinct, nodup_nextLayer known frontier, ?_⟩
        intro id isKnown found isFound same
        obtain ⟨entry, isEntry, rfl⟩ := List.mem_map.mp isKnown
        have unknown := List.lookup_eq_none_iff.mp (mem_nextLayer.mp isFound).2 entry isEntry
        simp [same] at unknown

theorem nodup_levels (index : Adjacency) (owner : String) :
    ((index.levels owner).map Prod.fst).Nodup :=
  nodup_growLevels _ _ _ (List.nodup_singleton owner)

theorem WellFormed.mem_levels (wellFormed : index.WellFormed) {owner id : String} {level : Nat} :
    (id, level) ∈ index.levels owner ↔ index.IsDistance owner level id := by
  rw [← lookup_eq_some_iff_mem (nodup_levels index owner), wellFormed.lookup_levels]

end

section
variable {diagram : Diagram} {owner : String}

/-- The levels at the ends of a connection differ by one at most. -/
theorem le_succ_of_mem_ends {near far : String} {nearLevel farLevel : Nat}
    (atNear : (ofDiagram diagram).IsDistance owner nearLevel near)
    (atFar : (ofDiagram diagram).IsDistance owner farLevel far) {edge : Edge}
    (isEdge : edge ∈ diagram.edges) (isNear : near ∈ edge.ends) (isFar : far ∈ edge.ends) :
    farLevel ≤ nearLevel + 1 := by
  by_cases same : near = far
  · subst same
    have equal : nearLevel = farLevel := atNear.unique atFar
    omega
  · have adjacent : (diagram.attributeGraph owner).Adj ⟨near, nearLevel, atNear.1⟩
        ⟨far, farLevel, atFar.1⟩ :=
      ⟨fun equal => same (congrArg Subtype.val equal), edge, isEdge, isNear, isFar⟩
    exact le_succ_of_adj adjacent atNear atFar

/-- One step before the end of a shortest walk. -/
theorem exists_adj_of_distance {level : Nat} {id : String}
    (distance : (ofDiagram diagram).IsDistance owner (level + 1) id) :
    ∃ near, (ofDiagram diagram).IsDistance owner level near ∧ diagram.graph.Adj near id := by
  obtain ⟨near, isBefore, node, isNeighbor, rfl⟩ := distance.exists_before
  obtain ⟨isNode, isAttribute⟩ :=
    (wellFormed_ofDiagram diagram).attribute_of_mem_attributeNeighbors isNeighbor
  exact ⟨near, isBefore, (mem_attributeNeighbors_iff_adj isNode isAttribute).mp isNeighbor⟩

end

/-- The levels of an owner map it to zero and everything that has a walk from it to the length
of a shortest one, and nothing else. No further rounds change them. So they differ by one at
most along a connection, and from each but the owner a connection leads one step back. -/
theorem levels_exact (diagram : Diagram) (owner : String) :
    let index := ofDiagram diagram
    let levels := index.levels owner
    (levels.map Prod.fst).Nodup ∧
      (∀ id level, (id, level) ∈ levels ↔
        IsLeast {length | diagram.AttributeWalk owner length id} level) ∧
      (∀ id, (id, 0) ∈ levels ↔ id = owner) ∧
      (∀ rounds, index.nodes.length ≤ rounds →
        index.growLevels rounds 0 [owner] [(owner, 0)] = levels) ∧
      (∀ first ∈ levels, ∀ second ∈ levels, ∀ edge ∈ diagram.edges,
        first.1 ∈ edge.ends → second.1 ∈ edge.ends → first.2 ≤ second.2 + 1) ∧
      ∀ id level, (id, level + 1) ∈ levels →
        ∃ near, (near, level) ∈ levels ∧ diagram.graph.Adj near id := by
  intro index levels
  have wellFormed : index.WellFormed := wellFormed_ofDiagram diagram
  have isLevel {id : String} {level : Nat} :
      (id, level) ∈ levels ↔ index.IsDistance owner level id := wellFormed.mem_levels
  refine ⟨nodup_levels index owner, fun id level => isLevel.trans isDistance_iff,
    fun id => isLevel.trans isDistance_zero, ?_, ?_, ?_⟩
  · intro rounds enough
    exact wellFormed.growLevels_of_le 0 [owner] [(owner, 0)] (List.length_filter_le _ _) enough
  · intro first isFirst second isSecond edge isEdge firstEnd secondEnd
    exact le_succ_of_mem_ends (isLevel.mp isSecond) (isLevel.mp isFirst) isEdge secondEnd firstEnd
  · intro id level isFound
    obtain ⟨near, distance, adjacent⟩ := exists_adj_of_distance (isLevel.mp isFound)
    exact ⟨near, isLevel.mpr distance, adjacent⟩

end Adjacency

end ErSchema
