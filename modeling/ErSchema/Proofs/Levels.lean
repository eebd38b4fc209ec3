import ErSchema.Proofs.Entities

/-! # The levels of attributes

The search outward stops by itself: every layer that is not empty holds nodes
that had no level, so with one round for each node more rounds change nothing.
Whatever has a level is the owner or an attribute of the graph, and so is all
that the walk visits. -/

namespace ErSchema

namespace Adjacency

variable {index : Adjacency}

theorem mem_attributeNeighbors {id : String} {node : Node} :
    node ∈ index.attributeNeighbors id ↔
      ∃ neighbor ∈ index.neighbors id, neighbor.node = node ∧ node.isAttribute = true := by
  simp only [attributeNeighbors, List.mem_filter, List.mem_map]
  constructor
  · rintro ⟨⟨neighbor, isNeighbor, rfl⟩, isAttribute⟩
    exact ⟨neighbor, isNeighbor, rfl, isAttribute⟩
  · rintro ⟨neighbor, isNeighbor, rfl, isAttribute⟩
    exact ⟨⟨neighbor, isNeighbor, rfl⟩, isAttribute⟩

theorem mem_nextLayer {known : Levels} {frontier : List String} {found : String} :
    found ∈ index.nextLayer known frontier ↔
      (∃ reached ∈ frontier, ∃ node ∈ index.attributeNeighbors reached, node.id = found) ∧
        known.lookup found = none := by
  have same (list : List String) : found ∈ firstBy id list ↔ found ∈ list := by
    have mapped : found ∈ (firstBy id list).map id ↔ found ∈ list.map id := mem_map_firstBy id
    simpa using mapped
  rw [nextLayer, List.mem_filter, same, List.mem_flatMap, Option.isNone_iff_eq_none]
  simp only [List.mem_map]

/-- A search either stops here or goes on from the next layer. -/
theorem growLevels_succ (rounds level : Nat) (frontier : List String) (known : Levels) :
    index.growLevels (rounds + 1) level frontier known =
      if index.nextLayer known frontier = [] then known
      else index.growLevels rounds (level + 1) (index.nextLayer known frontier)
        (known ++ (index.nextLayer known frontier).map fun found => (found, level + 1)) := by
  rw [growLevels]
  split
  case h_1 empty => rw [if_pos empty]
  case h_2 layer => rw [if_neg layer]

/-! ## Enough rounds -/

/-- The nodes without a level. -/
def unreached (index : Adjacency) (known : Levels) : List Node :=
  index.nodes.filter fun node => (known.lookup node.id).isNone

theorem lookup_isSome_of_mem (level : Nat) {found : String} {layer : List String}
    (member : found ∈ layer) :
    ((layer.map fun found => (found, level)).lookup found).isSome = true := by
  induction layer with
  | nil => simp at member
  | cons head rest induction =>
      by_cases same : found = head
      · simp [same]
      · have later := induction ((List.mem_cons.mp member).resolve_left same)
        simpa [List.lookup_cons, beq_eq_false_iff_ne.mpr same] using later

namespace WellFormed

variable (wellFormed : index.WellFormed)
include wellFormed

theorem attribute_of_mem_attributeNeighbors {id : String} {node : Node}
    (member : node ∈ index.attributeNeighbors id) :
    node ∈ index.nodes ∧ node.isAttribute = true := by
  rcases mem_attributeNeighbors.mp member with ⟨neighbor, isNeighbor, rfl, isAttribute⟩
  exact ⟨wellFormed.node_of_mem_neighbors isNeighbor, isAttribute⟩

theorem length_unreached_lt {known : Levels} {frontier : List String} (level : Nat)
    (layer : index.nextLayer known frontier ≠ []) :
    (index.unreached (known ++ (index.nextLayer known frontier).map
      fun found => (found, level))).length < (index.unreached known).length := by
  rcases List.exists_mem_of_ne_nil _ layer with ⟨found, isFound⟩
  rcases mem_nextLayer.mp isFound with ⟨⟨_, _, node, isNeighbor, rfl⟩, unknown⟩
  let later := known ++ (index.nextLayer known frontier).map fun found => (found, level)
  have fewer : index.unreached later =
      (index.unreached known).filter fun node => (later.lookup node.id).isNone := by
    rw [unreached, unreached, List.filter_filter]
    refine List.filter_congr fun node _ => ?_
    simp only [later, List.lookup_append]
    cases known.lookup node.id <;> simp
  rw [fewer, List.length_filter_lt_length_iff_exists]
  refine ⟨node, List.mem_filter.mpr
    ⟨(wellFormed.attribute_of_mem_attributeNeighbors isNeighbor).1, by simp [unknown]⟩, ?_⟩
  have known := lookup_isSome_of_mem level isFound
  simp only [later, List.lookup_append, unknown, Option.none_or]
  simpa using Option.ne_none_iff_isSome.mpr known

theorem nextLayer_eq_nil {known : Levels} (allKnown : (index.unreached known).length = 0)
    (frontier : List String) : index.nextLayer known frontier = [] := by
  by_contra layer
  have fewer := wellFormed.length_unreached_lt 0 layer
  omega

/-- One round more than enough finds nothing more. -/
theorem growLevels_stable {rounds : Nat} (level : Nat) (frontier : List String)
    (known : Levels) (enough : (index.unreached known).length ≤ rounds) :
    index.growLevels (rounds + 1) level frontier known =
      index.growLevels rounds level frontier known := by
  induction rounds generalizing level frontier known with
  | zero =>
      have empty := wellFormed.nextLayer_eq_nil (Nat.le_zero.mp enough) frontier
      rw [growLevels_succ, if_pos empty, growLevels]
  | succ rounds induction =>
      rw [growLevels_succ (rounds + 1), growLevels_succ rounds level frontier]
      by_cases layer : index.nextLayer known frontier = []
      · rw [if_pos layer, if_pos layer]
      · rw [if_neg layer, if_neg layer]
        have fewer := wellFormed.length_unreached_lt (level + 1) layer
        exact induction (level + 1) _ _ (by omega)

theorem growLevels_of_le {rounds more : Nat} (level : Nat) (frontier : List String)
    (known : Levels) (enough : (index.unreached known).length ≤ rounds) (le : rounds ≤ more) :
    index.growLevels more level frontier known =
      index.growLevels rounds level frontier known := by
  induction le with
  | refl => rfl
  | step le induction =>
      rw [wellFormed.growLevels_stable level frontier known (Nat.le_trans enough le), induction]

/-! ## What has a level -/

theorem growLevels_keys (rounds level : Nat) (frontier : List String) {known : Levels}
    {reached : String → Prop} (before : ∀ entry ∈ known, reached entry.1)
    (attributes : ∀ node ∈ index.nodes, node.isAttribute = true → reached node.id) :
    ∀ entry ∈ index.growLevels rounds level frontier known, reached entry.1 := by
  induction rounds generalizing level frontier known with
  | zero => exact before
  | succ rounds induction =>
      rw [growLevels_succ]
      split
      · exact before
      · refine induction _ _ fun entry member => ?_
        rcases List.mem_append.mp member with old | new
        · exact before entry old
        · rcases List.mem_map.mp new with ⟨found, isFound, rfl⟩
          rcases mem_nextLayer.mp isFound with ⟨⟨_, _, node, isNeighbor, rfl⟩, _⟩
          rcases wellFormed.attribute_of_mem_attributeNeighbors isNeighbor with
            ⟨isNode, isAttribute⟩
          exact attributes node isNode isAttribute

theorem owner_or_attribute_of_lookup {owner id : String} {level : Nat}
    (found : (index.levels owner).lookup id = some level) :
    id = owner ∨ ∃ node ∈ index.nodes, node.id = id ∧ node.isAttribute = true := by
  let reached (id : String) : Prop :=
    id = owner ∨ ∃ node ∈ index.nodes, node.id = id ∧ node.isAttribute = true
  have begins : ∀ entry ∈ [(owner, 0)], reached entry.1 := by simp [reached]
  have keys := wellFormed.growLevels_keys index.nodes.length 0 [owner] begins
    fun node isNode isAttribute => .inr ⟨node, isNode, rfl, isAttribute⟩
  rcases List.lookup_eq_some_iff.mp found with ⟨before, after, equal, _⟩
  refine keys (id, level) ?_
  change (id, level) ∈ index.levels owner
  simp [equal]

end WellFormed

/-! ## What the walk visits -/

theorem walk_forall {levels : Levels} {reached : Visit → Prop}
    (parts : ∀ visit, reached visit →
      ∀ part ∈ index.parts levels visit.node.id visit.level, reached ⟨part, visit.level + 1⟩)
    {unvisited : List String} {stack : List Visit} (begins : ∀ visit ∈ stack, reached visit) :
    ∀ visit ∈ index.walk levels unvisited stack, reached visit := by
  induction unvisited, stack using walk.induct index levels with
  | case1 => simp [walk]
  | case2 unvisited visit stack unused induction =>
      rw [walk, if_pos unused]
      have both := List.forall_mem_cons.mp begins
      refine List.forall_mem_cons.mpr ⟨both.1, induction fun next member => ?_⟩
      rcases List.mem_append.mp member with part | old
      · rcases List.mem_map.mp part with ⟨node, isPart, rfl⟩
        exact parts visit both.1 node isPart
      · exact both.2 next old
  | case3 unvisited visit stack used induction =>
      rw [walk, if_neg used]
      exact induction (List.forall_mem_cons.mp begins).2

theorem WellFormed.attribute_of_mem_visits (wellFormed : index.WellFormed) {owner : String}
    {visit : Visit} (member : visit ∈ index.visits owner) :
    visit.node ∈ index.nodes ∧ visit.node.isAttribute = true := by
  have parts (id : String) (level : Nat) :
      ∀ part ∈ index.parts (index.levels owner) id level,
        part ∈ index.nodes ∧ part.isAttribute = true := fun part isPart =>
    wellFormed.attribute_of_mem_attributeNeighbors (List.mem_of_mem_filter isPart)
  let isAttribute (visit : Visit) : Prop :=
    visit.node ∈ index.nodes ∧ visit.node.isAttribute = true
  change isAttribute visit
  refine walk_forall (fun _ _ => parts _ _) (fun visit begins => ?_) visit member
  rcases List.mem_map.mp begins with ⟨part, isPart, rfl⟩
  exact parts _ _ part isPart

end Adjacency

end ErSchema
