import ErSchema.Proofs.Levels
import Mathlib

/-! # The distance of attributes

A path from an owner leads through attributes only. The search outward gives each
identifier the length of a shortest path to it, so the walk from parts to parts
comes to every attribute that has a path, and visits it once. -/

namespace ErSchema

namespace Adjacency

/-- A path of that length from the owner, through attributes. -/
inductive AttributePath (index : Adjacency) (owner : String) : Nat → String → Prop
  | refl : AttributePath index owner 0 owner
  | step {length : Nat} {id : String} {node : Node} :
      AttributePath index owner length id → node ∈ index.attributeNeighbors id →
        AttributePath index owner (length + 1) node.id

/-- The length of a shortest path. -/
def IsDistance (index : Adjacency) (owner : String) (level : Nat) (id : String) : Prop :=
  IsLeast {length | index.AttributePath owner length id} level

section
variable {index : Adjacency} {owner id : String} {level : Nat}

theorem AttributePath.exists_distance {length : Nat}
    (path : index.AttributePath owner length id) :
    ∃ level ≤ length, index.IsDistance owner level id := by
  classical
  let lengths : ∃ length, index.AttributePath owner length id := ⟨length, path⟩
  exact ⟨Nat.find lengths, Nat.find_min' lengths path,
    Nat.find_spec lengths, fun _ => Nat.find_min' lengths⟩

theorem isDistance_zero : index.IsDistance owner 0 id ↔ id = owner := by
  constructor
  · rintro ⟨path, _⟩
    cases path
    rfl
  · rintro rfl
    exact ⟨.refl, fun _ _ => Nat.zero_le _⟩

theorem IsDistance.le_succ (distance : index.IsDistance owner level id) {node : Node}
    (isNeighbor : node ∈ index.attributeNeighbors id) {other : Nat}
    (farther : index.IsDistance owner other node.id) : other ≤ level + 1 :=
  farther.2 (AttributePath.step distance.1 isNeighbor)

/-- A shortest path is shortest to all that it goes through. -/
theorem IsDistance.exists_before (distance : index.IsDistance owner (level + 1) id) :
    ∃ before, index.IsDistance owner level before ∧
      ∃ node ∈ index.attributeNeighbors before, node.id = id := by
  rcases distance with ⟨path, shortest⟩
  cases path with
  | @step _ before node earlier isNeighbor =>
      refine ⟨before, ⟨earlier, fun other shorter => ?_⟩, node, isNeighbor, rfl⟩
      exact Nat.le_of_succ_le_succ (shortest (AttributePath.step shorter isNeighbor))

theorem IsDistance.exists_of_le (distance : index.IsDistance owner level id) {nearer : Nat}
    (le : nearer ≤ level) : ∃ before, index.IsDistance owner nearer before := by
  induction le generalizing id with
  | refl => exact ⟨id, distance⟩
  | step _ induction =>
      rcases distance.exists_before with ⟨before, isBefore, _⟩
      exact induction isBefore

end

/-! ## The search -/

theorem lookup_layer {level found : Nat} {id : String} {layer : List String} :
    (layer.map fun found => (found, level)).lookup id = some found ↔
      found = level ∧ id ∈ layer := by
  induction layer with
  | nil => simp
  | cons head rest induction =>
      rw [List.map_cons, List.lookup_cons, List.mem_cons]
      by_cases same : id = head
      · simp [same, eq_comm]
      · simp [same, beq_eq_false_iff_ne.mpr same, induction]

/-- What the search knows after it has gone that far, with the last layer in front. -/
structure Searched (index : Adjacency) (owner : String) (level : Nat)
    (frontier : List String) (known : Levels) : Prop where
  frontier (id : String) : id ∈ frontier ↔ index.IsDistance owner level id
  known (id : String) (found : Nat) :
    known.lookup id = some found ↔ found ≤ level ∧ index.IsDistance owner found id

namespace Searched

variable {index : Adjacency} {owner : String} {level : Nat} {frontier : List String}
  {known : Levels}

theorem start : index.Searched owner 0 [owner] [(owner, 0)] where
  frontier id := by rw [isDistance_zero, List.mem_singleton]
  known id found := by
    rw [List.lookup_cons, List.lookup_nil]
    by_cases same : id = owner
    · have root : index.IsDistance owner 0 id := isDistance_zero.mpr same
      simp only [same, beq_self_eq_true, Option.some.injEq]
      constructor
      · rintro rfl
        exact ⟨le_rfl, same ▸ root⟩
      · rintro ⟨le, _⟩
        exact (Nat.le_zero.mp le).symm
    · simp only [beq_eq_false_iff_ne.mpr same, reduceCtorEq, false_iff]
      rintro ⟨le, distance⟩
      exact same (isDistance_zero.mp (Nat.le_zero.mp le ▸ distance))

variable (searched : index.Searched owner level frontier known)
include searched

theorem mem_nextLayer_iff {id : String} :
    id ∈ index.nextLayer known frontier ↔ index.IsDistance owner (level + 1) id := by
  rw [mem_nextLayer]
  constructor
  · rintro ⟨⟨reached, isReached, node, isNeighbor, rfl⟩, unknown⟩
    have atReached := (searched.frontier reached).mp isReached
    rcases (AttributePath.step atReached.1 isNeighbor).exists_distance with ⟨other, le, distance⟩
    have far : ¬ other ≤ level := fun near => by
      simp [(searched.known node.id other).mpr ⟨near, distance⟩] at unknown
    rwa [show level + 1 = other by omega]
  · intro distance
    rcases distance.exists_before with ⟨before, isBefore, node, isNeighbor, rfl⟩
    refine ⟨⟨before, (searched.frontier before).mpr isBefore, node, isNeighbor, rfl⟩, ?_⟩
    refine Option.eq_none_iff_forall_ne_some.mpr fun found isKnown => ?_
    rcases (searched.known node.id found).mp isKnown with ⟨near, same⟩
    have := distance.unique same
    omega

theorem next :
    index.Searched owner (level + 1) (index.nextLayer known frontier)
      (known ++ (index.nextLayer known frontier).map fun found => (found, level + 1)) where
  frontier id := searched.mem_nextLayer_iff
  known id found := by
    rw [List.lookup_append, Option.or_eq_some_iff, lookup_layer, searched.mem_nextLayer_iff,
      searched.known]
    constructor
    · rintro (⟨le, distance⟩ | ⟨_, rfl, distance⟩)
      · exact ⟨le.trans (Nat.le_succ level), distance⟩
      · exact ⟨le_rfl, distance⟩
    · rintro ⟨le, distance⟩
      rcases Nat.lt_or_eq_of_le le with near | rfl
      · exact .inl ⟨Nat.le_of_lt_succ near, distance⟩
      · refine .inr ⟨Option.eq_none_iff_forall_ne_some.mpr fun other isKnown => ?_, rfl, distance⟩
        rcases (searched.known id other).mp isKnown with ⟨near, same⟩
        have := distance.unique same
        omega

/-- With nothing in the next layer, everything with a path is known. -/
theorem known_of_stop (stop : index.nextLayer known frontier = []) (id : String) (found : Nat) :
    known.lookup id = some found ↔ index.IsDistance owner found id := by
  rw [searched.known, and_iff_right_iff_imp]
  intro distance
  by_contra far
  rcases distance.exists_of_le (Nat.not_le.mp far) with ⟨before, isBefore⟩
  have member := searched.mem_nextLayer_iff.mpr isBefore
  exact absurd (stop ▸ member) List.not_mem_nil

end Searched

namespace WellFormed

variable {index : Adjacency} (wellFormed : index.WellFormed)
include wellFormed

/-- One round for each node without a level is enough. -/
theorem lookup_growLevels {owner : String} {rounds level : Nat} {frontier : List String}
    {known : Levels} (searched : index.Searched owner level frontier known)
    (enough : (index.unreached known).length ≤ rounds) (id : String) (found : Nat) :
    (index.growLevels rounds level frontier known).lookup id = some found ↔
      index.IsDistance owner found id := by
  induction rounds generalizing level frontier known with
  | zero =>
      have stop := wellFormed.nextLayer_eq_nil (Nat.le_zero.mp enough) frontier
      exact searched.known_of_stop stop id found
  | succ rounds induction =>
      rw [growLevels_succ]
      split
      case isTrue stop => exact searched.known_of_stop stop id found
      case isFalse layer =>
        have fewer := wellFormed.length_unreached_lt (level + 1) layer
        exact induction searched.next (by omega)

/-- The levels are the distances. -/
theorem lookup_levels {owner id : String} {level : Nat} :
    (index.levels owner).lookup id = some level ↔ index.IsDistance owner level id :=
  wellFormed.lookup_growLevels .start (List.length_filter_le _ _) id level

theorem mem_parts {owner id : String} {level : Nat} {part : Node} :
    part ∈ index.parts (index.levels owner) id level ↔
      part ∈ index.attributeNeighbors id ∧ index.IsDistance owner (level + 1) part.id := by
  rw [parts, List.mem_filter, decide_eq_true_iff, wellFormed.lookup_levels]

end WellFormed

/-! ## The walk -/

section
variable {index : Adjacency} {levels : Levels}

/-- Each visit uses up its identifier. -/
theorem walk_distinct {unvisited : List String} (distinct : unvisited.Nodup)
    (stack : List Visit) :
    ((index.walk levels unvisited stack).map (·.node.id)).Nodup ∧
      (index.walk levels unvisited stack).map (·.node.id) ⊆ unvisited := by
  induction unvisited, stack using walk.induct index levels with
  | case1 => simp [walk]
  | case2 unvisited visit stack unused induction =>
      rw [walk, if_pos unused, List.map_cons, List.nodup_cons]
      rcases induction (distinct.erase _) with ⟨later, within⟩
      refine ⟨⟨fun again => distinct.not_mem_erase (within again), later⟩, ?_⟩
      exact List.cons_subset.mpr ⟨unused, fun id later => List.mem_of_mem_erase (within later)⟩
  | case3 unvisited visit stack used induction =>
      rw [walk, if_neg used]
      exact induction distinct

theorem mem_visited_cons {unvisited : List String} {visit : Visit} {later : List Visit}
    {id : String} (isUnvisited : id ∈ unvisited)
    (isLater : id ∈ unvisited.erase visit.node.id → id ∈ later.map (·.node.id)) :
    id ∈ (visit :: later).map (·.node.id) := by
  rw [List.map_cons, List.mem_cons]
  by_cases same : id = visit.node.id
  · exact .inl same
  · exact .inr (isLater ((List.mem_erase_of_ne same).mpr isUnvisited))

/-- What waits on the stack is visited, and so are the parts of what is visited. -/
theorem walk_visits (unvisited : List String) (stack : List Visit) :
    let visited := (index.walk levels unvisited stack).map (·.node.id)
    (∀ visit ∈ stack, visit.node.id ∈ unvisited → visit.node.id ∈ visited) ∧
      ∀ visit ∈ index.walk levels unvisited stack,
        ∀ part ∈ index.parts levels visit.node.id visit.level,
          part.id ∈ unvisited → part.id ∈ visited := by
  induction unvisited, stack using walk.induct index levels with
  | case1 => simp [walk]
  | case2 unvisited visit stack unused induction =>
      rw [walk, if_pos unused]
      rcases induction with ⟨waiting, parts⟩
      refine ⟨fun next onStack isUnvisited => ?_, fun next visited part isPart isUnvisited => ?_⟩
      · rcases List.mem_cons.mp onStack with rfl | old
        · exact List.mem_cons_self
        · exact mem_visited_cons isUnvisited (waiting next (List.mem_append_right _ old))
      · rcases List.mem_cons.mp visited with rfl | later
        · refine mem_visited_cons isUnvisited (waiting ⟨part, next.level + 1⟩ ?_)
          exact List.mem_append_left _ (List.mem_map_of_mem isPart)
        · exact mem_visited_cons isUnvisited (parts next later part isPart)
  | case3 unvisited visit stack used induction =>
      rw [walk, if_neg used]
      refine ⟨fun next onStack isUnvisited => ?_, induction.2⟩
      rcases List.mem_cons.mp onStack with rfl | old
      · exact absurd isUnvisited used
      · exact induction.1 next old isUnvisited

end

namespace WellFormed

variable {index : Adjacency} (wellFormed : index.WellFormed) (owner : String)
include wellFormed

theorem nodup_visits : ((index.visits owner).map (·.node.id)).Nodup :=
  (walk_distinct wellFormed.distinct _).1

theorem distance_of_mem_visits {visit : Visit} (member : visit ∈ index.visits owner) :
    0 < visit.level ∧ index.IsDistance owner visit.level visit.node.id := by
  let placed (visit : Visit) : Prop :=
    0 < visit.level ∧ index.IsDistance owner visit.level visit.node.id
  change placed visit
  refine walk_forall (fun visit _ part isPart => ?_) (fun visit begins => ?_) visit member
  · exact ⟨Nat.succ_pos _, (wellFormed.mem_parts.mp isPart).2⟩
  · rcases List.mem_map.mp begins with ⟨part, isPart, rfl⟩
    exact ⟨Nat.one_pos, (wellFormed.mem_parts.mp isPart).2⟩

/-- Along a shortest path, each attribute is a part of the one before it. -/
theorem visited_of_distance {id : String} {level : Nat}
    (distance : index.IsDistance owner (level + 1) id) :
    id ∈ (index.visits owner).map (·.node.id) := by
  rcases @walk_visits index (index.levels owner) (index.nodes.map Node.id)
    ((index.parts (index.levels owner) owner 0).map fun part => ⟨part, 1⟩) with ⟨waiting, parts⟩
  induction level generalizing id with
  | zero =>
      rcases distance.exists_before with ⟨before, isBefore, node, isNeighbor, rfl⟩
      rcases wellFormed.attribute_of_mem_attributeNeighbors isNeighbor with ⟨isNode, _⟩
      rcases isDistance_zero.mp isBefore with rfl
      have isPart := wellFormed.mem_parts.mpr ⟨isNeighbor, distance⟩
      exact waiting ⟨node, 1⟩ (List.mem_map_of_mem isPart) (List.mem_map_of_mem isNode)
  | succ level induction =>
      rcases distance.exists_before with ⟨before, isBefore, node, isNeighbor, rfl⟩
      rcases wellFormed.attribute_of_mem_attributeNeighbors isNeighbor with ⟨isNode, _⟩
      rcases List.mem_map.mp (induction isBefore) with ⟨visit, visited, rfl⟩
      have sameLevel : visit.level = level + 1 :=
        (wellFormed.distance_of_mem_visits owner visited).2.unique isBefore
      have isPart := wellFormed.mem_parts.mpr ⟨isNeighbor, sameLevel ▸ distance⟩
      exact parts visit visited node isPart (List.mem_map_of_mem isNode)

/-- The visits are the attributes that have a path from the owner, each with its
distance. -/
theorem mem_visits {visit : Visit} :
    visit ∈ index.visits owner ↔ visit.node ∈ index.nodes ∧ 0 < visit.level ∧
      index.IsDistance owner visit.level visit.node.id := by
  constructor
  · exact fun member => ⟨(wellFormed.attribute_of_mem_visits member).1,
      wellFormed.distance_of_mem_visits owner member⟩
  · rcases visit with ⟨node, level⟩
    rintro ⟨isNode, positive, distance⟩
    rcases Nat.exists_eq_succ_of_ne_zero positive.ne' with ⟨before, rfl⟩
    rcases List.mem_map.mp (wellFormed.visited_of_distance owner distance) with
      ⟨visit, visited, sameId⟩
    have sameNode : visit.node = node :=
      wellFormed.eq_of_id_eq (wellFormed.attribute_of_mem_visits visited).1 isNode sameId
    have sameLevel : visit.level = before.succ :=
      (wellFormed.distance_of_mem_visits owner visited).2.unique (sameId ▸ distance)
    rwa [← sameNode, ← sameLevel]

end WellFormed

/-! ## The leaves -/

/-- An attribute with a path from the owner that touches no attribute farther away. -/
structure IsLeaf (index : Adjacency) (owner : String) (leaf : Node) : Prop where
  isNode : leaf ∈ index.nodes
  isAttribute : leaf.isAttribute = true
  whole : ∃ level, 0 < level ∧ index.IsDistance owner level leaf.id ∧
    ∀ part ∈ index.attributeNeighbors leaf.id, ∀ other,
      index.IsDistance owner other part.id → other ≤ level

namespace WellFormed

variable {index : Adjacency} (wellFormed : index.WellFormed) (owner : String)
include wellFormed

theorem mem_leaves {leaf : Node} :
    leaf ∈ index.leaves owner ↔ index.IsLeaf owner leaf := by
  rw [leaves, List.mem_map]
  constructor
  · rintro ⟨visit, isVisit, rfl⟩
    rcases List.mem_filter.mp isVisit with ⟨visited, without⟩
    rcases (wellFormed.mem_visits owner).mp visited with ⟨isNode, positive, distance⟩
    have isAttribute := (wellFormed.attribute_of_mem_visits visited).2
    refine ⟨isNode, isAttribute, visit.level, positive, distance,
      fun part isNeighbor other partDistance => ?_⟩
    rcases Nat.lt_or_eq_of_le (distance.le_succ isNeighbor partDistance) with near | rfl
    · exact Nat.le_of_lt_succ near
    · have isPart := wellFormed.mem_parts.mpr ⟨isNeighbor, partDistance⟩
      exact absurd (List.isEmpty_iff.mp without ▸ isPart) List.not_mem_nil
  · rintro ⟨isNode, _, level, positive, distance, without⟩
    refine ⟨⟨leaf, level⟩, List.mem_filter.mpr ⟨?_, ?_⟩, rfl⟩
    · exact (wellFormed.mem_visits owner).mpr ⟨isNode, positive, distance⟩
    · refine List.isEmpty_iff.mpr (List.eq_nil_iff_forall_not_mem.mpr fun part isPart => ?_)
      rcases wellFormed.mem_parts.mp isPart with ⟨isNeighbor, farther⟩
      exact Nat.not_succ_le_self level (without part isNeighbor _ farther)

theorem nodup_leaves : ((index.leaves owner).map Node.id).Nodup := by
  rw [leaves, List.map_map]
  exact (wellFormed.nodup_visits owner).sublist (List.filter_sublist.map _)

end WellFormed

end Adjacency

end ErSchema
