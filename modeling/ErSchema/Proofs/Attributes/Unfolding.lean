import ErSchema.Proofs.Attributes.Leaves
import ErSchema.Proofs.Muted
import Mathlib

/-! # The walk unfolds the attributes

From the owner, each attribute can be unfolded into its parts and these into theirs,
without regard to what was met before; a part of two composites is then unfolded
twice. The walk gives the first of each attribute in this unfolding, in its order:
whenever the stack brings an attribute again, all below it was visited. -/

namespace ErSchema

/-- Of the members whose key is in a list, the first one uses up its key. -/
theorem firstBy_filter_cons {α β : Type} [DecidableEq β] (key : α → β) {keys : List β}
    (distinct : keys.Nodup) {member : α} (isKept : key member ∈ keys) (rest : List α) :
    firstBy key ((member :: rest).filter fun other => key other ∈ keys) =
      member :: firstBy key (rest.filter fun other => key other ∈ keys.erase (key member)) := by
  have erased : (rest.filter fun other => key other ∈ keys.erase (key member)) =
      (rest.filter fun other => key other ∈ keys).filter fun other =>
        key other ≠ key member := by
    rw [List.filter_filter]
    refine List.filter_congr fun other _ => ?_
    simp [distinct.mem_erase_iff]
  rw [List.filter_cons, if_pos (decide_eq_true isKept), firstBy, erased,
    firstBy_filter key fun value => value ≠ key member]

namespace Adjacency

variable {index : Adjacency} {owner : String}

/-! ## The unfolding -/

theorem growLevels_le (rounds level : Nat) (frontier : List String) {known : Levels}
    (before : ∀ entry ∈ known, entry.2 ≤ level) :
    ∀ entry ∈ index.growLevels rounds level frontier known, entry.2 ≤ level + rounds := by
  induction rounds generalizing level frontier known with
  | zero => exact before
  | succ rounds induction =>
      rw [growLevels_succ]
      split
      case isTrue => exact fun entry isKnown => (before entry isKnown).trans (Nat.le_add_right ..)
      case isFalse =>
        rw [show level + (rounds + 1) = level + 1 + rounds by omega]
        refine induction (level + 1) _ fun entry member => ?_
        rcases List.mem_append.mp member with old | new
        · exact (before entry old).trans (Nat.le_succ level)
        · rcases List.mem_map.mp new with ⟨found, _, rfl⟩
          exact le_rfl

theorem lookup_of_mem_parts {id : String} {level : Nat} {part : Node}
    (isPart : part ∈ index.parts (index.levels owner) id level) :
    (index.levels owner).lookup part.id = some (level + 1) :=
  of_decide_eq_true (List.mem_filter.mp isPart).2

/-- No attribute is farther away than there are nodes, so each step down comes closer to
the end. -/
theorem lt_of_mem_parts {id : String} {level : Nat} {part : Node}
    (isPart : part ∈ index.parts (index.levels owner) id level) :
    level < index.nodes.length := by
  rcases List.lookup_eq_some_iff.mp (lookup_of_mem_parts isPart) with ⟨front, back, split, _⟩
  have member : (part.id, level + 1) ∈ index.levels owner := by simp [split]
  have begins : ∀ entry ∈ [(owner, 0)], entry.2 ≤ 0 := by simp
  have bound : level + 1 ≤ 0 + index.nodes.length := growLevels_le _ 0 _ begins _ member
  omega

/-- Everything below an attribute at its level: each part, in the order in which the
connections were drawn, before what is below that part. -/
def unfolding (index : Adjacency) (owner id : String) (level : Nat) : List Visit :=
  (index.parts (index.levels owner) id level).attach.flatMap fun part =>
    ⟨part.1, level + 1⟩ :: unfolding index owner part.1.id (level + 1)
  termination_by index.nodes.length - level
  decreasing_by
  have := lt_of_mem_parts part.2
  omega

/-- An attribute before all that is below it. -/
def unfolded (index : Adjacency) (owner : String) (visit : Visit) : List Visit :=
  visit :: index.unfolding owner visit.node.id visit.level

theorem unfolding_eq (id : String) (level : Nat) :
    index.unfolding owner id level =
      ((index.parts (index.levels owner) id level).map fun part =>
        ⟨part, level + 1⟩).flatMap (index.unfolded owner) := by
  rw [unfolding, List.flatMap_map]
  simp [unfolded, List.flatMap_subtype]

theorem mem_unfolding {id : String} {level : Nat} {visit : Visit} :
    visit ∈ index.unfolding owner id level ↔
      ∃ part ∈ index.parts (index.levels owner) id level,
        visit = ⟨part, level + 1⟩ ∨ visit ∈ index.unfolding owner part.id (level + 1) := by
  simp [unfolding_eq id level, unfolded]

/-! ## The stack

What the walk keeps true of the stack: an attribute on top of it is at least as far
from the owner as all below, and the parts of what was visited were visited or wait. -/

structure Pending (index : Adjacency) (owner : String) (unvisited : List String)
    (stack : List Visit) : Prop where
  distinct : unvisited.Nodup
  placed : ∀ visit ∈ stack, (index.levels owner).lookup visit.node.id = some visit.level
  deepest : stack.Pairwise fun above below => below.level ≤ above.level
  waiting (id : String) (level : Nat) : id ∉ unvisited →
    (index.levels owner).lookup id = some level →
      ∀ part ∈ index.parts (index.levels owner) id level, part.id ∈ unvisited →
        ∃ visit ∈ stack, visit.node.id = part.id

namespace Pending

variable {unvisited : List String} {top : Visit} {stack : List Visit}

/-- With nothing on the stack that is farther away than an attribute that was visited,
all below it was visited. -/
theorem not_mem_of_mem_unfolding (pending : index.Pending owner unvisited stack) {id : String}
    {level : Nat} (seen : id ∉ unvisited)
    (isLevel : (index.levels owner).lookup id = some level)
    (near : ∀ visit ∈ stack, visit.level ≤ level) :
    ∀ later ∈ index.unfolding owner id level, later.node.id ∉ unvisited := by
  induction id, level using unfolding.induct index owner with
  | case1 id level induction =>
      intro later isLater
      rcases mem_unfolding.mp isLater with ⟨part, isPart, here⟩
      have partLevel := lookup_of_mem_parts isPart
      -- A part not visited yet would wait on the stack, farther away than all that is there.
      have partSeen : part.id ∉ unvisited := by
        intro unseen
        rcases pending.waiting id level seen isLevel part isPart unseen with
          ⟨waits, onStack, same⟩
        have placed := pending.placed waits onStack
        rw [same, partLevel, Option.some.injEq] at placed
        have := near waits onStack
        omega
      rcases here with rfl | below
      · exact partSeen
      · exact induction ⟨part, isPart⟩ partSeen partLevel
          (fun visit onStack => (near visit onStack).trans (Nat.le_succ level)) later below

theorem near_top (pending : index.Pending owner unvisited (top :: stack)) :
    ∀ visit ∈ top :: stack, visit.level ≤ top.level :=
  List.forall_mem_cons.mpr ⟨le_rfl, (List.pairwise_cons.mp pending.deepest).1⟩

/-- An attribute that was not visited leaves the stack and its parts come. -/
theorem visit (pending : index.Pending owner unvisited (top :: stack)) :
    index.Pending owner (unvisited.erase top.node.id)
      ((index.parts (index.levels owner) top.node.id top.level).map
        (fun part => ⟨part, top.level + 1⟩) ++ stack) where
  distinct := pending.distinct.erase _
  placed next onStack := by
    rcases List.mem_append.mp onStack with new | old
    · rcases List.mem_map.mp new with ⟨part, isPart, rfl⟩
      exact lookup_of_mem_parts isPart
    · exact pending.placed next (List.mem_cons_of_mem _ old)
  deepest := by
    rcases List.pairwise_cons.mp pending.deepest with ⟨highest, rest⟩
    refine List.pairwise_append.mpr ⟨?_, rest, fun above new below old => ?_⟩
    · exact List.pairwise_map.mpr (List.pairwise_of_forall fun _ _ => le_rfl)
    · rcases List.mem_map.mp new with ⟨part, _, rfl⟩
      exact (highest below old).trans (Nat.le_succ _)
  waiting id level seen isLevel part isPart unseen := by
    rw [pending.distinct.mem_erase_iff] at seen unseen
    by_cases same : id = top.node.id
    · have sameLevel : top.level = level := by
        have placed := pending.placed top List.mem_cons_self
        rwa [← same, isLevel, Option.some.injEq, eq_comm] at placed
      subst same sameLevel
      exact ⟨⟨part, top.level + 1⟩, List.mem_append_left _ (List.mem_map_of_mem isPart), rfl⟩
    · have before : id ∉ unvisited := fun unvisited => seen ⟨same, unvisited⟩
      rcases pending.waiting id level before isLevel part isPart unseen.2 with
        ⟨waits, onStack, isWaiting⟩
      rcases List.mem_cons.mp onStack with rfl | old
      · exact absurd isWaiting.symm unseen.1
      · exact ⟨waits, List.mem_append_right _ old, isWaiting⟩

/-- An attribute that was visited only leaves the stack. -/
theorem skip (pending : index.Pending owner unvisited (top :: stack))
    (seen : top.node.id ∉ unvisited) : index.Pending owner unvisited stack where
  distinct := pending.distinct
  placed next old := pending.placed next (List.mem_cons_of_mem _ old)
  deepest := pending.deepest.of_cons
  waiting id level idSeen isLevel part isPart unseen := by
    rcases pending.waiting id level idSeen isLevel part isPart unseen with ⟨waits, onStack, same⟩
    rcases List.mem_cons.mp onStack with rfl | old
    · exact absurd (same ▸ unseen) seen
    · exact ⟨waits, old, same⟩

/-- From here on, the walk gives the first of each attribute not visited in the unfolding of
the stack. -/
theorem walk_eq (pending : index.Pending owner unvisited stack) :
    index.walk (index.levels owner) unvisited stack =
      firstBy (·.node.id) ((stack.flatMap (index.unfolded owner)).filter fun visit =>
        visit.node.id ∈ unvisited) := by
  induction unvisited, stack using walk.induct index (index.levels owner) with
  | case1 => rw [walk]; rfl
  | case2 unvisited top stack unseen induction =>
      rw [walk, if_pos unseen, induction pending.visit, List.flatMap_append, ← unfolding_eq,
        List.flatMap_cons, unfolded, List.cons_append,
        firstBy_filter_cons (fun visit : Visit => visit.node.id) pending.distinct unseen]
  | case3 unvisited top stack seen induction =>
      have below : (index.unfolded owner top).filter (fun visit => visit.node.id ∈ unvisited) =
          [] := by
        refine List.filter_eq_nil_iff.mpr fun visit member => ?_
        rw [decide_eq_true_iff]
        rcases List.mem_cons.mp member with rfl | below
        · exact seen
        · exact pending.not_mem_of_mem_unfolding seen (pending.placed top List.mem_cons_self)
            pending.near_top visit below
      rw [walk, if_neg seen, induction (pending.skip seen), List.flatMap_cons, List.filter_append,
        below, List.nil_append]

end Pending

namespace WellFormed

variable (wellFormed : index.WellFormed) (owner)
include wellFormed

theorem isNode_of_mem_unfolding (id : String) (level : Nat) :
    ∀ later ∈ index.unfolding owner id level, later.node ∈ index.nodes := by
  induction id, level using unfolding.induct index owner with
  | case1 id level induction =>
      intro later isLater
      rcases mem_unfolding.mp isLater with ⟨part, isPart, rfl | below⟩
      · exact (wellFormed.attribute_of_mem_attributeNeighbors (List.mem_of_mem_filter isPart)).1
      · exact induction ⟨part, isPart⟩ later below

/-- Only the owner can have a level without being a node. -/
theorem pending_begins :
    index.Pending owner (index.nodes.map Node.id)
      ((index.parts (index.levels owner) owner 0).map fun part => ⟨part, 1⟩) where
  distinct := wellFormed.distinct
  placed visit begins := by
    rcases List.mem_map.mp begins with ⟨part, isPart, rfl⟩
    exact lookup_of_mem_parts isPart
  deepest := List.pairwise_map.mpr (List.pairwise_of_forall fun _ _ => le_rfl)
  waiting id level unknown isLevel part isPart _ := by
    rcases wellFormed.owner_or_attribute_of_lookup isLevel with rfl | ⟨node, isNode, rfl, _⟩
    · have root : level = 0 :=
        (wellFormed.lookup_levels.mp isLevel).unique (isDistance_zero.mpr rfl)
      exact ⟨⟨part, 1⟩, List.mem_map_of_mem (root ▸ isPart), rfl⟩
    · exact absurd (List.mem_map_of_mem isNode) unknown

theorem visits_eq_firstBy :
    index.visits owner = firstBy (·.node.id) (index.unfolding owner owner 0) := by
  have unfolding : ((index.parts (index.levels owner) owner 0).map fun part =>
      (⟨part, 1⟩ : Visit)).flatMap (index.unfolded owner) = index.unfolding owner owner 0 :=
    (unfolding_eq owner 0).symm
  rw [visits, (wellFormed.pending_begins owner).walk_eq, unfolding]
  refine congrArg _ (List.filter_eq_self.mpr fun visit member => decide_eq_true ?_)
  exact List.mem_map_of_mem (wellFormed.isNode_of_mem_unfolding owner owner 0 visit member)

end WellFormed

-- The city is drawn twice to the home address and once to the work address.
example : ((ofDiagram addresses).unfolding "p" "p" 0).map (·.node.id) =
      ["h", "c", "c", "w", "c", "s"] ∧
    ((ofDiagram addresses).visits "p").map (·.node.id) = ["h", "c", "w", "s"] :=
  ⟨by cbv, by cbv⟩

/-- Of the unfolding, each attribute once, those without parts. -/
def unfoldedLeaves (index : Adjacency) (owner : String) : List Node :=
  ((firstBy (·.node.id) (index.unfolding owner owner 0)).filter fun visit =>
    (index.parts (index.levels owner) visit.node.id visit.level).isEmpty).map (·.node)

end Adjacency

namespace Attributes

/-- The names by kind and key flag alone. -/
def byKind (leaves : List Node) : Attributes :=
  let namesAs (role : Role) : List String :=
    (leaves.filter fun leaf => leaf.kind ≠ .ofAttribute .derived ∧ leaf.role = role).map Node.name
  ⟨namesAs .primaryKey, namesAs .ordinary, namesAs .multivalued⟩

theorem ofLeaves_eq_byKind (leaves : List Node) :
    ofLeaves leaves = byKind (leaves.filter fun leaf => leaf.name ≠ "") := by
  have sameLeaves (role : Role) :
      (leaves.filter fun leaf => roleOf? leaf = some role) =
        (leaves.filter fun leaf => leaf.name ≠ "").filter fun leaf =>
          leaf.kind ≠ .ofAttribute .derived ∧ leaf.role = role := by
    rw [List.filter_filter]
    refine List.filter_congr fun leaf _ => ?_
    rw [roleOf?_eq]
    by_cases named : leaf.name = "" <;> by_cases derived : leaf.kind = .ofAttribute .derived <;>
      simp [named, derived]
  simp only [ofLeaves, byKind, sameLeaves]

end Attributes

namespace Adjacency

open Classical in
/-- For every owner the lists are those of its unfolding, in the order in which its leaves
are met first and without the nameless ones; the parts in it are the attributes that an
attribute touches one step farther from the owner. -/
theorem attributesOf_eq_byKind (diagram : Diagram) (owner : Node) :
    let index := Adjacency.ofDiagram diagram
    index.attributesOf owner =
        .byKind ((index.unfoldedLeaves owner.id).filter fun leaf => leaf.name ≠ "") ∧
      ∀ id level, index.parts (index.levels owner.id) id level =
        (index.attributeNeighbors id).filter fun part =>
          index.IsDistance owner.id (level + 1) part.id := by
  intro index
  have wellFormed : index.WellFormed := wellFormed_ofDiagram diagram
  refine ⟨?_, fun id level => List.filter_congr fun part _ => ?_⟩
  · rw [attributesOf, Attributes.ofLeaves_eq_byKind, leaves, wellFormed.visits_eq_firstBy,
      unfoldedLeaves]
  · rw [decide_eq_decide, wellFormed.lookup_levels]

/-- A person with an attribute that was given no name. -/
def unfinished : Diagram where
  nodes := [Node.entity "p" "Person", Node.simpleAttribute "a" ""]
  edges := [.between "p" "a"]

/-- By its kind alone, the attribute would be listed under the empty name. -/
theorem not_attributesOf_eq_byKind :
    ¬ ∀ (diagram : Diagram) (owner : Node),
      (Adjacency.ofDiagram diagram).attributesOf owner =
        .byKind ((Adjacency.ofDiagram diagram).unfoldedLeaves owner.id) := by
  intro all
  have found : (Adjacency.ofDiagram unfinished).attributesOf (Node.entity "p" "Person") =
      { primaryKeys := [], ordinary := [], multivalued := [] } := by cbv
  have unfolded : Attributes.byKind ((Adjacency.ofDiagram unfinished).unfoldedLeaves "p") =
      { primaryKeys := [], ordinary := [""], multivalued := [] } := by cbv
  have same := (found.symm.trans (all unfinished (Node.entity "p" "Person"))).trans unfolded
  exact absurd same (by decide)

end Adjacency

end ErSchema
