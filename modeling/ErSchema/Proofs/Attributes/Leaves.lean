import ErSchema.Proofs.Attributes.Distance
import Mathlib

/-! # Every leaf is listed once

An attribute may be met along several composites, along a connection drawn twice or
around a cycle. The walk still lists it once: what it finds are the leaves, each of
them one node, and the role of a leaf says in which of the three lists its name is. -/

namespace ErSchema

/-- The role of a leaf that is stored. -/
def Node.role (leaf : Node) : Attributes.Role :=
  if leaf.kind = .ofAttribute .multivalued then .multivalued
  else if leaf.isPrimaryKey then .primaryKey
  else .ordinary

theorem Attributes.roleOf?_eq (leaf : Node) :
    roleOf? leaf =
      if leaf.name = "" ∨ leaf.kind = .ofAttribute .derived then none
      else some leaf.role := by
  by_cases unnamed : leaf.name = ""
  · rw [roleOf?, if_pos unnamed, if_pos (.inl unnamed)]
  rw [roleOf?, if_neg unnamed, Node.role]
  split
  case h_1 multivalued => simp [unnamed, multivalued]
  case h_2 derived => simp [derived]
  case h_3 single given =>
    rw [if_neg (not_or.mpr ⟨unnamed, given⟩), if_neg single]
    exact (apply_ite some ..).symm

namespace Adjacency

/-- A leaf that has a name and is not derived; at a distance of more than zero it is
not the owner. -/
structure IsListed (index : Adjacency) (owner : String) (leaf : Node) : Prop
    extends index.IsLeaf owner leaf where
  named : leaf.name ≠ ""
  given : leaf.kind ≠ .ofAttribute .derived

theorem isListed_and_role_iff {index : Adjacency} {owner : String} {leaf : Node}
    {role : Attributes.Role} :
    index.IsListed owner leaf ∧ leaf.role = role ↔
      index.IsLeaf owner leaf ∧ Attributes.roleOf? leaf = some role := by
  rw [Attributes.roleOf?_eq]
  constructor
  · rintro ⟨⟨isLeaf, named, given⟩, rfl⟩
    exact ⟨isLeaf, if_neg (not_or.mpr ⟨named, given⟩)⟩
  · rintro ⟨isLeaf, isRole⟩
    split at isRole
    case isTrue => cases isRole
    case isFalse stored =>
      rcases not_or.mp stored with ⟨named, given⟩
      exact ⟨⟨isLeaf, named, given⟩, Option.some.inj isRole⟩

open Classical in
/-- The nodes that are listed, as often as the graph has them. -/
noncomputable def listed (index : Adjacency) (owner : String) : Multiset Node :=
  (index.nodes : Multiset Node).filter (index.IsListed owner)

namespace WellFormed

variable {index : Adjacency} (wellFormed : index.WellFormed) (owner : String)
include wellFormed

open Classical in
theorem coe_leaves :
    (index.leaves owner : Multiset Node) =
      (index.nodes : Multiset Node).filter (index.IsLeaf owner) := by
  have leaves : (index.leaves owner).Nodup := (wellFormed.nodup_leaves owner).of_map
  have nodes : index.nodes.Nodup := wellFormed.distinct.of_map
  rw [Multiset.filter_coe, Multiset.coe_eq_coe, List.perm_ext_iff_of_nodup leaves (nodes.filter _)]
  intro leaf
  rw [wellFormed.mem_leaves, List.mem_filter, decide_eq_true_iff]
  exact ⟨fun isLeaf => ⟨isLeaf.isNode, isLeaf⟩, And.right⟩

/-- The leaves of a role are the listed nodes of that role. -/
theorem coe_leavesAs (role : Attributes.Role) :
    (((index.leaves owner).filter fun leaf => Attributes.roleOf? leaf = some role :
      List Node) : Multiset Node) = (index.listed owner).filter (·.role = role) := by
  classical
  rw [← Multiset.filter_coe, wellFormed.coe_leaves, listed, Multiset.filter_filter,
    Multiset.filter_filter]
  refine Multiset.filter_congr fun leaf _ => ?_
  rw [and_comm, ← isListed_and_role_iff, and_comm]

end WellFormed

theorem filter_role_add (leaves : Multiset Node) :
    leaves.filter (·.role = .primaryKey) + leaves.filter (·.role = .ordinary) +
      leaves.filter (·.role = .multivalued) = leaves := by
  induction leaves using Multiset.induction_on with
  | empty => rfl
  | cons leaf leaves induction =>
      nth_rewrite 4 [← induction]
      cases role : leaf.role <;> simp [role]

/-- For every owner the search and the walk come to an end, and the three lists have
the names of the listed nodes, each as often as nodes have it, in the list of its role. -/
theorem attributesOf_lists_leaves (diagram : Diagram) (owner : Node) :
    let index := Adjacency.ofDiagram diagram
    let found := index.attributesOf owner
    let listed := index.listed owner.id
    (∀ rounds ≥ index.nodes.length,
      index.growLevels rounds 0 [owner.id] [(owner.id, 0)] = index.levels owner.id) ∧
    (index.visits owner.id).length ≤ index.nodes.length ∧
    ((found.primaryKeys ++ found.ordinary ++ found.multivalued : List String) :
      Multiset String) = listed.map Node.name ∧
    (found.primaryKeys : Multiset String) =
      (listed.filter (·.role = .primaryKey)).map Node.name ∧
    (found.ordinary : Multiset String) =
      (listed.filter (·.role = .ordinary)).map Node.name ∧
    (found.multivalued : Multiset String) =
      (listed.filter (·.role = .multivalued)).map Node.name := by
  intro index found listed
  have wellFormed : index.WellFormed := wellFormed_ofDiagram diagram
  have namesAs (role : Attributes.Role) :
      ((((index.leaves owner.id).filter fun leaf => Attributes.roleOf? leaf = some role).map
        Node.name : List String) : Multiset String) =
          (listed.filter (·.role = role)).map Node.name := by
    rw [← Multiset.map_coe, wellFormed.coe_leavesAs]
  have primaryKeys : (found.primaryKeys : Multiset String) = _ := namesAs .primaryKey
  have ordinary : (found.ordinary : Multiset String) = _ := namesAs .ordinary
  have multivalued : (found.multivalued : Multiset String) = _ := namesAs .multivalued
  refine ⟨fun rounds enough => ?_, ?_, ?_, primaryKeys, ordinary, multivalued⟩
  · exact wellFormed.growLevels_of_le 0 _ _ (List.length_filter_le _ _) enough
  · have within : (index.visits owner.id).map (·.node.id) ⊆ index.nodes.map Node.id :=
      (walk_distinct wellFormed.distinct _).2
    simpa using ((wellFormed.nodup_visits owner.id).subperm within).length_le
  · rw [← Multiset.coe_add, ← Multiset.coe_add, primaryKeys, ordinary, multivalued,
      ← Multiset.map_add, ← Multiset.map_add, filter_role_add]

/-- A home and a work address that touch each other and share the city, which is drawn
twice to the first of them. -/
def addresses : Diagram where
  nodes := [Node.entity "p" "Person", Node.simpleAttribute "h" "home",
    Node.simpleAttribute "w" "work", Node.simpleAttribute "c" "city",
    Node.simpleAttribute "s" "street"]
  edges := [.between "p" "h", .between "p" "w", .between "h" "c", .between "c" "h",
    .between "w" "c", .between "h" "w", .between "w" "s"]

example : (Adjacency.ofDiagram addresses).attributesOf (Node.entity "p" "Person") =
    { primaryKeys := [], ordinary := ["city", "street"], multivalued := [] } := by cbv

end Adjacency

end ErSchema
