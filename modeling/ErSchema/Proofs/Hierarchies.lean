import ErSchema.Proofs.Connections
import ErSchema.Proofs.FinalTables
import Mathlib

/-! # Hierarchies as they were drawn

The entities that are connected to an ISA node are its members, in the order of their
first connections. Where there are fewer than two the node is reported with their number.
Else the member drawn highest is the superclass, of several at one height the first
connected, and the others are its subclasses. -/

namespace ErSchema

/-! ## Heights -/

namespace Coordinate

def signPlace : Nat := Nat.pow 2 63

def IsNegative (value : Float) : Prop :=
  signPlace ≤ value.toBits.toNat

def magnitude (value : Float) : Nat :=
  value.toBits.toNat % signPlace

/-- The total order of coordinates. Negative ones come before positive ones, and of two
negative ones that with the larger magnitude comes first; so negative zero comes before
zero. -/
inductive Precedes (earlier later : Float) : Prop
  | signs (negative : IsNegative earlier) (positive : ¬ IsNegative later)
  | positives (positive : ¬ IsNegative earlier) (alsoPositive : ¬ IsNegative later)
      (smaller : magnitude earlier < magnitude later)
  | negatives (negative : IsNegative earlier) (alsoNegative : IsNegative later)
      (larger : magnitude later < magnitude earlier)

theorem rank_of_positive {value : Float} (positive : ¬ IsNegative value) :
    coordinateRank value = magnitude value := by
  have small : value.toBits.toNat < signPlace := Nat.not_le.mp positive
  rw [magnitude, Nat.mod_eq_of_lt small]
  exact if_pos small

theorem rank_of_negative {value : Float} (negative : IsNegative value) :
    coordinateRank value = -(magnitude value : Int) - 1 := by
  have bound : value.toBits.toNat < signPlace + signPlace := value.toBits.toNat_lt
  have rest : value.toBits.toNat - signPlace < signPlace := Nat.sub_lt_left_of_lt_add negative bound
  rw [magnitude, Nat.mod_eq_sub_mod negative, Nat.mod_eq_of_lt rest]
  exact if_neg (Nat.not_lt.mpr negative)

theorem precedes_iff {left right : Float} :
    Precedes left right ↔ coordinateRank left < coordinateRank right := by
  constructor
  · intro precedes
    cases precedes with
    | signs negative positive =>
        rw [rank_of_negative negative, rank_of_positive positive]
        omega
    | positives positive alsoPositive smaller =>
        rw [rank_of_positive positive, rank_of_positive alsoPositive]
        omega
    | negatives negative alsoNegative larger =>
        rw [rank_of_negative negative, rank_of_negative alsoNegative]
        omega
  · intro less
    by_cases negative : IsNegative left
    · by_cases alsoNegative : IsNegative right
      · rw [rank_of_negative negative, rank_of_negative alsoNegative] at less
        exact .negatives negative alsoNegative (by omega)
      · exact .signs negative alsoNegative
    · by_cases rightNegative : IsNegative right
      · rw [rank_of_positive negative, rank_of_negative rightNegative] at less
        omega
      · rw [rank_of_positive negative, rank_of_positive rightNegative] at less
        exact .positives negative rightNegative (by omega)

/-- Only one coordinate has each rank. -/
theorem toBits_eq_of_rank_eq {left right : Float}
    (same : coordinateRank left = coordinateRank right) : left.toBits = right.toBits := by
  unfold coordinateRank at same
  apply UInt64.toNat_inj.mp
  dsimp only at same
  split at same <;> split at same <;> omega

example : Precedes (-0.0) 0.0 := precedes_iff.mpr (by decide)

end Coordinate

/-! ## The first of the least -/

/-- One member of a list, with those before it greater and those after it not less. -/
structure IsFirstLeast {α : Type} (rank : α → Int) (before : List α) (least : α)
    (after : List α) : Prop where
  greater : ∀ member ∈ before, rank least < rank member
  notLess : ∀ member ∈ after, rank least ≤ rank member

section
variable {α : Type} {rank : α → Int}

theorem IsFirstLeast.le {before after : List α} {least : α}
    (first : IsFirstLeast rank before least after) {member : α}
    (isMember : member ∈ before ++ least :: after) : rank least ≤ rank member := by
  rcases List.mem_append.mp isMember with early | here
  · exact (first.greater member early).le
  · rcases List.mem_cons.mp here with rfl | late
    · exact le_rfl
    · exact first.notLess member late

theorem firstLeast?_cons {rest : List α} {place : Nat} {least : α}
    (found : firstLeast? rank rest = some place) (atPlace : rest[place]? = some least) (head : α) :
    firstLeast? rank (head :: rest) =
      if rank least < rank head then some (place + 1) else some 0 := by
  unfold firstLeast?
  simp only [found, atPlace, Option.any_some, decide_eq_true_eq]

/-- The place that is found is that of the first of the least members. -/
theorem exists_firstLeast? {members : List α} (nonempty : members ≠ []) :
    ∃ before least after, members = before ++ least :: after ∧
      firstLeast? rank members = some before.length ∧ IsFirstLeast rank before least after := by
  induction members with
  | nil => exact absurd rfl nonempty
  | cons head rest induction =>
      cases rest with
      | nil => exact ⟨[], head, [], rfl, rfl, List.forall_mem_nil _, List.forall_mem_nil _⟩
      | cons next later =>
          obtain ⟨before, least, after, split, found, first⟩ :=
            induction (List.cons_ne_nil next later)
          have atPlace : (next :: later)[before.length]? = some least := by
            rw [split, List.getElem?_append_right le_rfl, Nat.sub_self]
            rfl
          rw [firstLeast?_cons found atPlace head]
          split_ifs with less
          · refine ⟨head :: before, least, after, congrArg _ split, rfl, ?_, first.notLess⟩
            exact List.forall_mem_cons.mpr ⟨less, first.greater⟩
          · -- A head that is as low as the least comes before it and is taken.
            refine ⟨[], head, next :: later, rfl, rfl, List.forall_mem_nil _, ?_⟩
            intro member isMember
            rw [split] at isMember
            exact (Int.not_lt.mp less).trans (first.le isMember)

end

/-- In a list that goes by place, what is kept of each key stands at the least place that
the key has. -/
theorem isLeast_of_mem_firstBy {α β : Type} [DecidableEq β] {key : α → β} {place : α → Nat}
    {members : List α}
    (inOrder : members.Pairwise fun earlier later => place earlier < place later)
    {member : α} (kept : member ∈ firstBy key members) :
    IsLeast {found | ∃ other ∈ members, key other = key member ∧ place other = found}
      (place member) := by
  obtain ⟨_, before, after, split, others⟩ :=
    List.find?_eq_some_iff_append.mp ((mem_firstBy_iff key).mp kept)
  constructor
  · exact ⟨member, (firstBy_sublist key members).subset kept, rfl, rfl⟩
  · rintro _ ⟨other, isOther, same, rfl⟩
    rw [split] at isOther inOrder
    rcases List.mem_append.mp isOther with early | here
    · exact absurd same (by simpa using others other early)
    · rcases List.mem_cons.mp here with rfl | late
      · exact le_rfl
      · have behind := (List.pairwise_append.mp inOrder).2.1
        exact ((List.pairwise_cons.mp behind).1 other late).le

namespace Adjacency

/-! ## The members of a hierarchy -/

section
variable {index : Adjacency} {isa : Node}

theorem hierarchyOf?_eq_none (few : (index.members isa).length < 2) :
    index.hierarchyOf? isa = none := by
  have none : superclassPlace? (index.members isa) = none := if_pos few
  rw [hierarchyOf?]
  simp only [none]
  rfl

/-- Several members make a hierarchy. The superclass is taken out, and the others stay
in order. -/
theorem exists_hierarchyOf? (several : 2 ≤ (index.members isa).length) :
    ∃ before superclass after, index.members isa = before ++ superclass :: after ∧
      index.hierarchyOf? isa = some ⟨isa, superclass, before ++ after⟩ ∧
      IsFirstLeast (fun entity : Node => coordinateRank entity.position.y) before superclass
        after := by
  have nonempty : index.members isa ≠ [] := List.ne_nil_of_length_pos (by omega)
  obtain ⟨before, superclass, after, split, found, first⟩ := exists_firstLeast? nonempty
  refine ⟨before, superclass, after, split, ?_, first⟩
  have place : superclassPlace? (index.members isa) = some before.length := by
    rw [superclassPlace?, if_neg (Nat.not_lt.mpr several), found]
  rw [hierarchyOf?]
  simp only [place]
  rw [split]
  simp [List.eraseIdx_append_of_length_le]

end

end Adjacency

/-! ## Connections to an ISA node -/

namespace Diagram

/-- A connection of the one to the node was drawn before any of the other. -/
def ConnectedBefore (diagram : Diagram) (node earlier later : String) : Prop :=
  ∃ place, diagram.Joins place node earlier ∧ ∀ other ≤ place, ¬ diagram.Joins other node later

/-- The entities that some connection joins to the node, each once. -/
def entitiesAt (diagram : Diagram) (node : Node) : List Node :=
  (Adjacency.ofDiagram diagram).entities.filter fun entity =>
    diagram.edges.any fun edge => node.id ∈ edge.ends && entity.id ∈ edge.ends

variable {diagram : Diagram} {isa : Node}

theorem mem_entitiesAt {entity : Node} :
    entity ∈ diagram.entitiesAt isa ↔
      entity ∈ (Adjacency.ofDiagram diagram).entities ∧
        ∃ place, diagram.Joins place isa.id entity.id := by
  rw [entitiesAt, List.mem_filter, List.any_eq_true]
  simp only [Bool.and_eq_true, decide_eq_true_eq]
  apply and_congr_right
  intro _
  constructor
  · rintro ⟨edge, isEdge, both⟩
    obtain ⟨place, drawn⟩ := List.mem_iff_getElem?.mp isEdge
    exact ⟨place, edge, drawn, both⟩
  · rintro ⟨place, edge, drawn, both⟩
    exact ⟨edge, List.mem_of_getElem? drawn, both⟩

theorem nodup_entitiesAt : ((diagram.entitiesAt isa).map Node.id).Nodup :=
  (Adjacency.wellFormed_ofDiagram diagram).distinct_entities.sublist
    (List.filter_sublist.map Node.id)

end Diagram

namespace Adjacency

section
variable {diagram : Diagram} {isa : Node} (isIsa : isa ∈ (ofDiagram diagram).isaNodes)
include isIsa

theorem joins_iff_of_isa {entity : Node} (isEntity : entity ∈ (ofDiagram diagram).entities)
    {place : Nat} :
    diagram.Joins place isa.id entity.id ↔
      ∃ neighbor ∈ (ofDiagram diagram).entityNeighbors isa.id,
        neighbor.node = entity ∧ neighbor.edge = place := by
  obtain ⟨isNode, ofKind⟩ := List.mem_filter.mp isIsa
  obtain ⟨isOther, entityKind⟩ := mem_entities.mp isEntity
  have apart : isa.id ≠ entity.id := by
    apply (wellFormed_ofDiagram diagram).id_ne_of_kind_ne isNode isOther
    rw [Node.kind_of_isIsa ofKind, Node.kind_of_isEntity entityKind]
    decide
  rw [joins_iff_neighbor (List.mem_map_of_mem isNode) isOther apart]
  constructor
  · rintro ⟨neighbor, isNeighbor, rfl, rfl⟩
    exact ⟨neighbor, List.mem_filter.mpr ⟨isNeighbor, entityKind⟩, rfl, rfl⟩
  · rintro ⟨neighbor, isNeighbor, same⟩
    exact ⟨neighbor, List.mem_of_mem_filter isNeighbor, same⟩

theorem members_perm : ((ofDiagram diagram).members isa).Perm (diagram.entitiesAt isa) := by
  have formed := wellFormed_ofDiagram diagram
  have distinct : ((ofDiagram diagram).members isa).Nodup :=
    (pairwise_firstBy _ _).imp fun apart same => apart (congrArg Node.id same)
  apply (List.perm_ext_iff_of_nodup distinct (Diagram.nodup_entitiesAt.of_map _)).mpr
  intro entity
  rw [Diagram.mem_entitiesAt]
  constructor
  · intro isMember
    have isEntity := formed.mem_entities_of_mem_members isMember
    obtain ⟨neighbor, isNeighbor, same⟩ :=
      List.mem_map.mp ((firstBy_sublist _ _).subset isMember)
    exact ⟨isEntity, neighbor.edge,
      (joins_iff_of_isa isIsa isEntity).mpr ⟨neighbor, isNeighbor, same, rfl⟩⟩
  · rintro ⟨isEntity, place, joins⟩
    obtain ⟨neighbor, isNeighbor, rfl, rfl⟩ := (joins_iff_of_isa isIsa isEntity).mp joins
    obtain ⟨first, isFirst, same⟩ :=
      exists_mem_firstBy Node.id (List.mem_map_of_mem (f := (·.node)) isNeighbor)
    have isMember : first ∈ (ofDiagram diagram).members isa := isFirst
    rwa [formed.eq_of_entity_id_eq (formed.mem_entities_of_mem_members isMember) isEntity same]
      at isMember

/-- The members stand in the order of their first connections. -/
theorem pairwise_members :
    ((ofDiagram diagram).members isa).Pairwise fun earlier later =>
      diagram.ConnectedBefore isa.id earlier.id later.id := by
  have formed := wellFormed_ofDiagram diagram
  have inOrder : ((ofDiagram diagram).entityNeighbors isa.id).Pairwise fun earlier later =>
      earlier.edge < later.edge :=
    (pairwise_neighbors isa.id).filter _
  have members : (ofDiagram diagram).members isa =
      (firstBy (·.node.id) ((ofDiagram diagram).entityNeighbors isa.id)).map (·.node) :=
    firstBy_map _ fun _ _ _ _ => Iff.rfl
  have keptInOrder := inOrder.sublist (firstBy_sublist (·.node.id) _)
  rw [members, List.pairwise_map]
  apply keptInOrder.imp_of_mem
  intro earlier later keptEarlier keptLater before
  have isEarlier := (firstBy_sublist _ _).subset keptEarlier
  have isLater := (firstBy_sublist _ _).subset keptLater
  refine ⟨earlier.edge, ?_, fun place early joins => ?_⟩
  · exact (joins_iff_of_isa isIsa (formed.node_of_mem_entityNeighbors isEarlier)).mpr
      ⟨earlier, isEarlier, rfl, rfl⟩
  · obtain ⟨other, isOther, same, rfl⟩ :=
      (joins_iff_of_isa isIsa (formed.node_of_mem_entityNeighbors isLater)).mp joins
    have least := (isLeast_of_mem_firstBy inOrder keptLater).2
      ⟨other, isOther, congrArg Node.id same, rfl⟩
    omega

end

end Adjacency

/-! ## Resolved or reported -/

/-- The hierarchy has the entities that are connected to its ISA node. The superclass is
drawn above the others, or at the height of one that was connected later. -/
structure Hierarchy.DrawnIn (diagram : Diagram) (hierarchy : Hierarchy) : Prop where
  classes : (hierarchy.superclass :: hierarchy.subclasses).Perm (diagram.entitiesAt hierarchy.isa)
  apart : hierarchy.superclass ∉ hierarchy.subclasses
  inOrder : hierarchy.subclasses.Pairwise fun earlier later =>
    diagram.ConnectedBefore hierarchy.isa.id earlier.id later.id
  highest : ∀ subclass ∈ hierarchy.subclasses,
    Coordinate.Precedes hierarchy.superclass.position.y subclass.position.y ∨
      hierarchy.superclass.position.y.toBits = subclass.position.y.toBits ∧
        diagram.ConnectedBefore hierarchy.isa.id hierarchy.superclass.id subclass.id

namespace Adjacency

section
variable {diagram : Diagram} {isa : Node} (isIsa : isa ∈ (ofDiagram diagram).isaNodes)
include isIsa

theorem exists_drawn_hierarchy (several : 2 ≤ (diagram.entitiesAt isa).length) :
    ∃ hierarchy, (ofDiagram diagram).hierarchyOf? isa = some hierarchy ∧
      hierarchy.isa = isa ∧ hierarchy.DrawnIn diagram := by
  have same := members_perm isIsa
  have inOrder := pairwise_members isIsa
  rw [← same.length_eq] at several
  obtain ⟨before, superclass, after, split, made, first⟩ := exists_hierarchyOf? several
  rw [split] at same inOrder
  have inFront : (before ++ superclass :: after).Perm (superclass :: (before ++ after)) :=
    List.perm_middle
  have classes := inFront.symm.trans same
  have behind := (List.pairwise_append.mp inOrder).2.1
  refine ⟨_, made, rfl, classes, ?_, ?_, ?_⟩
  · have distinct := classes.nodup_iff.mpr (Diagram.nodup_entitiesAt.of_map _)
    exact (List.nodup_cons.mp distinct).1
  · exact inOrder.sublist (List.Sublist.append_left (List.sublist_cons_self _ _) _)
  · intro subclass isSubclass
    rcases List.mem_append.mp isSubclass with early | late
    · exact .inl (Coordinate.precedes_iff.mpr (first.greater subclass early))
    · rcases lt_or_eq_of_le (first.notLess subclass late) with less | equal
      · exact .inl (Coordinate.precedes_iff.mpr less)
      · exact .inr ⟨Coordinate.toBits_eq_of_rank_eq equal,
          (List.pairwise_cons.mp behind).1 subclass late⟩

theorem hierarchyOf?_eq_none_iff :
    (ofDiagram diagram).hierarchyOf? isa = none ↔ (diagram.entitiesAt isa).length < 2 := by
  by_cases few : (diagram.entitiesAt isa).length < 2
  · have fewMembers := few
    rw [← (members_perm isIsa).length_eq] at fewMembers
    exact iff_of_true (hierarchyOf?_eq_none fewMembers) few
  · obtain ⟨hierarchy, made, _⟩ := exists_drawn_hierarchy isIsa (Nat.not_lt.mp few)
    exact iff_of_false (made ▸ Option.some_ne_none hierarchy) few

theorem map_isa_hierarchyOf? :
    ((ofDiagram diagram).hierarchyOf? isa).map (·.isa) =
      Option.guard (fun isa => 2 ≤ (diagram.entitiesAt isa).length) isa := by
  by_cases several : 2 ≤ (diagram.entitiesAt isa).length
  · obtain ⟨hierarchy, made, same, _⟩ := exists_drawn_hierarchy isIsa several
    simp [made, same, several]
  · rw [(hierarchyOf?_eq_none_iff isIsa).mpr (Nat.not_le.mp several)]
    simp [Option.guard, several]

end

theorem map_isa_hierarchies (diagram : Diagram) :
    (ofDiagram diagram).hierarchies.map (·.isa) =
      (ofDiagram diagram).isaNodes.filter fun isa => 2 ≤ (diagram.entitiesAt isa).length := by
  rw [hierarchies, List.map_filterMap, ← List.filterMap_eq_filter]
  exact List.filterMap_congr fun isa isIsa => map_isa_hierarchyOf? isIsa

theorem hierarchyProblems_eq_map (diagram : Diagram) :
    (ofDiagram diagram).hierarchyProblems =
      ((ofDiagram diagram).isaNodes.filter fun isa => (diagram.entitiesAt isa).length < 2).map
        fun isa => .unresolvableHierarchy isa.name (diagram.entitiesAt isa).length := by
  have unresolved : ∀ isa ∈ (ofDiagram diagram).isaNodes,
      ((ofDiagram diagram).hierarchyOf? isa).isNone =
        decide ((diagram.entitiesAt isa).length < 2) := by
    intro isa isIsa
    rw [Bool.eq_iff_iff, Option.isNone_iff_eq_none, decide_eq_true_iff]
    exact hierarchyOf?_eq_none_iff isIsa
  rw [hierarchyProblems, List.filter_congr unresolved]
  apply List.map_congr_left
  intro isa isReported
  rw [(members_perm (List.mem_of_mem_filter isReported)).length_eq]

end Adjacency

def Diagnostic.isUnresolvableHierarchy : Diagnostic → Bool
  | .unresolvableHierarchy _ _ => true
  | _ => false

/-- Hierarchies are reported in one place only. -/
theorem Derivation.filter_isUnresolvableHierarchy (diagram : Diagram) (limit : Option Nat) :
    (ofDiagram diagram limit).diagnostics.filter (·.isUnresolvableHierarchy) =
      (Adjacency.ofDiagram diagram).hierarchyProblems := by
  rw [filter_diagnostics_ofDiagram, List.filter_eq_self.mpr, List.filter_eq_nil_iff.mpr,
    List.append_nil]
  · intro found member
    obtain ⟨entity, _, made⟩ := List.mem_filterMap.mp member
    rw [missingKey?_eq_some made]
    exact Bool.false_ne_true
  · intro found member
    obtain ⟨_, _, rfl⟩ := Adjacency.mem_hierarchyProblems member
    rfl
  · intro found wanted
    cases found with
    | unresolvableHierarchy name entities => exact .inl ⟨name, entities, rfl⟩
    | _ => cases wanted

namespace Adjacency

/-- The ISA nodes with two or more entities each give one hierarchy, which is as drawn, and
the others are each reported once with the number of their entities, in the order of the
nodes. These are all ISA nodes whose identifier is new, so that a search for it finds them
first. -/
theorem hierarchies_exact (diagram : Diagram) (limit : Option Nat) :
    let index := ofDiagram diagram
    let firstDrawn := firstBy Node.id diagram.nodes
    (index.isaNodes.map Node.id).Nodup ∧
      (index.isaNodes = firstDrawn.filter (·.isIsa) ∧
        firstDrawn.Sublist diagram.nodes ∧
        ∀ node, node ∈ firstDrawn ↔
          diagram.nodes.find? (fun other => other.id = node.id) = some node) ∧
      index.hierarchies.map (·.isa) =
        index.isaNodes.filter (fun isa => 2 ≤ (diagram.entitiesAt isa).length) ∧
      (∀ hierarchy ∈ index.hierarchies, hierarchy.DrawnIn diagram) ∧
      index.hierarchyProblems =
        (index.isaNodes.filter fun isa => (diagram.entitiesAt isa).length < 2).map (fun isa =>
          .unresolvableHierarchy isa.name (diagram.entitiesAt isa).length) ∧
      (Derivation.ofDiagram diagram limit).diagnostics.filter (·.isUnresolvableHierarchy) =
        index.hierarchyProblems := by
  intro index firstDrawn
  refine ⟨(wellFormed_ofDiagram diagram).distinct.sublist (List.filter_sublist.map Node.id),
    ⟨rfl, firstBy_sublist Node.id diagram.nodes, fun _ => mem_firstBy_iff Node.id⟩,
    map_isa_hierarchies diagram, ?_, hierarchyProblems_eq_map diagram,
    Derivation.filter_isUnresolvableHierarchy diagram limit⟩
  intro hierarchy isHierarchy
  obtain ⟨isa, isIsa, made⟩ := List.mem_filterMap.mp isHierarchy
  have several : 2 ≤ (diagram.entitiesAt isa).length := by
    apply Nat.not_lt.mp
    intro few
    cases made.symm.trans ((hierarchyOf?_eq_none_iff isIsa).mpr few)
  obtain ⟨same, madeSame, _, drawn⟩ := exists_drawn_hierarchy isIsa several
  rwa [Option.some.inj (made.symm.trans madeSame)]

end Adjacency

end ErSchema
