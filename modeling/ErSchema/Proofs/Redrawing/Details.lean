import ErSchema.Proofs.Redrawing.Tables

/-! # Details of a drawing

Much of what is drawn is there for the reader: how a line is dashed, where a
relationship stands, what a label says. Two drawings that agree in everything else
are one diagram. Of the texts at the ends of connections only one is read, the one
at an entity that is joined to a relationship, and of it only whether it says
many. -/

namespace ErSchema

namespace Adjacency

/-- A connection has an entity at `own` and a relationship at `far`. -/
def isEntityEnd (index : Adjacency) (own far : String) : Bool :=
  (index.node? own).any (·.isEntity) && (index.node? far).any (·.isRelationship)

end Adjacency

/-- The same ends, and the same answer wherever a label is read. -/
structure Edge.Alike (index : Adjacency) (edge other : Edge) : Prop where
  start : other.start = edge.start
  finish : other.finish = edge.finish
  startCard : index.isEntityEnd edge.start edge.finish = true →
    other.startCard.isMany = edge.startCard.isMany
  finishCard : index.isEntityEnd edge.finish edge.start = true →
    other.finishCard.isMany = edge.finishCard.isMany

/-- Nodes and connections one by one differ in details only. -/
structure Diagram.Alike (diagram other : Diagram) : Prop where
  nodes : List.Forall₂ (Node.Alike id) diagram.nodes other.nodes
  edges : List.Forall₂ (Edge.Alike (.ofDiagram diagram)) diagram.edges other.edges

/-! ## Lists with related members -/

section
variable {α β γ : Type} {related : α → β → Prop} {members : List α} {others : List β}
  (pairs : List.Forall₂ related members others)
include pairs

theorem forall₂_zipIdx (place : Nat) :
    List.Forall₂ (fun left right => related left.1 right.1 ∧ right.2 = left.2)
      (members.zipIdx place) (others.zipIdx place) := by
  induction pairs generalizing place with
  | nil => exact .nil
  | cons pair _ induction => exact .cons ⟨pair, rfl⟩ (induction (place + 1))

theorem filterMap_congr_of_forall₂ {before : α → Option γ} {after : β → Option γ}
    (same : ∀ member other, related member other → after other = before member) :
    others.filterMap after = members.filterMap before := by
  induction pairs with
  | nil => rfl
  | cons pair _ induction => rw [List.filterMap_cons, List.filterMap_cons, same _ _ pair, induction]

variable [DecidableEq γ] {key : α → γ} {otherKey : β → γ}
  (same : ∀ member other, related member other → otherKey other = key member)
include same

theorem forall₂_firstBy :
    List.Forall₂ related (firstBy key members) (firstBy otherKey others) := by
  induction pairs with
  | nil => exact .nil
  | cons pair _ induction =>
      refine .cons pair (forall₂_filter induction fun member other later => ?_)
      rw [same _ _ pair, same _ _ later]

theorem forall₂_repeatedBy (seen : List γ) :
    List.Forall₂ related (repeatedBy key seen members) (repeatedBy otherKey seen others) := by
  induction pairs generalizing seen with
  | nil => exact .nil
  | @cons member other _ _ pair _ induction =>
      unfold repeatedBy
      rw [same _ _ pair]
      split
      · exact .cons pair (induction seen)
      · exact induction (key member :: seen)

end

/-! ## The same graph -/

/-- A link between the new nodes, with the same answer wherever a label is read. -/
structure Link.Alike (redraw : Node → Node) (link other : Link) : Prop where
  edge : other.edge = link.edge
  start : other.start = redraw link.start
  finish : other.finish = redraw link.finish
  startCard : link.start.isEntity = true → link.finish.isRelationship = true →
    other.startCard.isMany = link.startCard.isMany
  finishCard : link.finish.isEntity = true → link.start.isRelationship = true →
    other.finishCard.isMany = link.finishCard.isMany

namespace Adjacency

theorem rel_find? {related : Node → Node → Prop} {nodes others : List Node}
    (pairs : List.Forall₂ related nodes others)
    (ids : ∀ node other, related node other → other.id = node.id) (sought : String) :
    Option.Rel related (find? nodes sought) (find? others sought) := by
  unfold find?
  induction pairs with
  | nil => exact .none
  | @cons node other _ _ pair _ induction =>
      rw [List.find?_cons, List.find?_cons, ids _ _ pair]
      by_cases own : node.id = sought
      · simpa [own] using pair
      · simpa [own] using induction

end Adjacency

/-- The node that stands for this one in the other drawing. -/
def Diagram.counterpart (other : Diagram) (node : Node) : Node :=
  ((Adjacency.ofDiagram other).node? node.id).getD node

namespace Diagram.Alike

variable {diagram other : Diagram} (alike : diagram.Alike other)
include alike

theorem firsts : List.Forall₂ (Node.Alike id) (Adjacency.ofDiagram diagram).nodes
    (Adjacency.ofDiagram other).nodes :=
  forall₂_firstBy alike.nodes fun _ _ pair => pair.id

theorem missingEnd?_eq {edge otherEdge : Edge}
    (pair : edge.Alike (.ofDiagram diagram) otherEdge) :
    Adjacency.missingEnd? (Adjacency.ofDiagram other).nodes otherEdge =
      Adjacency.missingEnd? (Adjacency.ofDiagram diagram).nodes edge := by
  have missing (sought : String) :
      (Adjacency.find? (Adjacency.ofDiagram other).nodes sought).isNone =
        (Adjacency.find? (Adjacency.ofDiagram diagram).nodes sought).isNone := by
    have related := Adjacency.rel_find? alike.firsts (fun _ _ pair => pair.id) sought
    generalize Adjacency.find? (Adjacency.ofDiagram diagram).nodes sought = found at related ⊢
    generalize Adjacency.find? (Adjacency.ofDiagram other).nodes sought = met at related ⊢
    cases related with
    | none => rfl
    | some => rfl
  simp only [Adjacency.missingEnd?, pair.start, pair.finish, missing]

theorem problems_eq : Adjacency.problems other = Adjacency.problems diagram := by
  have repeats : (repeatedBy Node.id [] other.nodes).map (fun node => .duplicateNode node.id) =
      (repeatedBy Node.id [] diagram.nodes).map fun node => Diagnostic.duplicateNode node.id :=
    map_eq_of_forall₂ (forall₂_repeatedBy alike.nodes (fun _ _ pair => pair.id) [])
      fun _ _ pair => congrArg Diagnostic.duplicateNode pair.id
  rw [Adjacency.problems, Adjacency.problems, repeats]
  refine congrArg _ (filterMap_congr_of_forall₂ (forall₂_zipIdx alike.edges 0) ?_)
  rintro ⟨edge, place⟩ ⟨otherEdge, otherPlace⟩ ⟨pair, samePlace⟩
  cases samePlace
  exact congrArg (Option.map (Diagnostic.missingEndpoint place)) (alike.missingEnd?_eq pair)

/-- Each node has its counterpart at its place. -/
theorem counterparts : List.Forall₂ (fun node found =>
    node.Alike id found ∧ other.counterpart node = found)
      (Adjacency.ofDiagram diagram).nodes (Adjacency.ofDiagram other).nodes := by
  refine forall₂_imp_of_mem (fun node _ found isFound pair => ⟨pair, ?_⟩) alike.firsts
  have present : (Adjacency.ofDiagram other).node? node.id = some found :=
    (Adjacency.find?_eq_some_iff (Adjacency.wellFormed_ofDiagram other).distinct).mpr
      ⟨isFound, pair.id⟩
  rw [counterpart, present, Option.getD_some]

theorem alike_counterpart {node : Node} (isNode : node ∈ (Adjacency.ofDiagram diagram).nodes) :
    node.Alike id (other.counterpart node) := by
  rcases exists_right_of_forall₂ alike.counterparts isNode with ⟨_, _, pair, rfl⟩
  exact pair

theorem nodes_eq : (Adjacency.ofDiagram other).nodes =
    (Adjacency.ofDiagram diagram).nodes.map other.counterpart := by
  rw [← List.map_id (Adjacency.ofDiagram other).nodes]
  exact map_eq_of_forall₂ alike.counterparts fun _ _ pair => pair.2.symm

theorem rel_linkOf? {edge otherEdge : Edge} (pair : edge.Alike (.ofDiagram diagram) otherEdge)
    (place : Nat) :
    Option.Rel (Link.Alike other.counterpart)
      (Adjacency.linkOf? (Adjacency.ofDiagram diagram).nodes edge place)
      (Adjacency.linkOf? (Adjacency.ofDiagram other).nodes otherEdge place) := by
  have ends := Adjacency.rel_find? alike.counterparts fun _ _ pair => pair.1.id
  have starts := ends edge.start
  have finishes := ends edge.finish
  have startCard := pair.startCard
  have finishCard := pair.finishCard
  unfold Adjacency.isEntityEnd Adjacency.node? at startCard finishCard
  unfold Adjacency.linkOf?
  rw [pair.start, pair.finish]
  generalize Adjacency.find? (Adjacency.ofDiagram diagram).nodes edge.start = start
    at starts startCard finishCard ⊢
  generalize Adjacency.find? (Adjacency.ofDiagram other).nodes edge.start = newStart at starts ⊢
  generalize Adjacency.find? (Adjacency.ofDiagram diagram).nodes edge.finish = finish
    at finishes startCard finishCard ⊢
  generalize Adjacency.find? (Adjacency.ofDiagram other).nodes edge.finish = newFinish
    at finishes ⊢
  cases starts with
  | none => exact .none
  | @some start _ startPair =>
      cases finishes with
      | none => exact .none
      | @some finish _ finishPair =>
          by_cases loop : edge.start = edge.finish
          · simp [loop]
          · simp only [Option.bind_eq_bind, Option.bind_some, loop, if_false]
            exact .some ⟨rfl, startPair.2.symm, finishPair.2.symm,
              fun isEntity isRelationship => startCard (Bool.and_eq_true_iff.mpr ⟨isEntity, isRelationship⟩),
              fun isEntity isRelationship => finishCard (Bool.and_eq_true_iff.mpr ⟨isEntity, isRelationship⟩)⟩

theorem links : List.Forall₂ (Link.Alike other.counterpart) (Adjacency.ofDiagram diagram).links
    (Adjacency.ofDiagram other).links := by
  refine List.rel_filterMap ?_ (forall₂_zipIdx alike.edges 0)
  rintro ⟨edge, place⟩ ⟨otherEdge, otherPlace⟩ ⟨pair, samePlace⟩
  cases samePlace
  exact alike.rel_linkOf? pair place

/-- A label is read by the node at whose end it stands or by the node at the other
end; in both cases it is the same label. -/
theorem rel_neighborOf? {link otherLink : Link} (pair : link.Alike other.counterpart otherLink)
    (isLink : link ∈ (Adjacency.ofDiagram diagram).links) {node : Node}
    (isNode : node ∈ (Adjacency.ofDiagram diagram).nodes) :
    Option.Rel (Neighbor.Alike other.counterpart node) (link.neighborOf? node.id)
      (otherLink.neighborOf? node.id) := by
  have formed := Adjacency.wellFormed_ofDiagram diagram
  have ends := formed.ends link isLink
  have startId : otherLink.start.id = link.start.id :=
    pair.start ▸ (alike.alike_counterpart ends.1).id
  have finishId : otherLink.finish.id = link.finish.id :=
    pair.finish ▸ (alike.alike_counterpart ends.2).id
  unfold Link.neighborOf?
  rw [startId, finishId]
  by_cases starts : link.start.id = node.id
  · rw [if_pos starts, if_pos starts]
    cases formed.eq_of_id_eq ends.1 isNode starts
    exact .some ⟨pair.edge, pair.finish, pair.startCard,
      fun isRelationship isEntity => pair.finishCard isEntity isRelationship⟩
  · rw [if_neg starts, if_neg starts]
    by_cases finishes : link.finish.id = node.id
    · rw [if_pos finishes, if_pos finishes]
      cases formed.eq_of_id_eq ends.2 isNode finishes
      exact .some ⟨pair.edge, pair.start, pair.finishCard,
        fun isRelationship isEntity => pair.startCard isEntity isRelationship⟩
    · rw [if_neg finishes, if_neg finishes]
      exact .none

theorem redraws : Adjacency.Redraws id other.counterpart (.ofDiagram diagram)
    (.ofDiagram other) where
  formed := Adjacency.wellFormed_ofDiagram diagram
  redrawnFormed := Adjacency.wellFormed_ofDiagram other
  injective := Function.injective_id
  alike _ isNode := alike.alike_counterpart isNode
  nodes := alike.nodes_eq
  neighbors node isNode := by
    have linked := (List.forall₂_and_left _ _).mpr ⟨fun _ isLink => isLink, alike.links⟩
    exact List.rel_filterMap (fun _ _ both => alike.rel_neighborOf? both.2 both.1 isNode) linked

end Diagram.Alike

namespace Derivation

/-- Two diagrams that differ only in how lines are dashed, in where nodes stand from
left to right, in the height of anything but an entity, in labels anywhere but at
an entity that is joined to a relationship, in the weakness of attributes, ISA
nodes and labels, in the key mark of anything but simple attributes and in the text
of labels lead to the same tables and the same findings, whatever the limit. -/
theorem details_free {diagram other : Diagram} (alike : diagram.Alike other)
    (limit : Option Nat) : ofDiagram other limit = ofDiagram diagram limit := by
  have schema := schema_redraw alike.redraws limit
  have drawing : Adjacency.problems other = (Adjacency.problems diagram).map id := by
    rw [alike.problems_eq, List.map_id]
  have found := diagnostics_redraw alike.redraws drawing (fun _ _ => rfl) limit
  rw [List.map_id] at found
  calc ofDiagram other limit
      = ⟨(ofDiagram other limit).schema, (ofDiagram other limit).diagnostics⟩ := rfl
    _ = ⟨(ofDiagram diagram limit).schema, (ofDiagram diagram limit).diagnostics⟩ := by
        rw [schema, found]

/-- Rooms with telephones; the address of a building is all that tells them apart. -/
def classrooms : Diagram where
  nodes := [Node.entity "b" "Building", (Node.simpleAttribute "a" "address").primaryKey,
    (Node.entity "r" "Room").weak, Node.multivaluedAttribute "p" "phone",
    (Node.relationship "h" "Has").weak, Node.isa "i", Node.label "l" "ground floor"]
  edges := [.between "b" "a", .between "r" "p", (Edge.between "b" "h").withCards "1" "",
    (Edge.between "h" "r").withCards "" "N"]

/-- The same, moved about and marked where it means nothing. -/
def classroomsAnew : Diagram where
  nodes := [(Node.entity "b" "Building").drawnAt 300 0,
    (Node.simpleAttribute "a" "address").primaryKey.weak.drawnAt 20 40,
    (Node.entity "r" "Room").weak.primaryKey,
    (Node.multivaluedAttribute "p" "phone").primaryKey,
    (Node.relationship "h" "Has").weak.drawnAt 0 250, (Node.isa "i").weak,
    Node.label "l" "first floor"]
  edges := [(Edge.between "b" "a").withCards "1" "N", { Edge.between "r" "p" with style := .dashed },
    { (Edge.between "b" "h").withCards "1" "N" with style := .double },
    (Edge.between "h" "r").withCards "N" "(0,n)"]

theorem details_free_classrooms :
    classrooms.Alike classroomsAnew ∧ ofDiagram classroomsAnew none = ofDiagram classrooms none ∧
      (ofDiagram classroomsAnew none).schema.tables.map Table.names =
        [["address"], ["address"], ["address", "phone"]] := by
  have noOwner {node : Node} {same : Prop} (other : (node.isEntity || node.isRelationship) = false)
      (isOwner : node.isEntity = true ∨ node.isRelationship = true) : same :=
    absurd (other.symm.trans (Bool.or_eq_true_iff.mpr isOwner)) Bool.false_ne_true
  have noEntity {node : Node} {same : Prop} (other : node.isEntity = false)
      (isEntity : node.isEntity = true) : same :=
    absurd (other.symm.trans isEntity) Bool.false_ne_true
  have nodes : List.Forall₂ (Node.Alike id) classrooms.nodes classroomsAnew.nodes :=
    .cons ⟨rfl, rfl, fun _ => rfl, fun _ => rfl, fun _ => rfl, fun _ => rfl⟩ <|
    .cons ⟨rfl, rfl, fun _ => rfl, noOwner rfl, fun _ => rfl, noEntity rfl⟩ <|
    .cons ⟨rfl, rfl, fun _ => rfl, fun _ => rfl, NodeKind.noConfusion, fun _ => rfl⟩ <|
    .cons ⟨rfl, rfl, fun _ => rfl, fun _ => rfl,
      fun simple => absurd simple (by decide), fun _ => rfl⟩ <|
    .cons ⟨rfl, rfl, fun _ => rfl, fun _ => rfl, fun _ => rfl, noEntity rfl⟩ <|
    .cons ⟨rfl, rfl, fun _ => rfl, noOwner rfl, fun _ => rfl, fun _ => rfl⟩ <|
    .cons ⟨rfl, rfl, fun unlabelled => absurd rfl unlabelled, fun _ => rfl, fun _ => rfl,
      fun _ => rfl⟩ .nil
  have elsewhere {own far : String} {same : Prop}
      (other : (Adjacency.ofDiagram classrooms).isEntityEnd own far = false)
      (isEnd : (Adjacency.ofDiagram classrooms).isEntityEnd own far = true) : same :=
    absurd (other.symm.trans isEnd) Bool.false_ne_true
  have edges : List.Forall₂ (Edge.Alike (.ofDiagram classrooms)) classrooms.edges
      classroomsAnew.edges :=
    .cons ⟨rfl, rfl, elsewhere (by cbv), elsewhere (by cbv)⟩ <|
    .cons ⟨rfl, rfl, fun _ => rfl, fun _ => rfl⟩ <|
    .cons ⟨rfl, rfl, fun _ => rfl, elsewhere (by cbv)⟩ <|
    .cons ⟨rfl, rfl, elsewhere (by cbv), fun _ => by cbv⟩ .nil
  have same := details_free ⟨nodes, edges⟩ none
  have names : (ofDiagram classrooms none).schema.tables.map Table.names =
      [["address"], ["address"], ["address", "phone"]] := by
    rw [tables_ofDiagram]
    cbv
  rw [same]
  exact ⟨⟨nodes, edges⟩, rfl, names⟩

end Derivation

end ErSchema
