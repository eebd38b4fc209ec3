import ErSchema.Proofs.Redrawing.Tables

/-! # Renamed identifiers

Identifiers tell nodes apart and nothing else. A diagram with other identifiers,
different ones for different ones, is the same diagram drawn anew: it leads to the
same tables and the same findings, and only the findings about the drawing itself
name the identifiers. -/

namespace ErSchema

def Node.renamed (rename : String → String) (node : Node) : Node :=
  { node with id := rename node.id }

def Edge.renamed (rename : String → String) (edge : Edge) : Edge :=
  { edge with start := rename edge.start, finish := rename edge.finish }

namespace Diagram

/-- The identifiers of the nodes and those at the ends of connections, whether or
not a node has them. -/
def ids (diagram : Diagram) : List String :=
  diagram.nodes.map Node.id ++ diagram.edges.flatMap fun edge => [edge.start, edge.finish]

def renamed (rename : String → String) (diagram : Diagram) : Diagram :=
  ⟨diagram.nodes.map (Node.renamed rename), diagram.edges.map (Edge.renamed rename)⟩

theorem id_mem_ids {diagram : Diagram} {node : Node} (isNode : node ∈ diagram.nodes) :
    node.id ∈ diagram.ids :=
  List.mem_append_left _ (List.mem_map_of_mem isNode)

theorem ends_mem_ids {diagram : Diagram} {edge : Edge} (isEdge : edge ∈ diagram.edges) :
    edge.start ∈ diagram.ids ∧ edge.finish ∈ diagram.ids :=
  ⟨List.mem_append_right _ (List.mem_flatMap.mpr ⟨edge, isEdge, by simp⟩),
    List.mem_append_right _ (List.mem_flatMap.mpr ⟨edge, isEdge, by simp⟩)⟩

end Diagram

/-- Only findings about the drawing itself name identifiers. -/
def Diagnostic.renamed (rename : String → String) : Diagnostic → Diagnostic
  | .missingEndpoint edge nodeId => .missingEndpoint edge (rename nodeId)
  | .duplicateNode id => .duplicateNode (rename id)
  | other => other

theorem Diagnostic.renamed_of_not_stray (rename : String → String) {found : Diagnostic}
    (meant : found.isStray = false) : found.renamed rename = found := by
  cases found with
  | missingEndpoint => exact absurd meant Bool.true_eq_false.mp
  | duplicateNode => exact absurd meant Bool.true_eq_false.mp
  | _ => rfl

theorem repeatedBy_map {α α' β β' : Type} [DecidableEq β] [DecidableEq β'] {key : α → β}
    {newKey : α' → β'} {rename : β → β'} (injective : Function.Injective rename) (change : α → α')
    (renamed : ∀ member, newKey (change member) = rename (key member)) (seen : List β)
    (members : List α) :
    repeatedBy newKey (seen.map rename) (members.map change) =
      (repeatedBy key seen members).map change := by
  induction members generalizing seen with
  | nil => rfl
  | cons member rest induction =>
      have known : newKey (change member) ∈ seen.map rename ↔ key member ∈ seen := by
        rw [renamed, List.mem_map_of_injective injective]
      have others := induction (key member :: seen)
      rw [List.map_cons, ← renamed] at others
      rw [List.map_cons, repeatedBy, repeatedBy, others, induction seen]
      by_cases old : key member ∈ seen
      · rw [if_pos old, if_pos (known.mpr old), List.map_cons]
      · rw [if_neg old, if_neg (mt known.mp old)]

/-! ## The graph under new identifiers -/

def Link.renamed (rename : String → String) (link : Link) : Link :=
  { link with start := link.start.renamed rename, finish := link.finish.renamed rename }

def Neighbor.renamed (rename : String → String) (neighbor : Neighbor) : Neighbor :=
  { neighbor with node := neighbor.node.renamed rename }

theorem Node.alike_renamed (rename : String → String) (node : Node) :
    node.Alike rename (node.renamed rename) :=
  ⟨rfl, rfl, fun _ => rfl, fun _ => rfl, fun _ => rfl, fun _ => rfl⟩

theorem Neighbor.alike_renamed (rename : String → String) (own : Node) (neighbor : Neighbor) :
    neighbor.Alike (Node.renamed rename) own (neighbor.renamed rename) :=
  ⟨rfl, rfl, fun _ _ => rfl, fun _ _ => rfl⟩

namespace Adjacency

section
variable {rename : String → String} (injective : Function.Injective rename)
include injective

theorem neighborOf?_renamed (link : Link) (id : String) :
    (link.renamed rename).neighborOf? (rename id) =
      (link.neighborOf? id).map (Neighbor.renamed rename) := by
  simp only [Link.neighborOf?, Link.renamed, Node.renamed, injective.eq_iff]
  split
  · rfl
  · split <;> rfl

theorem find?_renamed (nodes : List Node) (id : String) :
    find? (nodes.map (Node.renamed rename)) (rename id) =
      (find? nodes id).map (Node.renamed rename) := by
  simp [find?, List.find?_map, Node.renamed, injective.eq_iff]

theorem linkOf?_renamed (nodes : List Node) (edge : Edge) (place : Nat) :
    linkOf? (nodes.map (Node.renamed rename)) (edge.renamed rename) place =
      (linkOf? nodes edge place).map (Link.renamed rename) := by
  simp only [linkOf?, Edge.renamed, find?_renamed injective, injective.eq_iff]
  cases find? nodes edge.start with
  | none => rfl
  | some start =>
      cases find? nodes edge.finish with
      | none => rfl
      | some finish =>
          by_cases loop : edge.start = edge.finish
          · simp [loop]
          · simp [loop, Link.renamed]

theorem missingEnd?_renamed (nodes : List Node) (edge : Edge) :
    missingEnd? (nodes.map (Node.renamed rename)) (edge.renamed rename) =
      (missingEnd? nodes edge).map rename := by
  have ends : [(edge.renamed rename).start, (edge.renamed rename).finish] =
      [edge.start, edge.finish].map rename := rfl
  rw [missingEnd?, missingEnd?, ends, List.find?_map]
  simp [find?_renamed injective]

theorem nodes_renamed (diagram : Diagram) :
    firstBy Node.id (diagram.renamed rename).nodes =
      (firstBy Node.id diagram.nodes).map (Node.renamed rename) :=
  firstBy_map _ fun _ _ _ _ => injective.eq_iff

theorem links_renamed (diagram : Diagram) :
    (ofDiagram (diagram.renamed rename)).links =
      (ofDiagram diagram).links.map (Link.renamed rename) := by
  change List.filterMap _ _ = (List.filterMap _ _).map _
  rw [nodes_renamed injective, List.map_filterMap, Diagram.renamed, List.zipIdx_map,
    List.filterMap_map]
  apply List.filterMap_congr
  rintro ⟨edge, place⟩ _
  exact linkOf?_renamed injective _ edge place

theorem redraws_renamed (diagram : Diagram) :
    Redraws rename (Node.renamed rename) (ofDiagram diagram)
      (ofDiagram (diagram.renamed rename)) where
  formed := wellFormed_ofDiagram diagram
  redrawnFormed := wellFormed_ofDiagram _
  injective := injective
  alike node _ := node.alike_renamed rename
  nodes := nodes_renamed injective diagram
  neighbors node _ := by
    have same : (ofDiagram (diagram.renamed rename)).neighbors (rename node.id) =
        ((ofDiagram diagram).neighbors node.id).map (Neighbor.renamed rename) := by
      rw [neighbors, neighbors, links_renamed injective, List.filterMap_map, List.map_filterMap]
      exact List.filterMap_congr fun link _ => neighborOf?_renamed injective link node.id
    rw [same, List.forall₂_map_right_iff, List.forall₂_same]
    exact fun neighbor _ => neighbor.alike_renamed rename node

theorem problems_renamed (diagram : Diagram) :
    problems (diagram.renamed rename) = (problems diagram).map (Diagnostic.renamed rename) := by
  have repeats : repeatedBy Node.id [] (diagram.nodes.map (Node.renamed rename)) =
      (repeatedBy Node.id [] diagram.nodes).map (Node.renamed rename) :=
    repeatedBy_map injective (Node.renamed rename) (fun _ => rfl) [] diagram.nodes
  rw [problems, problems, List.map_append, nodes_renamed injective]
  congr 1
  · change (repeatedBy Node.id [] (diagram.nodes.map (Node.renamed rename))).map _ = _
    rw [repeats, List.map_map, List.map_map]
    rfl
  · rw [Diagram.renamed, List.zipIdx_map, List.filterMap_map, List.map_filterMap]
    apply List.filterMap_congr
    rintro ⟨edge, place⟩ _
    change Option.map _ (missingEnd? _ (edge.renamed rename)) = _
    rw [missingEnd?_renamed injective, Option.map_map, Option.map_map]
    rfl

end

end Adjacency

/-! ## Renamings of the identifiers that occur -/

/-- A renaming that tells some identifiers apart can be continued to all texts. -/
theorem exists_injective_extension {rename : String → String} {ids : List String}
    (apart : ∀ left ∈ ids, ∀ right ∈ ids, rename left = rename right → left = right) :
    ∃ whole : String → String, Function.Injective whole ∧ ∀ id ∈ ids, whole id = rename id := by
  let listed : Set String := ↑ids.toFinset
  let occurring : listed ↪ String :=
    ⟨fun id => rename id, fun left right same => Subtype.ext
      (apart left (List.mem_toFinset.mp left.2) right (List.mem_toFinset.mp right.2) same)⟩
  have few : Cardinal.mk listed < Cardinal.mk String :=
    (Cardinal.lt_aleph0_of_finite listed).trans_le (Cardinal.aleph0_le_mk String)
  rcases Cardinal.extend_function_of_lt occurring few ⟨Equiv.refl String⟩ with ⟨whole, agrees⟩
  exact ⟨whole, whole.injective, fun id member => agrees ⟨id, List.mem_toFinset.mpr member⟩⟩

section
variable {diagram : Diagram} {rename other : String → String}
  (same : ∀ id ∈ diagram.ids, rename id = other id)
include same

theorem Diagram.renamed_congr : diagram.renamed rename = diagram.renamed other := by
  have nodes : ∀ node ∈ diagram.nodes, node.renamed rename = node.renamed other :=
    fun node isNode => by rw [Node.renamed, Node.renamed, same _ (id_mem_ids isNode)]
  have edges : ∀ edge ∈ diagram.edges, edge.renamed rename = edge.renamed other :=
    fun edge isEdge => by
      have ends := ends_mem_ids isEdge
      rw [Edge.renamed, Edge.renamed, same _ ends.1, same _ ends.2]
  rw [Diagram.renamed, Diagram.renamed, List.map_congr_left nodes, List.map_congr_left edges]

theorem Diagnostic.renamed_congr {found : Diagnostic}
    (member : found ∈ Adjacency.problems diagram) : found.renamed rename = found.renamed other := by
  rw [Diagram.problems_eq_reports] at member
  rcases List.mem_append.mp member with repeated | loose
  · rcases List.mem_map.mp repeated with ⟨⟨node, place⟩, isRepeated, rfl⟩
    have isNode := List.fst_mem_of_mem_zipIdx (List.mem_of_mem_filter isRepeated)
    exact congrArg Diagnostic.duplicateNode (same _ (Diagram.id_mem_ids isNode))
  · rcases List.mem_filterMap.mp loose with ⟨⟨edge, place⟩, isPlaced, made⟩
    have ends := Diagram.ends_mem_ids (List.fst_mem_of_mem_zipIdx isPlaced)
    dsimp only at made
    split at made
    · cases made
      exact congrArg (Diagnostic.missingEndpoint place) (same _ ends.1)
    · split at made <;> cases made
      exact congrArg (Diagnostic.missingEndpoint place) (same _ ends.2)

end

namespace Derivation

/-- Under other identifiers a diagram leads to the same tables, whatever the
limit, and to the same findings about them; findings about the drawing name the
new identifiers. It is enough that the renaming tells apart what the diagram
names, at the ends of its connections too. -/
theorem identifiers_renamed (diagram : Diagram) (rename : String → String)
    (apart : ∀ left ∈ diagram.ids, ∀ right ∈ diagram.ids,
      rename left = rename right → left = right) (limit : Option Nat) :
    (ofDiagram (diagram.renamed rename) limit).schema = (ofDiagram diagram limit).schema ∧
      (ofDiagram (diagram.renamed rename) limit).diagnostics =
        (ofDiagram diagram limit).diagnostics.map (Diagnostic.renamed rename) := by
  rcases exists_injective_extension apart with ⟨whole, injective, agrees⟩
  have redraws := Adjacency.redraws_renamed injective diagram
  have drawing : Adjacency.problems (diagram.renamed whole) =
      (Adjacency.problems diagram).map (Diagnostic.renamed rename) := by
    rw [Adjacency.problems_renamed injective]
    exact List.map_congr_left fun found member => Diagnostic.renamed_congr agrees member
  rw [← Diagram.renamed_congr agrees]
  exact ⟨schema_redraw redraws limit, diagnostics_redraw redraws drawing
    (fun _ meant => Diagnostic.renamed_of_not_stray rename meant) limit⟩

/-- An identifier twice, and a connection to one that no node has. -/
def misdrawn : Diagram where
  nodes := [Node.entity "s" "Student", (Node.simpleAttribute "k" "no").primaryKey,
    Node.entity "s" "Course"]
  edges := [.between "s" "k", .between "k" "gone"]

/-- Two identifiers may be exchanged; the renaming need not tell others apart. -/
def exchanged (id : String) : String :=
  if id = "s" then "k" else if id = "k" then "s" else "x"

theorem identifiers_renamed_misdrawn :
    (∀ left ∈ misdrawn.ids, ∀ right ∈ misdrawn.ids,
        exchanged left = exchanged right → left = right) ∧
      (ofDiagram (misdrawn.renamed exchanged) none).schema = (ofDiagram misdrawn none).schema ∧
      (ofDiagram (misdrawn.renamed exchanged) none).diagnostics =
        [.duplicateNode "k", .missingEndpoint 1 "x"] := by
  have apart : ∀ left ∈ misdrawn.ids, ∀ right ∈ misdrawn.ids,
      exchanged left = exchanged right → left = right := by decide
  have renamed := identifiers_renamed misdrawn exchanged apart none
  have found : (ofDiagram misdrawn none).diagnostics.map (Diagnostic.renamed exchanged) =
      [.duplicateNode "k", .missingEndpoint 1 "x"] := by cbv
  exact ⟨apart, renamed.1, renamed.2.trans found⟩

end Derivation

end ErSchema
