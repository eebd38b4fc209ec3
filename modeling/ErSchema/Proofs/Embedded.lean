import ErSchema.Listing.Format
import ErSchema.Proofs.Components
import ErSchema.Proofs.Listings
import ErSchema.Proofs.Saved

/-! # Deriving a diagram that holds its own listing

The listing is a label under an identifier that nothing else has. A connection
that names this identifier had no end before and joins a label now, so it meant
nothing and means nothing. -/

namespace ErSchema

namespace Document

variable {document : Document}

theorem toDiagram_embed (html : String) :
    (document.embed html).toDiagram =
      document.toDiagram.add (document.listingElement html).toNode := by
  simp [embed, toDiagram, Diagram.add]

end Document

/-! ## A new label -/

namespace Diagram

variable {diagram : Diagram} {node : Node} (isLabel : node.kind = .label)
  (fresh : ∀ other ∈ diagram.nodes, other.id ≠ node.id)

include fresh in
theorem firstBy_add :
    firstBy Node.id (diagram.add node).nodes = firstBy Node.id diagram.nodes ++ [node] := by
  have apart : ∀ other ∈ diagram.nodes, ∀ new ∈ [node], other.id ≠ new.id := by
    simpa using fresh
  exact firstBy_append apart

include fresh in
theorem find?_add (id : String) :
    Adjacency.find? (firstBy Node.id (diagram.add node).nodes) id =
      (Adjacency.find? (firstBy Node.id diagram.nodes) id).or
        (if node.id = id then some node else none) := by
  have alone : Adjacency.find? [node] id = if node.id = id then some node else none := by
    by_cases same : node.id = id <;> simp [Adjacency.find?, same]
  rw [firstBy_add fresh, Adjacency.find?_append, alone]

include isLabel fresh in
/-- A connection that names the label joined nothing before. -/
theorem joins_add (edge : Edge) :
    joins (firstBy Node.id (diagram.add node).nodes) edge =
      joins (firstBy Node.id diagram.nodes) edge := by
  have meetsNothing (kind : NodeKind) :
      node.kind.meets kind = false ∧ kind.meets node.kind = false := by
    rw [isLabel]
    cases kind <;> exact ⟨rfl, rfl⟩
  unfold joins
  rw [find?_add fresh, find?_add fresh]
  cases Adjacency.find? (firstBy Node.id diagram.nodes) edge.start with
  | none =>
      by_cases starts : node.id = edge.start
      · simp only [starts, if_true, Option.none_or]
        split
        · simp_all
        · rfl
      · simp [starts]
  | some start =>
      cases Adjacency.find? (firstBy Node.id diagram.nodes) edge.finish with
      | some finish => rfl
      | none => by_cases finishes : node.id = edge.finish <;> simp [finishes, meetsNothing]

include isLabel fresh in
theorem essential_add : (diagram.add node).essential = diagram.essential := by
  have nodes : (firstBy Node.id (diagram.add node).nodes).filter (fun node => node.kind ≠ .label) =
      (firstBy Node.id diagram.nodes).filter fun node => node.kind ≠ .label := by
    rw [firstBy_add fresh, List.filter_append, List.filter_singleton]
    simp [isLabel]
  have edges : diagram.edges.filter (joins (firstBy Node.id (diagram.add node).nodes)) =
      diagram.edges.filter (joins (firstBy Node.id diagram.nodes)) :=
    List.filter_congr fun edge _ => joins_add isLabel fresh edge
  exact congrArg₂ Diagram.mk nodes edges

include fresh in
theorem repeatReports_add : (diagram.add node).repeatReports = diagram.repeatReports := by
  have earlier : (diagram.nodes.zipIdx.filter fun entry =>
        entry.1.id ∈ ((diagram.nodes ++ [node]).take entry.2).map Node.id) =
      diagram.nodes.zipIdx.filter fun entry =>
        entry.1.id ∈ (diagram.nodes.take entry.2).map Node.id := by
    apply List.filter_congr
    rintro ⟨other, place⟩ member
    have inside := (List.mem_zipIdx' member).1
    dsimp only
    rw [List.take_append_of_le_length inside.le]
  have new : node.id ∉ diagram.nodes.map Node.id := by
    simpa using fresh
  unfold repeatReports add
  rw [List.zipIdx_append, List.filter_append, earlier]
  simp [new]

theorem exists_mem_looseReports {diagram : Diagram} {place : Nat} :
    (∃ id, .missingEndpoint place id ∈ diagram.looseReports) ↔
      ∃ edge, (edge, place) ∈ diagram.edges.zipIdx ∧
        (edge.start ∉ diagram.nodes.map Node.id ∨ edge.finish ∉ diagram.nodes.map Node.id) := by
  simp only [looseReports, List.mem_filterMap, Prod.exists]
  constructor
  · rintro ⟨id, edge, found, member, made⟩
    refine ⟨edge, ?_⟩
    split at made
    case isTrue start =>
      cases made
      exact ⟨member, .inl start⟩
    case isFalse =>
      split at made
      case isTrue finish =>
        cases made
        exact ⟨member, .inr finish⟩
      case isFalse => cases made
  · rintro ⟨edge, member, missing⟩
    by_cases start : edge.start ∈ diagram.nodes.map Node.id
    · have finish := missing.resolve_left (not_not.mpr start)
      exact ⟨edge.finish, edge, place, member, by rw [if_neg (not_not.mpr start), if_pos finish]⟩
    · exact ⟨edge.start, edge, place, member, by rw [if_pos start]⟩

end Diagram

/-! ## The same tables and findings -/

namespace Diagnostic

def isMissingEndpoint : Diagnostic → Bool
  | .missingEndpoint .. => true
  | _ => false

end Diagnostic

namespace Derivation

/-- The schemas are equal, and so are the findings, except that a connection
without an end may have found one. -/
structure Unchanged (before after : Derivation) : Prop where
  schema : after.schema = before.schema
  findings : after.diagnostics.filter (!·.isMissingEndpoint) =
    before.diagnostics.filter (!·.isMissingEndpoint)
  edges : ∀ edge id, .missingEndpoint edge id ∈ after.diagnostics →
    ∃ other, .missingEndpoint edge other ∈ before.diagnostics

namespace Unchanged

theorem refl (derivation : Derivation) : Unchanged derivation derivation :=
  ⟨rfl, rfl, fun _ id reported => ⟨id, reported⟩⟩

theorem trans {first second third : Derivation} (earlier : Unchanged first second)
    (later : Unchanged second third) : Unchanged first third where
  schema := later.schema.trans earlier.schema
  findings := later.findings.trans earlier.findings
  edges edge id reported :=
    have ⟨other, before⟩ := later.edges edge id reported
    earlier.edges edge other before

theorem render_eq {before after : Derivation} (unchanged : Unchanged before after)
    {format : OutputFormat} (listing : format ≠ .json) (config : Config) :
    format.render after config = format.render before config := by
  cases format with
  | html => exact congrArg (Html.schema · config) unchanged.schema
  | text => exact congrArg Box.schema unchanged.schema
  | sql => exact congrArg (Sql.script · config) unchanged.schema
  | json => exact absurd rfl listing

end Unchanged

theorem mem_diagnostics_missingEndpoint {diagram : Diagram} {limit : Option Nat} {edge : Nat}
    {id : String} : .missingEndpoint edge id ∈ (ofDiagram diagram limit).diagnostics ↔
      .missingEndpoint edge id ∈ diagram.looseReports := by
  have stray : ∀ found : Diagnostic, found.isStray = true →
      (found ∈ (ofDiagram diagram limit).diagnostics ↔
        found ∈ diagram.repeatReports ++ diagram.looseReports) := by
    intro found isStray
    rw [← Diagram.problems_eq_reports, ← filter_isStray diagram limit, List.mem_filter]
    simp [isStray]
  rw [stray _ rfl, List.mem_append, or_iff_right]
  simp [Diagram.repeatReports]

theorem filter_not_isMissingEndpoint (diagram : Diagram) (limit : Option Nat) :
    (ofDiagram diagram limit).diagnostics.filter (!·.isMissingEndpoint) =
      diagram.repeatReports ++ laterProblems (.ofDiagram diagram) limit := by
  have kept : ∀ found ∈ diagram.repeatReports, (!found.isMissingEndpoint) = true := by
    intro found member
    rcases List.mem_map.mp member with ⟨_, _, rfl⟩
    rfl
  have dropped : ∀ found ∈ diagram.looseReports, ¬(!found.isMissingEndpoint) = true := by
    intro found member
    rcases List.mem_filterMap.mp member with ⟨_, _, made⟩
    dsimp only at made
    split at made
    · cases made
      simp [Diagnostic.isMissingEndpoint]
    · split at made <;> cases made
      simp [Diagnostic.isMissingEndpoint]
  have later : ∀ found ∈ laterProblems (.ofDiagram diagram) limit,
      (!found.isMissingEndpoint) = true := by
    intro found member
    have notStray := isStray_of_mem_laterProblems member
    cases found with
    | missingEndpoint => exact Bool.noConfusion notStray
    | _ => rfl
  rw [diagnostics_ofDiagram, Diagram.problems_eq_reports, List.filter_append,
    List.filter_append, List.filter_eq_self.mpr kept, List.filter_eq_nil_iff.mpr dropped,
    List.filter_eq_self.mpr later, List.append_nil]

/-- A label under a new identifier changes nothing. -/
theorem unchanged_add {diagram : Diagram} {node : Node} (isLabel : node.kind = .label)
    (fresh : ∀ other ∈ diagram.nodes, other.id ≠ node.id) (limit : Option Nat) :
    Unchanged (ofDiagram diagram limit) (ofDiagram (diagram.add node) limit) where
  schema := by
    rw [schema_essential, schema_essential diagram, Diagram.essential_add isLabel fresh]
  findings := by
    rw [filter_not_isMissingEndpoint, filter_not_isMissingEndpoint,
      Diagram.repeatReports_add fresh, laterProblems_essential, laterProblems_essential diagram,
      Diagram.essential_add isLabel fresh]
  edges edge id reported := by
    simp only [mem_diagnostics_missingEndpoint] at reported ⊢
    rcases Diagram.exists_mem_looseReports.mp ⟨id, reported⟩ with ⟨connection, member, missing⟩
    have known : diagram.nodes.map Node.id ⊆ (diagram.add node).nodes.map Node.id :=
      List.map_subset _ (List.subset_append_left _ _)
    exact Diagram.exists_mem_looseReports.mpr
      ⟨connection, member, missing.imp (mt (@known _)) (mt (@known _))⟩

theorem unchanged_embed {document : Document} (below : document.numberAbove < Document.numberLimit)
    (html : String) (limit : Option Nat) :
    Unchanged (ofDiagram document.toDiagram limit)
      (ofDiagram (document.embed html).toDiagram limit) := by
  have minted : (document.listingElement html).toNode.id =
      Document.mintedId document.numberAbove := Document.id_listingElement below html
  rw [Document.toDiagram_embed]
  refine unchanged_add rfl (fun other member => ?_) limit
  rcases List.mem_map.mp member with ⟨element, isElement, rfl⟩
  rw [minted]
  exact Document.id_ne_mintedId isElement (Nat.le_refl _) below

theorem unchanged_embedAll {document : Document} (htmls : List String)
    (minted : document.numberAbove + htmls.length ≤ Document.numberLimit) (limit : Option Nat) :
    Unchanged (ofDiagram document.toDiagram limit)
      (ofDiagram (htmls.foldl Document.embed document).toDiagram limit) := by
  induction htmls generalizing document with
  | nil => exact .refl _
  | cons html rest induction =>
      rw [List.length_cons] at minted
      have below : document.numberAbove < Document.numberLimit := by omega
      have next := Document.numberAbove_embed below html
      exact (unchanged_embed below html limit).trans (induction (by omega))

/-- A listing that is embedded changes no table, so the listings stay the same,
however often they are embedded, saved and read again. Floats are taken to be read
as they are written. -/
theorem unchanged_by_listings {document : Document}
    (small : ∀ element ∈ document.elements, ∀ number,
      Document.elementNumber? element.id = some number → number < Document.numberLimit - 1)
    (limit : Option Nat) :
    (∀ html, Unchanged (ofDiagram document.toDiagram limit)
      (ofDiagram (document.embed html).toDiagram limit)) ∧
    ∀ htmls : List String, document.nextNumber + htmls.length ≤ Document.numberLimit →
      let embedded := htmls.foldl Document.embed document
      Unchanged (ofDiagram document.toDiagram limit) (ofDiagram embedded.toDiagram limit) ∧
      (∀ format config, format ≠ .json →
        OutputFormat.render format (ofDiagram embedded.toDiagram limit) config =
          OutputFormat.render format (ofDiagram document.toDiagram limit) config) ∧
      ∀ text, Document.read text = .ok document →
        (∀ value, .float value ∈ document.numbers → (Json.Number.float value).ReadsBack) →
        Document.read embedded.write = .ok embedded := by
  have below : document.numberAbove < Document.numberLimit := by
    have highest := Document.numberAbove_le small
    have positive : 0 < Document.numberLimit := by decide
    omega
  refine ⟨fun html => unchanged_embed below html limit, fun htmls minted => ?_⟩
  rw [Document.nextNumber_eq_numberAbove below] at minted
  have unchanged := unchanged_embedAll htmls minted limit
  refine ⟨unchanged, fun format config listing => unchanged.render_eq listing config, ?_⟩
  intro text isRead faithful
  exact ((Document.storable_readsBack isRead faithful).embedAll htmls).read_write

/-- Its line names the identifier that the first listing gets. -/
def staleLine : Document where
  elements := [{
    id := "element-3", kind := "entity", left := "", top := "", width := none, height := none
    text := "Room", isWeak := false, isPrimaryKey := false
    extra := [("z", .number (.integer (-7)))] }]
  lines := [{
    startId := "element-3", finishId := "element-4", startCard := "", finishCard := ""
    lineType := "", extra := [] }]

theorem storable_staleLine : staleLine.Storable Json.Number.ReadsBack := by
  constructor
  · intro element member
    rw [List.mem_singleton.mp member]
    have back : (Json.Number.integer (-7)).ReadsBack :=
      Json.integer_readsBack ⟨by decide, by decide⟩
    exact ⟨List.pairwise_singleton _ _, List.forall_mem_singleton.mpr rfl,
      List.forall_mem_singleton.mpr (.number back)⟩
  · intro line member
    rw [List.mem_singleton.mp member]
    exact spare_nil _ _

theorem unchanged_by_listings_staleLine :
    let embedded := ["<table>", ""].foldl Document.embed staleLine
    Unchanged (ofDiagram staleLine.toDiagram none) (ofDiagram embedded.toDiagram none) ∧
      .missingEndpoint 0 "element-4" ∈ (ofDiagram staleLine.toDiagram none).diagnostics ∧
      .missingEndpoint 0 "element-4" ∉ (ofDiagram embedded.toDiagram none).diagnostics ∧
      Document.read staleLine.write = .ok staleLine ∧
      Document.read embedded.write = .ok embedded := by
  have small : ∀ element ∈ staleLine.elements, ∀ number,
      Document.elementNumber? element.id = some number → number < Document.numberLimit - 1 := by
    intro element member number found
    rw [List.mem_singleton.mp member] at found
    have three : Document.elementNumber? "element-3" = some 3 := by decide +kernel
    obtain rfl := Option.some.inj (three.symm.trans found)
    decide
  have noFloats : ∀ value, .float value ∈ staleLine.numbers →
      (Json.Number.float value).ReadsBack := by
    intro value member
    cases List.mem_singleton.mp member
  have isRead := storable_staleLine.read_write
  have holds := (unchanged_by_listings small none).2 ["<table>", ""] (by decide +kernel)
  refine ⟨holds.1, ?_, ?_, isRead, holds.2.2 staleLine.write isRead noFloats⟩
  · exact mem_diagnostics_missingEndpoint.mpr (by decide +kernel)
  · exact fun reported => absurd (mem_diagnostics_missingEndpoint.mp reported) (by decide +kernel)

end Derivation

end ErSchema
