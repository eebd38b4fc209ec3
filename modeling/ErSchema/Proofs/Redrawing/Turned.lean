import ErSchema.Proofs.Redrawing.Tables

/-! # Connections drawn the other way round

A connection has a start and a finish because it was drawn, but it is followed
from either end. Drawn the other way round, with its labels, it gives each node
the neighbours it had. Only the report of a connection both of whose ends are
missing tells where it began. -/

namespace ErSchema

def Edge.turned (edge : Edge) : Edge :=
  { edge with
    start := edge.finish
    finish := edge.start
    startCard := edge.finishCard
    finishCard := edge.startCard }

namespace Diagram

/-- The connections at the chosen places are drawn the other way round. -/
def turn (diagram : Diagram) (chosen : Nat → Bool) : Diagram :=
  { diagram with
    edges := diagram.edges.mapIdx fun place edge => if chosen place then edge.turned else edge }

/-- Neither end is a node. -/
def dangles (diagram : Diagram) (edge : Edge) : Bool :=
  edge.start ∉ diagram.nodes.map Node.id && edge.finish ∉ diagram.nodes.map Node.id

/-- What is reported instead: of a chosen connection without any end, the other
end. -/
def turnedReport (diagram : Diagram) (chosen : Nat → Bool) : Diagnostic → Diagnostic
  | .missingEndpoint place id =>
      match diagram.edges[place]? with
      | some edge =>
          if chosen place && diagram.dangles edge then
            .missingEndpoint place ((edge.otherEnd? id).getD id)
          else .missingEndpoint place id
      | none => .missingEndpoint place id
  | other => other

variable (diagram : Diagram) (chosen : Nat → Bool)

theorem zipIdx_turn : (diagram.turn chosen).edges.zipIdx = diagram.edges.zipIdx.map
    fun (edge, place) => (if chosen place then edge.turned else edge, place) :=
  List.ext_getElem (by simp [turn]) fun place _ _ => by simp [turn]

theorem looseReports_turn :
    (diagram.turn chosen).looseReports =
      diagram.looseReports.map (diagram.turnedReport chosen) := by
  rw [looseReports, zipIdx_turn, List.filterMap_map, looseReports, List.map_filterMap]
  apply List.filterMap_congr
  rintro ⟨edge, place⟩ isPlaced
  have found : diagram.edges[place]? = some edge := List.mem_zipIdx_iff_getElem?.mp isPlaced
  simp only [Function.comp_apply]
  change (if _ ∉ diagram.nodes.map Node.id then _ else if _ ∉ diagram.nodes.map Node.id then _
    else _) = _
  have report (id : String) : diagram.turnedReport chosen (.missingEndpoint place id) =
      if chosen place && diagram.dangles edge then
        .missingEndpoint place ((edge.otherEnd? id).getD id)
      else .missingEndpoint place id := by
    simp only [turnedReport, found]
  unfold dangles at report
  -- The list of identifiers as it stands: only whether it has the ends matters.
  generalize diagram.nodes.map Node.id = known at report ⊢
  cases isChosen : chosen place with
  | false =>
      by_cases start : edge.start ∈ known
      · by_cases finish : edge.finish ∈ known <;> simp [start, finish, report, isChosen]
      · simp [start, report, isChosen]
  | true =>
      by_cases start : edge.start ∈ known
      · by_cases finish : edge.finish ∈ known <;>
          simp [start, finish, report, isChosen, Edge.turned]
      · by_cases finish : edge.finish ∈ known <;>
          simp [start, finish, report, isChosen, Edge.turned, Edge.otherEnd?]

theorem turnedReport_of_not_stray {found : Diagnostic} (meant : found.isStray = false) :
    diagram.turnedReport chosen found = found := by
  cases found with
  | missingEndpoint => exact absurd meant Bool.true_eq_false.mp
  | _ => rfl

theorem problems_turn :
    Adjacency.problems (diagram.turn chosen) =
      (Adjacency.problems diagram).map (diagram.turnedReport chosen) := by
  have repeats : diagram.repeatReports.map (diagram.turnedReport chosen) =
      diagram.repeatReports := by
    rw [repeatReports, List.map_map]
    rfl
  rw [problems_eq_reports, problems_eq_reports, looseReports_turn, List.map_append, repeats]
  rfl

end Diagram

namespace Adjacency

/-- A link is followed from the same nodes to the same nodes. -/
theorem neighborOf?_turned (nodes : List Node) (edge : Edge) (place : Nat) (id : String) :
    (linkOf? nodes edge.turned place).bind (·.neighborOf? id) =
      (linkOf? nodes edge place).bind (·.neighborOf? id) := by
  simp only [linkOf?, Edge.turned]
  cases foundStart : find? nodes edge.start with
  | none => cases find? nodes edge.finish <;> rfl
  | some start =>
      cases foundFinish : find? nodes edge.finish with
      | none => rfl
      | some finish =>
          have startId := id_of_find? foundStart
          have finishId := id_of_find? foundFinish
          by_cases loop : edge.start = edge.finish
          · simp [loop]
          · simp only [Option.bind_eq_bind, Option.bind_some, loop, Ne.symm loop, if_false,
              Link.neighborOf?, startId, finishId]
            by_cases starts : edge.start = id
            · have finishes : edge.finish ≠ id := fun same => loop (starts.trans same.symm)
              simp [starts, finishes]
            · simp [starts]

theorem neighbors_turn (diagram : Diagram) (chosen : Nat → Bool) (id : String) :
    (ofDiagram (diagram.turn chosen)).neighbors id = (ofDiagram diagram).neighbors id := by
  simp only [neighbors, ofDiagram, Diagram.zipIdx_turn, List.filterMap_map,
    List.filterMap_filterMap]
  apply List.filterMap_congr
  rintro ⟨edge, place⟩ _
  change (linkOf? _ (if chosen place then edge.turned else edge) place).bind _ = _
  cases chosen place with
  | false => rfl
  | true => exact neighborOf?_turned _ edge place id

theorem redraws_turn (diagram : Diagram) (chosen : Nat → Bool) :
    Redraws id id (ofDiagram diagram) (ofDiagram (diagram.turn chosen)) where
  formed := wellFormed_ofDiagram diagram
  redrawnFormed := wellFormed_ofDiagram _
  injective := Function.injective_id
  alike _ _ := ⟨rfl, rfl, fun _ => rfl, fun _ => rfl, fun _ => rfl, fun _ => rfl⟩
  nodes := (List.map_id _).symm
  neighbors node _ := by
    rw [id_eq, neighbors_turn, List.forall₂_same]
    exact fun neighbor _ => ⟨rfl, rfl, fun _ _ => rfl, fun _ _ => rfl⟩

end Adjacency

namespace Derivation

/-- Connections drawn the other way round change neither a table nor a finding,
except that a connection without any end is reported by its other end. -/
theorem direction_free (diagram : Diagram) (chosen : Nat → Bool) (limit : Option Nat) :
    (ofDiagram (diagram.turn chosen) limit).schema = (ofDiagram diagram limit).schema ∧
      (ofDiagram (diagram.turn chosen) limit).diagnostics =
        (ofDiagram diagram limit).diagnostics.map (diagram.turnedReport chosen) := by
  have redraws := Adjacency.redraws_turn diagram chosen
  exact ⟨schema_redraw redraws limit, diagnostics_redraw redraws (diagram.problems_turn chosen)
    (fun _ meant => diagram.turnedReport_of_not_stray chosen meant) limit⟩

end Derivation

end ErSchema
