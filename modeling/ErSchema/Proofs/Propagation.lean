import ErSchema.Proofs.Convergence
import ErSchema.Proofs.Resolution

/-! # The propagation loop ends in time

Whatever the limit, the loop leads to tables that some number of passes lead to.
With as many passes allowed as there are entities it is not the limit that ends
it, and the tables are left with nothing to take over. -/

namespace ErSchema

namespace Derivation

theorem exists_afterPasses_settle (pass : TableMap → Nat × TableMap) (allowed : Nat)
    (tables : TableMap) :
    ∃ made, (settle pass allowed tables).tables = afterPasses pass made tables := by
  induction allowed generalizing tables with
  | zero => exact ⟨0, rfl⟩
  | succ allowed induction =>
      by_cases still : (pass tables).1 = 0
      · exact ⟨1, by simp [settle, still, afterPasses]⟩
      · rcases induction (pass tables).2 with ⟨made, equal⟩
        exact ⟨made + 1, by simpa [settle, still, afterPasses] using equal⟩

/-- After `quiet` passes, each of which adds something, neither half of a pass
adds anything. -/
structure Settles (links : List Ownership) (hierarchies : List Hierarchy)
    (base : TableMap) (quiet : Nat) : Prop where
  busy : ∀ made < quiet, (pass links hierarchies (flowed links hierarchies base made)).1 ≠ 0
  owned : Ownership.propagate links (flowed links hierarchies base quiet) =
    (0, flowed links hierarchies base quiet)
  inherited : Hierarchy.propagate hierarchies (flowed links hierarchies base quiet) =
    (0, flowed links hierarchies base quiet)

section
variable {links : List Ownership} {hierarchies : List Hierarchy} {base : TableMap}

theorem exists_settles (ready : Ready links hierarchies base) :
    ∃ quiet < max base.size 1, Settles links hierarchies base quiet := by
  rcases exists_first_quiet ready with ⟨quiet, inTime, busy, still⟩
  rcases propagate_of_pass_quiet still with ⟨owned, inherited⟩
  exact ⟨quiet, inTime, busy, owned, inherited⟩

namespace Settles

variable {quiet : Nat} (settles : Settles links hierarchies base quiet)
include settles

theorem pass_eq : pass links hierarchies (flowed links hierarchies base quiet) =
    (0, flowed links hierarchies base quiet) := by
  simp [pass, settles.owned, settles.inherited]

theorem settle_eq {allowed : Nat} (enough : quiet < allowed) :
    settle (pass links hierarchies) allowed base =
      ⟨flowed links hierarchies base quiet, false⟩ := by
  have still := congrArg Prod.fst settles.pass_eq
  have same := congrArg Prod.snd settles.pass_eq
  rw [settle_of_quiet settles.busy still enough]
  exact congrArg (Settled.mk · false) same

end Settles

end

/-! ## The loop over a diagram -/

def settled (index : Adjacency) (limit : Option Nat) : Settled :=
  settle (pass index.ownerships index.hierarchies) (passLimit index limit) (baseTables index)

theorem exists_flowed_settled (index : Adjacency) (limit : Option Nat) :
    ∃ made, (settled index limit).tables =
      flowed index.ownerships index.hierarchies (baseTables index) made :=
  exists_afterPasses_settle _ _ _

theorem inherits_settled (index : Adjacency) (limit : Option Nat) :
    TableMap.Revises Table.Inherits (baseTables index) (settled index limit).tables := by
  rcases exists_flowed_settled index limit with ⟨made, equal⟩
  rw [equal]
  exact inherits_flowed _ _ _ made

/-- Only the loop reports the limit, and only when it was stopped. -/
theorem mem_diagnostics_propagationLimit {diagram : Diagram} {limit : Option Nat}
    {passes : Nat} :
    .propagationLimit passes ∈ (ofDiagram diagram limit).diagnostics ↔
      (settled (Adjacency.ofDiagram diagram) limit).stopped = true ∧
        passes = passLimit (Adjacency.ofDiagram diagram) limit := by
  have wellFormed := Adjacency.wellFormed_ofDiagram diagram
  have problems : .propagationLimit passes ∉ Adjacency.problems diagram := by
    simp [Adjacency.problems]
  have attributes (entity : Node) :=
    (Adjacency.ofDiagram diagram).attributeProblems_ne_propagationLimit entity passes
  have hierarchies :
      .propagationLimit passes ∉ (Adjacency.ofDiagram diagram).hierarchyProblems := by
    simp [Adjacency.hierarchyProblems]
  have missing (tables : TableMap) (entity : Node) :
      missingKey? tables entity ≠ some (.propagationLimit passes) := by
    unfold missingKey?
    split
    · simp
    · split <;> simp
  have resolution (tables : TableMap) :=
    (Resolution.reached_resolveAll wellFormed tables).reported passes
  simp only [ofDiagram, settled, List.mem_append, problems, List.mem_flatMap, attributes,
    hierarchies, List.mem_filterMap, missing, resolution, and_false, exists_false, false_or, or_false]
  split <;> rename_i stopped <;> simp [stopped]

theorem lt_passLimit {index : Adjacency} {limit : Option Nat} {quiet : Nat}
    (inTime : quiet < max index.entities.length 1)
    (enough : ∀ allowed ∈ limit, max index.entities.length 1 ≤ allowed) :
    quiet < passLimit index limit := by
  unfold passLimit
  cases limit with
  | none =>
      have fewer : index.entities.length ≤ index.nodes.length := List.length_filter_le _ _
      dsimp only [Option.getD_none]
      omega
  | some allowed =>
      have bound := enough allowed rfl
      dsimp only [Option.getD_some]
      omega

/-- Without a limit, and with any limit that allows a pass for each entity, the
loop stops because a pass added nothing: at the latest the pass whose number is
that of the entities. -/
theorem settles_within_limit (diagram : Diagram) (limit : Option Nat)
    (enough : ∀ allowed ∈ limit,
      max (Adjacency.ofDiagram diagram).entities.length 1 ≤ allowed) :
    let index := Adjacency.ofDiagram diagram
    let base := baseTables index
    (∃ quiet < max index.entities.length 1,
      Settles index.ownerships index.hierarchies base quiet ∧
        settled index limit =
          ⟨flowed index.ownerships index.hierarchies base quiet, false⟩) ∧
      ∀ passes, .propagationLimit passes ∉ (ofDiagram diagram limit).diagnostics := by
  intro index base
  have wellFormed := Adjacency.wellFormed_ofDiagram diagram
  rcases exists_settles (ready_baseTables wellFormed) with ⟨quiet, inTime, settles⟩
  rw [size_baseTables wellFormed] at inTime
  have stopped : settled index limit = _ := settles.settle_eq (lt_passLimit inTime enough)
  refine ⟨⟨quiet, inTime, settles, stopped⟩, fun passes reported => ?_⟩
  rw [mem_diagnostics_propagationLimit, stopped] at reported
  exact absurd reported.1 Bool.false_ne_true

/-- Two weak entities that identify each other. -/
def mutualOwners : Diagram where
  nodes := [(Node.entity "a" "Author").weak, (Node.entity "b" "Book").weak,
    (Node.relationship "w" "Writes").weak,
    (Node.simpleAttribute "n" "name").primaryKey,
    (Node.simpleAttribute "t" "title").primaryKey]
  edges := [.between "a" "w", .between "w" "b", .between "a" "n", .between "b" "t"]

theorem settles_within_limit_mutualOwners :
    let index := Adjacency.ofDiagram mutualOwners
    max index.entities.length 1 = 2 ∧
      (∃ quiet < 2, Settles index.ownerships index.hierarchies (baseTables index) quiet) ∧
      ∀ passes, .propagationLimit passes ∉ (ofDiagram mutualOwners (some 2)).diagnostics := by
  intro index
  have two : max index.entities.length 1 = 2 := by decide +kernel
  have enough : ∀ allowed ∈ some 2, max index.entities.length 1 ≤ allowed := by
    rw [two]
    simp
  rcases settles_within_limit mutualOwners (some 2) enough with
    ⟨⟨quiet, inTime, settles, _⟩, unreported⟩
  exact ⟨two, ⟨quiet, two ▸ inTime, settles⟩, unreported⟩

end Derivation

end ErSchema
