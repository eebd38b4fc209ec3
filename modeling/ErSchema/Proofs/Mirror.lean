import ErSchema.Proofs.Agreement
import ErSchema.Proofs.FinalTables

/-! # Graphs that differ in labels only

A graph that agrees with a part of itself, and has nothing but labels besides,
leads to the same tables and the same findings as that part. It may have more
nodes, so without a limit it allows more passes, but neither needs the last. -/

namespace ErSchema

namespace Adjacency

/-- Whatever is no label is in both graphs and meets the same nodes in both. -/
structure Mirrors (renumber : Nat → Nat) (part whole : Adjacency) : Prop where
  agrees : Agrees renumber part whole
  unlabelled : part.nodes = whole.nodes.filter fun node => node.kind ≠ .label

namespace Mirrors

variable {renumber : Nat → Nat} {part whole : Adjacency} (mirrors : Mirrors renumber part whole)
include mirrors

theorem filter_nodes {wanted : Node → Bool}
    (unlabelled : ∀ node, wanted node = true → node.kind ≠ .label) :
    whole.nodes.filter wanted = part.nodes.filter wanted := by
  rw [mirrors.unlabelled, List.filter_filter]
  refine List.filter_congr fun node _ => ?_
  cases asked : wanted node with
  | false => rfl
  | true => simp [unlabelled node asked]

theorem entities_eq : whole.entities = part.entities :=
  mirrors.filter_nodes fun _ isEntity => Node.kind_of_isEntity isEntity ▸ NodeKind.noConfusion

theorem relationships_eq : Derivation.relationshipsOf whole = Derivation.relationshipsOf part :=
  mirrors.filter_nodes fun _ isRelationship =>
    Node.kind_of_isRelationship isRelationship ▸ NodeKind.noConfusion

theorem isaNodes_eq : whole.isaNodes = part.isaNodes :=
  mirrors.filter_nodes fun _ isIsa => Node.kind_of_isIsa isIsa ▸ NodeKind.noConfusion

theorem weakEntities_eq : whole.weakEntities = part.weakEntities :=
  mirrors.filter_nodes fun _ isWeakEntity =>
    Node.kind_of_isEntity (Bool.and_eq_true_iff.mp isWeakEntity).1 ▸ NodeKind.noConfusion

theorem ownerships_eq : whole.ownerships = part.ownerships := by
  rw [ownerships_eq_firstBy, ownerships_eq_firstBy, mirrors.weakEntities_eq]
  congr 1
  refine List.flatMap_congr fun weak member => ?_
  rcases List.mem_filter.mp member with ⟨isNode, isWeakEntity⟩
  exact mirrors.agrees.ownershipsOf_eq isNode (Bool.and_eq_true_iff.mp isWeakEntity).1

theorem hierarchies_eq : whole.hierarchies = part.hierarchies := by
  rw [hierarchies, hierarchies, mirrors.isaNodes_eq]
  refine List.filterMap_congr fun isa member => ?_
  rcases List.mem_filter.mp member with ⟨isNode, isIsa⟩
  exact (mirrors.agrees.hierarchyOf?_eq isNode isIsa).2

theorem hierarchyProblems_eq : whole.hierarchyProblems = part.hierarchyProblems := by
  have same (isa : Node) (member : isa ∈ part.isaNodes) :=
    mirrors.agrees.hierarchyOf?_eq (List.mem_filter.mp member).1 (List.mem_filter.mp member).2
  rw [hierarchyProblems, hierarchyProblems, mirrors.isaNodes_eq,
    List.filter_congr fun isa member => congrArg (fun found => found.isNone) (same isa member).2]
  refine List.map_congr_left fun isa member => ?_
  rw [(same isa (List.mem_of_mem_filter member)).1]

end Mirrors

end Adjacency

namespace Derivation

open Adjacency

/-- Without a limit the loop ends with the first pass that changes nothing. -/
theorem settle_unlimited {index : Adjacency} {links : List Ownership}
    {hierarchies : List Hierarchy} {base : TableMap} {quiet : Nat}
    (settles : Settles links hierarchies base quiet)
    (inTime : quiet < max index.entities.length 1) :
    settle (pass links hierarchies) (passLimit index none) base =
      ⟨flowed links hierarchies base quiet, false⟩ :=
  settles.settle_eq (lt_passLimit inTime nofun)

/-! ## The same attributes -/

section
variable {part whole : Adjacency} (shares : SharesAttributes part whole)
include shares

theorem baseTables_shared (entities : whole.entities = part.entities) :
    baseTables whole = baseTables part := by
  have entries : (baseTables whole).entries = (baseTables part).entries := by
    rw [entries_baseTables shares.wholeFormed, entries_baseTables shares.partFormed, entities]
    refine List.map_congr_left fun entity member => ?_
    rw [shares.attributesOf_entity member]
  exact congrArg TableMap.mk entries

theorem multivaluedTables_shared (tables : TableMap) :
    part.entities.flatMap (multivaluedTables whole tables) =
      part.entities.flatMap (multivaluedTables part tables) := by
  refine List.flatMap_congr fun entity member => ?_
  rw [multivaluedTables, multivaluedTables, shares.attributesOf_entity member]

end

/-! ## The same findings -/

section
variable {part whole : Adjacency}
  (attributes : ∀ owner ∈ part.nodes, owner.kind.bears = true →
    whole.attributeProblems owner = part.attributeProblems owner)
include attributes

theorem entityProblems_congr :
    part.entities.flatMap whole.attributeProblems =
      part.entities.flatMap part.attributeProblems := by
  apply List.flatMap_congr
  intro entity member
  rcases mem_entities.mp member with ⟨isNode, isEntity⟩
  exact attributes entity isNode (Node.kind_of_isEntity isEntity ▸ rfl)

theorem relationshipProblems_congr {relationships : List Node}
    (within : relationships ⊆ relationshipsOf part)
    (same : ∀ relationship ∈ relationshipsOf part,
      Resolution.relationshipProblems whole relationship =
        Resolution.relationshipProblems part relationship) :
    (relationships.flatMap fun relationship =>
        whole.attributeProblems relationship ++
          Resolution.relationshipProblems whole relationship) =
      relationships.flatMap fun relationship =>
        part.attributeProblems relationship ++
          Resolution.relationshipProblems part relationship := by
  apply List.flatMap_congr
  intro relationship member
  rcases List.mem_filter.mp (within member) with ⟨isNode, isRelationship⟩
  rw [attributes relationship isNode (Node.kind_of_isRelationship isRelationship ▸ rfl),
    same relationship (within member)]

end

/-! ## Graphs that mirror each other -/

section
variable {renumber : Nat → Nat} {part whole : Adjacency} (mirrors : Mirrors renumber part whole)
include mirrors

theorem baseTables_mirror : baseTables whole = baseTables part :=
  baseTables_shared mirrors.agrees.sharesAttributes mirrors.entities_eq

/-- Without a limit both loops end by themselves; with one it is the same. -/
theorem settled_mirror (limit : Option Nat) :
    settled whole limit = settled part limit ∧ limitProblems whole limit = limitProblems part limit := by
  have formed := mirrors.agrees.partFormed
  cases limit with
  | some allowed =>
      have same : settled whole (some allowed) = settled part (some allowed) := by
        rw [settled, settled, mirrors.ownerships_eq, mirrors.hierarchies_eq,
          baseTables_mirror mirrors]
        rfl
      exact ⟨same, by rw [limitProblems, limitProblems, same]; rfl⟩
  | none =>
      rcases exists_settles (ready_baseTables formed) with ⟨quiet, inTime, settles⟩
      rw [size_baseTables formed] at inTime
      let quietTables := flowed part.ownerships part.hierarchies (baseTables part) quiet
      have stopped : settled part none = ⟨quietTables, false⟩ := settle_unlimited settles inTime
      have wholeStopped : settled whole none = ⟨quietTables, false⟩ := by
        rw [settled, mirrors.ownerships_eq, mirrors.hierarchies_eq, baseTables_mirror mirrors]
        exact settle_unlimited settles (mirrors.entities_eq ▸ inTime)
      refine ⟨wholeStopped.trans stopped.symm, ?_⟩
      rw [limitProblems, limitProblems, stopped, wholeStopped]
      rfl

theorem resolution_mirror (limit : Option Nat) :
    resolution whole limit = resolution part limit := by
  have relationships : whole.nodes.filter (·.isRelationship) =
      part.nodes.filter (·.isRelationship) := mirrors.relationships_eq
  rw [resolution, resolution, resolutionAfter, resolutionAfter, relationships,
    (settled_mirror mirrors limit).1]
  exact mirrors.agrees.foldl_resolveOne_eq (fun _ _ => mirrors.ownerships_eq ▸ rfl) _

theorem laterProblems_mirror (limit : Option Nat) :
    laterProblems whole limit = laterProblems part limit := by
  have attributes : ∀ owner ∈ part.nodes, owner.kind.bears = true →
      whole.attributeProblems owner = part.attributeProblems owner :=
    fun _ => mirrors.agrees.attributeProblems_eq
  have relationships : ∀ relationship ∈ relationshipsOf part,
      Resolution.relationshipProblems whole relationship =
        Resolution.relationshipProblems part relationship := by
    intro relationship member
    rcases List.mem_filter.mp member with ⟨isNode, isRelationship⟩
    exact mirrors.agrees.relationshipProblems_eq isNode isRelationship
  rw [laterProblems, laterProblems, mirrors.entities_eq, entityProblems_congr attributes,
    mirrors.hierarchyProblems_eq, (settled_mirror mirrors limit).2,
    (settled_mirror mirrors limit).1, mirrors.relationships_eq,
    relationshipProblems_congr attributes (List.Subset.refl _) relationships]

end

theorem schema_mirror {renumber : Nat → Nat} {part whole : Diagram}
    (mirrors : Mirrors renumber (.ofDiagram part) (.ofDiagram whole)) (limit : Option Nat) :
    (ofDiagram whole limit).schema = (ofDiagram part limit).schema := by
  have tables : (ofDiagram whole limit).schema.tables = (ofDiagram part limit).schema.tables := by
    rw [tables_ofDiagram, tables_ofDiagram, resolution_mirror mirrors, mirrors.entities_eq,
      (settled_mirror mirrors limit).1,
      multivaluedTables_shared mirrors.agrees.sharesAttributes]
  exact congrArg Schema.mk tables

end Derivation

end ErSchema
