import ErSchema.Proofs.Frames
import ErSchema.Proofs.Muted
import Mathlib

/-! # Relationships with fewer than two participants

Such a relationship gives no weak entity an owner. If it is resolved as one that
has too few participants, it changes no table and is reported; without it the
schema is the same and the report is missing. But a weak relationship whose one
participant is weak is taken for an identifying one before its participants are
counted: then its attributes go to that participant, and nothing is reported. -/

namespace ErSchema

/-! ## What fewer than two participants mean -/

namespace Adjacency

/-- No two connections lead from the relationship to entities. -/
def Lone (index : Adjacency) (relationship : Node) : Prop :=
  (index.entityNeighbors relationship.id).length < 2

theorem flatMap_filter_and {α β : Type} {members : List α} {kept wanted : α → Bool}
    {give : α → List β}
    (nothing : ∀ member ∈ members, wanted member = true → kept member = false → give member = []) :
    (members.filter fun member => kept member && wanted member).flatMap give =
      (members.filter wanted).flatMap give := by
  induction members with
  | nil => rfl
  | cons member rest induction =>
      have both := List.forall_mem_cons.mp nothing
      rw [List.filter_cons, List.filter_cons]
      cases isWanted : wanted member with
      | false => simpa using induction both.2
      | true =>
          cases isKept : kept member with
          | true => simpa using induction both.2
          | false => simpa [both.1 isWanted isKept] using induction both.2

section
variable {relationship : Node} {index : Adjacency} (lone : index.Lone relationship)
include lone

theorem Lone.participants : index.entityNeighbors relationship.id = [] ∨
    ∃ only, index.entityNeighbors relationship.id = [only] := by
  unfold Lone at lone
  rcases found : index.entityNeighbors relationship.id with _ | ⟨only, _ | ⟨second, rest⟩⟩
  · exact .inl rfl
  · exact .inr ⟨only, rfl⟩
  · rw [found, List.length_cons, List.length_cons] at lone
    omega

/-- A weak entity at the relationship meets no other entity there. -/
theorem ownersThrough_of_lone (formed : index.WellFormed) {weak : Node}
    (isWeakEntity : weak ∈ index.entities) {connection : Neighbor}
    (isNeighbor : connection ∈ index.neighbors weak.id)
    (leads : connection.node.id = relationship.id) : index.ownersThrough weak connection = [] := by
  rcases mem_entities.mp isWeakEntity with ⟨isNode, isEntity⟩
  have back := formed.mem_neighbors_symm isNode isNeighbor
  rw [leads] at back
  have participates : (⟨connection.edge, weak, connection.card, connection.ownCard⟩ : Neighbor) ∈
      index.entityNeighbors relationship.id := List.mem_filter.mpr ⟨back, isEntity⟩
  unfold ownersThrough
  rw [leads, List.map_eq_nil_iff, List.filter_eq_nil_iff]
  intro other isOther
  rcases lone.participants with none | ⟨only, single⟩
  · rw [none] at isOther
    cases isOther
  · rw [single, List.mem_singleton] at isOther participates
    simp [isOther, ← participates]

/-- What is asked about weak entities does not lead to other entities through it. -/
theorem Mutes.ownerships_eq {muted : Adjacency} (mutes : Mutes relationship index muted) :
    muted.ownerships = index.ownerships := by
  rw [ownerships_eq_firstBy, ownerships_eq_firstBy, mutes.weakEntities_eq]
  congr 1
  apply List.flatMap_congr
  intro weak member
  rcases List.mem_filter.mp member with ⟨isNode, isWeakEntity⟩
  have isEntity : weak ∈ index.entities :=
    mem_entities.mpr ⟨isNode, (Bool.and_eq_true_iff.mp isWeakEntity).1⟩
  have through : muted.ownersThrough weak = index.ownersThrough weak := by
    funext connection
    rw [ownersThrough, ownersThrough, mutes.entityNeighbors_eq]
  rw [ownershipsOf, ownershipsOf, through,
    mutes.filter_neighbors fun node => node.isRelationship && node.isWeak]
  · apply flatMap_filter_and
    intro connection isNeighbor _ gone
    exact ownersThrough_of_lone lone mutes.formed isEntity isNeighbor
      (not_not.mp (of_decide_eq_false gone))
  · intro node identifies
    rw [Node.kind_of_isRelationship (Bool.and_eq_true_iff.mp identifies).1]
    exact NodeKind.noConfusion

end

end Adjacency

namespace Resolution

/-- The report of a relationship that cannot be resolved. -/
def tooFew (index : Adjacency) (relationship : Node) : Diagnostic :=
  .unresolvableRelationship relationship.name (index.entityNeighbors relationship.id).length

variable {index : Adjacency} {relationship : Node} (lone : index.Lone relationship)
  (resolved : isIdentifying relationship
    ((index.entityNeighbors relationship.id).map (·.node)) = false)
include lone resolved

theorem relationshipProblems_of_lone :
    relationshipProblems index relationship = [tooFew index relationship] := by
  unfold relationshipProblems tooFew
  dsimp only
  rw [resolved]
  rcases lone.participants with none | ⟨only, single⟩
  · rw [none]
    rfl
  · rw [single]
    rfl

theorem resolveOne_of_lone (links : List Ownership) (state : Resolution) :
    resolveOne index links state relationship =
      state.report (index.attributeProblems relationship ++ [tooFew index relationship]) := by
  unfold resolveOne tooFew
  dsimp only
  rw [resolved]
  rcases lone.participants with none | ⟨only, single⟩
  · rw [none]
    simp [Resolution.report]
  · rw [single]
    simp [Resolution.report]

end Resolution

/-! ## The tables without the relationship -/

namespace Resolution

/-- What was derived and reported before does not matter for the tables. -/
theorem foldl_resolveOne_report {index : Adjacency} (formed : index.WellFormed)
    (relationships : List Node) (state : Resolution) (found : List Diagnostic) :
    let resolved := relationships.foldl (resolveOne index index.ownerships)
    (resolved (state.report found)).tables = (resolved state).tables ∧
      (resolved (state.report found)).derived = (resolved state).derived := by
  intro resolved
  let begun (before : List Diagnostic) : Setting := ⟨⟨.empty, .empty⟩, state.derived, before⟩
  let start : Resolution := ⟨state.tables, [], []⟩
  have begins (before : List Diagnostic) :
      (begun before).surround start = ⟨state.tables, state.derived, before⟩ := by
    simp [begun, start, Setting.surround, Frame.around, TableMap.empty]
  have after (before : List Diagnostic) : resolved ⟨state.tables, state.derived, before⟩ =
      (begun before).surround (resolved start) := by
    rw [← begins]
    apply Setting.foldl_resolveOne_surround (begun before) start formed
    · exact fun link isLink => (formed.ends_of_mem_ownerships isLink).1
    · exact fun _ _ => ⟨List.not_mem_nil, List.not_mem_nil⟩
  have reported : resolved (state.report found) = _ := after (state.diagnostics ++ found)
  have plain : resolved state = _ := after state.diagnostics
  rw [reported, plain]
  exact ⟨rfl, rfl⟩

end Resolution

namespace Derivation

open Adjacency (Lone Mutes)

/-- The other relationships, those before it and those after it. -/
theorem exists_others {index : Adjacency} (formed : index.WellFormed) {relationship : Node}
    (counts : relationship ∈ index.nodes) (isRelationship : relationship.isRelationship = true) :
    ∃ before after, relationshipsOf index = before ++ relationship :: after ∧
      (relationshipsOf index).filter (fun other => other.id ≠ relationship.id) =
        before ++ after := by
  have member : relationship ∈ relationshipsOf index :=
    List.mem_filter.mpr ⟨counts, isRelationship⟩
  rcases List.append_of_mem member with ⟨before, after, split⟩
  have distinct : ((before ++ relationship :: after).map Node.id).Nodup :=
    split ▸ formed.distinct.sublist (List.filter_sublist.map Node.id)
  rw [List.map_append, List.map_cons, List.nodup_middle, List.nodup_cons, ← List.map_append]
    at distinct
  have others : ∀ other ∈ before ++ after, other.id ≠ relationship.id := by
    intro other isOther same
    exact distinct.1 (same ▸ List.mem_map_of_mem isOther)
  have both := List.forall_mem_append.mp others
  refine ⟨before, after, split, ?_⟩
  rw [split, List.filter_append, List.filter_cons_of_neg (by simp),
    List.filter_eq_self.mpr fun other isOther => decide_eq_true (both.1 other isOther),
    List.filter_eq_self.mpr fun other isOther => decide_eq_true (both.2 other isOther)]

section
variable {relationship : Node} {index muted : Adjacency}
  (mutes : Mutes relationship index muted) (lone : index.Lone relationship)
include mutes lone

omit lone in
theorem passLimit_muted (limit : Option Nat) : passLimit muted limit = passLimit index limit := by
  rw [passLimit, passLimit, mutes.nodes, List.length_map]

theorem settled_muted (limit : Option Nat) : settled muted limit = settled index limit := by
  rw [settled, settled, passLimit_muted mutes, mutes.ownerships_eq lone, mutes.hierarchies_eq,
    baseTables_shared mutes.sharesAttributes mutes.entities_eq]

theorem limitProblems_muted (limit : Option Nat) :
    limitProblems muted limit = limitProblems index limit := by
  rw [limitProblems, limitProblems, settled_muted mutes lone, passLimit_muted mutes]

/-- Everything else that is found out about the tables is the same. -/
theorem laterProblems_muted (limit : Option Nat) :
    ∃ before after,
      laterProblems index limit = before ++ (index.attributeProblems relationship ++
          Resolution.relationshipProblems index relationship) ++ after ∧
        laterProblems muted limit = before ++ after := by
  rcases exists_others mutes.formed mutes.counts mutes.isRelationship with
    ⟨before, after, split, others⟩
  let problems (index : Adjacency) (relationship : Node) : List Diagnostic :=
    index.attributeProblems relationship ++ Resolution.relationshipProblems index relationship
  let front := index.entities.flatMap index.attributeProblems ++ index.hierarchyProblems ++
    limitProblems index limit ++ index.entities.filterMap (missingKey? (settled index limit).tables)
  have attributes : ∀ owner ∈ index.nodes, owner.kind.bears = true →
      muted.attributeProblems owner = index.attributeProblems owner :=
    fun _ => mutes.attributeProblems_eq
  have within : before ++ after ⊆ relationshipsOf index := others ▸ List.filter_subset_self _
  have relationships : (before ++ after).flatMap (problems muted) =
      (before ++ after).flatMap (problems index) :=
    relationshipProblems_congr attributes within fun other _ => mutes.relationshipProblems_eq other
  refine ⟨front ++ before.flatMap (problems index), after.flatMap (problems index), ?_, ?_⟩
  · change front ++ (relationshipsOf index).flatMap (problems index) = _
    rw [split, List.flatMap_append, List.flatMap_cons]
    simp only [List.append_assoc, problems]
  · rw [laterProblems, mutes.entities_eq, entityProblems_congr attributes,
      mutes.hierarchyProblems_eq, limitProblems_muted mutes lone, settled_muted mutes lone,
      mutes.relationships_eq, others]
    change front ++ (before ++ after).flatMap (problems muted) = _
    rw [relationships, List.flatMap_append]
    exact (List.append_assoc _ _ _).symm

section
variable (resolved : isIdentifying relationship
  ((index.entityNeighbors relationship.id).map (·.node)) = false)
include resolved

/-- The relationship itself only adds to the reports. -/
theorem resolution_muted (limit : Option Nat) :
    (resolution muted limit).tables = (resolution index limit).tables ∧
      (resolution muted limit).derived = (resolution index limit).derived := by
  rcases exists_others mutes.formed mutes.counts mutes.isRelationship with
    ⟨before, after, split, others⟩
  let start : Resolution := ⟨(settled index limit).tables, [], []⟩
  let resolve := Resolution.resolveOne index index.ownerships
  let found := index.attributeProblems relationship ++ [Resolution.tooFew index relationship]
  have whole : resolution index limit =
      after.foldl resolve ((before.foldl resolve start).report found) := by
    change (relationshipsOf index).foldl resolve start = _
    rw [split, List.foldl_append, List.foldl_cons]
    exact congrArg (after.foldl resolve)
      (Resolution.resolveOne_of_lone lone resolved index.ownerships _)
  have part : resolution muted limit = after.foldl resolve (before.foldl resolve start) := by
    change (relationshipsOf muted).foldl (Resolution.resolveOne muted muted.ownerships)
      ⟨(settled muted limit).tables, [], []⟩ = _
    rw [settled_muted mutes lone, mutes.ownerships_eq lone, mutes.relationships_eq, others,
      ← List.foldl_append]
    apply List.foldl_ext
    intro state other isOther
    rw [← others] at isOther
    exact mutes.resolveOne_eq (List.mem_of_mem_filter isOther) index.ownerships state
  have same := Resolution.foldl_resolveOne_report mutes.formed after
    (before.foldl resolve start) found
  rw [whole, part]
  exact ⟨same.1.symm, same.2.symm⟩

end

end

/-! ## Leaving out a relationship -/

/-- The relationship adds nothing to the tables, and one report besides those of
cycles among its attributes. -/
structure ReportedNoOp (diagram : Diagram) (limit : Option Nat) (relationship : Node) : Prop where
  schema : (ofDiagram (diagram.without relationship.id) limit).schema =
    (ofDiagram diagram limit).schema
  reported : ∃ before cycles after,
    (∀ found ∈ cycles, ∃ name, found = .attributeCycle relationship.name name) ∧
      (ofDiagram diagram limit).diagnostics.filter (!·.isStray) =
        before ++ cycles ++
          Resolution.tooFew (.ofDiagram diagram) relationship :: after ∧
      (ofDiagram (diagram.without relationship.id) limit).diagnostics.filter (!·.isStray) =
        before ++ after

theorem schema_without (diagram : Diagram) (limit : Option Nat) (id : String) :
    (ofDiagram (diagram.without id) limit).schema = (ofDiagram (diagram.mute id) limit).schema := by
  rw [schema_essential, ← Diagram.essential_mute, ← schema_essential]

theorem laterProblems_without (diagram : Diagram) (limit : Option Nat) (id : String) :
    laterProblems (.ofDiagram (diagram.without id)) limit =
      laterProblems (.ofDiagram (diagram.mute id)) limit := by
  rw [laterProblems_essential, ← Diagram.essential_mute, ← laterProblems_essential]

section
variable {diagram : Diagram} {relationship : Node}
  (counts : relationship ∈ (Adjacency.ofDiagram diagram).nodes)
  (isRelationship : relationship.isRelationship = true)
  (lone : (Adjacency.ofDiagram diagram).Lone relationship)
include counts isRelationship lone

theorem schema_mute_of_lone (resolved : isIdentifying relationship
      (((Adjacency.ofDiagram diagram).entityNeighbors relationship.id).map (·.node)) = false)
    (limit : Option Nat) :
    (ofDiagram (diagram.mute relationship.id) limit).schema =
      (ofDiagram diagram limit).schema := by
  have mutes := Adjacency.mutes_mute counts isRelationship
  have resolution := resolution_muted mutes lone resolved limit
  have tables : (ofDiagram (diagram.mute relationship.id) limit).schema.tables =
      (ofDiagram diagram limit).schema.tables := by
    rw [tables_ofDiagram, tables_ofDiagram, resolution.1, resolution.2, mutes.entities_eq,
      settled_muted mutes lone, multivaluedTables_shared mutes.sharesAttributes]
  exact congrArg Schema.mk tables

/-- An identifying relationship is reported nowhere. -/
theorem not_reportedNoOp_of_identifying (identifying : isIdentifying relationship
      (((Adjacency.ofDiagram diagram).entityNeighbors relationship.id).map (·.node)) = true)
    (limit : Option Nat) : ¬ ReportedNoOp diagram limit relationship := by
  intro noOp
  have mutes := Adjacency.mutes_mute counts isRelationship
  rcases laterProblems_muted mutes lone limit with ⟨before, after, whole, part⟩
  rcases noOp.reported with ⟨front, met, back, cycles, reported, reduced⟩
  have silent : Resolution.relationshipProblems (.ofDiagram diagram) relationship = [] := by
    rw [Resolution.relationshipProblems, if_pos identifying]
  rw [filter_not_isStray, whole, silent, List.append_nil] at reported
  rw [filter_not_isStray, laterProblems_without, part] at reduced
  -- The report would be in the one list once more than in the other.
  let report := Resolution.tooFew (.ofDiagram diagram) relationship
  have absent {group : List Diagnostic}
      (all : ∀ found ∈ group, ∃ name, found = .attributeCycle relationship.name name) :
      group.count report = 0 := by
    rw [List.count_eq_zero]
    intro member
    rcases all report member with ⟨_, equal⟩
    exact Diagnostic.noConfusion equal
  have more := congrArg (List.count report) reported
  have fewer := congrArg (List.count report) reduced
  rw [List.count_append, List.count_append, List.count_append, List.count_append,
    List.count_cons_self, absent fun _ => Adjacency.mem_attributeProblems, absent cycles] at more
  rw [List.count_append, List.count_append] at fewer
  omega

/-- A relationship with fewer than two participants leaves no trace but one report
exactly if it is not taken for an identifying one, which it is if it and its only
participant are weak. -/
theorem reportedNoOp_iff (limit : Option Nat) :
    ReportedNoOp diagram limit relationship ↔
      isIdentifying relationship
        (((Adjacency.ofDiagram diagram).entityNeighbors relationship.id).map (·.node)) = false := by
  constructor
  · intro noOp
    apply Bool.eq_false_iff.mpr
    intro identifying
    exact not_reportedNoOp_of_identifying counts isRelationship lone identifying limit noOp
  · intro resolved
    have mutes := Adjacency.mutes_mute counts isRelationship
    have schema := schema_mute_of_lone counts isRelationship lone resolved limit
    rcases laterProblems_muted mutes lone limit with ⟨before, after, whole, part⟩
    refine ⟨(schema_without ..).trans schema, before,
      (Adjacency.ofDiagram diagram).attributeProblems relationship, after,
      fun _ => Adjacency.mem_attributeProblems, ?_, ?_⟩
    · rw [filter_not_isStray, whole, Resolution.relationshipProblems_of_lone lone resolved]
      simp only [List.append_assoc, List.singleton_append]
    · rw [filter_not_isStray, laterProblems_without, part]

end

/-- Tasks, weak or not, have a weak relationship to nothing else. -/
def task (isWeak : Bool) : Diagram where
  nodes := [{ Node.entity "t" "Task" with isWeak := isWeak },
    (Node.simpleAttribute "k" "no").primaryKey, (Node.relationship "r" "Has").weak,
    Node.simpleAttribute "s" "since"]
  edges := [.between "t" "k", (Edge.between "t" "r").withCards "N" "", .between "r" "s"]

theorem mem_nodes_task (isWeak : Bool) :
    (Node.relationship "r" "Has").weak ∈ (Adjacency.ofDiagram (task isWeak)).nodes := by
  have nodes : (Adjacency.ofDiagram (task isWeak)).nodes = (task isWeak).nodes := by
    cases isWeak <;> cbv
  rw [nodes]
  exact .tail _ (.tail _ (.head _))

theorem lone_task (isWeak : Bool) :
    (Adjacency.ofDiagram (task isWeak)).Lone (Node.relationship "r" "Has").weak := by
  have one : ((Adjacency.ofDiagram (task isWeak)).entityNeighbors "r").length = 1 := by
    cases isWeak <;> cbv
  exact one.trans_lt Nat.one_lt_two

/-- Nothing is lost with the relationship if tasks are not weak. -/
theorem reportedNoOp_iff_task :
    ReportedNoOp (task false) none (Node.relationship "r" "Has").weak := by
  have resolved : isIdentifying (Node.relationship "r" "Has").weak
      (((Adjacency.ofDiagram (task false)).entityNeighbors "r").map (·.node)) = false := by cbv
  exact (reportedNoOp_iff (mem_nodes_task false) rfl (lone_task false) none).mpr resolved

/-- If they are, the table of the tasks has a column for the attribute of the
relationship, and there is no report. -/
theorem not_reportedNoOp_all :
    ¬ ∀ (diagram : Diagram) (relationship : Node),
      relationship ∈ (Adjacency.ofDiagram diagram).nodes → relationship.isRelationship = true →
      (Adjacency.ofDiagram diagram).Lone relationship →
        (ofDiagram (diagram.without relationship.id) none).schema =
            (ofDiagram diagram none).schema ∧
          Resolution.tooFew (.ofDiagram diagram) relationship ∈
            (ofDiagram diagram none).diagnostics := by
  intro all
  have columns : (ofDiagram (task true) none).schema.baseTables.map Table.names =
      [["no", "since"]] := by
    rw [baseTables_ofDiagram]
    cbv
  have fewer : (ofDiagram ((task true).without "r") none).schema.baseTables.map Table.names =
      [["no"]] := by
    rw [baseTables_ofDiagram]
    cbv
  have same := (all (task true) _ (mem_nodes_task true) rfl (lone_task true)).1
  have names := congrArg (fun schema => schema.baseTables.map Table.names) same
  exact absurd (fewer.symm.trans (names.trans columns)) (by decide)

end Derivation

end ErSchema
