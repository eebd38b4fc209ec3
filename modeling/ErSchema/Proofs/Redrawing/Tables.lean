import ErSchema.Proofs.Dependents
import ErSchema.Proofs.Redrawing.Graph

/-! # Tables of graphs drawn anew

Tables are found by the identifiers of their nodes and know nothing else of them
but names. So every step of a derivation does to the tables of the renamed nodes
what it does to those of the nodes, and in the end nothing is left to rename. -/

namespace ErSchema

theorem foldl_redraw {α β σ τ : Type} {step : σ → α → σ} {newStep : τ → β → τ} (change : σ → τ)
    (redraw : α → β) {items : List α}
    (each : ∀ item ∈ items, ∀ state,
      newStep (change state) (redraw item) = change (step state item))
    (state : σ) :
    (items.map redraw).foldl newStep (change state) = change (items.foldl step state) := by
  induction items generalizing state with
  | nil => rfl
  | cons item rest induction =>
      have both := List.forall_mem_cons.mp each
      rw [List.map_cons, List.foldl_cons, both.1, induction both.2]
      rfl

namespace TableMap

/-- The same tables of the renamed nodes. -/
def renamed (rename : String → String) (tables : TableMap) : TableMap :=
  ⟨tables.entries.map (Prod.map rename id)⟩

theorem toTables_renamed (rename : String → String) (tables : TableMap) :
    (tables.renamed rename).toTables = tables.toTables := by
  rw [toTables, toTables, renamed, List.map_map]
  rfl

section
variable {rename : String → String} (injective : Function.Injective rename)
include injective

theorem get?_renamed (tables : TableMap) (known : String) :
    (tables.renamed rename).get? (rename known) = tables.get? known := by
  have same : ((fun entry => decide (entry.1 = rename known)) ∘ Prod.map rename id) =
      fun entry : String × Table => decide (entry.1 = known) := by
    funext entry
    simp [injective.eq_iff]
  rw [get?, get?, renamed, List.find?_map, same, Option.map_map]
  rfl

theorem primaryKey_renamed (tables : TableMap) (id : String) :
    (tables.renamed rename).primaryKey (rename id) = tables.primaryKey id := by
  rw [primaryKey, primaryKey, get?_renamed injective]

theorem modifyEntries_renamed (known : String) (change : Table → Table)
    (entries : List (String × Table)) :
    modifyEntries (rename known) change (entries.map (Prod.map rename id)) =
      (modifyEntries known change entries).map (Prod.map rename id) := by
  induction entries with
  | nil => rfl
  | cons entry rest induction =>
      by_cases here : entry.1 = known
      · simp [modifyEntries, here]
      · simp [modifyEntries, here, injective.eq_iff, induction]

theorem modify_renamed (tables : TableMap) (id : String) (change : Table → Table) :
    (tables.renamed rename).modify (rename id) change = (tables.modify id change).renamed rename :=
  congrArg TableMap.mk (modifyEntries_renamed injective id change tables.entries)

theorem absorb_renamed (take : Nat × Table → Column → Nat × Table) (keys : List Column)
    (state : Nat × TableMap) (known : String) :
    absorb take keys (Prod.map id (renamed rename) state) (rename known) =
      Prod.map id (renamed rename) (absorb take keys state known) := by
  have same := get?_renamed injective state.2 known
  cases found : state.2.get? known with
  | none => rw [absorb_of_none found, absorb_of_none (same.trans found)]
  | some table =>
      rw [absorb_of_some found, absorb_of_some (same.trans found)]
      exact Prod.ext rfl (modify_renamed injective _ known _)

end

end TableMap

/-- The same state with the tables of the renamed nodes. -/
def Resolution.renamed (rename : String → String) (state : Resolution) : Resolution :=
  { state with tables := state.tables.renamed rename }

theorem Resolution.report_renamed (rename : String → String) (state : Resolution)
    (diagnostics : List Diagnostic) :
    (state.renamed rename).report diagnostics = (state.report diagnostics).renamed rename :=
  rfl

/-- Two participants stand to a relationship as before. -/
theorem Neighbor.Alike.classify_eq {redraw : Node → Node} {relationship : Node}
    {first second newFirst newSecond : Neighbor} (ofKind : relationship.isRelationship = true)
    (firstAlike : first.Alike redraw relationship newFirst)
    (secondAlike : second.Alike redraw relationship newSecond)
    (isFirst : first.node.isEntity = true) (isSecond : second.node.isEntity = true) :
    Shape.classify newFirst.card newSecond.card = Shape.classify first.card second.card := by
  rw [Shape.classify, Shape.classify, firstAlike.card ofKind isFirst,
    secondAlike.card ofKind isSecond]

namespace Adjacency

namespace Redraws

variable {rename : String → String} {redraw : Node → Node} {index redrawn : Adjacency}
  (redraws : Redraws rename redraw index redrawn)
include redraws

theorem entity_name {entity : Node} (isEntity : entity ∈ index.entities) :
    (redraw entity).name = entity.name :=
  (redraws.alike entity (mem_entities.mp isEntity).1).entity_name (mem_entities.mp isEntity).2

theorem entity_isWeak {entity : Node} (isEntity : entity ∈ index.entities) :
    (redraw entity).isWeak = entity.isWeak :=
  (redraws.alike entity (mem_entities.mp isEntity).1).weak (.inl (mem_entities.mp isEntity).2)

theorem id_redraw_entity {entity : Node} (isEntity : entity ∈ index.entities) :
    (redraw entity).id = rename entity.id :=
  redraws.id_redraw (mem_entities.mp isEntity).1

theorem get?_redraw (tables : TableMap) {entity : Node} (isEntity : entity ∈ index.entities) :
    (tables.renamed rename).get? (redraw entity).id = tables.get? entity.id := by
  rw [redraws.id_redraw_entity isEntity, TableMap.get?_renamed redraws.injective]

theorem primaryKey_redraw (tables : TableMap) {entity : Node}
    (isEntity : entity ∈ index.entities) :
    (tables.renamed rename).primaryKey (redraw entity).id = tables.primaryKey entity.id := by
  rw [redraws.id_redraw_entity isEntity, TableMap.primaryKey_renamed redraws.injective]

theorem modify_redraw (tables : TableMap) {entity : Node} (isEntity : entity ∈ index.entities)
    (change : Table → Table) :
    (tables.renamed rename).modify (redraw entity).id change =
      (tables.modify entity.id change).renamed rename := by
  rw [redraws.id_redraw_entity isEntity, TableMap.modify_renamed redraws.injective]

/-! ## Passes -/

theorem baseTables_redraw :
    Derivation.baseTables redrawn = (Derivation.baseTables index).renamed rename := by
  have entries : (Derivation.baseTables redrawn).entries =
      (Derivation.baseTables index).entries.map (Prod.map rename id) := by
    rw [Derivation.entries_baseTables redraws.redrawnFormed,
      Derivation.entries_baseTables redraws.formed, redraws.entities_redraw, List.map_map,
      List.map_map]
    refine List.map_congr_left fun entity isEntity => ?_
    have isNode := (mem_entities.mp isEntity).1
    simp only [Function.comp_apply, redraws.id_redraw isNode, redraws.attributesOf_redraw isNode,
      Derivation.entityTable, redraws.entity_name isEntity, Prod.map_apply, id_eq]
  exact congrArg TableMap.mk entries

theorem ownershipStep_redraw {link : Ownership} (member : link ∈ index.ownerships)
    (state : Nat × TableMap) :
    Ownership.step (Prod.map id (TableMap.renamed rename) state) (link.redrawn redraw) =
      Prod.map id (TableMap.renamed rename) (Ownership.step state link) := by
  have ends := redraws.formed.ends_of_mem_ownerships member
  rw [Ownership.step_eq_absorb, Ownership.step_eq_absorb, Ownership.redrawn]
  dsimp only [Prod.map_snd]
  rw [redraws.entity_name ends.2, redraws.primaryKey_redraw state.2 ends.2,
    redraws.id_redraw_entity ends.1]
  exact TableMap.absorb_renamed redraws.injective _ _ state _

theorem hierarchyStep_redraw {hierarchy : Hierarchy} (member : hierarchy ∈ index.hierarchies)
    (state : Nat × TableMap) :
    Hierarchy.step (Prod.map id (TableMap.renamed rename) state) (hierarchy.redrawn redraw) =
      Prod.map id (TableMap.renamed rename) (Hierarchy.step state hierarchy) := by
  have classes := redraws.formed.classes_of_mem_hierarchies member
  rw [Hierarchy.step, Hierarchy.step, Hierarchy.redrawn]
  dsimp only [Prod.map_snd]
  rw [redraws.entity_name classes.1, redraws.primaryKey_redraw state.2 classes.1]
  refine foldl_redraw _ redraw (fun subclass isSubclass state => ?_) state
  rw [Hierarchy.subclassStep_eq_absorb, Hierarchy.subclassStep_eq_absorb,
    redraws.id_redraw_entity (classes.2 subclass isSubclass)]
  exact TableMap.absorb_renamed redraws.injective _ _ state _

theorem pass_redraw (tables : TableMap) :
    Derivation.pass redrawn.ownerships redrawn.hierarchies (tables.renamed rename) =
      Prod.map id (TableMap.renamed rename)
        (Derivation.pass index.ownerships index.hierarchies tables) := by
  have owned (tables : TableMap) :
      Ownership.propagate redrawn.ownerships (tables.renamed rename) =
        Prod.map id (TableMap.renamed rename) (Ownership.propagate index.ownerships tables) := by
    rw [redraws.ownerships_redraw]
    exact foldl_redraw _ _ (fun _ => redraws.ownershipStep_redraw) (0, tables)
  have inherited (tables : TableMap) :
      Hierarchy.propagate redrawn.hierarchies (tables.renamed rename) =
        Prod.map id (TableMap.renamed rename) (Hierarchy.propagate index.hierarchies tables) := by
    rw [redraws.hierarchies_redraw]
    exact foldl_redraw _ _ (fun _ => redraws.hierarchyStep_redraw) (0, tables)
  simp only [Derivation.pass, owned, inherited, Prod.map_fst, Prod.map_snd, id_eq, Prod.map_apply]

theorem settle_redraw (allowed : Nat) (tables : TableMap) :
    Derivation.settle (Derivation.pass redrawn.ownerships redrawn.hierarchies) allowed
        (tables.renamed rename) =
      let settled := Derivation.settle (Derivation.pass index.ownerships index.hierarchies) allowed
        tables
      ⟨settled.tables.renamed rename, settled.stopped⟩ := by
  induction allowed generalizing tables with
  | zero => rfl
  | succ allowed induction =>
      simp only [Derivation.settle, redraws.pass_redraw, Prod.map_fst, Prod.map_snd, id_eq]
      split
      · rfl
      · exact induction _

theorem settled_redraw (limit : Option Nat) :
    Derivation.settled redrawn limit =
      ⟨(Derivation.settled index limit).tables.renamed rename,
        (Derivation.settled index limit).stopped⟩ := by
  rw [Derivation.settled, Derivation.passLimit, redraws.length_nodes, redraws.baseTables_redraw]
  exact redraws.settle_redraw _ _

/-! ## Relationships -/

theorem relationship_name {relationship : Node}
    (isRelationship : relationship ∈ Derivation.relationshipsOf index) :
    (redraw relationship).name = relationship.name := by
  rcases List.mem_filter.mp isRelationship with ⟨isNode, isRelationship⟩
  exact (redraws.alike relationship isNode).relationship_name isRelationship

theorem importedKeys_redraw (tables : TableMap) (met : List String) {participants : List Node}
    (areEntities : participants ⊆ index.entities) :
    Junction.importedKeys (tables.renamed rename) (met.map rename) (participants.map redraw) =
      Junction.importedKeys tables met participants := by
  induction participants generalizing met with
  | nil => rfl
  | cons participant rest induction =>
      have isEntity := areEntities List.mem_cons_self
      have others := induction (participant.id :: met)
        (List.subset_def.mpr fun member => areEntities (List.mem_cons_of_mem _ member))
      have known : (redraw participant).id ∈ met.map rename ↔ participant.id ∈ met := by
        rw [redraws.id_redraw_entity isEntity, List.mem_map_of_injective redraws.injective]
      rw [List.map_cons, ← redraws.id_redraw_entity isEntity] at others
      simp only [List.map_cons, Junction.importedKeys, known, others,
        redraws.primaryKey_redraw tables isEntity, redraws.entity_name isEntity]

theorem junctionTable_redraw {relationship : Node}
    (isRelationship : relationship ∈ Derivation.relationshipsOf index) (attributes : Attributes)
    {participants : List Node} (areEntities : participants ⊆ index.entities) (tables : TableMap) :
    junctionTable (redraw relationship) attributes (participants.map redraw)
        (tables.renamed rename) =
      junctionTable relationship attributes participants tables := by
  have imported := redraws.importedKeys_redraw tables [] areEntities
  rw [List.map_nil] at imported
  simp only [junctionTable, Junction.candidates, imported,
    redraws.relationship_name isRelationship]

theorem isIdentifying_redraw {relationship : Node}
    (isRelationship : relationship ∈ Derivation.relationshipsOf index) {participants : List Node}
    (areEntities : participants ⊆ index.entities) :
    isIdentifying (redraw relationship) (participants.map redraw) =
      isIdentifying relationship participants := by
  rcases List.mem_filter.mp isRelationship with ⟨isNode, ofKind⟩
  have weak : (participants.map redraw).any (·.isWeak) = participants.any (·.isWeak) := by
    rw [List.any_map, Bool.eq_iff_iff, List.any_eq_true, List.any_eq_true]
    refine exists_congr fun participant => and_congr_right fun member => ?_
    rw [Function.comp_apply, redraws.entity_isWeak (areEntities member)]
  rw [isIdentifying, isIdentifying, weak, (redraws.alike relationship isNode).weak (.inr ofKind)]

theorem recorded_redraw {relationship : Node} (isNode : relationship ∈ index.nodes) :
    (redrawn.ownerships.filter fun link =>
        link.relationship.id = (redraw relationship).id).map (·.dependent) =
      ((index.ownerships.filter fun link =>
        link.relationship.id = relationship.id).map (·.dependent)).map redraw := by
  have same : ∀ link ∈ index.ownerships,
      decide ((link.redrawn redraw).relationship.id = (redraw relationship).id) =
        decide (link.relationship.id = relationship.id) := fun link member =>
    decide_eq_decide.mpr (redraws.id_redraw_eq_iff
      (redraws.formed.isDependent_of_mem_ownerships member).1 isNode)
  rw [redraws.ownerships_redraw, filter_map_congr same, List.map_map, List.map_map]
  rfl

theorem dependents_redraw {relationship : Node}
    (isRelationship : relationship ∈ Derivation.relationshipsOf index) {participants : List Node}
    (areEntities : participants ⊆ index.entities) :
    Resolution.dependents (redraw relationship) (participants.map redraw) redrawn.ownerships =
      (Resolution.dependents relationship participants index.ownerships).map redraw := by
  have first : firstBy Node.id ((redrawn.ownerships.filter fun link =>
        link.relationship.id = (redraw relationship).id).map (·.dependent)) =
      (firstBy Node.id ((index.ownerships.filter fun link =>
        link.relationship.id = relationship.id).map (·.dependent))).map redraw := by
    have isDependent {node : Node} (member : node ∈ (index.ownerships.filter fun link =>
        link.relationship.id = relationship.id).map (·.dependent)) : node ∈ index.nodes := by
      rcases List.mem_map.mp member with ⟨link, isLink, rfl⟩
      exact (mem_entities.mp
        (redraws.formed.ends_of_mem_ownerships (List.mem_of_mem_filter isLink)).1).1
    rw [redraws.recorded_redraw (List.mem_of_mem_filter isRelationship)]
    exact firstBy_map redraw fun left isLeft right isRight =>
      redraws.id_redraw_eq_iff (isDependent isLeft) (isDependent isRight)
  unfold Resolution.dependents
  rw [first]
  cases firstBy Node.id ((index.ownerships.filter fun link =>
      link.relationship.id = relationship.id).map (·.dependent)) with
  | nil =>
    exact filter_map_congr fun participant member => redraws.entity_isWeak (areEntities member)
  | cons => rfl

/-! ## Folding -/

section
variable (state : Resolution) {relationship : Node}
  (isRelationship : relationship ∈ Derivation.relationshipsOf index) (attributes : Attributes)

theorem foldKey_redraw {holder target : Node} (isHolder : holder ∈ index.entities)
    (isTarget : target ∈ index.entities) (role : String) :
    (state.renamed rename).foldKey (redraw holder) (redraw target) role =
      (state.foldKey holder target role).renamed rename := by
  have push : Resolution.pushForeignKey (redraw target) role =
      Resolution.pushForeignKey target role := by
    funext table key
    rw [Resolution.pushForeignKey, Resolution.pushForeignKey, redraws.entity_name isTarget]
  simp only [Resolution.foldKey, Resolution.renamed, push,
    redraws.primaryKey_redraw state.tables isTarget, redraws.modify_redraw state.tables isHolder]

include isRelationship

theorem foldAttributes_redraw {holder : Node} (isHolder : holder ∈ index.entities) :
    (state.renamed rename).foldAttributes (redraw relationship) attributes (redraw holder) =
      (state.foldAttributes relationship attributes holder).renamed rename := by
  have push : Resolution.pushAttribute (redraw relationship) =
      Resolution.pushAttribute relationship := by
    funext table name
    rw [Resolution.pushAttribute, Resolution.pushAttribute,
      redraws.relationship_name isRelationship]
  simp only [Resolution.foldAttributes, Resolution.renamed, push,
    redraws.get?_redraw state.tables isHolder]
  cases state.tables.get? holder.id with
  | none => rfl
  | some table => simp only [redraws.modify_redraw state.tables isHolder]

theorem foldInto_redraw {holder target : Node} (isHolder : holder ∈ index.entities)
    (isTarget : target ∈ index.entities) (role : String) :
    (state.renamed rename).foldInto (redraw relationship) attributes (redraw holder)
        (redraw target) role =
      (state.foldInto relationship attributes holder target role).renamed rename := by
  have same := redraws.id_redraw_eq_iff (mem_entities.mp isHolder).1 (mem_entities.mp isTarget).1
  simp only [Resolution.foldInto, same, redraws.foldKey_redraw state isHolder isTarget,
    redraws.foldAttributes_redraw _ isRelationship attributes isHolder]

theorem pushJunction_redraw {participants : List Node}
    (areEntities : participants ⊆ index.entities) :
    (state.renamed rename).pushJunction (redraw relationship) attributes
        (participants.map redraw) =
      (state.pushJunction relationship attributes participants).renamed rename := by
  simp only [Resolution.pushJunction, Resolution.renamed, Resolution.derive,
    redraws.junctionTable_redraw isRelationship attributes areEntities]

theorem resolveBinary_redraw {first second newFirst newSecond : Neighbor}
    (isFirst : first.node ∈ index.entities) (isSecond : second.node ∈ index.entities)
    (firstAlike : first.Alike redraw relationship newFirst)
    (secondAlike : second.Alike redraw relationship newSecond) :
    (state.renamed rename).resolveBinary (redraw relationship) attributes newFirst newSecond =
      (state.resolveBinary relationship attributes first second).renamed rename := by
  have shape := Neighbor.Alike.classify_eq (List.mem_filter.mp isRelationship).2 firstAlike
    secondAlike (mem_entities.mp isFirst).2 (mem_entities.mp isSecond).2
  have both : [first.node, second.node] ⊆ index.entities := by
    simp [isFirst, isSecond]
  unfold Resolution.resolveBinary
  rw [shape, firstAlike.node, secondAlike.node]
  cases Shape.classify first.card second.card with
  | manyToMany => exact redraws.pushJunction_redraw state isRelationship attributes both
  | oneToMany side =>
      cases side with
      | first => exact redraws.foldInto_redraw state isRelationship attributes isFirst isSecond _
      | second => exact redraws.foldInto_redraw state isRelationship attributes isSecond isFirst _
  | oneToOne =>
      rw [redraws.relationship_name isRelationship, redraws.entity_name isFirst,
        redraws.entity_name isSecond]
      exact redraws.foldInto_redraw (state.report _) isRelationship attributes isFirst isSecond _

theorem resolveOne_redraw :
    Resolution.resolveOne redrawn redrawn.ownerships (state.renamed rename) (redraw relationship) =
      (Resolution.resolveOne index index.ownerships state relationship).renamed rename := by
  rcases List.mem_filter.mp isRelationship with ⟨isNode, ofKind⟩
  have pairs := redraws.entityNeighbors_redraw isNode
  have areEntities := redraws.formed.participants_subset relationship.id
  have problems := redraws.attributeProblems_redraw isNode
    (Node.kind_of_isRelationship ofKind ▸ NodeKind.noConfusion)
  have name := redraws.relationship_name isRelationship
  unfold Resolution.resolveOne
  simp only [redraws.participants_redraw isNode, redraws.attributesOf_redraw isNode, problems,
    redraws.isIdentifying_redraw isRelationship areEntities,
    redraws.dependents_redraw isRelationship areEntities, name, Resolution.report_renamed]
  generalize state.report (index.attributeProblems relationship) = told
  split
  case isTrue =>
    refine foldl_redraw _ redraw (fun dependent member told => ?_) told
    refine redraws.foldAttributes_redraw told isRelationship _ ?_
    rcases Resolution.mem_dependents member with participant | ⟨link, isLink, rfl⟩
    · exact areEntities participant
    · exact (redraws.formed.ends_of_mem_ownerships isLink).1
  case isFalse =>
    have junction := redraws.pushJunction_redraw told isRelationship
      (index.attributesOf relationship) areEntities
    generalize index.entityNeighbors relationship.id = participants at pairs junction ⊢
    generalize redrawn.entityNeighbors (redraw relationship).id = others at pairs ⊢
    rcases pairs with _ | ⟨⟨isFirst, first⟩, _ | ⟨⟨isSecond, second⟩, _ | _⟩⟩
    · rfl
    · rfl
    · exact redraws.resolveBinary_redraw told isRelationship _ isFirst isSecond first second
    · exact junction

end

theorem resolution_redraw (limit : Option Nat) :
    Derivation.resolution redrawn limit = (Derivation.resolution index limit).renamed rename := by
  have relationships : redrawn.nodes.filter (·.isRelationship) =
      (Derivation.relationshipsOf index).map redraw := redraws.relationshipsOf_redraw
  rw [Derivation.resolution, Derivation.resolution, Derivation.resolutionAfter,
    Derivation.resolutionAfter, relationships, redraws.settled_redraw]
  let start : Resolution := ⟨(Derivation.settled index limit).tables, [], []⟩
  exact foldl_redraw (Resolution.renamed rename) redraw
    (fun relationship isRelationship state => redraws.resolveOne_redraw state isRelationship) start

/-! ## What is reported -/

theorem multivaluedTables_redraw (tables : TableMap) {entity : Node}
    (isEntity : entity ∈ index.entities) :
    Derivation.multivaluedTables redrawn (tables.renamed rename) (redraw entity) =
      Derivation.multivaluedTables index tables entity := by
  rw [Derivation.multivaluedTables, Derivation.multivaluedTables,
    redraws.get?_redraw tables isEntity,
    redraws.attributesOf_redraw (mem_entities.mp isEntity).1]

theorem missingKey?_redraw (tables : TableMap) {entity : Node}
    (isEntity : entity ∈ index.entities) :
    Derivation.missingKey? (tables.renamed rename) (redraw entity) =
      Derivation.missingKey? tables entity := by
  rw [Derivation.missingKey?, Derivation.missingKey?, redraws.get?_redraw tables isEntity,
    redraws.entity_name isEntity]

theorem relationshipProblems_redraw {relationship : Node}
    (isRelationship : relationship ∈ Derivation.relationshipsOf index) :
    Resolution.relationshipProblems redrawn (redraw relationship) =
      Resolution.relationshipProblems index relationship := by
  rcases List.mem_filter.mp isRelationship with ⟨isNode, ofKind⟩
  have pairs := redraws.entityNeighbors_redraw isNode
  have areEntities := redraws.formed.participants_subset relationship.id
  have name := redraws.relationship_name isRelationship
  unfold Resolution.relationshipProblems
  simp only [redraws.participants_redraw isNode,
    redraws.isIdentifying_redraw isRelationship areEntities, name]
  split
  case isTrue => rfl
  case isFalse =>
    generalize index.entityNeighbors relationship.id = participants at pairs ⊢
    generalize redrawn.entityNeighbors (redraw relationship).id = others at pairs ⊢
    rcases pairs with _ | ⟨⟨isFirst, first⟩, _ | ⟨⟨isSecond, second⟩, _ | _⟩⟩
    · rfl
    · rfl
    · have shape := Neighbor.Alike.classify_eq ofKind first second (mem_entities.mp isFirst).2
        (mem_entities.mp isSecond).2
      simp only [shape, first.node, second.node, redraws.entity_name isFirst,
        redraws.entity_name isSecond]
    · rfl

end Redraws

end Adjacency

namespace Derivation

section
variable {rename : String → String} {redraw : Node → Node} {index redrawn : Adjacency}
  (redraws : Adjacency.Redraws rename redraw index redrawn)
include redraws

theorem laterProblems_redraw (limit : Option Nat) :
    laterProblems redrawn limit = laterProblems index limit := by
  have limits : limitProblems redrawn limit = limitProblems index limit := by
    rw [limitProblems, limitProblems, redraws.settled_redraw, passLimit, passLimit,
      redraws.length_nodes]
  have cycles : redrawn.entities.flatMap redrawn.attributeProblems =
      index.entities.flatMap index.attributeProblems := by
    rw [redraws.entities_redraw, List.flatMap_map]
    refine List.flatMap_congr fun entity isEntity => ?_
    rcases Adjacency.mem_entities.mp isEntity with ⟨isNode, ofKind⟩
    exact redraws.attributeProblems_redraw isNode
      (Node.kind_of_isEntity ofKind ▸ NodeKind.noConfusion)
  have missing : redrawn.entities.filterMap (missingKey? (settled redrawn limit).tables) =
      index.entities.filterMap (missingKey? (settled index limit).tables) := by
    rw [redraws.entities_redraw, redraws.settled_redraw, List.filterMap_map]
    exact List.filterMap_congr fun entity isEntity => redraws.missingKey?_redraw _ isEntity
  have relationships : ((relationshipsOf redrawn).flatMap fun relationship =>
        redrawn.attributeProblems relationship ++
          Resolution.relationshipProblems redrawn relationship) =
      (relationshipsOf index).flatMap fun relationship =>
        index.attributeProblems relationship ++
          Resolution.relationshipProblems index relationship := by
    rw [redraws.relationshipsOf_redraw, List.flatMap_map]
    refine List.flatMap_congr fun relationship isRelationship => ?_
    rcases List.mem_filter.mp isRelationship with ⟨isNode, ofKind⟩
    rw [redraws.relationshipProblems_redraw isRelationship, redraws.attributeProblems_redraw isNode
      (Node.kind_of_isRelationship ofKind ▸ NodeKind.noConfusion)]
  rw [laterProblems, laterProblems, limits, cycles, missing, relationships,
    redraws.hierarchyProblems_redraw]

end

/-- A diagram drawn anew leads to the same tables. -/
theorem schema_redraw {rename : String → String} {redraw : Node → Node} {diagram other : Diagram}
    (redraws : Adjacency.Redraws rename redraw (.ofDiagram diagram) (.ofDiagram other))
    (limit : Option Nat) : (ofDiagram other limit).schema = (ofDiagram diagram limit).schema := by
  have values : (Adjacency.ofDiagram other).entities.flatMap (multivaluedTables (.ofDiagram other)
        (settled (.ofDiagram other) limit).tables) =
      (Adjacency.ofDiagram diagram).entities.flatMap (multivaluedTables (.ofDiagram diagram)
        (settled (.ofDiagram diagram) limit).tables) := by
    rw [redraws.entities_redraw, redraws.settled_redraw, List.flatMap_map]
    exact List.flatMap_congr fun entity isEntity => redraws.multivaluedTables_redraw _ isEntity
  have tables :
      (ofDiagram other limit).schema.tables = (ofDiagram diagram limit).schema.tables := by
    rw [tables_ofDiagram, tables_ofDiagram, values, redraws.resolution_redraw,
      Resolution.renamed, TableMap.toTables_renamed]
  exact congrArg Schema.mk tables

/-- Findings about what the diagram means stay the same; those about the drawing
change as it does. -/
theorem diagnostics_redraw {rename : String → String} {redraw : Node → Node}
    {diagram other : Diagram} {change : Diagnostic → Diagnostic}
    (redraws : Adjacency.Redraws rename redraw (.ofDiagram diagram) (.ofDiagram other))
    (drawing : Adjacency.problems other = (Adjacency.problems diagram).map change)
    (meaning : ∀ found, found.isStray = false → change found = found) (limit : Option Nat) :
    (ofDiagram other limit).diagnostics = (ofDiagram diagram limit).diagnostics.map change := by
  have later : (laterProblems (.ofDiagram diagram) limit).map change =
      laterProblems (.ofDiagram diagram) limit := by
    refine (List.map_congr_left fun found member => ?_).trans (List.map_id _)
    exact meaning found (isStray_of_mem_laterProblems member)
  rw [diagnostics_ofDiagram, diagnostics_ofDiagram, laterProblems_redraw redraws, drawing,
    List.map_append, later]

end Derivation

end ErSchema
