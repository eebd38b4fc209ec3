import ErSchema.Proofs.Components
import ErSchema.Proofs.Dependents
import ErSchema.Proofs.Subclasses
import ErSchema.Proofs.Widths

/-! # Nodes in another order

The order in which nodes are declared decides the order of tables and columns, and
which of two columns keeps a name. It does not decide keys: these are the names
with a path, and paths do not know of any order. Nor does it decide how many
columns there are, since every relationship adds as many as it adds. -/

namespace ErSchema

theorem filterMap_eq_of_forall₂ {α β : Type} {make : α → Option β} {members : List α}
    {made : List β} (pairs : List.Forall₂ (fun member result => make member = some result)
      members made) : members.filterMap make = made := by
  induction pairs with
  | nil => rfl
  | cons found _ induction => rw [List.filterMap_cons_some found, induction]

theorem firstBy_flatMap {α β γ : Type} [DecidableEq γ] {key : β → γ} {members : α → List β}
    {groups : List α}
    (apart : groups.Pairwise fun left right =>
      ∀ member ∈ members left, ∀ other ∈ members right, key member ≠ key other) :
    firstBy key (groups.flatMap members) =
      groups.flatMap fun group => firstBy key (members group) := by
  induction groups with
  | nil => rfl
  | cons group rest induction =>
      rcases List.pairwise_cons.mp apart with ⟨different, others⟩
      rw [List.flatMap_cons, List.flatMap_cons, firstBy_append, induction others]
      intro member isMember other isOther
      rcases List.mem_flatMap.mp isOther with ⟨later, isLater, isLatersMember⟩
      exact different later isLater member isMember other isLatersMember

namespace Adjacency

theorem find?_perm {nodes others : List Node} (distinct : (nodes.map Node.id).Nodup)
    (same : others.Perm nodes) (id : String) : find? others id = find? nodes id := by
  have otherDistinct := (same.map Node.id).nodup_iff.mpr distinct
  refine Option.ext fun node => ?_
  rw [find?_eq_some_iff otherDistinct, find?_eq_some_iff distinct, same.mem_iff]

/-- Links of different dependents never stand for each other. -/
theorem WellFormed.ownerships_eq_flatMap {index : Adjacency} (formed : index.WellFormed) :
    index.ownerships = index.weakEntities.flatMap fun weak =>
      firstBy (fun link => (link.dependent.id, link.owner.id)) (index.ownershipsOf weak) := by
  have distinct : (index.weakEntities.map Node.id).Nodup :=
    formed.distinct.sublist (List.filter_sublist.map Node.id)
  rw [ownerships_eq_firstBy]
  refine firstBy_flatMap ((List.pairwise_map.mp distinct).imp fun {weak other} different => ?_)
  intro link isLink otherLink isOtherLink same
  rw [Prod.mk.injEq, (mem_ownershipsOf isLink).1, (mem_ownershipsOf isOtherLink).1] at same
  exact different same.1

/-- The second graph has the nodes of the first in another order, and the same
connections. -/
structure Reorders (index other : Adjacency) : Prop where
  formed : index.WellFormed
  otherFormed : other.WellFormed
  nodes : other.nodes.Perm index.nodes
  neighbors : ∀ id, other.neighbors id = index.neighbors id

namespace Reorders

variable {index other : Adjacency} (reorders : Reorders index other)
include reorders

theorem symm : Reorders other index where
  formed := reorders.otherFormed
  otherFormed := reorders.formed
  nodes := reorders.nodes.symm
  neighbors id := (reorders.neighbors id).symm

theorem agrees : Agrees id index other where
  partFormed := reorders.formed
  wholeFormed := reorders.otherFormed
  nodes := reorders.nodes.symm.subset
  relevant node _ := by
    rw [relevant, relevant, reorders.neighbors]
    exact (List.map_id _).symm
  apart _ _ _ _ same := same

theorem entities_perm : other.entities.Perm index.entities :=
  reorders.nodes.filter _

theorem relationships_perm :
    (Derivation.relationshipsOf other).Perm (Derivation.relationshipsOf index) :=
  reorders.nodes.filter _

theorem entityNeighbors_eq (id : String) : other.entityNeighbors id = index.entityNeighbors id := by
  rw [entityNeighbors, entityNeighbors, reorders.neighbors]

theorem attributesOf_entity {entity : Node} (member : entity ∈ index.entities) :
    other.attributesOf entity = index.attributesOf entity :=
  reorders.agrees.sharesAttributes.attributesOf_entity member

theorem attributesOf_relationship {relationship : Node}
    (member : relationship ∈ Derivation.relationshipsOf index) :
    other.attributesOf relationship = index.attributesOf relationship := by
  rcases List.mem_filter.mp member with ⟨isNode, ofKind⟩
  exact reorders.agrees.sharesAttributes.attributesOf_eq isNode
    (Node.kind_of_isRelationship ofKind ▸ rfl)

/-! ## Links and hierarchies -/

theorem ownerships_perm : other.ownerships.Perm index.ownerships := by
  have same : other.weakEntities.flatMap (fun weak =>
        firstBy (fun link => (link.dependent.id, link.owner.id)) (other.ownershipsOf weak)) =
      other.weakEntities.flatMap fun weak =>
        firstBy (fun link => (link.dependent.id, link.owner.id)) (index.ownershipsOf weak) := by
    refine List.flatMap_congr fun weak member => ?_
    rcases List.mem_filter.mp member with ⟨isNode, isWeakEntity⟩
    rw [reorders.agrees.ownershipsOf_eq (reorders.nodes.subset isNode)
      (Bool.and_eq_true_iff.mp isWeakEntity).1]
  rw [reorders.formed.ownerships_eq_flatMap, reorders.otherFormed.ownerships_eq_flatMap, same]
  exact (reorders.nodes.filter _).flatMap_right _

theorem hierarchies_perm : other.hierarchies.Perm index.hierarchies := by
  have same : other.isaNodes.filterMap other.hierarchyOf? =
      other.isaNodes.filterMap index.hierarchyOf? := by
    refine List.filterMap_congr fun isa member => ?_
    rcases List.mem_filter.mp member with ⟨isNode, isIsa⟩
    exact (reorders.agrees.hierarchyOf?_eq (reorders.nodes.subset isNode) isIsa).2
  rw [hierarchies, hierarchies, same]
  exact (reorders.nodes.filter _).filterMap _

/-! ## Keys -/

theorem keyStep {name : String} {earlier later : Node} (step : index.KeyStep name earlier later) :
    other.KeyStep name earlier later := by
  cases step with
  | owned isLink enters =>
      have isDependent := (reorders.formed.ends_of_mem_ownerships isLink).1
      rw [← reorders.attributesOf_entity isDependent] at enters
      exact .owned (reorders.ownerships_perm.mem_iff.mpr isLink) enters
  | inherited isHierarchy isSubclass =>
      exact .inherited (reorders.hierarchies_perm.mem_iff.mpr isHierarchy) isSubclass

theorem hasKeyPath {name : String} {entity : Node} (path : index.HasKeyPath name entity) :
    other.HasKeyPath name entity := by
  rcases path with ⟨origin, isEntity, key, steps⟩
  refine ⟨origin, reorders.entities_perm.mem_iff.mpr isEntity, ?_,
    Relation.ReflTransGen.mono (fun _ _ => reorders.keyStep) _ _ steps⟩
  rwa [reorders.attributesOf_entity isEntity]

end Reorders

end Adjacency

theorem TableMap.length_primaryKey_of_perm {tables others : TableMap} {id : String}
    (same : (others.keyNames id).Perm (tables.keyNames id)) :
    (others.primaryKey id).length = (tables.primaryKey id).length := by
  have length := same.length_eq
  rwa [keyNames, keyNames, List.length_map, List.length_map] at length

namespace Resolution

theorem mem_entities_of_mem_references {index : Adjacency} (formed : index.WellFormed)
    {relationship : Node} {reference : Node × Node}
    (member : reference ∈ references index relationship) : reference.2 ∈ index.entities := by
  have entities : ∀ neighbor ∈ index.entityNeighbors relationship.id,
      neighbor.node ∈ index.entities := fun _ => formed.node_of_mem_entityNeighbors
  unfold references at member
  dsimp only at member
  split at member
  case isTrue => cases member
  case isFalse =>
    split at member
    case h_1 first second pair =>
      rw [pair] at entities
      unfold reference? at member
      split at member
      · cases member
      · exact List.mem_singleton.mp member ▸ entities second (by simp)
      · exact List.mem_singleton.mp member ▸ entities first (by simp)
      · exact List.mem_singleton.mp member ▸ entities second (by simp)
    case h_2 => cases member

end Resolution

namespace Adjacency.Reorders

variable {index other : Adjacency} (reorders : Reorders index other)
include reorders

/-! ## Relationships -/

theorem records_iff (relationship : Node) (id : String) :
    other.Records relationship id ↔ index.Records relationship id := by
  simp only [Records, reorders.ownerships_perm.mem_iff]

theorem holderIds_perm (relationship : Node) :
    (other.holderIds relationship).Perm (index.holderIds relationship) := by
  by_cases recorded : ∃ link ∈ index.ownerships, link.relationship.id = relationship.id
  · have otherRecorded : ∃ link ∈ other.ownerships, link.relationship.id = relationship.id := by
      simpa only [reorders.ownerships_perm.mem_iff] using recorded
    refine (List.perm_ext_iff_of_nodup (nodup_holderIds_of_recorded otherRecorded)
      (nodup_holderIds_of_recorded recorded)).mpr fun id => ?_
    rw [mem_holderIds_of_recorded otherRecorded, mem_holderIds_of_recorded recorded]
    exact reorders.records_iff relationship id
  · push Not at recorded
    have unrecorded : ∀ link ∈ other.ownerships, link.relationship.id ≠ relationship.id :=
      fun link member => recorded link (reorders.ownerships_perm.mem_iff.mp member)
    rw [holderIds_of_not_recorded unrecorded, holderIds_of_not_recorded recorded,
      reorders.entityNeighbors_eq]

theorem holders_perm (relationship : Node) :
    ((Resolution.holders other other.ownerships relationship).map Node.id).Perm
      ((Resolution.holders index index.ownerships relationship).map Node.id) := by
  have dependents := reorders.holderIds_perm relationship
  unfold holderIds at dependents
  unfold Resolution.holders
  rw [reorders.entityNeighbors_eq] at dependents ⊢
  dsimp only
  split
  case isTrue => exact dependents
  case isFalse => exact .refl _

theorem references_eq (relationship : Node) :
    Resolution.references other relationship = Resolution.references index relationship := by
  rw [Resolution.references, Resolution.references, reorders.entityNeighbors_eq]

theorem needsJunction_eq (relationship : Node) :
    Resolution.needsJunction other relationship = Resolution.needsJunction index relationship := by
  rw [Resolution.needsJunction, Resolution.needsJunction, reorders.entityNeighbors_eq]

section
variable {tables others : TableMap}
  (keys : ∀ entity ∈ index.entities,
    (others.primaryKey entity.id).length = (tables.primaryKey entity.id).length)
  {relationship : Node} (isRelationship : relationship ∈ Derivation.relationshipsOf index)
include keys isRelationship

theorem added_eq (id : String) :
    Resolution.added other other.ownerships others relationship id =
      Resolution.added index index.ownerships tables relationship id := by
  have taken : (Resolution.references index relationship).map (Resolution.taken others id) =
      (Resolution.references index relationship).map (Resolution.taken tables id) := by
    refine List.map_congr_left fun reference member => ?_
    rw [Resolution.taken, Resolution.taken,
      keys _ (Resolution.mem_entities_of_mem_references reorders.formed member)]
  rw [Resolution.added, Resolution.added, reorders.references_eq, taken,
    (reorders.holders_perm relationship).count_eq,
    reorders.attributesOf_relationship isRelationship]

theorem junctionOf_lengths :
    (Resolution.junctionOf other others relationship).columns.length =
        (Resolution.junctionOf index tables relationship).columns.length ∧
      (Resolution.junctionOf other others relationship).primaryKey.length =
        (Resolution.junctionOf index tables relationship).primaryKey.length := by
  let participants := (index.entityNeighbors relationship.id).map (·.node)
  have imported : (participants.map fun participant => (others.primaryKey participant.id).length) =
      participants.map fun participant => (tables.primaryKey participant.id).length := by
    exact List.map_congr_left fun participant member =>
      keys participant (reorders.formed.participants_subset relationship.id member)
  have lengths (tables : TableMap) :=
    length_junctionTable relationship (index.attributesOf relationship) participants tables
  rw [Resolution.junctionOf, Resolution.junctionOf, reorders.entityNeighbors_eq,
    reorders.attributesOf_relationship isRelationship]
  exact ⟨(lengths others).1.trans (imported ▸ (lengths tables).1.symm),
    (lengths others).2.trans (imported ▸ (lengths tables).2.symm)⟩

end

end Adjacency.Reorders

namespace Derivation

open Adjacency (Reorders)

section
variable {index other : Adjacency} (reorders : Reorders index other)
include reorders

theorem keyNames_perm {entity : Node} (member : entity ∈ index.entities) :
    ((settled other none).tables.keyNames entity.id).Perm
      ((settled index none).tables.keyNames entity.id) := by
  have isOther := reorders.entities_perm.mem_iff.mpr member
  have distinct {index : Adjacency} (formed : index.WellFormed) (id : String) :
      ((settled index none).tables.keyNames id).Nodup :=
    ((inherits_settled index none).regular (ready_baseTables formed).regular).keyNames_nodup id
  refine (List.perm_ext_iff_of_nodup (distinct reorders.otherFormed _)
    (distinct reorders.formed _)).mpr fun name => ?_
  rw [← keyNames_resolution reorders.otherFormed, ← keyNames_resolution reorders.formed,
    mem_keyNames_resolution reorders.otherFormed isOther,
    mem_keyNames_resolution reorders.formed member]
  exact ⟨reorders.symm.hasKeyPath, reorders.hasKeyPath⟩

theorem keyNames_resolution_perm {entity : Node} (member : entity ∈ index.entities) :
    ((resolution other none).tables.keyNames entity.id).Perm
      ((resolution index none).tables.keyNames entity.id) := by
  rw [keyNames_resolution reorders.formed, keyNames_resolution reorders.otherFormed]
  exact keyNames_perm reorders member

/-- Besides its key a table has the plain attributes of its entity. -/
theorem width?_settled {entity : Node} (member : entity ∈ index.entities) :
    (settled other none).tables.width? entity.id =
      (settled index none).tables.width? entity.id := by
  have isOther := reorders.entities_perm.mem_iff.mpr member
  rcases (inherits_settled index none).get?_some (get?_baseTables reorders.formed member) with
    ⟨table, found, _⟩
  rcases (inherits_settled other none).get?_some (get?_baseTables reorders.otherFormed isOther)
    with ⟨otherTable, foundOther, _⟩
  have distinct {index : Adjacency} (formed : index.WellFormed) {table : Table}
      (found : (settled index none).tables.get? entity.id = some table) : table.names.Nodup :=
    ((inherits_settled index none).regular (ready_baseTables formed).regular table
      (TableMap.mem_toTables_of_get? found)).distinct
  have names : otherTable.names.Perm table.names := by
    refine (List.perm_ext_iff_of_nodup (distinct reorders.otherFormed foundOther)
      (distinct reorders.formed found)).mpr fun name => ?_
    rw [← TableMap.names_of_get? found, ← TableMap.names_of_get? foundOther,
      (inherits_settled index none).mem_names, (inherits_settled other none).mem_names,
      mem_names_baseTables reorders.formed member,
      mem_names_baseTables reorders.otherFormed isOther, (keyNames_perm reorders member).mem_iff,
      reorders.attributesOf_entity member]
  have length := names.length_eq
  rw [Table.names, Table.names, List.length_map, List.length_map] at length
  rw [TableMap.width?, TableMap.width?, found, foundOther, Option.map_some, Option.map_some, length]

theorem width?_resolution {entity : Node} (member : entity ∈ index.entities) :
    (resolution other none).tables.width? entity.id =
      (resolution index none).tables.width? entity.id := by
  have widens (index : Adjacency) : (resolution index none).tables.width? entity.id =
      ((settled index none).tables.width? entity.id).map (· +
        ((relationshipsOf index).map fun relationship => Resolution.added index index.ownerships
          (settled index none).tables relationship entity.id).sum) :=
    Resolution.widens_foldl_resolveOne index index.ownerships (relationshipsOf index)
      ⟨(settled index none).tables, [], []⟩ entity.id
  have total : ((relationshipsOf other).map fun relationship =>
        Resolution.added other other.ownerships (settled other none).tables relationship
          entity.id).sum =
      ((relationshipsOf index).map fun relationship =>
        Resolution.added index index.ownerships (settled index none).tables relationship
          entity.id).sum := by
    refine Eq.trans (congrArg List.sum (List.map_congr_left fun relationship isOther => ?_))
      (reorders.relationships_perm.map _).sum_eq
    exact reorders.added_eq
      (fun entity member => TableMap.length_primaryKey_of_perm (keyNames_perm reorders member))
      (reorders.relationships_perm.mem_iff.mp isOther) entity.id
  rw [widens other, widens index, width?_settled reorders member, total]

end

/-! ## The tables of a schema by their nodes -/

/-- The table that an entity has in the end. -/
def finalTable? (diagram : Diagram) (entity : Node) : Option Table :=
  (resolution (.ofDiagram diagram) none).tables.get? entity.id

/-- The junction table of a relationship, if it needs one. -/
def finalJunction? (diagram : Diagram) (relationship : Node) : Option Table :=
  let index := Adjacency.ofDiagram diagram
  if Resolution.needsJunction index relationship then
    some (Resolution.junctionOf index (resolution index none).tables relationship)
  else none

/-- The entities that have no key in the end. -/
def keyless (diagram : Diagram) : List Node :=
  (Adjacency.ofDiagram diagram).entities.filter fun entity =>
    (finalTable? diagram entity).any (·.primaryKey.isEmpty)

section
variable (diagram : Diagram)

theorem baseTables_eq_filterMap :
    (ofDiagram diagram none).schema.baseTables =
      (Adjacency.ofDiagram diagram).entities.filterMap (finalTable? diagram) := by
  have formed := Adjacency.wellFormed_ofDiagram diagram
  have ids := ids_of_reached formed none (reached_resolution formed none)
  have found := TableMap.forall₂_get? (ids ▸ formed.distinct_entities) ids.symm
  rw [baseTables_ofDiagram]
  exact (filterMap_eq_of_forall₂ found).symm

theorem junctions_eq_filterMap :
    (ofDiagram diagram none).schema.tables.filter (·.kind = .junction) =
      (relationshipsOf (.ofDiagram diagram)).filterMap (finalJunction? diagram) := by
  have formed := Adjacency.wellFormed_ofDiagram diagram
  have other {tables : List Table} {kind : TableKind} (different : kind ≠ .junction)
      (same : ∀ table ∈ tables, table.kind = kind) :
      tables.filter (fun table => table.kind = .junction) = [] :=
    List.filter_eq_nil_iff.mpr fun table member => by simp [same table member, different]
  rw [tables_ofDiagram_final, List.filter_append, List.filter_append,
    other (by decide) fun _ => kind_of_mem_resolution formed none,
    other (by decide) fun _ => kind_of_mem_multivaluedTables,
    Resolution.junctions_flatMap_derivedBy, ← List.filterMap_eq_map, List.filterMap_filter]
  rfl

theorem missingKeys_eq_map :
    (ofDiagram diagram none).diagnostics.filter (·.isMissingPrimaryKey) =
      (keyless diagram).map fun entity => .missingPrimaryKey entity.name := by
  have formed := Adjacency.wellFormed_ofDiagram diagram
  rw [filter_isMissingPrimaryKey, missingKeys_final formed, keyless]
  congr 1
  refine List.filter_congr fun entity member => ?_
  rcases exists_get?_resolution formed none member with ⟨table, found, _⟩
  rw [finalTable?, found, TableMap.primaryKey_of_get? found]
  rfl

end

/-! ## The whole derivation -/

theorem reorders_ofDiagram {diagram reordered : Diagram}
    (distinct : (diagram.nodes.map Node.id).Nodup) (nodes : reordered.nodes.Perm diagram.nodes)
    (edges : reordered.edges = diagram.edges) :
    Reorders (.ofDiagram diagram) (.ofDiagram reordered) where
  formed := Adjacency.wellFormed_ofDiagram diagram
  otherFormed := Adjacency.wellFormed_ofDiagram reordered
  nodes := by
    have otherDistinct := (nodes.map Node.id).nodup_iff.mpr distinct
    change (firstBy Node.id reordered.nodes).Perm (firstBy Node.id diagram.nodes)
    rwa [firstBy_of_nodup distinct, firstBy_of_nodup otherDistinct]
  neighbors id := by
    have otherDistinct := (nodes.map Node.id).nodup_iff.mpr distinct
    have found : Adjacency.find? (firstBy Node.id reordered.nodes) =
        Adjacency.find? (firstBy Node.id diagram.nodes) := by
      rw [firstBy_of_nodup distinct, firstBy_of_nodup otherDistinct]
      exact funext (Adjacency.find?_perm distinct nodes)
    have links : (Adjacency.ofDiagram reordered).links = (Adjacency.ofDiagram diagram).links := by
      simp only [Adjacency.ofDiagram, Adjacency.linkOf?, edges, found]
    rw [Adjacency.neighbors, Adjacency.neighbors, links]

section
variable {diagram reordered : Diagram}
  (reorders : Reorders (.ofDiagram diagram) (.ofDiagram reordered))
include reorders

theorem finalTables_reordered {entity : Node}
    (member : entity ∈ (Adjacency.ofDiagram diagram).entities) :
    ∃ table other, finalTable? diagram entity = some table ∧
      finalTable? reordered entity = some other ∧ other.keyNames.Perm table.keyNames ∧
        other.columns.length = table.columns.length := by
  have isOther := reorders.entities_perm.mem_iff.mpr member
  rcases exists_get?_resolution reorders.formed none member with ⟨table, found, _⟩
  rcases exists_get?_resolution reorders.otherFormed none isOther with ⟨other, foundOther, _⟩
  have names := keyNames_resolution_perm reorders member
  have width := width?_resolution reorders member
  rw [TableMap.keyNames_of_get? found, TableMap.keyNames_of_get? foundOther] at names
  rw [TableMap.width?, TableMap.width?, found, foundOther] at width
  exact ⟨table, other, found, foundOther, names, Option.some.inj width⟩

theorem finalJunctions_reordered {relationship : Node}
    (member : relationship ∈ relationshipsOf (.ofDiagram diagram)) :
    Option.Rel (fun table other : Table => other.columns.length = table.columns.length ∧
        other.primaryKey.length = table.primaryKey.length)
      (finalJunction? diagram relationship) (finalJunction? reordered relationship) := by
  unfold finalJunction?
  dsimp only
  rw [reorders.needsJunction_eq]
  split
  · exact .some (reorders.junctionOf_lengths (fun entity isEntity =>
      TableMap.length_primaryKey_of_perm (keyNames_resolution_perm reorders isEntity)) member)
  · exact .none

theorem keyless_reordered : (keyless reordered).Perm (keyless diagram) := by
  have same : keyless reordered = (Adjacency.ofDiagram reordered).entities.filter fun entity =>
      (finalTable? diagram entity).any (·.primaryKey.isEmpty) := by
    refine List.filter_congr fun entity isOther => ?_
    rcases finalTables_reordered reorders (reorders.entities_perm.mem_iff.mp isOther) with
      ⟨table, other, found, foundOther, names, _⟩
    have empty := names.isEmpty_eq
    rw [Table.keyNames, Table.keyNames, List.isEmpty_map, List.isEmpty_map] at empty
    rw [found, foundOther]
    exact empty
  rw [same]
  exact reorders.entities_perm.filter _

end

/-- Whatever the order of the nodes, if their identifiers are distinct, each entity
has a key of the same names and as many columns, each relationship has a junction
table with as many columns and as long a key, or none, and the same entities are
reported to have no key. -/
theorem order_free {diagram reordered : Diagram}
    (distinct : (diagram.nodes.map Node.id).Nodup) (nodes : reordered.nodes.Perm diagram.nodes)
    (edges : reordered.edges = diagram.edges) :
    (∀ drawn : Diagram,
        let index := Adjacency.ofDiagram drawn
        let derivation := ofDiagram drawn none
        derivation.schema.baseTables = index.entities.filterMap (finalTable? drawn) ∧
          derivation.schema.tables.filter (·.kind = .junction) =
            (relationshipsOf index).filterMap (finalJunction? drawn) ∧
          derivation.diagnostics.filter (·.isMissingPrimaryKey) =
            (keyless drawn).map fun entity => .missingPrimaryKey entity.name) ∧
      (∀ entity ∈ diagram.nodes, entity.isEntity = true → ∃ table other,
        finalTable? diagram entity = some table ∧ finalTable? reordered entity = some other ∧
          (∀ name, name ∈ other.keyNames ↔ name ∈ table.keyNames) ∧
          other.columns.length = table.columns.length) ∧
      (∀ relationship ∈ diagram.nodes, relationship.isRelationship = true →
        Option.Rel (fun table other : Table => other.columns.length = table.columns.length ∧
            other.primaryKey.length = table.primaryKey.length)
          (finalJunction? diagram relationship) (finalJunction? reordered relationship)) ∧
      (keyless reordered).Perm (keyless diagram) := by
  have reorders := reorders_ofDiagram distinct nodes edges
  have allCount : (Adjacency.ofDiagram diagram).nodes = diagram.nodes :=
    firstBy_of_nodup distinct
  refine ⟨fun drawn => ⟨baseTables_eq_filterMap drawn, junctions_eq_filterMap drawn,
    missingKeys_eq_map drawn⟩, fun entity isNode isEntity => ?_,
    fun relationship isNode isRelationship => ?_, keyless_reordered reorders⟩
  · rcases finalTables_reordered reorders
      (Adjacency.mem_entities.mpr ⟨allCount ▸ isNode, isEntity⟩) with
      ⟨table, other, found, foundOther, names, width⟩
    exact ⟨table, other, found, foundOther, fun _ => names.mem_iff, width⟩
  · exact finalJunctions_reordered reorders
      (List.mem_filter.mpr ⟨allCount ▸ isNode, isRelationship⟩)

/-- A loan refers to a member and to a book by keys of one name. -/
def loans : Diagram where
  nodes := [Node.entity "l" "Loan", Node.entity "m" "Member",
    (Node.simpleAttribute "i" "no").primaryKey, Node.entity "b" "Book",
    (Node.simpleAttribute "j" "no").primaryKey, Node.relationship "y" "By",
    Node.relationship "o" "Of"]
  edges := [.between "m" "i", .between "b" "j", (Edge.between "l" "y").withCards "N" "",
    .between "y" "m", (Edge.between "l" "o").withCards "N" "", .between "o" "b"]

/-- The reference that is folded first keeps the name; there are two either way. -/
theorem order_free_loans :
    let reordered : Diagram := { loans with nodes := loans.nodes.reverse }
    ((loans.nodes.map Node.id).Nodup ∧ reordered.nodes.Perm loans.nodes ∧
        reordered.edges = loans.edges) ∧
      ∃ table other, finalTable? loans (Node.entity "l" "Loan") = some table ∧
        finalTable? reordered (Node.entity "l" "Loan") = some other ∧
          table.names = ["no", "Book_no"] ∧ other.names = ["no", "Member_no"] ∧
            other.columns.length = table.columns.length := by
  intro reordered
  have distinct : (loans.nodes.map Node.id).Nodup := by decide
  have nodes : reordered.nodes.Perm loans.nodes := List.reverse_perm _
  have isNode : Node.entity "l" "Loan" ∈ loans.nodes := List.mem_cons_self
  rcases (order_free distinct nodes rfl).2.1 _ isNode rfl with
    ⟨table, other, found, foundOther, _, width⟩
  have names : (finalTable? loans (Node.entity "l" "Loan")).map Table.names =
      some ["no", "Book_no"] := by cbv
  have otherNames : (finalTable? { loans with nodes := loans.nodes.reverse }
      (Node.entity "l" "Loan")).map Table.names = some ["no", "Member_no"] := by cbv
  rw [found] at names
  rw [foundOther] at otherNames
  exact ⟨⟨distinct, nodes, rfl⟩, table, other, found, foundOther, Option.some.inj names,
    Option.some.inj otherNames, width⟩

end Derivation

end ErSchema
