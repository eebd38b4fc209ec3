import ErSchema.Listing.Format
import ErSchema.Proofs.FinalTables
import Mathlib

/-! # The order of the tables

Which tables a schema has, and in which order, can be read off the graph: the
entities come first, then the values of their attributes, then what each
relationship adds. Keys and columns do not matter, and neither does the number of
passes. As the tables of the entities stand in front, a listing that prints them
before the others prints all tables in the order of the schema. -/

namespace ErSchema

/-- What tells a reader which table it is. -/
def Table.caption (table : Table) : TableKind × String := (table.kind, table.name)

namespace Adjacency

/-- Of the tables for the multivalued attributes of a node, kept for a holder of
that name. -/
def valueCaptions (index : Adjacency) (owner : Node) (holder : String) :
    List (TableKind × String) :=
  (index.attributesOf owner).multivalued.map fun name => (.multivalued, holder ++ "_" ++ name)

/-- Of the tables that a relationship adds: a junction and its values, or the
values for each entity that takes the attributes. -/
def relationshipCaptions (index : Adjacency) (relationship : Node) :
    List (TableKind × String) :=
  if Resolution.needsJunction index relationship then
    (.junction, relationship.name) :: index.valueCaptions relationship relationship.name
  else
    (Resolution.holders index index.ownerships relationship).flatMap fun holder =>
      index.valueCaptions relationship holder.name

end Adjacency

theorem Table.captions_multivalued (table : Table) (attributeNames : List String) :
    (attributeNames.map table.multivalued).map Table.caption =
      attributeNames.map fun name => (.multivalued, table.name ++ "_" ++ name) := by
  rw [List.map_map]
  apply List.map_congr_left
  intro name _
  exact Prod.ext (table.multivalued_kind name) (table.multivalued_name name)

namespace Resolution

/-- Two participants need a junction if both are on a many side, more always do. -/
theorem needsJunction_iff (index : Adjacency) (relationship : Node) :
    let participants := index.entityNeighbors relationship.id
    needsJunction index relationship = true ↔
      isIdentifying relationship (participants.map (·.node)) = false ∧
        (2 < participants.length ∨ ∃ first second, participants = [first, second] ∧
          first.card.isMany = true ∧ second.card.isMany = true) := by
  have both (first second : Neighbor) : (holderOf? first second).isNone = true ↔
      first.card.isMany = true ∧ second.card.isMany = true := by
    unfold holderOf? Shape.classify
    cases first.card.isMany <;> cases second.card.isMany <;> simp
  unfold needsJunction
  generalize index.entityNeighbors relationship.id = participants
  dsimp only
  rw [Bool.and_eq_true, Bool.not_eq_true']
  refine and_congr_right fun _ => ?_
  rcases participants with _ | ⟨first, _ | ⟨second, _ | ⟨third, rest⟩⟩⟩
  · simp
  · simp
  · simp [both]
  · simp

theorem mem_entities_of_mem_holders {index : Adjacency} (wellFormed : index.WellFormed)
    {relationship holder : Node} (member : holder ∈ holders index index.ownerships relationship) :
    holder ∈ index.entities := by
  have entities : ∀ neighbor ∈ index.entityNeighbors relationship.id,
      neighbor.node ∈ index.entities := fun _ => wellFormed.node_of_mem_entityNeighbors
  unfold holders at member
  dsimp only at member
  split at member
  case isTrue =>
    rcases mem_dependents member with participant | ⟨link, isLink, rfl⟩
    · rcases List.mem_map.mp participant with ⟨neighbor, isNeighbor, rfl⟩
      exact entities neighbor isNeighbor
    · exact (wellFormed.ends_of_mem_ownerships isLink).1
  case isFalse =>
    split at member
    case h_1 first second pair =>
      rw [pair] at entities
      unfold holderOf? at member
      split at member
      · cases member
      · exact List.mem_singleton.mp member ▸ entities first (by simp)
      · exact List.mem_singleton.mp member ▸ entities second (by simp)
      · exact List.mem_singleton.mp member ▸ entities first (by simp)
    case h_2 => cases member

theorem captions_valueTables {attributes : Attributes} {tables : TableMap} {holder : Node}
    {table : Table} (found : tables.get? holder.id = some table) :
    (valueTables attributes tables holder).map Table.caption =
      attributes.multivalued.map fun name => (.multivalued, table.name ++ "_" ++ name) := by
  unfold valueTables
  rw [found]
  exact table.captions_multivalued attributes.multivalued

end Resolution

namespace Derivation

section
variable {index : Adjacency} (wellFormed : index.WellFormed) (limit : Option Nat)
include wellFormed

theorem captions_entities :
    (resolution index limit).tables.toTables.map Table.caption =
      index.entities.map fun entity => (.entity, entity.name) := by
  have same : List.Forall₂ (fun entity table => (TableKind.entity, entity.name) = table.caption)
      index.entities (resolution index limit).tables.toTables := by
    apply (forall₂_resolution wellFormed limit).imp
    rintro entity table ⟨name, kind, _⟩
    exact Prod.ext kind.symm name.symm
  symm
  rw [← List.forall₂_eq_eq_eq, List.forall₂_map_left_iff, List.forall₂_map_right_iff]
  exact same

theorem captions_values {holder : Node} (member : holder ∈ index.entities) (owner : Node) :
    (Resolution.valueTables (index.attributesOf owner) (resolution index limit).tables
        holder).map Table.caption = index.valueCaptions owner holder.name := by
  rcases exists_get?_resolution wellFormed limit member with ⟨table, found, name, _⟩
  rw [Resolution.captions_valueTables found, name]
  rfl

theorem captions_derivedBy (relationship : Node) :
    (Resolution.derivedBy index index.ownerships (resolution index limit).tables
        relationship).map Table.caption = index.relationshipCaptions relationship := by
  unfold Resolution.derivedBy Adjacency.relationshipCaptions
  dsimp only
  split
  case isTrue =>
    rw [List.map_cons, Table.captions_multivalued]
    have junction : (Resolution.junctionOf index (resolution index limit).tables
        relationship).caption = (.junction, relationship.name) :=
      Prod.ext (junctionTable_kind ..) (junctionTable_name ..)
    rw [junction, show (Resolution.junctionOf index (resolution index limit).tables
      relationship).name = relationship.name from congrArg Prod.snd junction]
    rfl
  case isFalse =>
    rw [List.map_flatMap]
    apply List.flatMap_congr
    intro holder member
    exact captions_values wellFormed limit
      (Resolution.mem_entities_of_mem_holders wellFormed member) relationship

end

/-- Every format shows these tables in this order; in the HTML fragment a heading
stands before the second group, if there is one. -/
structure Lists (derivation : Derivation) (base derived : List Table) : Prop where
  html : ∀ config : Config, OutputFormat.html.render derivation config =
    "<b>" ++ Html.escape config.schemaHeading ++ "</b><br><br>" ++
      String.join (base.map Html.table) ++
      (if derived = [] then ""
      else "<br><i>" ++ Html.escape config.junctionHeading ++ "</i><br>" ++
        String.join (derived.map Html.table))
  text : ∀ config, OutputFormat.text.render derivation config =
    String.intercalate "\n\n" ((base ++ derived).map Box.table)
  sql : ∀ config : Config, OutputFormat.sql.render derivation config =
    config.sqlHeader ++ "\n\n" ++ String.join ((base ++ derived).map fun table =>
      Sql.createTable table config.columnType ++ "\n")
  json : ∀ config, OutputFormat.json.render derivation config =
    Json.Value.pretty (.object [("tables", .array ((base ++ derived).map Data.table)),
      ("diagnostics", .array (derivation.diagnostics.map Data.diagnostic))])

theorem lists_of_append {derivation : Derivation}
    (order : derivation.schema.tables =
      derivation.schema.baseTables ++ derivation.schema.derivedTables) :
    derivation.Lists derivation.schema.baseTables derivation.schema.derivedTables where
  html config := by
    change Html.schema derivation.schema config = _
    unfold Html.schema
    generalize derivation.schema.derivedTables = derived
    cases derived with
    | nil => rfl
    | cons => rfl
  text config := by
    rw [← order]
    rfl
  sql config := by
    rw [← order]
    rfl
  json config := by
    rw [← order]
    rfl

/-- The schema has one table for each entity whose identifier is new, in the order
in which they were drawn; then for each of these one table for each multivalued
attribute; then what each relationship adds, which has a junction exactly if the
relationship is not identifying and has more than two participants or two on many
sides. All formats list the tables in this order. No such entity or relationship is
left out: a node counts if a search for its identifier finds it first. -/
theorem tables_in_order (diagram : Diagram) (limit : Option Nat) :
    let index := Adjacency.ofDiagram diagram
    let derivation := ofDiagram diagram limit
    let firstDrawn := firstBy Node.id diagram.nodes
    ((index.nodes.map Node.id).Nodup ∧ index.entities.Sublist diagram.nodes ∧
        (relationshipsOf index).Sublist diagram.nodes) ∧
      (index.entities = firstDrawn.filter (·.isEntity) ∧
        relationshipsOf index = firstDrawn.filter (·.isRelationship) ∧
        ∀ node, node ∈ firstDrawn ↔
          diagram.nodes.find? (fun other => other.id = node.id) = some node) ∧
      derivation.schema.tables.map Table.caption =
        index.entities.map (fun entity => (.entity, entity.name)) ++
          index.entities.flatMap (fun entity => index.valueCaptions entity entity.name) ++
          (relationshipsOf index).flatMap index.relationshipCaptions ∧
      (∀ relationship,
        let participants := index.entityNeighbors relationship.id
        Resolution.needsJunction index relationship = true ↔
          isIdentifying relationship (participants.map (·.node)) = false ∧
            (2 < participants.length ∨ ∃ first second, participants = [first, second] ∧
              first.card.isMany = true ∧ second.card.isMany = true)) ∧
      derivation.schema.tables =
        derivation.schema.baseTables ++ derivation.schema.derivedTables ∧
      derivation.Lists derivation.schema.baseTables derivation.schema.derivedTables := by
  intro index derivation firstDrawn
  have wellFormed : index.WellFormed := Adjacency.wellFormed_ofDiagram diagram
  have drawn : firstDrawn.Sublist diagram.nodes := firstBy_sublist Node.id diagram.nodes
  have order : derivation.schema.tables =
      derivation.schema.baseTables ++ derivation.schema.derivedTables := by
    rw [baseTables_ofDiagram, derivedTables_ofDiagram, tables_ofDiagram, List.append_assoc]
  refine ⟨⟨wellFormed.distinct, List.filter_sublist.trans drawn,
    List.filter_sublist.trans drawn⟩, ⟨rfl, rfl, fun _ => mem_firstBy_iff Node.id⟩, ?_,
    Resolution.needsJunction_iff index, order, lists_of_append order⟩
  rw [tables_ofDiagram_final, List.map_append, List.map_append, List.map_flatMap,
    List.map_flatMap, captions_entities wellFormed]
  congr 1
  · congr 1
    apply List.flatMap_congr
    intro entity member
    exact captions_values wellFormed limit member entity
  · apply List.flatMap_congr
    intro relationship _
    exact captions_derivedBy wellFormed limit relationship

end Derivation

end ErSchema
