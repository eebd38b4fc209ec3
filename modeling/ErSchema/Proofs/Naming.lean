import ErSchema.Proofs.KeyPath
import ErSchema.Proofs.Levels

/-! # How columns are named

The name of a column is the name of an attribute, with names of entities and
relationships or a few fixed words before it and numbers after it. So whatever
holds of the attributes' names and is kept by such additions holds of every
column name of a schema. That the names in one table are distinct is a matter of
how columns are added and does not depend on the names. -/

namespace ErSchema

/-- A property of column names that stays when a text that may lead them is put
before the name or a number after it. -/
structure Naming (leads fits : String → Prop) : Prop where
  prefixed : ∀ {front name}, leads front → fits name → fits (front ++ name)
  qualified : ∀ {qualifier name}, leads qualifier → fits name →
    fits (qualifier ++ "_" ++ name)
  suffixed : ∀ {name}, fits name → ∀ number, fits (Table.suffixed name number)
  words : ∀ word ∈ ["", otherRole, supervisorRole, spouseRole, Table.valueQualifier],
    leads word

/-- A property of names that putting names together keeps. -/
structure Spelling (fits : String → Prop) : Prop where
  append : ∀ {front back}, fits front → fits back → fits (front ++ back)
  words : ∀ word ∈ ["", "_", otherRole, supervisorRole, spouseRole, Table.valueQualifier],
    fits word
  number : ∀ value, fits (Decimal.natText value)

/-- Nothing has to be known of names to tell that those in a table are distinct. -/
theorem Spelling.any : Spelling fun _ => True :=
  ⟨fun _ _ => trivial, fun _ _ => trivial, fun _ => trivial⟩

/-- A property of all names needs no difference between them. -/
theorem Spelling.naming {fits : String → Prop} (spelling : Spelling fits) : Naming fits fits where
  prefixed := spelling.append
  qualified first second :=
    spelling.append (spelling.append first (spelling.words "_" (by decide))) second
  suffixed fit number :=
    spelling.append (spelling.append fit (spelling.words "_" (by decide)))
      (spelling.number number)
  words word member := by
    apply spelling.words word
    revert word
    decide

/-- The name of the column fits, and the name it refers to may lead others. -/
structure Column.Named (leads fits : String → Prop) (column : Column) : Prop where
  name : fits column.name
  source : ∀ source ∈ column.source, leads source

/-- Names are distinct and each fits. -/
structure Table.Spelled (fits : String → Prop) (table : Table) : Prop where
  distinct : table.names.Nodup
  each : ∀ name ∈ table.names, fits name

structure Attributes.Spelled (fits : String → Prop) (attributes : Attributes) : Prop where
  stored : ∀ name ∈ attributes.stored, fits name
  multivalued : ∀ name ∈ attributes.multivalued, fits name

def TableMap.Spelled (fits : String → Prop) (tables : TableMap) : Prop :=
  ∀ table ∈ tables.toTables, table.Spelled fits

/-- What is drawn and can give its name to a column fits. -/
def Diagram.Spelled (fits : String → Prop) (diagram : Diagram) : Prop :=
  ∀ node ∈ diagram.nodes, node.isEntity || node.isRelationship || node.isAttribute →
    fits node.name

variable {leads fits : String → Prop}

/-! ## Names that are put together -/

namespace Naming

variable (naming : Naming leads fits)
include naming

theorem numberedName (table : Table) {name : String} (fit : fits name) :
    fits (table.numberedName name) := by
  rcases table.numberedName_eq name with same | ⟨number, _, equal⟩
  · rwa [same]
  · rw [equal]
    exact naming.suffixed fit number

theorem uniqueName (table : Table) {candidate qualifier : String} (fit : fits candidate)
    (qualifies : leads qualifier) : fits (table.uniqueName candidate qualifier) := by
  unfold Table.uniqueName
  split
  case isTrue => exact naming.numberedName table (naming.qualified qualifies fit)
  case isFalse => exact fit

end Naming

/-- The columns of the attributes themselves. -/
theorem Attributes.Spelled.own {attributes : Attributes} (spelled : attributes.Spelled fits) :
    ∀ column ∈ attributes.primaryKeys.map Column.key ++ attributes.ordinary.map Column.plain,
      column.Named leads fits := by
  intro column member
  rcases List.mem_append.mp member with key | plain
  · rcases List.mem_map.mp key with ⟨name, isKey, rfl⟩
    exact ⟨spelled.stored name (List.mem_append_left _ isKey), nofun⟩
  · rcases List.mem_map.mp plain with ⟨name, isPlain, rfl⟩
    exact ⟨spelled.stored name (List.mem_append_right _ isPlain), nofun⟩

/-! ## Tables under construction -/

namespace Table

theorem spelled_empty (name : String) (kind : TableKind) : (empty name kind).Spelled fits :=
  ⟨List.nodup_nil, fun _ member => absurd member List.not_mem_nil⟩

namespace Spelled

variable {table : Table} (spelled : table.Spelled fits)
include spelled

theorem push {column : Column} (fit : fits column.name) : (table.push column).Spelled fits := by
  by_cases taken : column.name ∈ table.names
  · rwa [push_of_mem taken]
  · have names : (table.push column).names = table.names.concat column.name := by
      rw [push_of_not_mem taken, List.concat_eq_append]
      exact List.map_append
    constructor
    · rw [names]
      exact spelled.distinct.concat taken
    · intro name member
      rcases mem_names_push.mp member with old | rfl
      · exact spelled.each name old
      · exact fit

theorem foldl {α : Type} {add : Table → α → Table} {items : List α}
    (each : ∀ table : Table, table.Spelled fits → ∀ item ∈ items, (add table item).Spelled fits) :
    (items.foldl add table).Spelled fits :=
  List.foldlRecOn (motive := Spelled fits) items add spelled each

theorem pushAll {columns : List Column} (fit : ∀ column ∈ columns, fits column.name) :
    (table.pushAll columns).Spelled fits :=
  spelled.foldl fun _ sofar column member => sofar.push (fit column member)

theorem primaryKey {key : Column} (member : key ∈ table.primaryKey) : fits key.name :=
  spelled.each key.name (List.mem_map_of_mem (List.mem_of_mem_filter member))

theorem multivalued (naming : Naming leads fits) {attributeName : String}
    (fit : fits attributeName) : (table.multivalued attributeName).Spelled fits := by
  apply Spelled.push
  · apply (spelled_empty _ _).pushAll
    intro column member
    rcases List.mem_map.mp member with ⟨key, isKey, rfl⟩
    have fitKey := spelled.primaryKey isKey
    exact fitKey
  · exact naming.uniqueName _ fit (naming.words valueQualifier (by decide))

theorem map_multivalued (naming : Naming leads fits) {attributes : Attributes}
    (fit : attributes.Spelled fits) :
    ∀ derived ∈ attributes.multivalued.map table.multivalued, derived.Spelled fits := by
  intro derived member
  rcases List.mem_map.mp member with ⟨name, isAttribute, rfl⟩
  exact spelled.multivalued naming (fit.multivalued name isAttribute)

end Spelled

end Table

namespace TableMap

theorem Spelled.primaryKey {tables : TableMap} (spelled : tables.Spelled fits) {id : String}
    {key : Column} (member : key ∈ tables.primaryKey id) : fits key.name := by
  rcases mem_keyNames.mp (List.mem_map_of_mem member) with ⟨table, found, isKey⟩
  exact (spelled table (mem_toTables_of_get? found)).each key.name
    (table.keyNames_subset_names isKey)

theorem Spelled.modify {tables : TableMap} (spelled : tables.Spelled fits) {id : String}
    {revise : Table → Table}
    (each : ∀ table, tables.get? id = some table → (revise table).Spelled fits) :
    (tables.modify id revise).Spelled fits := by
  have revision : Revises (fun before after => before.Spelled fits → after.Spelled fits) tables
      (tables.modify id revise) :=
    .modify (fun _ same => same) fun table found _ => each table found
  intro table member
  rcases revision.exists_before member with ⟨earlier, isEarlier, kept⟩
  exact kept (spelled earlier isEarlier)

end TableMap

/-! ## Junction tables -/

namespace Junction

variable (naming : Naming leads fits) {tables : TableMap} (spelled : tables.Spelled fits)
  {participants : List Node} (named : ∀ participant ∈ participants, leads participant.name)
include naming spelled named

theorem spelled_importedKeys (met : List String) :
    ∀ column ∈ importedKeys tables met participants, column.Named leads fits := by
  induction participants generalizing met with
  | nil => exact nofun
  | cons participant rest induction =>
      have both := List.forall_mem_cons.mp named
      intro column member
      rcases List.mem_append.mp member with own | others
      · rcases List.mem_map.mp own with ⟨key, isKey, rfl⟩
        have role : leads (if participant.id ∈ met then otherRole else "") := by
          split
          case isTrue => exact naming.words otherRole (by decide)
          case isFalse => exact naming.words "" (by decide)
        constructor
        · exact naming.prefixed role (spelled.primaryKey isKey)
        · rintro source ⟨⟩
          exact both.1
      · exact induction both.2 _ column others

theorem spelled_candidates {attributes : Attributes} (fit : attributes.Spelled fits) :
    ∀ column ∈ candidates attributes participants tables, column.Named leads fits := by
  intro column member
  rcases List.mem_append.mp member with own | imported
  · exact fit.own column own
  · exact spelled_importedKeys naming spelled named [] column imported

omit spelled named in
theorem spelled_qualify (all : List Column) {column : Column} (fit : column.Named leads fits) :
    (qualify all column).Named leads fits := by
  unfold qualify
  split
  case h_1 source isSource =>
    split
    case isTrue =>
      exact ⟨naming.qualified (fit.source source isSource) fit.name, fit.source⟩
    case isFalse => exact fit
  case h_2 => exact fit

theorem spelled_junctionTable (relationship : Node) {attributes : Attributes}
    (fit : attributes.Spelled fits) :
    (junctionTable relationship attributes participants tables).Spelled fits := by
  apply (Table.spelled_empty _ _).foldl
  intro table sofar column member
  rcases List.mem_map.mp member with ⟨candidate, isCandidate, rfl⟩
  have fitCandidate := spelled_candidates naming spelled named fit candidate isCandidate
  have fitColumn := spelled_qualify naming
    (candidates attributes participants tables) fitCandidate
  apply sofar.push
  exact naming.numberedName table fitColumn.name

end Junction

/-! ## Resolving relationships -/

namespace Resolution

/-- Of the tables of the entities and of those derived so far. -/
structure Spelled (fits : String → Prop) (state : Resolution) : Prop where
  tables : state.tables.Spelled fits
  derived : ∀ table ∈ state.derived, table.Spelled fits

namespace Spelled

variable (naming : Naming leads fits) {state : Resolution} (spelled : state.Spelled fits)
include naming spelled

omit naming in
theorem report (diagnostics : List Diagnostic) : (state.report diagnostics).Spelled fits :=
  ⟨spelled.tables, spelled.derived⟩

omit naming in
theorem derive {tables : List Table} (each : ∀ table ∈ tables, table.Spelled fits) :
    (state.derive tables).Spelled fits :=
  ⟨spelled.tables, List.forall_mem_append.mpr ⟨spelled.derived, each⟩⟩

theorem foldKey (holder : Node) {target : Node} (named : leads target.name) {role : String}
    (isRole : leads role) : (state.foldKey holder target role).Spelled fits := by
  refine ⟨spelled.tables.modify fun table found => ?_, spelled.derived⟩
  apply (spelled.tables table (TableMap.mem_toTables_of_get? found)).foldl
  intro extended sofar key isKey
  apply sofar.push
  exact naming.uniqueName extended
    (naming.prefixed isRole (spelled.tables.primaryKey isKey)) named

variable {relationship : Node} {attributes : Attributes} (fit : attributes.Spelled fits)
include fit

theorem pushJunction {participants : List Node}
    (each : ∀ participant ∈ participants, leads participant.name) :
    (state.pushJunction relationship attributes participants).Spelled fits := by
  have junction := Junction.spelled_junctionTable naming spelled.tables each relationship fit
  apply spelled.derive
  exact List.forall_mem_cons.mpr ⟨junction, junction.map_multivalued naming fit⟩

variable (named : leads relationship.name)
include named

theorem foldAttributes (holder : Node) :
    (state.foldAttributes relationship attributes holder).Spelled fits := by
  unfold Resolution.foldAttributes
  split
  · exact spelled
  case h_2 table found =>
    have extended : (table.receive relationship attributes.stored).Spelled fits := by
      apply (spelled.tables table (TableMap.mem_toTables_of_get? found)).foldl
      intro received sofar name isAttribute
      apply sofar.push
      exact naming.uniqueName received (fit.stored name isAttribute) named
    have stored : Spelled fits { state with
        tables := state.tables.modify holder.id fun _ =>
          table.receive relationship attributes.stored } :=
      ⟨spelled.tables.modify fun _ _ => extended, spelled.derived⟩
    exact stored.derive (extended.map_multivalued naming fit)

theorem foldInto (holder : Node) {target : Node} (isTarget : leads target.name) {role : String}
    (isRole : leads role) :
    (state.foldInto relationship attributes holder target role).Spelled fits := by
  have actual : leads (if holder.id = target.id then role else "") := by
    split
    case isTrue => exact isRole
    case isFalse => exact naming.words "" (by decide)
  exact (spelled.foldKey naming holder isTarget actual).foldAttributes naming fit named holder

theorem resolveBinary {first second : Neighbor} (isFirst : leads first.node.name)
    (isSecond : leads second.node.name) :
    (state.resolveBinary relationship attributes first second).Spelled fits := by
  have supervisor : leads supervisorRole := naming.words _ (by decide)
  have spouse : leads spouseRole := naming.words _ (by decide)
  unfold Resolution.resolveBinary
  split
  case h_1 =>
    apply spelled.pushJunction naming fit
    exact List.forall_mem_cons.mpr ⟨isFirst, List.forall_mem_singleton.mpr isSecond⟩
  case h_2 => exact spelled.foldInto naming fit named first.node isSecond supervisor
  case h_3 => exact spelled.foldInto naming fit named second.node isFirst supervisor
  case h_4 => exact (spelled.report _).foldInto naming fit named first.node isSecond spouse

end Spelled

end Resolution

/-! ## The names in a drawing -/

/-- A node that stores something has a name. -/
theorem Attributes.name_ne_of_roleOf? {leaf : Node} {role : Role}
    (isRole : roleOf? leaf = some role) : leaf.name ≠ "" := by
  intro unnamed
  rw [roleOf?, if_pos unnamed] at isRole
  cases isRole

namespace Adjacency

def Spelled (fits : String → Prop) (index : Adjacency) : Prop :=
  ∀ node ∈ index.nodes, node.isEntity || node.isRelationship || node.isAttribute →
    fits node.name

theorem spelled_ofDiagram {diagram : Diagram} (spelled : diagram.Spelled fits) :
    (ofDiagram diagram).Spelled fits :=
  fun node member => spelled node ((firstBy_sublist Node.id diagram.nodes).subset member)

/-- Names of entities and relationships may lead others, and an attribute's name
fits unless it has none. -/
structure Named (leads fits : String → Prop) (index : Adjacency) : Prop where
  owners : ∀ node ∈ index.nodes, node.isEntity || node.isRelationship → leads node.name
  attributes : ∀ node ∈ index.nodes, node.isAttribute → node.name ≠ "" → fits node.name

theorem Spelled.named {index : Adjacency} (spelled : index.Spelled fits) :
    index.Named fits fits where
  owners node member isOwner := spelled node member (by simp [isOwner])
  attributes node member isAttribute _ := spelled node member (by simp [isAttribute])

namespace Named

variable {index : Adjacency} (named : index.Named leads fits)
include named

theorem entity {entity : Node} (member : entity ∈ index.entities) : leads entity.name := by
  rcases mem_entities.mp member with ⟨isNode, isEntity⟩
  exact named.owners entity isNode (by simp [isEntity])

theorem attributesOf (wellFormed : index.WellFormed) (owner : Node) :
    (index.attributesOf owner).Spelled fits := by
  have leaf (role : Attributes.Role) : ∀ name ∈ ((index.leaves owner.id).filter fun leaf =>
      Attributes.roleOf? leaf = some role).map Node.name, fits name := by
    intro name member
    rcases List.mem_map.mp member with ⟨node, isLeaf, rfl⟩
    rcases List.mem_filter.mp isLeaf with ⟨isFound, isRole⟩
    rcases List.mem_map.mp isFound with ⟨visit, isVisit, rfl⟩
    rcases wellFormed.attribute_of_mem_visits (List.mem_of_mem_filter isVisit) with
      ⟨isNode, isAttribute⟩
    exact named.attributes visit.node isNode isAttribute
      (Attributes.name_ne_of_roleOf? (of_decide_eq_true isRole))
  exact ⟨List.forall_mem_append.mpr ⟨leaf .primaryKey, leaf .ordinary⟩, leaf .multivalued⟩

end Named

end Adjacency

theorem Resolution.Spelled.resolveOne (naming : Naming leads fits) {index : Adjacency}
    (wellFormed : index.WellFormed) (drawn : index.Named leads fits) {state : Resolution}
    (spelled : state.Spelled fits) (links : List Ownership) {relationship : Node}
    (named : leads relationship.name) :
    (Resolution.resolveOne index links state relationship).Spelled fits := by
  have entities : ∀ neighbor ∈ index.entityNeighbors relationship.id, leads neighbor.node.name :=
    fun _ member => drawn.entity (wellFormed.node_of_mem_entityNeighbors member)
  have fit := drawn.attributesOf wellFormed relationship
  have start := spelled.report (index.attributeProblems relationship)
  unfold Resolution.resolveOne
  dsimp only
  split
  case isTrue =>
    exact List.foldlRecOn (motive := Spelled fits) _ _ start
      fun _ sofar dependent _ => sofar.foldAttributes naming fit named dependent
  case isFalse =>
    split
    case h_1 => exact start.report _
    case h_2 => exact start.report _
    case h_3 first second pair =>
      rw [pair] at entities
      exact start.resolveBinary naming fit named (entities first (by simp))
        (entities second (by simp))
    case h_4 =>
      apply start.pushJunction naming fit
      intro participant member
      rcases List.mem_map.mp member with ⟨neighbor, isNeighbor, rfl⟩
      exact entities neighbor isNeighbor

/-! ## The tables of a schema -/

namespace Naming

open ErSchema.Derivation

variable {index : Adjacency} (wellFormed : index.WellFormed)
  (drawn : index.Named leads fits) (limit : Option Nat)
include wellFormed drawn

/-- What an entity took over was the key attribute of some entity. -/
theorem spelled_settled : (settled index limit).tables.Spelled fits := by
  have ids : (settled index limit).tables.ids = index.entities.map Node.id := by
    rw [(inherits_settled index limit).ids_eq, ids_baseTables wellFormed]
  have regular : (settled index limit).tables.Regular :=
    (inherits_settled index limit).regular (ready_baseTables wellFormed).regular
  intro table member
  apply Table.Spelled.mk (regular table member).distinct
  intro name isName
  rcases exists_left_of_forall₂ (TableMap.forall₂_get? (ids ▸ wellFormed.distinct_entities)
    ids.symm) member with ⟨entity, isEntity, found⟩
  have stored {owner : Node} := (drawn.attributesOf wellFormed owner).stored
  rw [← TableMap.names_of_get? found, (inherits_settled index limit).mem_names,
    mem_names_baseTables wellFormed isEntity, ← List.mem_append] at isName
  rcases isName with own | inherited
  · exact stored name own
  · rcases exists_flowed_settled index limit with ⟨made, equal⟩
    rw [equal] at inherited
    rcases hasKeyPath_of_mem_flowed wellFormed isEntity inherited with ⟨origin, _, isKey, _⟩
    exact stored name (List.mem_append_left _ isKey)

variable (naming : Naming leads fits)
include naming

theorem spelled_resolution : (resolution index limit).Spelled fits := by
  have start : Resolution.Spelled fits ⟨(settled index limit).tables, [], []⟩ :=
    ⟨spelled_settled wellFormed drawn limit, nofun⟩
  apply List.foldlRecOn (motive := Resolution.Spelled fits) _ _ start
  intro state sofar relationship member
  rcases List.mem_filter.mp member with ⟨isNode, isRelationship⟩
  exact sofar.resolveOne naming wellFormed drawn index.ownerships
    (drawn.owners relationship isNode (by simp [isRelationship]))

omit wellFormed drawn in
theorem spelled_ofDiagram {diagram : Diagram}
    (drawn : (Adjacency.ofDiagram diagram).Named leads fits) :
    ∀ table ∈ (ofDiagram diagram limit).schema.tables, table.Spelled fits := by
  have wellFormed := Adjacency.wellFormed_ofDiagram diagram
  have settled := spelled_settled wellFormed drawn limit
  have resolution := naming.spelled_resolution wellFormed drawn limit
  rw [tables_ofDiagram]
  intro table member
  rcases List.mem_append.mp member with front | derived
  · rcases List.mem_append.mp front with own | values
    · exact resolution.tables table own
    · rcases List.mem_flatMap.mp values with ⟨entity, _, listed⟩
      unfold multivaluedTables at listed
      split at listed
      case h_1 => cases listed
      case h_2 owner found =>
        have isOwner := TableMap.mem_toTables_of_get? found
        exact (settled owner isOwner).map_multivalued naming
          (drawn.attributesOf wellFormed entity) table listed
  · exact resolution.derived table derived

end Naming

namespace Derivation

theorem spelled_resolution (spelling : Spelling fits) {index : Adjacency}
    (wellFormed : index.WellFormed) (drawn : index.Spelled fits) (limit : Option Nat) :
    (resolution index limit).Spelled fits :=
  spelling.naming.spelled_resolution wellFormed drawn.named limit

theorem spelled_ofDiagram (spelling : Spelling fits) (limit : Option Nat) {diagram : Diagram}
    (drawn : diagram.Spelled fits) :
    ∀ table ∈ (ofDiagram diagram limit).schema.tables, table.Spelled fits :=
  spelling.naming.spelled_ofDiagram limit (Adjacency.spelled_ofDiagram drawn).named

end Derivation

end ErSchema
