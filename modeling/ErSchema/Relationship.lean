import ErSchema.Attributes
import ErSchema.Ownership

/-! # Relationships as foreign keys and junction tables

A relationship with one many side folds into the table on that side; without a
many side the first participant takes it. Two many sides, or more than two
participants, need a table of their own. The attributes of the relationship go
where its foreign keys go. -/

namespace ErSchema

inductive Side where
  | first
  | second
  deriving DecidableEq, Repr

inductive Shape where
  | manyToMany
  | oneToMany (many : Side)
  | oneToOne
  deriving DecidableEq, Repr

def Shape.classify (first second : Cardinality) : Shape :=
  match first.isMany, second.isMany with
  | true, true => .manyToMany
  | true, false => .oneToMany .first
  | false, true => .oneToMany .second
  | false, false => .oneToOne

/-! ## Names for the second role

In a relationship of an entity with itself the key appears twice; the second
role's columns are told apart by what they are put behind. -/

def otherRole : String := "other_"
def supervisorRole : String := "supervisor_"
def spouseRole : String := "spouse_"

/-! ## Junction tables -/

namespace Junction

/-- The key columns of each participant; a participant met before is in its
other role. -/
def importedKeys (tables : TableMap) : (met : List String) → List Node → List Column
  | _, [] => []
  | met, participant :: rest =>
      let role := if participant.id ∈ met then otherRole else ""
      (tables.primaryKey participant.id).map (fun key =>
        .inheritedKey (role ++ key.name) participant.name) ++
          importedKeys tables (participant.id :: met) rest

def candidates (attributes : Attributes) (participants : List Node)
    (tables : TableMap) : List Column :=
  attributes.primaryKeys.map .key ++ attributes.ordinary.map .plain ++
    importedKeys tables [] participants

/-- An imported name that occurs more than once carries its source. -/
def qualify (all : List Column) (column : Column) : Column :=
  match column.source with
  | some source =>
      if 1 < all.countP (fun other => other.name = column.name) then
        column.renamed (source ++ "_" ++ column.name)
      else column
  | none => column

def pushNumbered (table : Table) (column : Column) : Table :=
  table.push (column.renamed (table.numberedName column.name))

end Junction

def junctionTable (relationship : Node) (attributes : Attributes)
    (participants : List Node) (tables : TableMap) : Table :=
  let candidates := Junction.candidates attributes participants tables
  (candidates.map (Junction.qualify candidates)).foldl Junction.pushNumbered
    (.empty relationship.name .junction)

/-! ## Folding into a table -/

/-- What the resolution of relationships has changed, derived and reported. -/
structure Resolution where
  tables : TableMap
  derived : List Table
  diagnostics : List Diagnostic

namespace Resolution

def report (state : Resolution) (diagnostics : List Diagnostic) : Resolution :=
  { state with diagnostics := state.diagnostics ++ diagnostics }

def derive (state : Resolution) (tables : List Table) : Resolution :=
  { state with derived := state.derived ++ tables }

def pushForeignKey (target : Node) (role : String) (table : Table) (key : Column) :
    Table :=
  table.push (.foreignKey (table.uniqueName (role ++ key.name) target.name) target.name)

/-- The keys are those of the target before the holder changes, also when both
are one entity. -/
def foldKey (state : Resolution) (holder target : Node) (role : String) : Resolution :=
  let keys := state.tables.primaryKey target.id
  { state with
    tables := state.tables.modify holder.id fun table =>
      keys.foldl (pushForeignKey target role) table }

def pushAttribute (relationship : Node) (table : Table) (attributeName : String) :
    Table :=
  table.push (.plain (table.uniqueName attributeName relationship.name))

def foldAttributes (state : Resolution) (relationship : Node) (attributes : Attributes)
    (holder : Node) : Resolution :=
  match state.tables.get? holder.id with
  | none => state
  | some table =>
      let extended := attributes.stored.foldl (pushAttribute relationship) table
      { state with
        tables := state.tables.modify holder.id fun _ => extended
        derived := state.derived ++ attributes.multivalued.map extended.multivalued }

def pushJunction (state : Resolution) (relationship : Node) (attributes : Attributes)
    (participants : List Node) : Resolution :=
  let table := junctionTable relationship attributes participants state.tables
  state.derive (table :: attributes.multivalued.map table.multivalued)

/-! ## One relationship -/

/-- The weak participants that the relationship itself gives an owner; if it
gives none, every weak participant. -/
def dependents (relationship : Node) (participants : List Node)
    (links : List Ownership) : List Node :=
  match firstBy Node.id ((links.filter fun link =>
      link.relationship.id = relationship.id).map (·.dependent)) with
  | [] => participants.filter (·.isWeak)
  | found => found

def foldInto (state : Resolution) (relationship : Node) (attributes : Attributes)
    (holder target : Node) (role : String) : Resolution :=
  let role := if holder.id = target.id then role else ""
  (state.foldKey holder target role).foldAttributes relationship attributes holder

def resolveBinary (state : Resolution) (relationship : Node) (attributes : Attributes)
    (first second : Neighbor) : Resolution :=
  match Shape.classify first.card second.card with
  | .manyToMany => state.pushJunction relationship attributes [first.node, second.node]
  | .oneToMany .first =>
      state.foldInto relationship attributes first.node second.node supervisorRole
  | .oneToMany .second =>
      state.foldInto relationship attributes second.node first.node supervisorRole
  | .oneToOne =>
      (state.report [.oneToOneDirection relationship.name first.node.name
        second.node.name]).foldInto relationship attributes first.node second.node
          spouseRole

/-- The keys of an identifying relationship have already flowed to its
dependents, so only its attributes are folded. -/
def resolveOne (index : Adjacency) (links : List Ownership) (state : Resolution)
    (relationship : Node) : Resolution :=
  let participants := index.entityNeighbors relationship.id
  let nodes := participants.map (·.node)
  let attributes := index.attributesOf relationship
  let state := state.report (index.attributeProblems relationship)
  if isIdentifying relationship nodes then
    (dependents relationship nodes links).foldl (fun state dependent =>
      state.foldAttributes relationship attributes dependent) state
  else
    match participants with
    | [] | [_] =>
        state.report [.unresolvableRelationship relationship.name participants.length]
    | [first, second] => state.resolveBinary relationship attributes first second
    | _ => state.pushJunction relationship attributes nodes

def resolveAll (index : Adjacency) (tables : TableMap) : Resolution :=
  (index.nodes.filter (·.isRelationship)).foldl
    (resolveOne index index.ownerships) ⟨tables, [], []⟩

end Resolution

end ErSchema
