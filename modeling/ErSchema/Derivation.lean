import ErSchema.Hierarchy
import ErSchema.Relationship
import ErSchema.Schema

/-! # From a diagram to a schema

Entities become tables with their own attributes; keys then flow along
ownerships and hierarchies until a pass changes nothing; relationships come
last, when all keys are known. -/

namespace ErSchema

structure Derivation where
  schema : Schema
  diagnostics : List Diagnostic

namespace Derivation

def hasErrors (derivation : Derivation) : Bool :=
  derivation.diagnostics.any fun diagnostic => diagnostic.severity = .error

/-! ## Tables before keys flow -/

def entityTable (entity : Node) (attributes : Attributes) : Table :=
  (Table.empty entity.name .entity).pushAll
    (attributes.primaryKeys.map .key ++ attributes.ordinary.map .plain)

def baseTables (index : Adjacency) : TableMap :=
  (index.nodes.filter (·.isEntity)).foldl (fun tables entity =>
    tables.insert entity.id (entityTable entity (index.attributesOf entity))) .empty

/-! ## Passes -/

/-- One pass: ownerships, then hierarchies. -/
def pass (links : List Ownership) (hierarchies : List Hierarchy) (tables : TableMap) :
    Nat × TableMap :=
  let (imported, owned) := Ownership.propagate links tables
  let (inherited, settled) := Hierarchy.propagate hierarchies owned
  (imported + inherited, settled)

/-- The tables after the passes, and whether the last allowed pass still changed
something. -/
structure Settled where
  tables : TableMap
  stopped : Bool

def settle (pass : TableMap → Nat × TableMap) : (allowed : Nat) → TableMap → Settled
  | 0, tables => ⟨tables, true⟩
  | allowed + 1, tables =>
      let (changed, next) := pass tables
      if changed = 0 then ⟨next, false⟩ else settle pass allowed next

/-- At least one pass is made. Without a limit, one more than there are nodes. -/
def passLimit (index : Adjacency) (limit : Option Nat) : Nat :=
  max (limit.getD (index.nodes.length + 1)) 1

/-! ## Everything together -/

def multivaluedTables (index : Adjacency) (tables : TableMap) (entity : Node) :
    List Table :=
  match tables.get? entity.id with
  | none => []
  | some table => (index.attributesOf entity).multivalued.map table.multivalued

def missingKey? (tables : TableMap) (entity : Node) : Option Diagnostic :=
  match tables.get? entity.id with
  | none => none
  | some table =>
      if table.primaryKey.isEmpty then some (.missingPrimaryKey entity.name) else none

def ofDiagram (diagram : Diagram) (limit : Option Nat) : Derivation :=
  let index := Adjacency.ofDiagram diagram
  let entities := index.nodes.filter (·.isEntity)
  let allowed := passLimit index limit
  let settled := settle (pass index.ownerships index.hierarchies) allowed (baseTables index)
  let resolution := Resolution.resolveAll index settled.tables
  { schema :=
      ⟨resolution.tables.toTables ++
        entities.flatMap (multivaluedTables index settled.tables) ++ resolution.derived⟩
    diagnostics :=
      Adjacency.problems diagram ++ entities.flatMap index.attributeProblems ++
        index.hierarchyProblems ++
        (if settled.stopped then [.propagationLimit allowed] else []) ++
        entities.filterMap (missingKey? settled.tables) ++ resolution.diagnostics }

end Derivation

end ErSchema
