import ErSchema.Adjacency
import ErSchema.TableMap

/-! # Class hierarchies

An ISA node joins a superclass to its subclasses. The drawing decides which is
which: the entity drawn highest is the superclass. Subclasses take over the
superclass's key. -/

namespace ErSchema

structure Hierarchy where
  isa : Node
  superclass : Node
  subclasses : List Node

/-! ## The highest entity

Coordinates are ordered by sign and magnitude of their bits, a total order in
which negative zero lies below zero. -/

def coordinateRank (value : Float) : Int :=
  let bits : Nat := value.toBits.toNat
  if bits < Nat.pow 2 63 then bits else -(bits - Nat.pow 2 63 : Nat) - 1

/-- The place of the first member with the least rank. -/
def firstLeast? {α : Type} (rank : α → Int) : List α → Option Nat
  | [] => none
  | member :: rest =>
      match firstLeast? rank rest, rest with
      | none, _ => some 0
      | some place, _ =>
          if (rest[place]?).any fun least => rank least < rank member then some (place + 1)
          else some 0

example : firstLeast? id [3, 1, 2, 1] = some 1 := by decide

/-- The first connected wins a tie. One entity makes no hierarchy. -/
def superclassPlace? (entities : List Node) : Option Nat :=
  if entities.length < 2 then none
  else firstLeast? (fun entity => coordinateRank entity.position.y) entities

namespace Adjacency

/-- The different entities at an ISA node, in connection order. -/
def members (index : Adjacency) (isa : Node) : List Node :=
  firstBy Node.id ((index.entityNeighbors isa.id).map (·.node))

def hierarchyOf? (index : Adjacency) (isa : Node) : Option Hierarchy := do
  let entities := index.members isa
  let place ← superclassPlace? entities
  let superclass ← entities[place]?
  some ⟨isa, superclass, entities.eraseIdx place⟩

def isaNodes (index : Adjacency) : List Node :=
  index.nodes.filter (·.isIsa)

def hierarchies (index : Adjacency) : List Hierarchy :=
  index.isaNodes.filterMap index.hierarchyOf?

def hierarchyProblems (index : Adjacency) : List Diagnostic :=
  (index.isaNodes.filter fun isa => (index.hierarchyOf? isa).isNone).map fun isa =>
    .unresolvableHierarchy isa.name (index.members isa).length

end Adjacency

/-! ## Taking over keys

A plain column of the key's name becomes part of the key; a column that is
already a key or a reference is left as it is. -/

namespace Hierarchy

def promote (source : String) (column : Column) : Column :=
  { column with isKey := true, isForeign := true, source := some source }

def importKey (source : String) (state : Nat × Table) (key : Column) : Nat × Table :=
  match state.2.column? key.name with
  | some existing =>
      if existing.isKey || existing.isForeign then state
      else (state.1 + 1, state.2.update key.name (promote source))
  | none => (state.1 + 1, state.2.push (.inheritedKey key.name source))

def subclassStep (source : String) (keys : List Column) (state : Nat × TableMap)
    (subclass : Node) : Nat × TableMap :=
  match state.2.get? subclass.id with
  | none => state
  | some table =>
      let (changed, extended) := keys.foldl (importKey source) (0, table)
      (state.1 + changed, state.2.modify subclass.id fun _ => extended)

/-- The superclass's key is read once, before its subclasses change. -/
def step (state : Nat × TableMap) (hierarchy : Hierarchy) : Nat × TableMap :=
  let keys := state.2.primaryKey hierarchy.superclass.id
  hierarchy.subclasses.foldl (subclassStep hierarchy.superclass.name keys) state

def propagate (hierarchies : List Hierarchy) (tables : TableMap) : Nat × TableMap :=
  hierarchies.foldl step (0, tables)

end Hierarchy

end ErSchema
