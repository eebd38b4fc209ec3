import ErSchema.Adjacency

/-! # The attributes of an entity or relationship

Attributes hang on their owner, or on other attributes when they are composite.
Connections have no direction, so the distance from the owner tells parts from
wholes: the parts of an attribute are its neighbours one step farther away. An
attribute without parts is a leaf and is stored; a connection between two
attributes at the same distance closes a cycle and is reported. -/

namespace ErSchema

/-- Attribute identifiers with their distance from an owner. -/
abbrev Levels := List (String × Nat)

namespace Adjacency

/-- The attributes that touch the frontier and have no level yet. -/
def nextLayer (index : Adjacency) (known : Levels) (frontier : List String) :
    List String :=
  (firstBy id (frontier.flatMap fun reached =>
    (index.attributeNeighbors reached).map Node.id)).filter fun found =>
      (known.lookup found).isNone

/-- Search outward by whole layers. A layer that is not empty has an attribute
of the graph that no earlier layer has, so the nodes bound the rounds. -/
def growLevels (index : Adjacency) : (rounds level : Nat) → List String → Levels → Levels
  | 0, _, _, known => known
  | rounds + 1, level, frontier, known =>
      match index.nextLayer known frontier with
      | [] => known
      | layer =>
          index.growLevels rounds (level + 1) layer
            (known ++ layer.map fun found => (found, level + 1))

/-- The distance of each attribute that can be reached from the owner through
attributes only; the owner itself is at zero. -/
def levels (index : Adjacency) (owner : String) : Levels :=
  index.growLevels index.nodes.length 0 [owner] [(owner, 0)]

def parts (index : Adjacency) (levels : Levels) (id : String) (level : Nat) : List Node :=
  (index.attributeNeighbors id).filter fun found =>
    levels.lookup found.id = some (level + 1)

/-! ## The walk

A stack holds the attributes still to visit, the parts of a composite before
what follows it. Each visit uses up one identifier. -/

structure Visit where
  node : Node
  level : Nat

def walk (index : Adjacency) (levels : Levels) (unvisited : List String) :
    List Visit → List Visit
  | [] => []
  | visit :: stack =>
      if visit.node.id ∈ unvisited then
        visit :: walk index levels (unvisited.erase visit.node.id)
          ((index.parts levels visit.node.id visit.level).map
            (fun part => ⟨part, visit.level + 1⟩) ++ stack)
      else walk index levels unvisited stack
  termination_by stack => (unvisited.length, stack.length)
  decreasing_by
  · rename_i unused
    rw [List.length_erase_of_mem unused]
    have positive := List.length_pos_of_mem unused
    exact Prod.Lex.left _ _ (by omega)
  · exact Prod.Lex.right _ (by simp)

/-- All attributes of the owner, a composite before its parts. -/
def visits (index : Adjacency) (owner : String) : List Visit :=
  let levels := index.levels owner
  index.walk levels (index.nodes.map Node.id)
    ((index.parts levels owner 0).map fun part => ⟨part, 1⟩)

end Adjacency

/-! ## What a walk finds -/

/-- The stored attributes by their role in a table. -/
structure Attributes where
  primaryKeys : List String
  ordinary : List String
  multivalued : List String
  deriving DecidableEq, Repr

namespace Attributes

def isEmpty (attributes : Attributes) : Bool :=
  attributes.primaryKeys.isEmpty && attributes.ordinary.isEmpty &&
    attributes.multivalued.isEmpty

/-- The columns a table of its own gets: keys, then the rest. -/
def stored (attributes : Attributes) : List String :=
  attributes.primaryKeys ++ attributes.ordinary

inductive Role where
  | primaryKey
  | ordinary
  | multivalued
  deriving DecidableEq, Repr

/-- Derived attributes and attributes without a name are not stored. -/
def roleOf? (leaf : Node) : Option Role :=
  if leaf.name = "" then none
  else
    match leaf.kind with
    | .ofAttribute .multivalued => some .multivalued
    | .ofAttribute .derived => none
    | _ => if leaf.isPrimaryKey then some .primaryKey else some .ordinary

def ofLeaves (leaves : List Node) : Attributes :=
  let namesOf (role : Role) : List String :=
    (leaves.filter fun leaf => roleOf? leaf = some role).map Node.name
  ⟨namesOf .primaryKey, namesOf .ordinary, namesOf .multivalued⟩

end Attributes

namespace Adjacency

def leaves (index : Adjacency) (owner : String) : List Node :=
  let levels := index.levels owner
  ((index.visits owner).filter fun visit =>
    (index.parts levels visit.node.id visit.level).isEmpty).map (·.node)

def attributesOf (index : Adjacency) (owner : Node) : Attributes :=
  .ofLeaves (index.leaves owner.id)

/-- Connections between attributes at one distance, each with the attribute
from which the walk meets it first. -/
def cycleLinks (index : Adjacency) (owner : String) : List (Nat × Node) :=
  let levels := index.levels owner
  firstBy (·.1) <| (index.visits owner).flatMap fun visit =>
    ((index.neighbors visit.node.id).filter fun neighbor =>
      levels.lookup neighbor.node.id = some visit.level).map fun neighbor =>
        (neighbor.edge, visit.node)

def attributeProblems (index : Adjacency) (owner : Node) : List Diagnostic :=
  (index.cycleLinks owner.id).map fun (_, met) => .attributeCycle owner.name met.name

end Adjacency

end ErSchema
