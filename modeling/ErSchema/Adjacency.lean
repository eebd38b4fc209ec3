import ErSchema.Diagnostic
import ErSchema.Diagram
import ErSchema.Distinct

/-! # The graph that a diagram draws

Of several nodes with one identifier the first counts. A connection counts if
both its ends are nodes and are different; it is then a link between two nodes
and can be followed from either end. -/

namespace ErSchema

/-- A connection whose ends were found. `edge` is its place in the diagram. -/
structure Link where
  edge : Nat
  start : Node
  finish : Node
  startCard : Cardinality
  finishCard : Cardinality

/-- A link as seen from one of its ends: `ownCard` is the label at that end. -/
structure Neighbor where
  edge : Nat
  node : Node
  ownCard : Cardinality
  card : Cardinality

def Link.neighborOf? (link : Link) (id : String) : Option Neighbor :=
  if link.start.id = id then
    some ⟨link.edge, link.finish, link.startCard, link.finishCard⟩
  else if link.finish.id = id then
    some ⟨link.edge, link.start, link.finishCard, link.startCard⟩
  else none

structure Adjacency where
  nodes : List Node
  links : List Link

namespace Adjacency

def find? (nodes : List Node) (id : String) : Option Node :=
  nodes.find? fun node => node.id = id

/-- The identifier at an end of the edge that no node has; the start is asked
first. -/
def missingEnd? (nodes : List Node) (edge : Edge) : Option String :=
  [edge.start, edge.finish].find? fun id => (find? nodes id).isNone

def linkOf? (nodes : List Node) (edge : Edge) (place : Nat) : Option Link := do
  let start ← find? nodes edge.start
  let finish ← find? nodes edge.finish
  if edge.start = edge.finish then none
  else some ⟨place, start, finish, edge.startCard, edge.finishCard⟩

def ofDiagram (diagram : Diagram) : Adjacency :=
  let nodes := firstBy Node.id diagram.nodes
  { nodes := nodes
    links := diagram.edges.zipIdx.filterMap fun (edge, place) => linkOf? nodes edge place }

/-- Repeated identifiers first, then connections without an end. -/
def problems (diagram : Diagram) : List Diagnostic :=
  let nodes := firstBy Node.id diagram.nodes
  (repeatedBy Node.id [] diagram.nodes).map (fun node => .duplicateNode node.id) ++
    diagram.edges.zipIdx.filterMap fun (edge, place) =>
      (missingEnd? nodes edge).map (.missingEndpoint place)

def node? (index : Adjacency) (id : String) : Option Node :=
  find? index.nodes id

/-- In the order in which the connections were drawn. -/
def neighbors (index : Adjacency) (id : String) : List Neighbor :=
  index.links.filterMap (·.neighborOf? id)

def entityNeighbors (index : Adjacency) (id : String) : List Neighbor :=
  (index.neighbors id).filter (·.node.isEntity)

def attributeNeighbors (index : Adjacency) (id : String) : List Node :=
  ((index.neighbors id).map (·.node)).filter (·.isAttribute)

end Adjacency

end ErSchema
