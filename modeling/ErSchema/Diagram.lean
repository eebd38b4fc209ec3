import ErSchema.Cardinality

/-! # Entity-relationship diagrams

A diagram is what is drawn: nodes of several kinds and the connections between
them. Nothing here promises that identifiers are unique or that a connection
ends at a node; the derivation reports what it has to leave out. -/

namespace ErSchema

inductive AttributeKind where
  | simple
  | multivalued
  | derived
  deriving DecidableEq, Repr

inductive NodeKind where
  | entity
  | ofAttribute (kind : AttributeKind)
  | relationship
  | isa
  | label
  deriving DecidableEq, Repr

/-- A place on the canvas; `y` grows downward. -/
structure Position where
  x : Float
  y : Float

structure Node where
  id : String
  kind : NodeKind
  name : String
  position : Position
  isWeak : Bool
  isPrimaryKey : Bool

namespace Node

/-- A node at the origin, neither weak nor a key. Names are trimmed. -/
def ofKind (kind : NodeKind) (id name : String) : Node :=
  { id := id
    kind := kind
    name := Text.trim name
    position := ⟨0, 0⟩
    isWeak := false
    isPrimaryKey := false }

def entity : String → String → Node := ofKind .entity
def simpleAttribute : String → String → Node := ofKind (.ofAttribute .simple)
def multivaluedAttribute : String → String → Node := ofKind (.ofAttribute .multivalued)
def derivedAttribute : String → String → Node := ofKind (.ofAttribute .derived)
def relationship : String → String → Node := ofKind .relationship
def isa (id : String) : Node := ofKind .isa id "ISA"
def label : String → String → Node := ofKind .label

def weak (node : Node) : Node := { node with isWeak := true }
def primaryKey (node : Node) : Node := { node with isPrimaryKey := true }
def drawnAt (node : Node) (x y : Float) : Node := { node with position := ⟨x, y⟩ }

def isEntity (node : Node) : Bool := node.kind = .entity
def isRelationship (node : Node) : Bool := node.kind = .relationship
def isIsa (node : Node) : Bool := node.kind = .isa

def isAttribute (node : Node) : Bool :=
  match node.kind with
  | .ofAttribute _ => true
  | _ => false

end Node

inductive LineStyle where
  | solid
  | double
  | dashed
  deriving DecidableEq, Repr

/-- A connection, with the label written at each of its ends. -/
structure Edge where
  start : String
  finish : String
  startCard : Cardinality
  finishCard : Cardinality
  style : LineStyle
  deriving DecidableEq, Repr

namespace Edge

def between (start finish : String) : Edge :=
  ⟨start, finish, .unspecified, .unspecified, .solid⟩

def withCards (edge : Edge) (startLabel finishLabel : String) : Edge :=
  { edge with
    startCard := .ofLabel startLabel
    finishCard := .ofLabel finishLabel }

/-- The label at the end where `id` stands; the start if it stands at both. -/
def cardAt? (edge : Edge) (id : String) : Option Cardinality :=
  if edge.start = id then some edge.startCard
  else if edge.finish = id then some edge.finishCard
  else none

def otherEnd? (edge : Edge) (id : String) : Option String :=
  if edge.start = id then some edge.finish
  else if edge.finish = id then some edge.start
  else none

end Edge

structure Diagram where
  nodes : List Node
  edges : List Edge

namespace Diagram

def empty : Diagram := ⟨[], []⟩

def add (diagram : Diagram) (node : Node) : Diagram :=
  { diagram with nodes := diagram.nodes ++ [node] }

def connect (diagram : Diagram) (edge : Edge) : Diagram :=
  { diagram with edges := diagram.edges ++ [edge] }

end Diagram

end ErSchema
