import ErSchema.Yaml.Event

/-! # The outline of a document

The outermost node of the first document and the nodes directly inside it, which
for a mapping are its keys and values in turn. What stands deeper is passed over.

An alias is the node that it names. Each anchor takes the slot numbered by how
many names there were before it; a name that is used again is no new name, so a
later name may take the same slot, and aliases of both then stand for the later
node. -/

namespace ErSchema.Yaml

structure Scalar where
  text : String
  style : Style
  tag : Option String
  deriving DecidableEq, Repr

inductive Content where
  | scalar (scalar : Scalar)
  | sequence
  | mapping
  deriving DecidableEq, Repr

/-- An alias has the mark of the node that it names. -/
structure Node where
  content : Content
  mark : Mark
  isAlias : Bool
  deriving DecidableEq, Repr

/-! ## Anchors -/

/-- Names and nodes with their slots, newest first. -/
structure Anchors where
  slots : List (String × Nat)
  nodes : List (Nat × Node)

namespace Anchors

def empty : Anchors := ⟨[], []⟩

def countNames (anchors : Anchors) : Nat :=
  (anchors.slots.map (·.1)).eraseDups.length

def add (anchors : Anchors) (anchor : Option String) (node : Node) : Anchors :=
  match anchor with
  | none => anchors
  | some name =>
      let slot := anchors.countNames
      ⟨(name, slot) :: anchors.slots, (slot, node) :: anchors.nodes⟩

def slot? (anchors : Anchors) (name : String) : Option Nat :=
  anchors.slots.lookup name

def node? (anchors : Anchors) (slot : Nat) : Option Node :=
  anchors.nodes.lookup slot

end Anchors

/-! ## Nodes with their depth -/

/-- What was read of a document. `anchors` are those of the whole document, and
`rest` are the events behind it. -/
structure Loaded where
  nodes : List (Nat × Node)
  anchors : Anchors
  failure : Option Failure
  rest : List Event

namespace Loaded

def add (loaded : Loaded) (depth : Nat) (node : Node) : Loaded :=
  { loaded with nodes := (depth, node) :: loaded.nodes }

/-- Which node has a slot is known at the end of the document only. -/
def addAlias (loaded : Loaded) (depth slot : Nat) : Loaded :=
  match loaded.anchors.node? slot with
  | some node => loaded.add depth { node with isAlias := true }
  | none => loaded

end Loaded

/-- Read the events of the first document. If they end early, `failure` tells
why. -/
def load (failure : Option Failure) :
    (depth : Nat) → Anchors → List Marked → Loaded
  | _, anchors, [] => ⟨[], anchors, failure, []⟩
  | depth, anchors, ⟨event, mark⟩ :: rest =>
      match event with
      | .streamEnd => ⟨[], anchors, none, [.streamEnd]⟩
      | .documentEnd => ⟨[], anchors, none, rest.map (·.event)⟩
      | .documentStart => load failure depth anchors rest
      | .alias name =>
          match anchors.slot? name with
          | none => ⟨[], anchors, some ⟨.unknownAnchor, mark, none⟩, []⟩
          | some slot => (load failure depth anchors rest).addAlias depth slot
      | .scalar text style tag anchor =>
          let node := ⟨.scalar ⟨text, style, tag⟩, mark, false⟩
          (load failure depth (anchors.add anchor node) rest).add depth node
      | .sequenceStart anchor =>
          let node := ⟨.sequence, mark, false⟩
          (load failure (depth + 1) (anchors.add anchor node) rest).add depth node
      | .mappingStart anchor =>
          let node := ⟨.mapping, mark, false⟩
          (load failure (depth + 1) (anchors.add anchor node) rest).add depth node
      | .sequenceEnd | .mappingEnd => load failure (depth - 1) anchors rest

/-! ## Outlines -/

/-- A stream without a document has no outermost node. `isOnly` if nothing
follows the document. -/
structure Outline where
  top : Option Node
  members : List Node
  failure : Option Failure
  isOnly : Bool

def Outline.nodesAt (depth : Nat) (nodes : List (Nat × Node)) : List Node :=
  (nodes.filter (·.1 = depth)).map (·.2)

def outline (text : String) : Outline :=
  let (events, failure) := events text
  let loaded := load failure 0 .empty events
  { top := (Outline.nodesAt 0 loaded.nodes).head?
    members := Outline.nodesAt 1 loaded.nodes
    failure := loaded.failure
    isOnly := loaded.rest = [.streamEnd] }

end ErSchema.Yaml
