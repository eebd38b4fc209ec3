import ErSchema.Diagram
import ErSchema.Json.Form
import ErSchema.Json.Printer
import ErSchema.Length

/-! # The saved form of a diagram

A drawing is saved as JSON: a list of elements and a list of lines. A member
that is missing has an empty default. A member with an unknown name belongs to
the drawing tool; it is kept with its element or line and written back. -/

namespace ErSchema

open Json (Value Form)

structure ElementRecord where
  id : String
  kind : String
  left : String
  top : String
  width : Option String
  height : Option String
  text : String
  isWeak : Bool
  isPrimaryKey : Bool
  extra : List (String × Value)

structure LineRecord where
  startId : String
  finishId : String
  startCard : String
  finishCard : String
  lineType : String
  extra : List (String × Value)

structure Document where
  elements : List ElementRecord
  lines : List LineRecord

/-! ## Members -/

namespace Member

def text (members : List (String × Value)) (name : String) : String :=
  match members.lookup name with
  | some (.string text) => text
  | _ => ""

def text? (members : List (String × Value)) (name : String) : Option String :=
  match members.lookup name with
  | some (.string text) => some text
  | _ => none

def flag (members : List (String × Value)) (name : String) : Bool :=
  match members.lookup name with
  | some (.bool value) => value
  | _ => false

def records (members : List (String × Value)) (name : String) : List Value :=
  match members.lookup name with
  | some (.array items) => items
  | _ => []

/-- The members that are not fields: sorted, the last of each name. -/
def others (members : List (String × Value)) (fields : List (String × Form)) :
    List (String × Value) :=
  Json.sortMembers (members.filter fun member => (fields.lookup member.1).isNone)

def optional (name : String) : Option String → List (String × Value)
  | some text => [(name, .string text)]
  | none => []

def ofObject : Value → List (String × Value)
  | .object members => members
  | _ => []

end Member

namespace ElementRecord

def fields : List (String × Form) :=
  [("id", .text), ("type", .text), ("left", .text), ("top", .text),
    ("width", .optionalText), ("height", .optionalText), ("text", .text),
    ("isWeak", .flag), ("isPK", .flag)]

def form : Form := .record "ElementRecord" fields .kept false

def ofValue (value : Value) : ElementRecord :=
  let members := Member.ofObject value
  { id := Member.text members "id"
    kind := Member.text members "type"
    left := Member.text members "left"
    top := Member.text members "top"
    width := Member.text? members "width"
    height := Member.text? members "height"
    text := Member.text members "text"
    isWeak := Member.flag members "isWeak"
    isPrimaryKey := Member.flag members "isPK"
    extra := Member.others members fields }

def toValue (element : ElementRecord) : Value :=
  .object <|
    [("id", .string element.id), ("type", .string element.kind),
      ("left", .string element.left), ("top", .string element.top)] ++
    Member.optional "width" element.width ++ Member.optional "height" element.height ++
    [("text", .string element.text), ("isWeak", .bool element.isWeak),
      ("isPK", .bool element.isPrimaryKey)] ++
    element.extra

/-- Equal fields, and extra members that are the same values. -/
def same (left right : ElementRecord) : Bool :=
  left.id = right.id && left.kind = right.kind && left.left = right.left &&
    left.top = right.top && left.width = right.width && left.height = right.height &&
    left.text = right.text && left.isWeak = right.isWeak &&
    left.isPrimaryKey = right.isPrimaryKey && Json.sameMembers left.extra right.extra

/-- An element of a kind that is not known is a label, and so is a listing that
was embedded before. -/
def nodeKind (element : ElementRecord) : NodeKind :=
  match element.kind with
  | "entity" => .entity
  | "relationship" => .relationship
  | "attribute" => .ofAttribute .simple
  | "attribute-multi" => .ofAttribute .multivalued
  | "attribute-derived" => .ofAttribute .derived
  | "isa" => .isa
  | _ => .label

/-- A place that cannot be read is zero. -/
def coordinate (length : String) : Float :=
  (Length.read? length).getD 0

def toNode (element : ElementRecord) : Node :=
  { Node.ofKind element.nodeKind element.id element.text with
    position := ⟨coordinate element.left, coordinate element.top⟩
    isWeak := element.isWeak
    isPrimaryKey := element.isPrimaryKey }

end ElementRecord

namespace LineRecord

def fields : List (String × Form) :=
  [("startId", .text), ("endId", .text), ("cardStart", .text), ("cardEnd", .text),
    ("lineType", .text)]

def form : Form := .record "LineRecord" fields .kept false

def ofValue (value : Value) : LineRecord :=
  let members := Member.ofObject value
  { startId := Member.text members "startId"
    finishId := Member.text members "endId"
    startCard := Member.text members "cardStart"
    finishCard := Member.text members "cardEnd"
    lineType := Member.text members "lineType"
    extra := Member.others members fields }

def toValue (line : LineRecord) : Value :=
  .object <|
    [("startId", .string line.startId), ("endId", .string line.finishId),
      ("cardStart", .string line.startCard), ("cardEnd", .string line.finishCard),
      ("lineType", .string line.lineType)] ++
    line.extra

def same (left right : LineRecord) : Bool :=
  left.startId = right.startId && left.finishId = right.finishId &&
    left.startCard = right.startCard && left.finishCard = right.finishCard &&
    left.lineType = right.lineType && Json.sameMembers left.extra right.extra

def style (line : LineRecord) : LineStyle :=
  match line.lineType with
  | "double" => .double
  | "dashed" => .dashed
  | _ => .solid

def toEdge (line : LineRecord) : Edge :=
  { (Edge.between line.startId line.finishId).withCards line.startCard line.finishCard with
    style := line.style }

end LineRecord

/-! ## Documents -/

namespace Document

def fields : List (String × Form) :=
  [("elements", .list ElementRecord.form), ("lines", .list LineRecord.form)]

/-- The two lists may also stand without their names, in an outer list. -/
def form : Form := .record "DiagramDocument" fields .ignored true

def ofValue (value : Value) : Document :=
  let members := Member.ofObject value
  { elements := (Member.records members "elements").map ElementRecord.ofValue
    lines := (Member.records members "lines").map LineRecord.ofValue }

def toValue (document : Document) : Value :=
  .object
    [("elements", .array (document.elements.map ElementRecord.toValue)),
      ("lines", .array (document.lines.map LineRecord.toValue))]

def read (text : String) : Except Json.Failure Document :=
  (Json.read form text).map ofValue

def write (document : Document) : String :=
  document.toValue.pretty

def sameAll {α : Type} (same : α → α → Bool) (left right : List α) : Bool :=
  left.length = right.length && (left.zip right).all fun pair => same pair.1 pair.2

def same (left right : Document) : Bool :=
  sameAll ElementRecord.same left.elements right.elements &&
    sameAll LineRecord.same left.lines right.lines

def toDiagram (document : Document) : Diagram :=
  ⟨document.elements.map ElementRecord.toNode, document.lines.map LineRecord.toEdge⟩

end Document

end ErSchema
