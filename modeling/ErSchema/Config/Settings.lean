import ErSchema.Config
import ErSchema.Config.Failure
import ErSchema.Text.Blank

/-! # Settings written as YAML

A text without settings leaves everything as it is, and so does a member that is
missing. Unknown members are passed over. Members are read in order; the first
that is wrong decides, also if the text is malformed further on. -/

namespace ErSchema.Config

inductive Field where
  | columnType
  | schemaHeading
  | junctionHeading
  | sqlHeader
  | maxPropagationPasses
  deriving DecidableEq, Repr

namespace Field

def all : List Field :=
  [.columnType, .schemaHeading, .junctionHeading, .sqlHeader, .maxPropagationPasses]

def name : Field → String
  | .columnType => "column_type"
  | .schemaHeading => "schema_heading"
  | .junctionHeading => "junction_heading"
  | .sqlHeader => "sql_header"
  | .maxPropagationPasses => "max_propagation_passes"

def ofName? (name : String) : Option Field :=
  all.find? (·.name = name)

end Field

abbrev Reading := Except Failure

def mismatch {α : Type} (node : Yaml.Node) (expected : String) (path : Option String) :
    Reading α :=
  .error (.refused (.mismatch (node.content.mismatch expected)) path node.mark)

/-- Any scalar is a text, as it is written. -/
def readText (node : Yaml.Node) (expected : String) (path : Option String) : Reading String :=
  match node.content with
  | .scalar scalar => .ok scalar.text
  | _ => mismatch node expected path

/-- A count is below `2 ^ 64`. -/
def countLimit : Nat := UInt64.size

def readCount (node : Yaml.Node) (path : Option String) : Reading Nat :=
  match node.content with
  | .scalar scalar =>
      let mayBeNumber := scalar.style = .plain ∨
        (scalar.style = .literal ∧ scalar.tag = some (Yaml.standardTag "int"))
      match Yaml.natural? scalar.text with
      | some count =>
          if mayBeNumber ∧ count < countLimit then .ok count
          else mismatch node "usize" path
      | none => mismatch node "usize" path
  | _ => mismatch node "usize" path

/-- A plain null is no count. A text that is tagged as null but is none is a
fault of the whole. -/
def readLimit (whole : Yaml.Mark) (node : Yaml.Node) (path : Option String) :
    Reading (Option Nat) :=
  match node.content with
  | .scalar ⟨text, .plain, tag⟩ =>
      if tag = some (Yaml.standardTag "null") then
        if Yaml.isNull text then .ok none
        else .error (.refused (.mismatch (.value text "null")) none whole)
      else if tag = none ∧ (text.isEmpty ∨ Yaml.isNull text) then .ok none
      else (readCount node path).map some
  | _ => (readCount node path).map some

def readMember (whole : Yaml.Mark) (config : Config) (field : Field) (key value : Yaml.Node) :
    Reading Config :=
  let path := some (if key.isAlias then "?" else field.name)
  let text := readText value "a string" path
  match field with
  | .columnType => text.map fun columnType => { config with columnType }
  | .schemaHeading => text.map fun schemaHeading => { config with schemaHeading }
  | .junctionHeading => text.map fun junctionHeading => { config with junctionHeading }
  | .sqlHeader => text.map fun sqlHeader => { config with sqlHeader }
  | .maxPropagationPasses =>
      (readLimit whole value path).map fun maxPropagationPasses =>
        { config with maxPropagationPasses }

/-- The field that a key names, unless it was named before. -/
def readKey (whole : Yaml.Mark) (seen : List Field) (key : Yaml.Node) : Reading (Option Field) := do
  match Field.ofName? (← readText key "field identifier" none) with
  | none => return none
  | some field =>
      if seen.contains field then .error (.refused (.duplicateField field.name) none whole)
      else return some field

/-- Keys and values in turn. A text that is malformed may end with a key. -/
def readMembers (whole : Yaml.Mark) :
    (seen : List Field) → Config → List Yaml.Node → Reading Config
  | _, config, [] => .ok config
  | seen, config, [key] => (readKey whole seen key).map fun _ => config
  | seen, config, key :: value :: rest => do
      match ← readKey whole seen key with
      | none => readMembers whole seen config rest
      | some field =>
          let config ← readMember whole config field key value
          readMembers whole (field :: seen) config rest

def readTop (outline : Yaml.Outline) : Reading Config :=
  match outline.top with
  | none => .ok .standard
  | some top =>
      match top.content with
      | .mapping => readMembers top.mark [] .standard outline.members
      | .scalar ⟨"", .plain, _⟩ => .ok .standard
      | _ => mismatch top "struct Config" none

def ofOutline (outline : Yaml.Outline) : Reading Config := do
  let config ← readTop outline
  match outline.failure with
  | some failure => .error (.malformed failure)
  | none => if outline.isOnly then return config else .error .severalDocuments

def read (text : String) : Except Failure Config :=
  if (Text.trimBlanks text.toList).isEmpty then .ok .standard
  else ofOutline (Yaml.outline text)

end ErSchema.Config
