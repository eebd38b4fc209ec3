import ErSchema.Decimal.Digits

/-! # Findings about a diagram

A derivation never fails. What it leaves out, and what it decides by the order
of declarations, it reports; only two findings mean that the result is not the
full one. -/

namespace ErSchema

inductive Severity where
  | note
  | warning
  | error
  deriving DecidableEq, Repr

def Severity.name : Severity → String
  | .note => "note"
  | .warning => "warning"
  | .error => "error"

inductive Diagnostic where
  | missingEndpoint (edge : Nat) (nodeId : String)
  | duplicateNode (id : String)
  | unresolvableRelationship (relationship : String) (participants : Nat)
  | unresolvableHierarchy (isa : String) (entities : Nat)
  | propagationLimit (passes : Nat)
  | attributeCycle (owner attributeName : String)
  | oneToOneDirection (relationship holder target : String)
  | missingPrimaryKey (entity : String)
  deriving DecidableEq, Repr

namespace Diagnostic

def severity : Diagnostic → Severity
  | .oneToOneDirection .. => .note
  | .propagationLimit .. | .attributeCycle .. => .error
  | .missingEndpoint .. | .duplicateNode .. | .unresolvableRelationship ..
  | .unresolvableHierarchy .. | .missingPrimaryKey .. => .warning

def quoted (name : String) : String :=
  "`" ++ name ++ "`"

def message : Diagnostic → String
  | .missingEndpoint edge nodeId =>
      "connection #" ++ Decimal.natText edge ++ " references missing node " ++
        quoted nodeId ++ "; connection ignored"
  | .duplicateNode id =>
      "node id " ++ quoted id ++ " is used more than once; later definition ignored"
  | .unresolvableRelationship relationship participants =>
      "relationship " ++ quoted relationship ++ " connects " ++
        Decimal.natText participants ++ " entity(ies); skipped"
  | .unresolvableHierarchy isa entities =>
      "ISA node " ++ quoted isa ++ " connects " ++ Decimal.natText entities ++
        " entity(ies); skipped"
  | .propagationLimit passes =>
      "key propagation still changing after " ++ Decimal.natText passes ++
        " passes; aborted"
  | .attributeCycle owner attributeName =>
      "attribute " ++ quoted attributeName ++ " under " ++ quoted owner ++
        " closes a cycle; link ignored"
  | .oneToOneDirection relationship holder target =>
      "one-to-one relationship " ++ quoted relationship ++ ": " ++ quoted holder ++
        " takes the foreign key to " ++ quoted target ++ " (declaration order)"
  | .missingPrimaryKey entity =>
      "entity " ++ quoted entity ++ " has no primary key"

end Diagnostic

end ErSchema
