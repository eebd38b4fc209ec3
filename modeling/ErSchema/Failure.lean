import ErSchema.Config.Failure
import ErSchema.Json.Failure

/-! # Why nothing is derived

The diagram or the settings cannot be read. What a derivation finds in a diagram
that was read is a diagnostic, never a failure. -/

namespace ErSchema

inductive Failure where
  | document (reason : Json.Failure)
  | config (reason : Config.Failure)
  | file (path reason : String)

namespace Failure

/-- What lies behind the failure. -/
def reason : Failure → String
  | .document reason => reason.message
  | .config reason => reason.message
  | .file _ reason => reason

def message (failure : Failure) : String :=
  match failure with
  | .document _ => "invalid diagram document: " ++ failure.reason
  | .config _ => "invalid configuration: " ++ failure.reason
  | .file path _ => "failed to read " ++ path ++ ": " ++ failure.reason

end Failure

end ErSchema
