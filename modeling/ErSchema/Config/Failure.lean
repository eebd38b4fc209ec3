import ErSchema.Yaml.Meaning

/-! # Why settings are refused -/

namespace ErSchema.Config

inductive Cause where
  | duplicateField (name : String)
  | mismatch (reason : Yaml.Mismatch)

/-- `path` is the member whose value is at fault; a member whose name was written
as an alias has no name there. -/
inductive Failure where
  | malformed (reason : Yaml.Failure)
  | severalDocuments
  | refused (cause : Cause) (path : Option String) (mark : Yaml.Mark)

def Cause.message : Cause → String
  | .duplicateField name => "duplicate field \x60" ++ name ++ "\x60"
  | .mismatch reason => reason.message

def Failure.message : Failure → String
  | .malformed reason => reason.message
  | .severalDocuments =>
      "deserializing from YAML containing more than one document is not supported"
  | .refused cause path mark =>
      (match path with
        | none => ""
        | some path => path ++ ": ") ++
        cause.message ++ mark.suffix

end ErSchema.Config
