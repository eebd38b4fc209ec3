import ErSchema.Listing.Box
import ErSchema.Listing.Data
import ErSchema.Listing.Html
import ErSchema.Listing.Sql

/-! # Output formats -/

namespace ErSchema

inductive OutputFormat where
  | html
  | text
  | sql
  | json
  deriving DecidableEq, Repr

namespace OutputFormat

def name : OutputFormat → String
  | .html => "html"
  | .text => "text"
  | .sql => "sql"
  | .json => "json"

/-- The case of ASCII letters does not matter; no other letter has one of the
names' letters as its lower case. -/
def ofName? (text : String) : Option OutputFormat :=
  match text.map Char.toLower with
  | "html" => some .html
  | "text" => some .text
  | "txt" => some .text
  | "sql" => some .sql
  | "json" => some .json
  | _ => none

def unknownMessage (text : String) : String :=
  "Unknown format: " ++ text ++ ". Valid options: html, text, sql, json"

def render (format : OutputFormat) (derivation : Derivation) (config : Config) : String :=
  match format with
  | .html => Html.schema derivation.schema config
  | .text => Box.schema derivation.schema
  | .sql => Sql.script derivation.schema config
  | .json => Data.derivation derivation

end OutputFormat

end ErSchema
