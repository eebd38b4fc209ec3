/-! # Settings of a derivation and its listings -/

namespace ErSchema

structure Config where
  columnType : String
  schemaHeading : String
  junctionHeading : String
  sqlHeader : String
  maxPropagationPasses : Option Nat
  deriving DecidableEq, Repr

namespace Config

def standard : Config :=
  { columnType := "VARCHAR(255)"
    schemaHeading := "Relational schema:"
    junctionHeading := "Junction tables:"
    sqlHeader := "-- Generated SQL"
    maxPropagationPasses := none }

end Config

end ErSchema
