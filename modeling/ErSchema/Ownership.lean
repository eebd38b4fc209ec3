import ErSchema.Adjacency
import ErSchema.TableMap

/-! # Weak entities and their owners

A weak entity is identified through a weak relationship by the entities at its
other ends. Its table takes over the whole key of each owner. -/

namespace ErSchema

structure Ownership where
  dependent : Node
  owner : Node
  relationship : Node

/-- A weak candidate on the many side of a weak entity that is not many is the
next link down the chain, not an owner. -/
def isOwner (weakCard : Cardinality) (candidate : Node) (candidateCard : Cardinality) :
    Bool :=
  !(candidate.isWeak && candidateCard.isMany && !weakCard.isMany)

def isIdentifying (relationship : Node) (participants : List Node) : Bool :=
  relationship.isWeak && participants.any (·.isWeak)

namespace Adjacency

def weakEntities (index : Adjacency) : List Node :=
  index.nodes.filter fun node => node.isEntity && node.isWeak

/-- The owners that one connection of a weak entity to a weak relationship
gives it. -/
def ownersThrough (index : Adjacency) (weak : Node) (connection : Neighbor) :
    List Ownership :=
  ((index.entityNeighbors connection.node.id).filter fun other =>
    other.node.id ≠ weak.id && isOwner connection.ownCard other.node other.card).map
      fun other => ⟨weak, other.node, connection.node⟩

/-- One link for each pair of a dependent and an owner: the first that the
connections of the dependent give. -/
def ownerships (index : Adjacency) : List Ownership :=
  firstBy (fun link => (link.dependent.id, link.owner.id)) <|
    index.weakEntities.flatMap fun weak =>
      ((index.neighbors weak.id).filter fun connection =>
        connection.node.isRelationship && connection.node.isWeak).flatMap
          (index.ownersThrough weak)

end Adjacency

/-! ## Taking over keys

A pass goes through all links once and counts the columns it adds. -/

namespace Ownership

/-- A name that the table already has is left as it is. -/
def importKey (source : String) (state : Nat × Table) (key : Column) : Nat × Table :=
  if state.2.has key.name then state
  else (state.1 + 1, state.2.push (.inheritedKey key.name source))

def step (state : Nat × TableMap) (link : Ownership) : Nat × TableMap :=
  let keys := state.2.primaryKey link.owner.id
  match state.2.get? link.dependent.id with
  | none => state
  | some table =>
      let (added, extended) := keys.foldl (importKey link.owner.name) (0, table)
      (state.1 + added, state.2.modify link.dependent.id fun _ => extended)

def propagate (links : List Ownership) (tables : TableMap) : Nat × TableMap :=
  links.foldl step (0, tables)

end Ownership

end ErSchema
