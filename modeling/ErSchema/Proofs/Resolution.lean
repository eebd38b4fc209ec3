import ErSchema.Proofs.Attachment

/-! # What relationships lead to

Everything that the resolution of relationships changes, derives or reports is
described from the tables it began with. The description holds of every state on
the way, whatever relationships came before. -/

namespace ErSchema

theorem Adjacency.attributeProblems_ne_propagationLimit (index : Adjacency) (owner : Node)
    (passes : Nat) : .propagationLimit passes ∉ index.attributeProblems owner := by
  simp [attributeProblems]

namespace Resolution

/-- A column that a relationship may put into the table of an entity: a plain
one, or a reference to an entity that has a key. -/
def Folded (index : Adjacency) (origin : TableMap) (column : Column) : Prop :=
  (∃ name, column = .plain name) ∨
    ∃ target ∈ index.entities, origin.primaryKey target.id ≠ [] ∧
      ∃ name, column = .foreignKey name target.name

theorem Folded.isKey {index : Adjacency} {origin : TableMap} {column : Column}
    (folded : Folded index origin column) : column.isKey = false := by
  rcases folded with ⟨_, rfl⟩ | ⟨_, _, _, _, rfl⟩ <;> rfl

/-- Where a table comes from that was derived along with `others`. -/
inductive Derived (index : Adjacency) (origin : TableMap) (others : List Table) :
    Table → Prop
  | junction (relationship : Node) (attributes : Attributes) {participants : List Node}
      (entities : ∀ participant ∈ participants, participant ∈ index.entities) :
      Derived index origin others
        (junctionTable relationship attributes participants origin)
  | ofEntity {owner : Table} (isOwner : owner ∈ origin.toTables) (attributeName : String) :
      Derived index origin others (owner.multivalued attributeName)
  | ofJunction {owner : Table} (isOwner : owner ∈ others) (isJunction : owner.kind = .junction)
      (attributeName : String) : Derived index origin others (owner.multivalued attributeName)

theorem Derived.mono {index : Adjacency} {origin : TableMap} {others more : List Table}
    {table : Table} (included : others ⊆ more) (derived : Derived index origin others table) :
    Derived index origin more table := by
  cases derived with
  | junction relationship attributes entities =>
      exact .junction relationship attributes entities
  | ofEntity isOwner name => exact .ofEntity isOwner name
  | ofJunction isOwner isJunction name => exact .ofJunction (included isOwner) isJunction name

theorem Derived.kind_ne {index : Adjacency} {origin : TableMap} {others : List Table}
    {table : Table} (derived : Derived index origin others table) : table.kind ≠ .entity := by
  cases derived with
  | junction => simp [junctionTable_kind]
  | ofEntity => simp
  | ofJunction => simp

theorem mem_dependents {relationship node : Node} {participants : List Node}
    {links : List Ownership} (member : node ∈ dependents relationship participants links) :
    node ∈ participants ∨ ∃ link ∈ links, link.dependent = node := by
  unfold dependents at member
  split at member
  · exact .inl (List.mem_of_mem_filter member)
  · rcases List.mem_map.mp ((firstBy_sublist _ _).subset member) with ⟨link, isLink, equal⟩
    exact .inr ⟨link, List.mem_of_mem_filter isLink, equal⟩

/-- The states that resolving relationships can lead to from `origin`. -/
structure Reached (index : Adjacency) (origin : TableMap) (state : Resolution) : Prop where
  tables : TableMap.Revises (Table.Appends (Folded index origin)) origin state.tables
  derived : ∀ table ∈ state.derived, Derived index origin state.derived table
  reported : ∀ passes, .propagationLimit passes ∉ state.diagnostics

variable {index : Adjacency} {origin : TableMap} {state : Resolution}

theorem reached_start : Reached index origin ⟨origin, [], []⟩ :=
  ⟨.refl .refl origin, by simp, by simp⟩

namespace Reached

variable (reached : Reached index origin state)
include reached

theorem primaryKey_eq (id : String) : state.tables.primaryKey id = origin.primaryKey id := by
  cases found : origin.get? id with
  | none =>
      have related := reached.tables.rel_get? id
      rw [found] at related
      generalize after : state.tables.get? id = result at related
      cases related
      rw [TableMap.primaryKey_of_none found, TableMap.primaryKey_of_none after]
  | some table =>
      rcases reached.tables.get?_some found with ⟨later, foundLater, appends⟩
      rw [TableMap.primaryKey_of_get? found, TableMap.primaryKey_of_get? foundLater]
      exact appends.primaryKey_eq fun _ => Folded.isKey

theorem report {diagnostics : List Diagnostic}
    (harmless : ∀ passes, .propagationLimit passes ∉ diagnostics) :
    Reached index origin (state.report diagnostics) :=
  ⟨reached.tables, reached.derived, fun passes member =>
    (List.mem_append.mp member).elim (reached.reported passes) (harmless passes)⟩

theorem derive {tables : List Table}
    (derived : ∀ table ∈ tables, Derived index origin (state.derived ++ tables) table) :
    Reached index origin (state.derive tables) := by
  refine ⟨reached.tables, fun table member => ?_, reached.reported⟩
  rcases List.mem_append.mp member with old | new
  · exact (reached.derived table old).mono (List.subset_append_left _ _)
  · exact derived table new

theorem foldKey {target : Node} (isTarget : target ∈ index.entities) (holder : Node)
    (role : String) : Reached index origin (state.foldKey holder target role) := by
  refine ⟨reached.tables.trans .trans (.modify .refl fun table _ => ?_), reached.derived,
    reached.reported⟩
  refine Table.appends_foreignKeys (fun key isKey name => .inr ⟨target, isTarget, ?_, name, rfl⟩)
    role table
  rw [← reached.primaryKey_eq]
  exact List.ne_nil_of_mem isKey

theorem foldAttributes (relationship : Node) (attributes : Attributes) (holder : Node) :
    Reached index origin (state.foldAttributes relationship attributes holder) := by
  unfold Resolution.foldAttributes
  split
  · exact reached
  case h_2 table found =>
    have appends : table.Appends (Folded index origin)
        (table.receive relationship attributes.stored) :=
      Table.appends_receive (fun name => .inl ⟨name, rfl⟩) relationship attributes.stored table
    have stored : Reached index origin { state with
        tables := state.tables.modify holder.id fun _ =>
          table.receive relationship attributes.stored } := by
      refine ⟨reached.tables.trans .trans (.modify .refl fun same foundSame => ?_),
        reached.derived, reached.reported⟩
      obtain rfl : table = same := Option.some.inj (found.symm.trans foundSame)
      exact appends
    refine stored.derive fun derived member => ?_
    rcases List.mem_map.mp member with ⟨name, _, rfl⟩
    -- The owner has the name and the key that it had at the origin.
    rcases reached.tables.get?_some_before found with ⟨owner, foundOwner, since⟩
    have whole := since.trans appends
    have same : (attributes.stored.foldl (pushAttribute relationship) table).multivalued name =
        owner.multivalued name :=
      Table.multivalued_congr whole.name (whole.primaryKey_eq fun _ => Folded.isKey) name
    rw [same]
    exact .ofEntity (TableMap.mem_toTables_of_get? foundOwner) name

theorem pushJunction (relationship : Node) (attributes : Attributes) {participants : List Node}
    (entities : ∀ participant ∈ participants, participant ∈ index.entities) :
    Reached index origin (state.pushJunction relationship attributes participants) := by
  refine reached.derive fun table member => ?_
  rw [junctionTable_congr fun participant _ => reached.primaryKey_eq participant.id] at member ⊢
  rcases List.mem_cons.mp member with rfl | value
  · exact .junction relationship attributes entities
  · rcases List.mem_map.mp value with ⟨name, _, rfl⟩
    exact .ofJunction (List.mem_append_right _ List.mem_cons_self)
      (junctionTable_kind relationship attributes participants origin) name

theorem foldInto (relationship : Node) (attributes : Attributes) (holder : Node)
    {target : Node} (isTarget : target ∈ index.entities) (role : String) :
    Reached index origin (state.foldInto relationship attributes holder target role) :=
  (reached.foldKey isTarget holder _).foldAttributes relationship attributes holder

theorem resolveBinary (relationship : Node) (attributes : Attributes) {first second : Neighbor}
    (isFirst : first.node ∈ index.entities) (isSecond : second.node ∈ index.entities) :
    Reached index origin (state.resolveBinary relationship attributes first second) := by
  unfold Resolution.resolveBinary
  split
  case h_1 =>
    refine reached.pushJunction relationship attributes fun participant member => ?_
    rcases List.mem_cons.mp member with rfl | rest
    · exact isFirst
    · exact List.mem_singleton.mp rest ▸ isSecond
  case h_2 => exact reached.foldInto relationship attributes first.node isSecond _
  case h_3 => exact reached.foldInto relationship attributes second.node isFirst _
  case h_4 =>
    exact (reached.report (by simp)).foldInto relationship attributes first.node isSecond _

theorem resolveOne (wellFormed : index.WellFormed) (links : List Ownership)
    (relationship : Node) :
    Reached index origin (Resolution.resolveOne index links state relationship) := by
  have entities : ∀ neighbor ∈ index.entityNeighbors relationship.id,
      neighbor.node ∈ index.entities := fun _ => wellFormed.node_of_mem_entityNeighbors
  have start := reached.report
    (index.attributeProblems_ne_propagationLimit relationship)
  unfold Resolution.resolveOne
  dsimp only
  split
  case isTrue =>
    exact List.foldlRecOn (motive := Reached index origin) _ _ start
      fun _ sofar dependent _ => sofar.foldAttributes relationship _ dependent
  case isFalse =>
    split
    case h_1 => exact start.report (by simp)
    case h_2 => exact start.report (by simp)
    case h_3 first second pair =>
      rw [pair] at entities
      exact start.resolveBinary relationship _ (entities first (by simp))
        (entities second (by simp))
    case h_4 =>
      refine start.pushJunction relationship _ fun participant member => ?_
      rcases List.mem_map.mp member with ⟨neighbor, isNeighbor, rfl⟩
      exact entities neighbor isNeighbor

end Reached

theorem reached_foldl (wellFormed : index.WellFormed) (origin : TableMap)
    (relationships : List Node) :
    Reached index origin
      (relationships.foldl (resolveOne index index.ownerships) ⟨origin, [], []⟩) :=
  List.foldlRecOn (motive := Reached index origin) _ _ reached_start
    fun _ sofar relationship _ => sofar.resolveOne wellFormed index.ownerships relationship

theorem reached_resolveAll (wellFormed : index.WellFormed) (origin : TableMap) :
    Reached index origin (resolveAll index origin) :=
  reached_foldl wellFormed origin _

end Resolution

end ErSchema
