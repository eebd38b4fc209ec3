import ErSchema.Proofs.Attachment
import ErSchema.Proofs.Outcome
import Mathlib

/-! # Derived tables against the final tables

Tables are derived while others still change, but only by what no derived table
looks at: the resolution of a relationship reads names and keys, and appends
columns outside the keys. So everything derived can be read off the tables as
they stand in the end, each relationship by itself. -/

namespace ErSchema

namespace TableMap

/-- The same nodes have tables, with the same names and the same keys. -/
def SameKeys (left right : TableMap) : Prop :=
  ∀ id, Option.Rel (fun left right : Table =>
    right.name = left.name ∧ right.primaryKey = left.primaryKey) (left.get? id) (right.get? id)

theorem SameKeys.primaryKey_eq {left right : TableMap} (same : SameKeys left right)
    (id : String) : right.primaryKey id = left.primaryKey id := by
  have related := same id
  unfold primaryKey
  generalize left.get? id = old at related ⊢
  generalize right.get? id = new at related ⊢
  cases related with
  | none => rfl
  | some both => exact both.2

/-- Further columns, none of them in a key. -/
abbrev GrowsOutsideKeys : TableMap → TableMap → Prop :=
  Revises (Table.Appends fun column => column.isKey = false)

theorem GrowsOutsideKeys.sameKeys {before after : TableMap}
    (grows : GrowsOutsideKeys before after) : SameKeys before after := by
  intro id
  have related := grows.rel_get? id
  generalize before.get? id = old at related ⊢
  generalize after.get? id = new at related ⊢
  cases related with
  | none => exact .none
  | some appends => exact .some ⟨appends.name, appends.primaryKey_eq fun _ plain => plain⟩

end TableMap

open TableMap (GrowsOutsideKeys SameKeys)

namespace Resolution

/-! ## What one relationship derives and reports

Read off any tables with the right names and keys, without changing them. -/

/-- The tables of multivalued attributes that are kept with a holder's key. -/
def valueTables (attributes : Attributes) (tables : TableMap) (holder : Node) : List Table :=
  match tables.get? holder.id with
  | none => []
  | some table => attributes.multivalued.map table.multivalued

/-- The participant that takes the foreign keys, unless both are on a many side. -/
def holderOf? (first second : Neighbor) : Option Node :=
  match Shape.classify first.card second.card with
  | .manyToMany => none
  | .oneToMany .first => some first.node
  | .oneToMany .second => some second.node
  | .oneToOne => some first.node

/-- The entities whose tables take the attributes of the relationship. -/
def holders (index : Adjacency) (links : List Ownership) (relationship : Node) : List Node :=
  let participants := index.entityNeighbors relationship.id
  let nodes := participants.map (·.node)
  if isIdentifying relationship nodes then dependents relationship nodes links
  else
    match participants with
    | [first, second] => (holderOf? first second).toList
    | _ => []

def needsJunction (index : Adjacency) (relationship : Node) : Bool :=
  let participants := index.entityNeighbors relationship.id
  !isIdentifying relationship (participants.map (·.node)) &&
    match participants with
    | [] | [_] => false
    | [first, second] => (holderOf? first second).isNone
    | _ => true

def junctionOf (index : Adjacency) (tables : TableMap) (relationship : Node) : Table :=
  junctionTable relationship (index.attributesOf relationship)
    ((index.entityNeighbors relationship.id).map (·.node)) tables

def derivedBy (index : Adjacency) (links : List Ownership) (tables : TableMap)
    (relationship : Node) : List Table :=
  let attributes := index.attributesOf relationship
  if needsJunction index relationship then
    let table := junctionOf index tables relationship
    table :: attributes.multivalued.map table.multivalued
  else (holders index links relationship).flatMap (valueTables attributes tables)

/-- A relationship that joins fewer than two entities, and one that is decided by
the order of its participants. -/
def relationshipProblems (index : Adjacency) (relationship : Node) : List Diagnostic :=
  let participants := index.entityNeighbors relationship.id
  if isIdentifying relationship (participants.map (·.node)) then []
  else
    match participants with
    | [] | [_] => [.unresolvableRelationship relationship.name participants.length]
    | [first, second] =>
        if Shape.classify first.card second.card = .oneToOne then
          [.oneToOneDirection relationship.name first.node.name second.node.name]
        else []
    | _ => []

@[simp] theorem report_tables (state : Resolution) (diagnostics : List Diagnostic) :
    (state.report diagnostics).tables = state.tables :=
  rfl

theorem valueTables_congr {left right : TableMap} (same : SameKeys left right)
    (attributes : Attributes) : valueTables attributes right = valueTables attributes left := by
  funext holder
  have related := same holder.id
  unfold valueTables
  generalize left.get? holder.id = old at related ⊢
  generalize right.get? holder.id = new at related ⊢
  cases related with
  | none => rfl
  | some both =>
      exact List.map_congr_left fun name _ => Table.multivalued_congr both.1 both.2 name

theorem junctionOf_congr {left right : TableMap} (same : SameKeys left right)
    (index : Adjacency) (relationship : Node) :
    junctionOf index right relationship = junctionOf index left relationship :=
  junctionTable_congr (fun participant _ => same.primaryKey_eq participant.id) relationship _

theorem derivedBy_congr {left right : TableMap} (same : SameKeys left right)
    (index : Adjacency) (links : List Ownership) (relationship : Node) :
    derivedBy index links right relationship = derivedBy index links left relationship := by
  simp only [derivedBy, junctionOf_congr same, valueTables_congr same]

/-! ## The states that come from one another -/

/-- From one state to another these tables are derived and these findings
reported, and no key changes. -/
structure Adds (derived : List Table) (found : List Diagnostic) (before after : Resolution) :
    Prop where
  tables : GrowsOutsideKeys before.tables after.tables
  derived : after.derived = before.derived ++ derived
  diagnostics : after.diagnostics = before.diagnostics ++ found

namespace Adds

theorem refl (state : Resolution) : Adds [] [] state state :=
  ⟨.refl .refl state.tables, (List.append_nil _).symm, (List.append_nil _).symm⟩

theorem trans {first second third : Resolution} {derived more : List Table}
    {found further : List Diagnostic} (earlier : Adds derived found first second)
    (later : Adds more further second third) :
    Adds (derived ++ more) (found ++ further) first third where
  tables := earlier.tables.trans .trans later.tables
  derived := by rw [later.derived, earlier.derived, List.append_assoc]
  diagnostics := by rw [later.diagnostics, earlier.diagnostics, List.append_assoc]

theorem report (state : Resolution) (diagnostics : List Diagnostic) :
    Adds [] diagnostics state (state.report diagnostics) :=
  ⟨.refl .refl state.tables, (List.append_nil _).symm, rfl⟩

theorem derive (state : Resolution) (tables : List Table) :
    Adds tables [] state (state.derive tables) :=
  ⟨.refl .refl state.tables, rfl, (List.append_nil _).symm⟩

theorem foldKey (state : Resolution) (holder target : Node) (role : String) :
    Adds [] [] state (state.foldKey holder target role) where
  tables := .modify .refl fun table _ => Table.appends_foreignKeys (fun _ _ _ => rfl) role table
  derived := (List.append_nil _).symm
  diagnostics := (List.append_nil _).symm

theorem foldAttributes (state : Resolution) (relationship : Node) (attributes : Attributes)
    (holder : Node) :
    Adds (valueTables attributes state.tables holder) [] state
      (state.foldAttributes relationship attributes holder) := by
  cases found : state.tables.get? holder.id with
  | none => simpa [Resolution.foldAttributes, valueTables, found] using refl state
  | some table =>
      let extended := table.receive relationship attributes.stored
      have appends : table.Appends (fun column => column.isKey = false) extended :=
        Table.appends_receive (fun _ => rfl) relationship attributes.stored table
      have values : attributes.multivalued.map extended.multivalued =
          attributes.multivalued.map table.multivalued :=
        List.map_congr_left fun name _ => Table.multivalued_congr appends.name
          (appends.primaryKey_eq fun _ plain => plain) name
      simp only [Resolution.foldAttributes, valueTables, found]
      refine ⟨.modify .refl fun same foundSame => ?_, congrArg _ values,
        (List.append_nil _).symm⟩
      obtain rfl : table = same := Option.some.inj (found.symm.trans foundSame)
      exact appends

theorem pushJunction (state : Resolution) (relationship : Node) (attributes : Attributes)
    (participants : List Node) :
    let table := junctionTable relationship attributes participants state.tables
    Adds (table :: attributes.multivalued.map table.multivalued) [] state
      (state.pushJunction relationship attributes participants) :=
  derive state _

theorem foldInto (state : Resolution) (relationship : Node) (attributes : Attributes)
    (holder target : Node) (role : String) :
    Adds (valueTables attributes state.tables holder) [] state
      (state.foldInto relationship attributes holder target role) := by
  let keyed := state.foldKey holder target (if holder.id = target.id then role else "")
  have key : Adds [] [] state keyed := foldKey state holder target _
  have values := foldAttributes keyed relationship attributes holder
  rw [valueTables_congr key.tables.sameKeys] at values
  exact key.trans values

/-- A fold adds what its steps add, each read off the tables it began with. -/
theorem foldl {α : Type} {step : Resolution → α → Resolution}
    {derivedOf : TableMap → α → List Table} {foundOf : α → List Diagnostic}
    (each : ∀ state item, Adds (derivedOf state.tables item) (foundOf item) state
      (step state item))
    (congr : ∀ {left right}, SameKeys left right → derivedOf right = derivedOf left)
    (items : List α) (state : Resolution) :
    Adds (items.flatMap (derivedOf state.tables)) (items.flatMap foundOf) state
      (items.foldl step state) := by
  induction items generalizing state with
  | nil => exact refl state
  | cons item rest induction =>
      have first := each state item
      have others := induction (step state item)
      rw [congr first.tables.sameKeys] at others
      exact first.trans others

theorem foldl_foldAttributes (relationship : Node) (attributes : Attributes)
    (holders : List Node) (state : Resolution) :
    Adds (holders.flatMap (valueTables attributes state.tables)) [] state
      (holders.foldl (fun state holder => state.foldAttributes relationship attributes holder)
        state) := by
  have nothing : (holders.flatMap fun _ => ([] : List Diagnostic)) = [] := by simp
  exact nothing ▸ foldl (fun state => foldAttributes state relationship attributes)
    (valueTables_congr · attributes) holders state

theorem resolveBinary (state : Resolution) (relationship : Node) (attributes : Attributes)
    (first second : Neighbor) :
    Adds
      (if (holderOf? first second).isNone then
        let table := junctionTable relationship attributes [first.node, second.node] state.tables
        table :: attributes.multivalued.map table.multivalued
      else (holderOf? first second).toList.flatMap (valueTables attributes state.tables))
      (if Shape.classify first.card second.card = .oneToOne then
        [.oneToOneDirection relationship.name first.node.name second.node.name]
      else [])
      state (state.resolveBinary relationship attributes first second) := by
  unfold Resolution.resolveBinary holderOf?
  cases Shape.classify first.card second.card with
  | manyToMany => exact pushJunction state relationship attributes _
  | oneToMany side =>
      cases side with
      | first => simpa using foldInto state relationship attributes first.node second.node _
      | second => simpa using foldInto state relationship attributes second.node first.node _
  | oneToOne =>
      have told := report state
        [.oneToOneDirection relationship.name first.node.name second.node.name]
      have folded := foldInto (state.report [.oneToOneDirection relationship.name first.node.name
        second.node.name]) relationship attributes first.node second.node spouseRole
      simpa using told.trans folded

theorem resolveOne (index : Adjacency) (links : List Ownership) (state : Resolution)
    (relationship : Node) :
    Adds (derivedBy index links state.tables relationship)
      (index.attributeProblems relationship ++ relationshipProblems index relationship) state
      (Resolution.resolveOne index links state relationship) := by
  let told := state.report (index.attributeProblems relationship)
  let attributes := index.attributesOf relationship
  have start : Adds [] (index.attributeProblems relationship) state told := report state _
  unfold Resolution.resolveOne derivedBy relationshipProblems needsJunction holders junctionOf
  generalize index.entityNeighbors relationship.id = participants
  let nodes := participants.map (·.node)
  dsimp only
  by_cases identifying : isIdentifying relationship (participants.map (·.node)) = true
  · simp only [identifying, Bool.not_true, Bool.false_and, Bool.false_eq_true, if_false, if_true]
    exact start.trans
      (foldl_foldAttributes relationship attributes (dependents relationship nodes links) told)
  · simp only [identifying, Bool.false_eq_true, if_false, Bool.not_false, Bool.true_and]
    rcases participants with _ | ⟨first, _ | ⟨second, _ | ⟨third, rest⟩⟩⟩
    · exact start.trans (report told _)
    · exact start.trans (report told _)
    · exact start.trans (resolveBinary told relationship attributes first second)
    · exact start.trans (pushJunction told relationship attributes _)

theorem foldl_resolveOne (index : Adjacency) (links : List Ownership)
    (relationships : List Node) (state : Resolution) :
    Adds (relationships.flatMap (derivedBy index links state.tables))
      (relationships.flatMap fun relationship =>
        index.attributeProblems relationship ++ relationshipProblems index relationship)
      state (relationships.foldl (Resolution.resolveOne index links) state) :=
  foldl (fun state relationship => resolveOne index links state relationship)
    (fun same => funext (derivedBy_congr same index links)) relationships state

end Adds

/-! ## Which tables are derived -/

theorem mem_valueTables {attributes : Attributes} {tables : TableMap} {holder : Node}
    {table : Table} (member : table ∈ valueTables attributes tables holder) :
    ∃ owner ∈ tables.toTables, ∃ name, table = owner.multivalued name := by
  unfold valueTables at member
  split at member
  case h_1 => exact absurd member List.not_mem_nil
  case h_2 owner found =>
    rcases List.mem_map.mp member with ⟨name, _, rfl⟩
    exact ⟨owner, TableMap.mem_toTables_of_get? found, name, rfl⟩

theorem junctionOf_kind (index : Adjacency) (tables : TableMap) (relationship : Node) :
    (junctionOf index tables relationship).kind = .junction :=
  junctionTable_kind ..

/-- A derived table is the junction of a relationship that needs one, or holds
the values of an attribute beside the key of its owner. -/
theorem mem_derivedBy {index : Adjacency} {links : List Ownership} {tables : TableMap}
    {relationship : Node} {table : Table}
    (member : table ∈ derivedBy index links tables relationship) :
    table = junctionOf index tables relationship ∨
      ∃ owner, (owner ∈ tables.toTables ∨ owner = junctionOf index tables relationship ∧
          owner ∈ derivedBy index links tables relationship) ∧
        ∃ name, table = owner.multivalued name := by
  unfold derivedBy at member ⊢
  dsimp only at member ⊢
  split at member
  case isTrue needed =>
    rw [if_pos needed]
    rcases List.mem_cons.mp member with junction | value
    · exact .inl junction
    · rcases List.mem_map.mp value with ⟨name, _, rfl⟩
      exact .inr ⟨_, .inr ⟨rfl, List.mem_cons_self⟩, name, rfl⟩
  case isFalse =>
    rcases List.mem_flatMap.mp member with ⟨holder, _, value⟩
    rcases mem_valueTables value with ⟨owner, isOwner, name, equal⟩
    exact .inr ⟨owner, .inl isOwner, name, equal⟩

theorem junctions_derivedBy (index : Adjacency) (links : List Ownership) (tables : TableMap)
    (relationship : Node) :
    (derivedBy index links tables relationship).filter (·.kind = .junction) =
      if needsJunction index relationship then [junctionOf index tables relationship] else [] := by
  unfold derivedBy
  dsimp only
  split
  case isTrue =>
    rw [List.filter_cons_of_pos (by simp [junctionOf_kind]), List.filter_eq_nil_iff.mpr]
    intro table member
    rcases List.mem_map.mp member with ⟨name, _, rfl⟩
    simp
  case isFalse =>
    rw [List.filter_eq_nil_iff]
    intro table member
    rcases List.mem_flatMap.mp member with ⟨holder, _, value⟩
    rcases mem_valueTables value with ⟨owner, _, name, rfl⟩
    simp

theorem junctions_flatMap_derivedBy (index : Adjacency) (links : List Ownership)
    (tables : TableMap) (relationships : List Node) :
    (relationships.flatMap (derivedBy index links tables)).filter (·.kind = .junction) =
      (relationships.filter (needsJunction index)).map (junctionOf index tables) := by
  induction relationships with
  | nil => rfl
  | cons relationship rest induction =>
      rw [List.flatMap_cons, List.filter_append, induction, junctions_derivedBy,
        List.filter_cons]
      split <;> simp

end Resolution

/-! ## The columns of a multivalued table -/

namespace Table

theorem pushAll_of_nodup {table : Table} {columns : List Column}
    (distinct : (table.names ++ columns.map Column.name).Nodup) :
    table.pushAll columns = { table with columns := table.columns ++ columns } := by
  induction columns generalizing table with
  | nil => simp [pushAll]
  | cons column rest induction =>
      have free : column.name ∉ table.names := fun taken =>
        (List.nodup_append.mp distinct).2.2 _ taken _ List.mem_cons_self rfl
      change (table.push column).pushAll rest = _
      rw [push_of_not_mem free, induction]
      · simp
      · simpa [names] using distinct

/-- The whole key of the owner, in its order, and one column for the value. -/
theorem columns_multivalued {owner : Table} (distinct : owner.keyNames.Nodup)
    (attributeName : String) :
    ∃ value, (owner.multivalued attributeName).columns =
      owner.primaryKey.map (fun key => .inheritedKey key.name owner.name) ++ [.key value] := by
  let keyed : Table := (empty (owner.name ++ "_" ++ attributeName) .multivalued).pushAll
    (owner.primaryKey.map fun key => .inheritedKey key.name owner.name)
  let value := keyed.uniqueName attributeName valueQualifier
  have free : value ∉ keyed.names := keyed.uniqueName_free _ _
  have inherited : keyed.columns =
      owner.primaryKey.map fun key => .inheritedKey key.name owner.name := by
    have names : ((owner.primaryKey.map fun key =>
        Column.inheritedKey key.name owner.name).map Column.name).Nodup := by
      simpa [Column.inheritedKey, Function.comp_def, keyNames] using distinct
    exact congrArg Table.columns (pushAll_of_nodup (by simpa [empty, Table.names] using names))
  refine ⟨value, ?_⟩
  have appended : keyed.push (.key value) =
      { keyed with columns := keyed.columns ++ [.key value] } := push_of_not_mem free
  change (keyed.push (.key value)).columns = _
  rw [appended, ← inherited]

theorem Regular.nodup_keyNames {table : Table} (regular : table.Regular) :
    table.keyNames.Nodup :=
  regular.distinct.sublist (List.filter_sublist.map Column.name)

end Table

theorem regular_junctionTable (relationship : Node) (attributes : Attributes)
    (participants : List Node) (tables : TableMap) :
    (junctionTable relationship attributes participants tables).Regular := by
  let all := Junction.candidates attributes participants tables
  have empty : (Table.empty relationship.name .junction).Regular :=
    ⟨List.nodup_nil, fun _ member => absurd member List.not_mem_nil⟩
  apply List.foldlRecOn (motive := Table.Regular) (all.map (Junction.qualify all)) _ empty
  intro table regular column member
  refine regular.push fun foreign => ?_
  rcases List.mem_map.mp member with ⟨candidate, isCandidate, rfl⟩
  rcases Junction.qualify_renamed all candidate with ⟨name, renamed⟩
  rw [renamed] at foreign ⊢
  rcases List.mem_append.mp isCandidate with own | imported
  · rcases List.mem_append.mp own with key | plain
    · rcases List.mem_map.mp key with ⟨_, _, rfl⟩
      rfl
    · rcases List.mem_map.mp plain with ⟨_, _, rfl⟩
      exact absurd foreign Bool.false_ne_true
  · rcases Junction.mem_importedKeys imported with ⟨_, _, _, _, rfl⟩
    rfl

/-- A table of values has the whole key of its owner, a table of the same schema,
in its order, and then one key column for the value. -/
def Schema.ValuesAreKeyed (schema : Schema) : Prop :=
  ∀ table ∈ schema.tables, table.kind = .multivalued →
    ∃ owner ∈ schema.tables, ∃ attributeName value,
      table = owner.multivalued attributeName ∧
        table.columns =
          owner.primaryKey.map (fun key => .inheritedKey key.name owner.name) ++ [.key value]

/-! ## Findings by what reports them -/

namespace Diagnostic

def isMissingPrimaryKey : Diagnostic → Bool
  | .missingPrimaryKey _ => true
  | _ => false

end Diagnostic

namespace Adjacency

theorem mem_problems {diagram : Diagram} {found : Diagnostic}
    (member : found ∈ problems diagram) :
    (∃ id, found = .duplicateNode id) ∨ ∃ place id, found = .missingEndpoint place id := by
  rcases List.mem_append.mp member with repeated | missing
  · rcases List.mem_map.mp repeated with ⟨node, _, rfl⟩
    exact .inl ⟨_, rfl⟩
  · rcases List.mem_filterMap.mp missing with ⟨⟨edge, place⟩, _, made⟩
    rcases Option.map_eq_some_iff.mp made with ⟨id, _, rfl⟩
    exact .inr ⟨place, id, rfl⟩

theorem mem_attributeProblems {index : Adjacency} {owner : Node} {found : Diagnostic}
    (member : found ∈ index.attributeProblems owner) :
    ∃ name, found = .attributeCycle owner.name name := by
  rcases List.mem_map.mp member with ⟨⟨_, met⟩, _, rfl⟩
  exact ⟨met.name, rfl⟩

theorem mem_hierarchyProblems {index : Adjacency} {found : Diagnostic}
    (member : found ∈ index.hierarchyProblems) :
    ∃ name entities, found = .unresolvableHierarchy name entities := by
  rcases List.mem_map.mp member with ⟨isa, _, rfl⟩
  exact ⟨_, _, rfl⟩

end Adjacency

theorem Resolution.mem_relationshipProblems {index : Adjacency} {relationship : Node}
    {found : Diagnostic} (member : found ∈ relationshipProblems index relationship) :
    (∃ name count, found = .unresolvableRelationship name count) ∨
      ∃ name holder target, found = .oneToOneDirection name holder target := by
  unfold relationshipProblems at member
  dsimp only at member
  split at member
  · exact absurd member List.not_mem_nil
  · split at member
    · exact .inl ⟨_, _, List.mem_singleton.mp member⟩
    · exact .inl ⟨_, _, List.mem_singleton.mp member⟩
    · split at member
      · exact .inr ⟨_, _, _, List.mem_singleton.mp member⟩
      · exact absurd member List.not_mem_nil
    · exact absurd member List.not_mem_nil

namespace Derivation

/-! ## Tables and findings of a derivation

`final` are the entity tables of the schema. -/

def relationshipsOf (index : Adjacency) : List Node :=
  index.nodes.filter (·.isRelationship)

def limitProblems (index : Adjacency) (limit : Option Nat) : List Diagnostic :=
  if (settled index limit).stopped then [.propagationLimit (passLimit index limit)] else []

/-- What is reported after the graph is known. -/
def laterProblems (index : Adjacency) (limit : Option Nat) : List Diagnostic :=
  index.entities.flatMap index.attributeProblems ++ index.hierarchyProblems ++
    limitProblems index limit ++
    index.entities.filterMap (missingKey? (settled index limit).tables) ++
    (relationshipsOf index).flatMap fun relationship =>
      index.attributeProblems relationship ++ Resolution.relationshipProblems index relationship

theorem mem_limitProblems {index : Adjacency} {limit : Option Nat} {found : Diagnostic}
    (member : found ∈ limitProblems index limit) :
    found = .propagationLimit (passLimit index limit) := by
  unfold limitProblems at member
  split at member
  · exact List.mem_singleton.mp member
  · exact absurd member List.not_mem_nil

theorem missingKey?_eq_some {tables : TableMap} {entity : Node} {found : Diagnostic}
    (made : missingKey? tables entity = some found) :
    found = .missingPrimaryKey entity.name := by
  unfold missingKey? at made
  split at made
  · cases made
  · split at made <;> cases made
    rfl

section
variable (index : Adjacency) (limit : Option Nat)

theorem adds_resolution :
    Resolution.Adds
      ((relationshipsOf index).flatMap
        (Resolution.derivedBy index index.ownerships (settled index limit).tables))
      ((relationshipsOf index).flatMap fun relationship =>
        index.attributeProblems relationship ++ Resolution.relationshipProblems index relationship)
      ⟨(settled index limit).tables, [], []⟩ (resolution index limit) :=
  Resolution.Adds.foldl_resolveOne index index.ownerships (relationshipsOf index)
    ⟨(settled index limit).tables, [], []⟩

theorem sameKeys_resolution :
    SameKeys (settled index limit).tables (resolution index limit).tables :=
  (adds_resolution index limit).tables.sameKeys

end

theorem diagnostics_ofDiagram (diagram : Diagram) (limit : Option Nat) :
    (ofDiagram diagram limit).diagnostics =
      Adjacency.problems diagram ++ laterProblems (Adjacency.ofDiagram diagram) limit := by
  have found := (adds_resolution (Adjacency.ofDiagram diagram) limit).diagnostics
  simp only [List.nil_append] at found
  simp only [laterProblems, limitProblems, ← List.append_assoc, ← found]
  rfl

/-- Findings about whole entities and hierarchies are reported in two places only. -/
theorem filter_diagnostics_ofDiagram (diagram : Diagram) (limit : Option Nat)
    {wanted : Diagnostic → Bool}
    (only : ∀ found, wanted found = true →
      (∃ name entities, found = .unresolvableHierarchy name entities) ∨
        ∃ name, found = .missingPrimaryKey name) :
    let index := Adjacency.ofDiagram diagram
    (ofDiagram diagram limit).diagnostics.filter wanted =
      index.hierarchyProblems.filter wanted ++
        (index.entities.filterMap (missingKey? (settled index limit).tables)).filter wanted := by
  intro index
  have none (group : List Diagnostic)
      (other : ∀ found ∈ group, (∀ name entities, found ≠ .unresolvableHierarchy name entities) ∧
        ∀ name, found ≠ .missingPrimaryKey name) : group.filter wanted = [] := by
    apply List.filter_eq_nil_iff.mpr
    intro found member isWanted
    rcases only found isWanted with ⟨name, entities, same⟩ | ⟨name, same⟩
    · exact (other found member).1 name entities same
    · exact (other found member).2 name same
  rw [diagnostics_ofDiagram, laterProblems]
  simp only [List.filter_append]
  rw [none (Adjacency.problems diagram), none (index.entities.flatMap _),
    none (limitProblems index limit), none ((relationshipsOf index).flatMap _)]
  · simp only [List.nil_append, List.append_nil]
    rfl
  · intro found member
    rcases List.mem_flatMap.mp member with ⟨relationship, _, listed⟩
    rcases List.mem_append.mp listed with cycle | problem
    · rcases Adjacency.mem_attributeProblems cycle with ⟨_, rfl⟩
      simp
    · rcases Resolution.mem_relationshipProblems problem with ⟨_, _, rfl⟩ | ⟨_, _, _, rfl⟩ <;> simp
  · intro found member
    simp [mem_limitProblems member]
  · intro found member
    rcases List.mem_flatMap.mp member with ⟨entity, _, cycle⟩
    rcases Adjacency.mem_attributeProblems cycle with ⟨_, rfl⟩
    simp
  · intro found member
    rcases Adjacency.mem_problems member with ⟨_, rfl⟩ | ⟨_, _, rfl⟩ <;> simp

/-- Missing keys are reported in one place only. -/
theorem filter_isMissingPrimaryKey (diagram : Diagram) (limit : Option Nat) :
    let index := Adjacency.ofDiagram diagram
    (ofDiagram diagram limit).diagnostics.filter (·.isMissingPrimaryKey) =
      index.entities.filterMap (missingKey? (settled index limit).tables) := by
  intro index
  rw [filter_diagnostics_ofDiagram, List.filter_eq_nil_iff.mpr, List.filter_eq_self.mpr,
    List.nil_append]
  · intro found member
    rcases List.mem_filterMap.mp member with ⟨entity, _, made⟩
    rw [missingKey?_eq_some made]
    rfl
  · intro found member
    rcases Adjacency.mem_hierarchyProblems member with ⟨_, _, rfl⟩
    exact Bool.false_ne_true
  · intro found wanted
    cases found with
    | missingPrimaryKey name => exact .inr ⟨name, rfl⟩
    | _ => cases wanted

/-- All derived tables, read off the final ones. -/
theorem tables_ofDiagram_final (diagram : Diagram) (limit : Option Nat) :
    let index := Adjacency.ofDiagram diagram
    let final := (resolution index limit).tables
    (ofDiagram diagram limit).schema.tables =
      final.toTables ++ index.entities.flatMap (multivaluedTables index final) ++
        (relationshipsOf index).flatMap
          (Resolution.derivedBy index index.ownerships final) := by
  intro index final
  have same := sameKeys_resolution index limit
  have derived := (adds_resolution index limit).derived
  have values (entity : Node) : multivaluedTables index final entity =
      multivaluedTables index (settled index limit).tables entity :=
    congrFun (Resolution.valueTables_congr same _) entity
  rw [tables_ofDiagram, funext values, funext (Resolution.derivedBy_congr same _ _), derived,
    List.nil_append]

section
variable {index : Adjacency} (wellFormed : index.WellFormed) (limit : Option Nat)
include wellFormed

theorem nodup_keyNames_of_mem_final {owner : Table}
    (member : owner ∈ (resolution index limit).tables.toTables) : owner.keyNames.Nodup := by
  rcases (adds_resolution index limit).tables.exists_before member with
    ⟨earlier, isEarlier, appends⟩
  have regular : (settled index limit).tables.Regular :=
    (inherits_settled index limit).regular (ready_baseTables wellFormed).regular
  rw [Table.keyNames, appends.primaryKey_eq fun _ plain => plain]
  exact (regular earlier isEarlier).nodup_keyNames

theorem missingKeys_final :
    index.entities.filterMap (missingKey? (settled index limit).tables) =
      (index.entities.filter fun entity =>
        ((resolution index limit).tables.primaryKey entity.id).isEmpty).map fun entity =>
          .missingPrimaryKey entity.name := by
  rw [← List.filterMap_eq_map, List.filterMap_filter]
  refine List.filterMap_congr fun entity member => ?_
  rw [(sameKeys_resolution index limit).primaryKey_eq]
  rcases (inherits_settled index limit).get?_some (get?_baseTables wellFormed member) with
    ⟨table, found, _⟩
  simp [missingKey?, found, TableMap.primaryKey_of_get? found]

omit wellFormed in
theorem exists_owner_of_multivalued {diagram : Diagram} {table : Table}
    (member : table ∈ (ofDiagram diagram limit).schema.tables)
    (multivalued : table.kind = .multivalued) :
    ∃ owner ∈ (ofDiagram diagram limit).schema.tables, owner.keyNames.Nodup ∧
      ∃ name, table = owner.multivalued name := by
  let index := Adjacency.ofDiagram diagram
  let final := (resolution index limit).tables
  have wellFormed : index.WellFormed := Adjacency.wellFormed_ofDiagram diagram
  rw [tables_ofDiagram_final] at member ⊢
  have entity (owner : Table) (isOwner : owner ∈ final.toTables) :
      owner ∈ final.toTables ++ index.entities.flatMap (multivaluedTables index final) ++
        (relationshipsOf index).flatMap (Resolution.derivedBy index index.ownerships final) ∧
          owner.keyNames.Nodup :=
    ⟨List.mem_append_left _ (List.mem_append_left _ isOwner),
      nodup_keyNames_of_mem_final wellFormed limit isOwner⟩
  rcases List.mem_append.mp member with front | derived
  · rcases List.mem_append.mp front with own | values
    · rcases exists_left_of_forall₂ (forall₂_resolution wellFormed limit) own with
        ⟨_, _, _, kind, _⟩
      exact absurd (kind.symm.trans multivalued) (by decide)
    · rcases List.mem_flatMap.mp values with ⟨holder, _, value⟩
      rcases Resolution.mem_valueTables value with ⟨owner, isOwner, name, equal⟩
      exact ⟨owner, (entity owner isOwner).1, (entity owner isOwner).2, name, equal⟩
  · rcases List.mem_flatMap.mp derived with ⟨relationship, isRelationship, listed⟩
    rcases Resolution.mem_derivedBy listed with rfl | ⟨owner, source, name, equal⟩
    · exact absurd ((Resolution.junctionOf_kind ..).symm.trans multivalued) (by decide)
    · rcases source with isOwner | ⟨rfl, isListed⟩
      · exact ⟨owner, (entity owner isOwner).1, (entity owner isOwner).2, name, equal⟩
      · exact ⟨_, List.mem_append_right _ (List.mem_flatMap.mpr ⟨_, isRelationship, isListed⟩),
          (regular_junctionTable ..).nodup_keyNames, name, equal⟩

end

/-- Resolving relationships, whatever tables it begins with, only appends columns
outside the keys, so each junction table is the one that the final tables give,
and the one that the tables after any other relationships give. In the schema of
a diagram the same is true of all derived tables and of the missing keys. -/
theorem derived_agree_with_final :
    (∀ (index : Adjacency) (tables : TableMap),
      let resolved := Resolution.resolveAll index tables
      GrowsOutsideKeys tables resolved.tables ∧
        resolved.derived.filter (·.kind = .junction) =
          ((relationshipsOf index).filter (Resolution.needsJunction index)).map
            (Resolution.junctionOf index resolved.tables) ∧
        ∀ (others : List Node) (relationship : Node),
          Resolution.junctionOf index (others.foldl
              (Resolution.resolveOne index index.ownerships) ⟨tables, [], []⟩).tables relationship =
            Resolution.junctionOf index resolved.tables relationship) ∧
    ∀ (diagram : Diagram) (limit : Option Nat),
      let index := Adjacency.ofDiagram diagram
      let derivation := ofDiagram diagram limit
      let final := (resolution index limit).tables
      (derivation.schema.baseTables = final.toTables ∧ final.ids = index.entities.map Node.id) ∧
        derivation.schema.tables =
          final.toTables ++ index.entities.flatMap (multivaluedTables index final) ++
            (relationshipsOf index).flatMap
              (Resolution.derivedBy index index.ownerships final) ∧
        derivation.schema.ValuesAreKeyed ∧
        derivation.diagnostics.filter (·.isMissingPrimaryKey) =
          (index.entities.filter fun entity => (final.primaryKey entity.id).isEmpty).map
            fun entity => .missingPrimaryKey entity.name := by
  refine ⟨fun index tables => ?_, fun diagram limit => ?_⟩
  · let after (relationships : List Node) :=
      relationships.foldl (Resolution.resolveOne index index.ownerships) ⟨tables, [], []⟩
    have adds (relationships : List Node) :=
      Resolution.Adds.foldl_resolveOne index index.ownerships relationships ⟨tables, [], []⟩
    have same (relationships : List Node) : SameKeys tables (after relationships).tables :=
      (adds relationships).tables.sameKeys
    refine ⟨(adds (relationshipsOf index)).tables, ?_, fun others relationship => ?_⟩
    · change (after (relationshipsOf index)).derived.filter _ = List.map
        (Resolution.junctionOf index (after (relationshipsOf index)).tables) _
      rw [(adds _).derived, List.nil_append, Resolution.junctions_flatMap_derivedBy,
        funext (Resolution.junctionOf_congr (same _) index)]
    · exact (Resolution.junctionOf_congr (same others) index relationship).trans
        (Resolution.junctionOf_congr (same _) index relationship).symm
  · intro index derivation final
    have wellFormed : index.WellFormed := Adjacency.wellFormed_ofDiagram diagram
    have reached := reached_resolution wellFormed limit
    refine ⟨⟨baseTables_ofDiagram limit diagram, ids_of_reached wellFormed limit reached⟩,
      tables_ofDiagram_final diagram limit, fun table member multivalued => ?_, ?_⟩
    · rcases exists_owner_of_multivalued limit member multivalued with
        ⟨owner, isOwner, distinct, name, rfl⟩
      rcases Table.columns_multivalued distinct name with ⟨value, columns⟩
      exact ⟨owner, isOwner, name, value, rfl, columns⟩
    · rw [filter_isMissingPrimaryKey, missingKeys_final wellFormed]

/-- Students with several addresses each, enrolled in courses; a log has no key. -/
def enrolment : Diagram where
  nodes := [Node.entity "s" "Student", (Node.simpleAttribute "i" "id").primaryKey,
    Node.multivaluedAttribute "m" "email", Node.entity "c" "Course",
    (Node.simpleAttribute "n" "no").primaryKey, Node.entity "l" "Log",
    Node.relationship "e" "Enrolls"]
  edges := [.between "s" "i", .between "s" "m", .between "c" "n",
    (Edge.between "s" "e").withCards "N" "", (Edge.between "e" "c").withCards "" "N"]

theorem derived_agree_with_final_enrolment :
    let derivation := ofDiagram enrolment none
    (∃ table ∈ derivation.schema.tables, table.kind = .multivalued) ∧
      derivation.schema.ValuesAreKeyed := by
  intro derivation
  have tables : derivation.schema.tables.map (·.kind) =
      [.entity, .entity, .entity, .multivalued, .junction] := by cbv
  have multivalued : TableKind.multivalued ∈ derivation.schema.tables.map (·.kind) := by
    rw [tables]
    decide
  exact ⟨List.mem_map.mp multivalued, (derived_agree_with_final.2 enrolment none).2.2.1⟩

end Derivation

end ErSchema
