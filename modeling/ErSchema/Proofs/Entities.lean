import ErSchema.Proofs.KeyFlow

/-! # The entities of a diagram and their first tables

The graph of a diagram has one node for each identifier, and everything that is
found by following connections is one of these nodes. Each entity starts with a
table of its own attributes, so the passes find all the tables they look for. -/

namespace ErSchema

namespace Adjacency

def entities (index : Adjacency) : List Node :=
  index.nodes.filter (·.isEntity)

/-- Identifiers are distinct and links join different nodes. -/
structure WellFormed (index : Adjacency) : Prop where
  distinct : (index.nodes.map Node.id).Nodup
  ends : ∀ link ∈ index.links, link.start ∈ index.nodes ∧ link.finish ∈ index.nodes
  apart : ∀ link ∈ index.links, link.start.id ≠ link.finish.id

theorem linkOf?_eq_some {nodes : List Node} {edge : Edge} {place : Nat} {link : Link}
    (made : linkOf? nodes edge place = some link) :
    find? nodes edge.start = some link.start ∧ find? nodes edge.finish = some link.finish ∧
      edge.start ≠ edge.finish := by
  simp only [linkOf?, Option.bind_eq_bind, Option.bind_eq_some_iff,
    Option.ite_none_left_eq_some] at made
  rcases made with ⟨start, foundStart, finish, foundFinish, apart, equal⟩
  cases equal
  exact ⟨foundStart, foundFinish, apart⟩

theorem id_of_find? {nodes : List Node} {id : String} {node : Node}
    (found : find? nodes id = some node) : node.id = id := by
  simpa using List.find?_some found

theorem wellFormed_ofDiagram (diagram : Diagram) : (ofDiagram diagram).WellFormed where
  distinct := List.pairwise_map.mpr (pairwise_firstBy Node.id diagram.nodes)
  ends link member := by
    rcases List.mem_filterMap.mp member with ⟨⟨edge, place⟩, _, made⟩
    rcases linkOf?_eq_some made with ⟨start, finish, _⟩
    exact ⟨List.mem_of_find?_eq_some start, List.mem_of_find?_eq_some finish⟩
  apart link member := by
    rcases List.mem_filterMap.mp member with ⟨⟨edge, place⟩, _, made⟩
    rcases linkOf?_eq_some made with ⟨start, finish, apart⟩
    rwa [id_of_find? start, id_of_find? finish]

theorem mem_entities {index : Adjacency} {node : Node} :
    node ∈ index.entities ↔ node ∈ index.nodes ∧ node.isEntity = true :=
  List.mem_filter

namespace WellFormed

variable {index : Adjacency} (wellFormed : index.WellFormed)
include wellFormed

theorem distinct_entities : (index.entities.map Node.id).Nodup :=
  wellFormed.distinct.sublist (List.filter_sublist.map Node.id)

theorem eq_of_id_eq {left right : Node} (isLeft : left ∈ index.nodes)
    (isRight : right ∈ index.nodes) (same : left.id = right.id) : left = right :=
  List.inj_on_of_nodup_map wellFormed.distinct isLeft isRight same

theorem eq_of_entity_id_eq {left right : Node} (isLeft : left ∈ index.entities)
    (isRight : right ∈ index.entities) (same : left.id = right.id) : left = right :=
  wellFormed.eq_of_id_eq (mem_entities.mp isLeft).1 (mem_entities.mp isRight).1 same

theorem id_ne_of_kind_ne {left right : Node} (isLeft : left ∈ index.nodes)
    (isRight : right ∈ index.nodes) (different : left.kind ≠ right.kind) :
    left.id ≠ right.id := by
  intro same
  exact different (congrArg Node.kind (wellFormed.eq_of_id_eq isLeft isRight same))

theorem node_of_mem_neighbors {id : String} {neighbor : Neighbor}
    (member : neighbor ∈ index.neighbors id) : neighbor.node ∈ index.nodes := by
  rcases List.mem_filterMap.mp member with ⟨link, isLink, seen⟩
  have ends := wellFormed.ends link isLink
  unfold Link.neighborOf? at seen
  split at seen
  · cases seen
    exact ends.2
  · split at seen
    · cases seen
      exact ends.1
    · cases seen

/-- A link can be followed from either end. -/
theorem mem_neighbors_symm {node : Node} (isNode : node ∈ index.nodes) {neighbor : Neighbor}
    (member : neighbor ∈ index.neighbors node.id) :
    ⟨neighbor.edge, node, neighbor.card, neighbor.ownCard⟩ ∈
      index.neighbors neighbor.node.id := by
  rcases List.mem_filterMap.mp member with ⟨link, isLink, seen⟩
  have ends := wellFormed.ends link isLink
  have apart := wellFormed.apart link isLink
  refine List.mem_filterMap.mpr ⟨link, isLink, ?_⟩
  unfold Link.neighborOf? at seen ⊢
  split at seen
  case isTrue starts =>
    cases seen
    rcases wellFormed.eq_of_id_eq isNode ends.1 starts.symm with rfl
    simp [apart]
  case isFalse =>
    split at seen
    case isTrue finishes =>
      cases seen
      rcases wellFormed.eq_of_id_eq isNode ends.2 finishes.symm with rfl
      simp
    case isFalse => cases seen

theorem node_of_mem_entityNeighbors {id : String} {neighbor : Neighbor}
    (member : neighbor ∈ index.entityNeighbors id) : neighbor.node ∈ index.entities := by
  rcases List.mem_filter.mp member with ⟨isNeighbor, isEntity⟩
  exact mem_entities.mpr ⟨wellFormed.node_of_mem_neighbors isNeighbor, isEntity⟩

theorem participants_subset (id : String) :
    (index.entityNeighbors id).map (·.node) ⊆ index.entities := by
  intro node member
  rcases List.mem_map.mp member with ⟨neighbor, isNeighbor, rfl⟩
  exact wellFormed.node_of_mem_entityNeighbors isNeighbor

theorem ends_of_mem_ownerships {link : Ownership} (member : link ∈ index.ownerships) :
    link.dependent ∈ index.entities ∧ link.owner ∈ index.entities := by
  have listed := (firstBy_sublist _ _).subset member
  rcases List.mem_flatMap.mp listed with ⟨weak, isWeak, through⟩
  rcases List.mem_flatMap.mp through with ⟨connection, _, given⟩
  rcases List.mem_map.mp given with ⟨other, isOther, rfl⟩
  rcases List.mem_filter.mp isWeak with ⟨isNode, weakEntity⟩
  have isEntity := (Bool.and_eq_true_iff.mp weakEntity).1
  exact ⟨mem_entities.mpr ⟨isNode, isEntity⟩,
    wellFormed.node_of_mem_entityNeighbors (List.mem_of_mem_filter isOther)⟩

theorem mem_entities_of_mem_members {isa node : Node} (member : node ∈ index.members isa) :
    node ∈ index.entities := by
  rcases List.mem_map.mp ((firstBy_sublist _ _).subset member) with ⟨neighbor, isNeighbor, rfl⟩
  exact wellFormed.node_of_mem_entityNeighbors isNeighbor

theorem classes_of_mem_hierarchies {hierarchy : Hierarchy}
    (member : hierarchy ∈ index.hierarchies) :
    hierarchy.superclass ∈ index.entities ∧
      ∀ subclass ∈ hierarchy.subclasses, subclass ∈ index.entities := by
  rcases List.mem_filterMap.mp member with ⟨isa, _, found⟩
  simp only [hierarchyOf?, Option.bind_eq_bind, Option.bind_eq_some_iff,
    Option.some.injEq] at found
  rcases found with ⟨place, _, superclass, atPlace, rfl⟩
  exact ⟨wellFormed.mem_entities_of_mem_members (List.mem_of_getElem? atPlace),
    fun _ isSubclass => wellFormed.mem_entities_of_mem_members
      (List.mem_of_mem_eraseIdx isSubclass)⟩

end WellFormed

end Adjacency

/-! ## Inserting tables in turn -/

namespace TableMap

theorem insert_of_not_mem {tables : TableMap} {id : String} (fresh : id ∉ tables.ids)
    (table : Table) : tables.insert id table = ⟨tables.entries ++ [(id, table)]⟩ := by
  rw [← isSome_get?_iff] at fresh
  simp [insert, fresh]

/-- A table inserted again takes the place of the first. -/
theorem insert_of_mem {tables : TableMap} {id : String} (known : id ∈ tables.ids) (table : Table) :
    tables.insert id table = tables.modify id fun _ => table :=
  if_pos (isSome_get?_iff.mpr known)

theorem get?_insert (tables : TableMap) (id other : String) (table : Table) :
    (tables.insert id table).get? other =
      if other = id then some table else tables.get? other := by
  by_cases known : id ∈ tables.ids
  · rcases exists_get?_of_mem_ids known with ⟨found, isFound⟩
    rw [insert_of_mem known, get?_modify, isFound, Option.map_some]
  · rw [insert_of_not_mem known]
    by_cases same : other = id
    · have missing := Option.map_eq_none_iff.mp (get?_of_not_mem known)
      simp [get?, same, missing]
    · simp [get?, same, Ne.symm same]

theorem ids_insert (tables : TableMap) (id : String) (table : Table) :
    (tables.insert id table).ids =
      if id ∈ tables.ids then tables.ids else tables.ids ++ [id] := by
  by_cases known : id ∈ tables.ids
  · rw [insert_of_mem known, ids_modify, if_pos known]
  · rw [insert_of_not_mem known, if_neg known, ids, List.map_append]
    rfl

theorem foldl_insert {α : Type} (idOf : α → String) (tableOf : α → Table) {items : List α}
    {tables : TableMap} (distinct : (tables.ids ++ items.map idOf).Nodup) :
    items.foldl (fun tables item => tables.insert (idOf item) (tableOf item)) tables =
      ⟨tables.entries ++ items.map fun item => (idOf item, tableOf item)⟩ := by
  induction items generalizing tables with
  | nil => simp
  | cons item rest induction =>
      have fresh : idOf item ∉ tables.ids := fun old =>
        (List.nodup_append.mp distinct).2.2 _ old _ List.mem_cons_self rfl
      rw [List.foldl_cons, insert_of_not_mem fresh, induction]
      · simp
      · simpa [ids] using distinct

end TableMap

namespace Table

theorem names_empty (name : String) (kind : TableKind) : (empty name kind).names = [] :=
  rfl

theorem Regular.pushAll {table : Table} (regular : table.Regular) {columns : List Column}
    (foreign : ∀ column ∈ columns, column.isForeign = true → column.isKey = true) :
    (table.pushAll columns).Regular := by
  apply List.foldlRecOn (motive := Regular) columns Table.push regular
  intro found foundRegular column member
  exact foundRegular.push (foreign column member)

/-- Columns pushed after all key columns add to the key only if they are keys. -/
theorem mem_keyNames_pushAll_plain {table : Table} {columns : List Column} {name : String}
    (plain : ∀ column ∈ columns, column.isKey = false) :
    name ∈ (table.pushAll columns).keyNames ↔ name ∈ table.keyNames := by
  induction columns generalizing table with
  | nil => rfl
  | cons column rest induction =>
      have parts := List.forall_mem_cons.mp plain
      change name ∈ ((table.push column).pushAll rest).keyNames ↔ _
      rw [induction parts.2, mem_keyNames_push]
      simp [parts.1]

theorem mem_keyNames_pushAll_key {table : Table} {columns : List Column} {name : String}
    (key : ∀ column ∈ columns, column.isKey = true)
    (allKey : ∀ name, name ∈ table.names ↔ name ∈ table.keyNames) :
    name ∈ (table.pushAll columns).keyNames ↔
      name ∈ table.keyNames ∨ name ∈ columns.map Column.name := by
  induction columns generalizing table with
  | nil => simp [pushAll]
  | cons column rest induction =>
      have parts := List.forall_mem_cons.mp key
      change name ∈ ((table.push column).pushAll rest).keyNames ↔ _
      have next : ∀ name, name ∈ (table.push column).names ↔
          name ∈ (table.push column).keyNames := by
        intro name
        rw [mem_names_push, mem_keyNames_push, allKey]
        simp only [parts.1, true_and]
        have sameColumn := allKey column.name
        grind
      rw [induction parts.2 next, ← next, mem_names_push, allKey, List.map_cons,
        List.mem_cons, or_assoc]

end Table

/-! ## The first tables -/

namespace Derivation

theorem entityTable_split (entity : Node) (attributes : Attributes) :
    entityTable entity attributes =
      ((Table.empty entity.name .entity).pushAll (attributes.primaryKeys.map .key)).pushAll
        (attributes.ordinary.map .plain) :=
  List.foldl_append

theorem mem_names_entityTable {entity : Node} {attributes : Attributes} {name : String} :
    name ∈ (entityTable entity attributes).names ↔
      name ∈ attributes.primaryKeys ∨ name ∈ attributes.ordinary := by
  rw [entityTable_split, Table.mem_names_pushAll, Table.mem_names_pushAll, Table.names_empty]
  simp [Column.key, Column.plain]

theorem mem_keyNames_entityTable {entity : Node} {attributes : Attributes} {name : String} :
    name ∈ (entityTable entity attributes).keyNames ↔ name ∈ attributes.primaryKeys := by
  rw [entityTable_split, Table.mem_keyNames_pushAll_plain, Table.mem_keyNames_pushAll_key]
  · simp [Table.empty, Table.keyNames, Table.primaryKey, Column.key]
  · simp [Column.key]
  · simp [Table.empty, Table.names, Table.keyNames, Table.primaryKey]
  · simp [Column.plain]

theorem regular_entityTable (entity : Node) (attributes : Attributes) :
    (entityTable entity attributes).Regular := by
  have empty : (Table.empty entity.name .entity).Regular :=
    ⟨List.nodup_nil, fun _ member => absurd member List.not_mem_nil⟩
  refine empty.pushAll fun column member foreign => ?_
  rcases List.mem_append.mp member with key | plain
  · rcases List.mem_map.mp key with ⟨name, _, rfl⟩
    rfl
  · rcases List.mem_map.mp plain with ⟨name, _, rfl⟩
    exact absurd foreign Bool.false_ne_true

variable {index : Adjacency}

theorem entries_baseTables (wellFormed : index.WellFormed) :
    (baseTables index).entries = index.entities.map fun entity =>
      (entity.id, entityTable entity (index.attributesOf entity)) := by
  have distinct : (TableMap.empty.ids ++ index.entities.map Node.id).Nodup :=
    wellFormed.distinct_entities
  exact congrArg TableMap.entries (TableMap.foldl_insert Node.id
    (fun entity => entityTable entity (index.attributesOf entity)) distinct)

theorem ids_baseTables (wellFormed : index.WellFormed) :
    (baseTables index).ids = index.entities.map Node.id := by
  simp [TableMap.ids, entries_baseTables wellFormed]

theorem size_baseTables (wellFormed : index.WellFormed) :
    (baseTables index).size = index.entities.length := by
  simp [TableMap.size, entries_baseTables wellFormed]

theorem get?_baseTables (wellFormed : index.WellFormed) {entity : Node}
    (member : entity ∈ index.entities) :
    (baseTables index).get? entity.id =
      some (entityTable entity (index.attributesOf entity)) := by
  have distinct : (baseTables index).ids.Nodup := by
    rw [ids_baseTables wellFormed]
    exact wellFormed.distinct_entities
  refine TableMap.get?_of_mem distinct ?_
  rw [entries_baseTables wellFormed]
  exact List.mem_map_of_mem member

theorem ready_baseTables (wellFormed : index.WellFormed) :
    Ready index.ownerships index.hierarchies (baseTables index) where
  distinct := by
    rw [ids_baseTables wellFormed]
    exact wellFormed.distinct_entities
  regular table member := by
    simp only [TableMap.toTables, entries_baseTables wellFormed, List.map_map] at member
    rcases List.mem_map.mp member with ⟨entity, _, rfl⟩
    exact regular_entityTable entity (index.attributesOf entity)
  dependents link member := by
    rw [ids_baseTables wellFormed]
    exact List.mem_map_of_mem (wellFormed.ends_of_mem_ownerships member).1
  subclasses hierarchy member subclass isSubclass := by
    rw [ids_baseTables wellFormed]
    exact List.mem_map_of_mem
      ((wellFormed.classes_of_mem_hierarchies member).2 subclass isSubclass)

theorem mem_keyNames_baseTables (wellFormed : index.WellFormed) {entity : Node}
    (member : entity ∈ index.entities) {name : String} :
    name ∈ (baseTables index).keyNames entity.id ↔
      name ∈ (index.attributesOf entity).primaryKeys := by
  rw [TableMap.keyNames_of_get? (get?_baseTables wellFormed member), mem_keyNames_entityTable]

theorem mem_names_baseTables (wellFormed : index.WellFormed) {entity : Node}
    (member : entity ∈ index.entities) {name : String} :
    name ∈ (baseTables index).names entity.id ↔
      name ∈ (index.attributesOf entity).primaryKeys ∨
        name ∈ (index.attributesOf entity).ordinary := by
  rw [TableMap.names_of_get? (get?_baseTables wellFormed member), mem_names_entityTable]

end Derivation

end ErSchema
