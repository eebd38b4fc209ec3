import ErSchema.Proofs.FinalTables
import ErSchema.Proofs.Junctions

/-! # Folding a relationship between two entities

A relationship that needs no table of its own changes one table: that of the entity
on the many side, or of the first participant. References to the key of the other
entity come behind the old columns, and the relationship's attributes behind them.
However many relationships fold into a table, each adds all of its columns. -/

namespace ErSchema

/-! ## What a table takes -/

/-- Further columns of those kinds, under names of their own. -/
structure Table.Gains (kinds : List Column) (before after : Table) : Prop where
  distinct : before.names.Nodup → after.names.Nodup
  columns : ∃ added, after.columns = before.columns ++ added ∧
    added.map Column.unnamed = kinds

theorem Table.Gains.refl (table : Table) : table.Gains [] table :=
  ⟨id, [], (List.append_nil _).symm, rfl⟩

theorem Table.Gains.trans {first second third : Table} {kinds more : List Column}
    (earlier : first.Gains kinds second) (later : second.Gains more third) :
    first.Gains (kinds ++ more) third := by
  rcases earlier.columns with ⟨added, columns, rfl⟩
  rcases later.columns with ⟨others, otherColumns, rfl⟩
  refine ⟨fun distinct => later.distinct (earlier.distinct distinct), added ++ others, ?_, ?_⟩
  · rw [otherColumns, columns, List.append_assoc]
  · exact List.map_append

/-- One reference for each key column of the target, then one plain column for each
attribute of the relationship. A name is the wanted one if that is free, and else
qualified by the target or the relationship, and numbered if it has to be. -/
structure Table.TakesFold (relationship target : Node) (role : String) (keys : List Column)
    (attributeNames : List String) (before after : Table) : Prop where
  name : after.name = before.name
  kind : after.kind = before.kind
  distinct : before.names.Nodup → after.names.Nodup
  columns : ∃ references own,
    after.columns = before.columns ++
      references.map (fun name => .foreignKey name target.name) ++ own.map .plain ∧
    NamedInTurn (fun taken key => Table.Qualified taken (role ++ key.name) target.name)
      before.names keys references ∧
    NamedInTurn (fun taken wanted => Table.Qualified taken wanted relationship.name)
      (before.names ++ references) attributeNames own

namespace Table

variable {relationship target : Node} {role : String} {keys : List Column}
  {attributeNames : List String} {before after : Table}

theorem TakesFold.gains
    (takes : before.TakesFold relationship target role keys attributeNames after) :
    before.Gains (keys.map (fun _ => .foreignKey "" target.name) ++
      attributeNames.map fun _ => .plain "") after := by
  rcases takes.columns with ⟨references, own, columns, referenced, stored⟩
  refine ⟨takes.distinct, _, columns.trans (List.append_assoc ..), ?_⟩
  have sameLength {α : Type} {items : List α} {names : List String} (column : Column)
      (length : names.length = items.length) :
      (names.map fun _ => column) = items.map fun _ => column := by
    rw [List.map_const', List.map_const', length]
  rw [List.map_append, List.map_map, List.map_map, ← sameLength _ referenced.length_eq,
    ← sameLength _ stored.length_eq]
  rfl

theorem takesFold_receive (relationship target : Node) (role : String) (keys : List Column)
    (attributeNames : List String) (table : Table) :
    table.TakesFold relationship target role keys attributeNames
      ((keys.foldl (Resolution.pushForeignKey target role) table).receive relationship
        attributeNames) := by
  let keyed := keys.foldl (Resolution.pushForeignKey target role) table
  rcases foldl_push_named (fun taken key => Qualified taken (role ++ key.name) target.name)
      (fun table key => table.uniqueName (role ++ key.name) target.name)
      (fun _ name => .foreignKey name target.name) (fun _ _ => rfl)
      (fun table key => table.qualified_uniqueName (role ++ key.name) target.name)
      Qualified.not_mem keys table with ⟨references, referenced, pushed⟩
  rcases foldl_push_named (fun taken wanted => Qualified taken wanted relationship.name)
      (fun table wanted => table.uniqueName wanted relationship.name)
      (fun _ name => .plain name) (fun _ _ => rfl)
      (fun table wanted => table.qualified_uniqueName wanted relationship.name)
      Qualified.not_mem attributeNames keyed with ⟨own, stored, received⟩
  rw [referenced.zipWith_eq_map fun name => Column.foreignKey name target.name] at pushed
  rw [stored.zipWith_eq_map Column.plain] at received
  change keyed = _ at pushed
  change keyed.receive relationship attributeNames = _ at received
  have keyedNames : keyed.names = table.names ++ references := by
    simp [pushed, names, Function.comp_def, Column.foreignKey]
  have receivedNames :
      (keyed.receive relationship attributeNames).names = table.names ++ references ++ own := by
    rw [received, ← keyedNames]
    simp [names, Function.comp_def, Column.plain]
  rw [keyedNames] at stored
  refine ⟨?_, ?_, fun distinct => ?_, references, own, ?_, referenced, stored⟩
  · rw [received, pushed]
  · rw [received, pushed]
  · rw [receivedNames]
    exact stored.nodup_append Qualified.not_mem
      (referenced.nodup_append Qualified.not_mem distinct)
  · rw [received, pushed]

end Table

/-! ## One relationship -/

theorem Resolution.foldAttributes_of_get? {state : Resolution} {holder : Node} {table : Table}
    (relationship : Node) (attributes : Attributes)
    (found : state.tables.get? holder.id = some table) :
    let after := state.foldAttributes relationship attributes holder
    after.derived = state.derived ++ attributes.multivalued.map
        (table.receive relationship attributes.stored).multivalued ∧
      after.diagnostics = state.diagnostics := by
  simp only [foldAttributes, found]
  exact ⟨rfl, trivial⟩

/-- A relationship between two entities, not both on a many side, that identifies
neither. -/
structure Fold (index : Adjacency) where
  relationship : Node
  first : Neighbor
  second : Neighbor
  participants : index.entityNeighbors relationship.id = [first, second]
  identifiesNone : isIdentifying relationship [first.node, second.node] = false
  single : ¬ (first.card.isMany = true ∧ second.card.isMany = true)

namespace Fold

variable {index : Adjacency} (fold : Fold index)

def hasManySide : Bool := fold.first.card.isMany || fold.second.card.isMany

/-- The entity on the many side, wherever it stands; without one, the first. -/
def holder : Node := if fold.second.card.isMany then fold.second.node else fold.first.node

def target : Node := if fold.second.card.isMany then fold.first.node else fold.second.node

/-- What stands before the key of an entity that refers to itself. -/
def role : String :=
  if fold.first.node.id = fold.second.node.id then
    if fold.hasManySide then supervisorRole else spouseRole
  else ""

def attributes : Attributes := index.attributesOf fold.relationship

def direction : List Diagnostic :=
  if fold.hasManySide then []
  else [.oneToOneDirection fold.relationship.name fold.first.node.name fold.second.node.name]

/-- What a fold does: the holder's table takes it, no other table changes, and each
multivalued attribute gets a table. Without a many side the direction is reported. -/
structure Performed (before after : Resolution) : Prop where
  ids : after.tables.ids = before.tables.ids
  others : ∀ id, id ≠ fold.holder.id → after.tables.get? id = before.tables.get? id
  folded : ∃ old new target, before.tables.get? fold.holder.id = some old ∧
    after.tables.get? fold.holder.id = some new ∧
    before.tables.get? fold.target.id = some target ∧
    old.TakesFold fold.relationship fold.target fold.role target.primaryKey
      fold.attributes.stored new ∧
    after.derived = before.derived ++ fold.attributes.multivalued.map new.multivalued
  reported : after.diagnostics =
    before.diagnostics ++ index.attributeProblems fold.relationship ++ fold.direction

/-- A fold is reported first, then the key is folded, then the attributes. -/
theorem resolveOne_eq (links : List Ownership) (state : Resolution) :
    Resolution.resolveOne index links state fold.relationship =
      ((state.report (index.attributeProblems fold.relationship ++ fold.direction)).foldKey
        fold.holder fold.target fold.role).foldAttributes fold.relationship fold.attributes
          fold.holder := by
  have split : Resolution.resolveOne index links state fold.relationship =
      (state.report (index.attributeProblems fold.relationship)).resolveBinary
        fold.relationship fold.attributes fold.first fold.second := by
    unfold Resolution.resolveOne
    dsimp only
    rw [fold.participants]
    simp only [List.map_cons, List.map_nil, fold.identifiesNone, Bool.false_eq_true, if_false]
    rfl
  rw [split]
  unfold Resolution.resolveBinary Shape.classify
  have single := fold.single
  cases firstMany : fold.first.card.isMany with
  | false =>
      cases secondMany : fold.second.card.isMany with
      | false =>
          simp [Resolution.foldInto, Resolution.report, holder, target, role, direction,
            hasManySide, firstMany, secondMany]
      | true =>
          simp [Resolution.foldInto, Resolution.report, holder, target, role, direction,
            hasManySide, firstMany, secondMany, eq_comm]
  | true =>
      have secondOne : fold.second.card.isMany = false :=
        Bool.eq_false_iff.mpr fun secondMany => fold.single ⟨firstMany, secondMany⟩
      simp [Resolution.foldInto, Resolution.report, holder, target, role, direction,
        hasManySide, firstMany, secondOne]

/-- The table with all that the fold puts behind its columns. -/
def extend (keys : List Column) (table : Table) : Table :=
  (keys.foldl (Resolution.pushForeignKey fold.target fold.role) table).receive
    fold.relationship fold.attributes.stored

theorem get?_resolveOne (links : List Ownership) (state : Resolution) (id : String) :
    (Resolution.resolveOne index links state fold.relationship).tables.get? id =
      if fold.holder.id = id then
        (state.tables.get? id).map (fold.extend (state.tables.primaryKey fold.target.id))
      else state.tables.get? id := by
  rw [resolveOne_eq, Resolution.get?_foldAttributes]
  unfold Resolution.foldKey
  rw [TableMap.get?_modify, Resolution.report_tables]
  by_cases same : fold.holder.id = id
  · rw [if_pos same, if_pos same, if_pos same.symm, Option.map_map, same]
    rfl
  · rw [if_neg same, if_neg same, if_neg (Ne.symm same)]

theorem performed (links : List Ownership) {state : Resolution}
    (first : fold.first.node.id ∈ state.tables.ids)
    (second : fold.second.node.id ∈ state.tables.ids) :
    fold.Performed state (Resolution.resolveOne index links state fold.relationship) := by
  have holderKnown : fold.holder.id ∈ state.tables.ids := by
    unfold holder
    split
    · exact second
    · exact first
  have targetKnown : fold.target.id ∈ state.tables.ids := by
    unfold target
    split
    · exact first
    · exact second
  rcases TableMap.exists_get?_of_mem_ids holderKnown with ⟨old, found⟩
  rcases TableMap.exists_get?_of_mem_ids targetKnown with ⟨target, foundTarget⟩
  let told := state.report (index.attributeProblems fold.relationship ++ fold.direction)
  let keys := state.tables.primaryKey fold.target.id
  have keyed : (told.foldKey fold.holder fold.target fold.role).tables.get? fold.holder.id =
      some (keys.foldl (Resolution.pushForeignKey fold.target fold.role) old) :=
    TableMap.get?_modify_self found _
  have stored := Resolution.foldAttributes_of_get? fold.relationship fold.attributes keyed
  have key : keys = target.primaryKey := TableMap.primaryKey_of_get? foundTarget
  constructor
  · exact (Resolution.Adds.resolveOne index links state fold.relationship).tables.ids_eq
  · intro id other
    rw [get?_resolveOne, if_neg (Ne.symm other)]
  · refine ⟨old, fold.extend keys old, target, found, ?_, foundTarget, ?_, ?_⟩
    · rw [get?_resolveOne, if_pos rfl, found, Option.map_some]
    · rw [key]
      exact Table.takesFold_receive ..
    · rw [resolveOne_eq]
      exact stored.1
  · rw [resolveOne_eq]
    exact stored.2.trans (List.append_assoc ..).symm

/-- The columns of the fold without their names. -/
def columns (tables : TableMap) : List Column :=
  (tables.primaryKey fold.target.id).map (fun _ => .foreignKey "" fold.target.name) ++
    fold.attributes.stored.map fun _ => .plain ""

/-- The columns that folds put into the table of a node. -/
def columnsOf (tables : TableMap) (folds : List (Fold index)) (id : String) : List Column :=
  (folds.filter fun fold => fold.holder.id = id).flatMap (Fold.columns · tables)

theorem columnsOf_cons (tables : TableMap) (folds : List (Fold index)) (id : String) :
    columnsOf tables (fold :: folds) id =
      (if fold.holder.id = id then fold.columns tables else []) ++ columnsOf tables folds id := by
  unfold columnsOf
  rw [List.filter_cons]
  by_cases holds : fold.holder.id = id <;> simp [holds]

theorem columnsOf_congr {left right : TableMap} (same : TableMap.SameKeys left right)
    (folds : List (Fold index)) (id : String) :
    columnsOf right folds id = columnsOf left folds id := by
  simp only [columnsOf, columns, same.primaryKey_eq]

theorem gains_foldl_resolveOne (links : List Ownership) (folds : List (Fold index))
    {state : Resolution} {id : String} {old : Table}
    (found : state.tables.get? id = some old) :
    ∃ new, ((folds.map (·.relationship)).foldl (Resolution.resolveOne index links)
      state).tables.get? id = some new ∧
        old.Gains (columnsOf state.tables folds id) new := by
  induction folds generalizing state old with
  | nil => exact ⟨old, found, .refl old⟩
  | cons fold rest induction =>
      let next := Resolution.resolveOne index links state fold.relationship
      have same : columnsOf next.tables rest id = columnsOf state.tables rest id :=
        columnsOf_congr (Resolution.Adds.resolveOne index links state _).tables.sameKeys rest id
      have step := fold.get?_resolveOne links state id
      by_cases holds : fold.holder.id = id
      · rw [if_pos holds, found, Option.map_some] at step
        rcases induction step with ⟨new, foundNew, gains⟩
        have first := (Table.takesFold_receive fold.relationship fold.target fold.role
          (state.tables.primaryKey fold.target.id) fold.attributes.stored old).gains
        refine ⟨new, foundNew, ?_⟩
        rw [same] at gains
        rw [columnsOf_cons, if_pos holds]
        exact first.trans gains
      · rw [if_neg holds, found] at step
        rcases induction step with ⟨new, foundNew, gains⟩
        refine ⟨new, foundNew, ?_⟩
        rw [same] at gains
        rw [columnsOf_cons, if_neg holds]
        exact gains

end Fold

/-- A relationship that folds changes the table of its holder only, and however many
relationships fold in turn, each table gains all columns of those that it holds, their
keys as they were before the first. -/
theorem folds_add_all (index : Adjacency) (links : List Ownership) :
    (∀ (fold : Fold index) (state : Resolution),
      fold.first.node.id ∈ state.tables.ids → fold.second.node.id ∈ state.tables.ids →
        fold.Performed state (Resolution.resolveOne index links state fold.relationship)) ∧
    ∀ (folds : List (Fold index)) (state : Resolution) (id : String) (old : Table),
      state.tables.get? id = some old →
        ∃ new, ((folds.map (·.relationship)).foldl (Resolution.resolveOne index links)
          state).tables.get? id = some new ∧
            old.Gains (Fold.columnsOf state.tables folds id) new :=
  ⟨fun fold _ => fold.performed links, fun folds _ _ _ => Fold.gains_foldl_resolveOne links folds⟩

/-- Employees supervise others, with a date, and each may have a deputy. -/
def staff : Diagram where
  nodes := [Node.entity "e" "Employee", Node.relationship "s" "Supervises",
    Node.simpleAttribute "d" "since", Node.relationship "p" "Deputizes"]
  edges := [(Edge.between "e" "s").withCards "1" "", (Edge.between "s" "e").withCards "" "N",
    .between "s" "d", .between "e" "p", .between "p" "e"]

def supervision : Fold (Adjacency.ofDiagram staff) where
  relationship := Node.relationship "s" "Supervises"
  first := ⟨0, Node.entity "e" "Employee", .unspecified, .one⟩
  second := ⟨1, Node.entity "e" "Employee", .unspecified, .many⟩
  participants := by cbv
  identifiesNone := by cbv
  single := by decide

def deputizing : Fold (Adjacency.ofDiagram staff) where
  relationship := Node.relationship "p" "Deputizes"
  first := ⟨3, Node.entity "e" "Employee", .unspecified, .unspecified⟩
  second := ⟨4, Node.entity "e" "Employee", .unspecified, .unspecified⟩
  participants := by cbv
  identifiesNone := by cbv
  single := by decide

theorem folds_add_all_staff :
    let index := Adjacency.ofDiagram staff
    let employee := (Table.empty "Employee" .entity).push (.key "id")
    let state : Resolution := ⟨TableMap.empty.insert "e" employee, [], []⟩
    supervision.Performed state (Resolution.resolveOne index [] state supervision.relationship) ∧
      ∃ new, ([supervision.relationship, deputizing.relationship].foldl
          (Resolution.resolveOne index []) state).tables.get? "e" = some new ∧
        employee.Gains [.foreignKey "" "Employee", .plain "", .foreignKey "" "Employee"] new := by
  intro index employee state
  have ids : state.tables.ids = ["e"] := by cbv
  have known : "e" ∈ state.tables.ids := ids ▸ List.mem_cons_self
  have found : state.tables.get? "e" = some employee := by cbv
  have kinds : Fold.columnsOf state.tables [supervision, deputizing] "e" =
      [.foreignKey "" "Employee", .plain "", .foreignKey "" "Employee"] := by cbv
  refine ⟨(folds_add_all index []).1 supervision state known known, ?_⟩
  rw [← kinds]
  exact (folds_add_all index []).2 [supervision, deputizing] state "e" employee found

end ErSchema
