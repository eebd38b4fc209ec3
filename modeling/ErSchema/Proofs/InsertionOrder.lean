import ErSchema.Proofs.Entities

/-! # Tables in the order of insertion

Tables are changed in two ways: a table is inserted under an identifier, or a column is
pushed to the table that is there. What is found under an identifier depends on the edits
of that identifier alone, and the tables stand in the order in which their identifiers
first came. A bare list of tables says no longer whose they are; with an index of places
beside it the same edits can be made there, and the index stays in step with the list. -/

namespace ErSchema

namespace TableMap

/-! ## Edits -/

inductive Edit where
  | insert (id : String) (table : Table)
  | push (id : String) (column : Column)

namespace Edit

def target : Edit → String
  | .insert id _ => id
  | .push id _ => id

def inserted? : Edit → Option String
  | .insert id _ => some id
  | .push _ _ => none

/-- The column that is pushed to the table of this identifier. -/
def pushedTo? (id : String) : Edit → Option Column
  | .insert _ _ => none
  | .push target column => if target = id then some column else none

/-- Where there is no table, a push changes nothing. -/
def perform (tables : TableMap) : Edit → TableMap
  | .insert id table => tables.insert id table
  | .push id column => tables.modify id fun table => table.push column

end Edit

def edited (tables : TableMap) (edits : List Edit) : TableMap :=
  edits.foldl Edit.perform tables

def insertedIds (edits : List Edit) : List String :=
  edits.filterMap Edit.inserted?

/-- Each identifier once, in the order of its first insertion. -/
def insertionOrder (edits : List Edit) : List String :=
  firstBy id (insertedIds edits)

/-- The table is the last one inserted under the identifier, and the columns are those pushed
to it since then. -/
def LastInserted (edits : List Edit) (id : String) (table : Table) (columns : List Column) : Prop :=
  ∃ before after, edits = before ++ .insert id table :: after ∧ id ∉ insertedIds after ∧
    after.filterMap (Edit.pushedTo? id) = columns

/-- Inserted again, a table keeps its place and loses the columns pushed before. -/
example :
    let first := Table.empty "A" .entity
    let second := Table.empty "B" .entity
    (empty.edited [.insert "x" first, .push "x" (.key "k"), .insert "y" second,
      .insert "x" first, .push "x" (.plain "n"), .push "z" (.key "k")]).toTables =
        [first.push (.plain "n"), second] := by
  decide

/-! ## One edit -/

/-- An edit is seen under its own identifier only. -/
theorem get?_perform_of_ne {edit : Edit} {id : String} (other : id ≠ edit.target)
    (tables : TableMap) : (edit.perform tables).get? id = tables.get? id := by
  cases edit with
  | insert target table => exact (get?_insert _ _ _ _).trans (if_neg other)
  | push target column => exact get?_modify_of_ne other _ _

/-! ## A run of edits -/

theorem insertedIds_cons (edit : Edit) (rest : List Edit) :
    insertedIds (edit :: rest) = edit.inserted?.toList ++ insertedIds rest := by
  cases edit <;> rfl

theorem mem_insertionOrder {edits : List Edit} {known : String} :
    known ∈ insertionOrder edits ↔ known ∈ insertedIds edits := by
  have both : known ∈ (insertionOrder edits).map id ↔ known ∈ (insertedIds edits).map id :=
    mem_map_firstBy id
  rwa [List.map_id, List.map_id] at both

/-- The first of a list is known, or it comes behind what is known and is known from there on. -/
theorem append_filter_cons (known rest : List String) (first : String) :
    let next := if first ∈ known then known else known ++ [first]
    known ++ (first :: rest.filter fun later => later ≠ first).filter (fun id => id ∉ known) =
      next ++ rest.filter fun id => id ∉ next := by
  intro next
  by_cases isKnown : first ∈ known
  · have kept : ∀ later ∈ rest, (decide (later ∉ known) && decide (later ≠ first)) =
        decide (later ∉ known) := by
      intro later _
      by_cases same : later = first <;> simp [same, isKnown]
    have unchanged : next = known := if_pos isKnown
    rw [unchanged, List.filter_cons_of_neg (by simpa using isKnown), List.filter_filter,
      List.filter_congr kept]
  · have kept : ∀ later ∈ rest, (decide (later ∉ known) && decide (later ≠ first)) =
        decide (later ∉ known ++ [first]) := by
      intro later _
      simp
    have grown : next = known ++ [first] := if_neg isKnown
    rw [grown, List.filter_cons_of_pos (by simpa using isKnown), List.filter_filter,
      List.filter_congr kept, List.append_assoc]
    rfl

/-- The identifiers that are there stay, and those that are not come in the order of their
first insertion. -/
theorem ids_edited (tables : TableMap) (edits : List Edit) :
    (tables.edited edits).ids =
      tables.ids ++ (insertionOrder edits).filter fun id => id ∉ tables.ids := by
  -- Each edit may make one more identifier known, so the tables at the start are any.
  induction edits generalizing tables with
  | nil => exact (List.append_nil _).symm
  | cons edit rest induction =>
      have next := induction (edit.perform tables)
      cases edit with
      | insert target table =>
          rw [Edit.perform, ids_insert, ← append_filter_cons] at next
          exact next
      | push target column =>
          rw [Edit.perform, ids_modify] at next
          exact next

theorem ids_edited_empty (edits : List Edit) : (empty.edited edits).ids = insertionOrder edits := by
  have all : ∀ id ∈ insertionOrder edits, decide (id ∉ empty.ids) = true := by
    intro id _
    exact decide_eq_true List.not_mem_nil
  rw [ids_edited, List.filter_eq_self.mpr all]
  rfl

/-- Without an insertion, the table of an identifier takes the columns pushed to it. -/
theorem get?_edited_of_not_inserted {edits : List Edit} {id : String}
    (absent : id ∉ insertedIds edits) (tables : TableMap) :
    (tables.edited edits).get? id =
      (tables.get? id).map fun table => table.pushAll (edits.filterMap (Edit.pushedTo? id)) := by
  induction edits generalizing tables with
  | nil => exact Option.map_id'.symm
  | cons edit rest induction =>
      rw [insertedIds_cons, List.mem_append, not_or] at absent
      have next := induction absent.2 (edit.perform tables)
      by_cases here : id = edit.target
      · cases edit with
        | insert target table => exact absurd (List.mem_singleton.mpr here) absent.1
        | push target column =>
            change id = target at here
            subst here
            have pushed : Edit.pushedTo? id (.push id column) = some column := if_pos rfl
            rw [Edit.perform, get?_modify, if_pos rfl, Option.map_map] at next
            rw [List.filterMap_cons_some pushed]
            exact next
      · have unpushed : Edit.pushedTo? id edit = none := by
          cases edit with
          | insert target table => rfl
          | push target column => exact if_neg (Ne.symm here)
        rw [get?_perform_of_ne here] at next
        rw [List.filterMap_cons_none unpushed]
        exact next

theorem LastInserted.get?_edited {edits : List Edit} {id : String} {table : Table}
    {columns : List Column} (last : LastInserted edits id table columns) (tables : TableMap) :
    (tables.edited edits).get? id = some (table.pushAll columns) := by
  rcases last with ⟨before, after, rfl, absent, rfl⟩
  have inserted := get?_insert (tables.edited before) id id table
  have later := get?_edited_of_not_inserted absent ((tables.edited before).insert id table)
  rw [inserted, if_pos rfl, Option.map_some] at later
  rw [edited, List.foldl_append, List.foldl_cons]
  exact later

theorem exists_lastInserted {edits : List Edit} {id : String} (member : id ∈ insertedIds edits) :
    ∃ table columns, LastInserted edits id table columns := by
  induction edits with
  | nil => exact absurd member List.not_mem_nil
  | cons edit rest induction =>
      by_cases later : id ∈ insertedIds rest
      · rcases induction later with ⟨table, columns, before, after, rfl, absent, pushed⟩
        exact ⟨table, columns, edit :: before, after, rfl, absent, pushed⟩
      · rw [insertedIds_cons, List.mem_append] at member
        have here := member.resolve_right later
        cases edit with
        | push target column => exact absurd here List.not_mem_nil
        | insert target table =>
            rw [List.mem_singleton.mp here] at later ⊢
            exact ⟨table, _, [], rest, rfl, later, rfl⟩

theorem get?_edited_eq_none_iff {edits : List Edit} {id : String} :
    (empty.edited edits).get? id = none ↔ id ∉ insertedIds edits := by
  rw [← Option.not_isSome_iff_eq_none, isSome_get?_iff, ids_edited_empty, mem_insertionOrder]

theorem get?_edited_eq_some_iff {edits : List Edit} {id : String} {found : Table} :
    (empty.edited edits).get? id = some found ↔
      ∃ table columns, LastInserted edits id table columns ∧ found = table.pushAll columns := by
  constructor
  · intro isFound
    have member : id ∈ insertedIds edits := by
      by_contra absent
      rw [get?_edited_eq_none_iff.mpr absent] at isFound
      cases isFound
    rcases exists_lastInserted member with ⟨table, columns, last⟩
    exact ⟨table, columns, last, Option.some.inj (isFound.symm.trans (last.get?_edited empty))⟩
  · intro isLast
    rcases isLast with ⟨table, columns, last, rfl⟩
    exact last.get?_edited empty

/-! ## Places -/

theorem length_toTables (tables : TableMap) : tables.toTables.length = tables.ids.length := by
  rw [toTables, ids, List.length_map, List.length_map]

section
variable {tables : TableMap} (distinct : tables.ids.Nodup) {id : String} {place : Nat}
  (here : tables.ids[place]? = some id)
include distinct here

theorem get?_of_place : tables.get? id = tables.toTables[place]? := by
  rw [ids, List.getElem?_map] at here
  rcases Option.map_eq_some_iff.mp here with ⟨⟨_, table⟩, stands, rfl⟩
  rw [get?_of_mem distinct (List.mem_of_getElem? stands), toTables, List.getElem?_map, stands]
  rfl

theorem toTables_modify (change : Table → Table) :
    (tables.modify id change).toTables = tables.toTables.modify place change := by
  rcases tables with ⟨entries⟩
  induction entries generalizing place with
  | nil => cases here
  | cons entry rest induction =>
      have parts := List.nodup_cons.mp distinct
      cases place with
      | zero =>
          have first : entry.1 = id := Option.some.inj here
          rw [modify, modifyEntries, if_pos first]
          rfl
      | succ place =>
          have later : (mk rest).ids[place]? = some id := here
          have different : entry.1 ≠ id := by
            intro same
            rw [← same] at later
            exact parts.1 (List.mem_of_getElem? later)
          have unmoved := induction parts.2 later
          rw [modify, modifyEntries, if_neg different]
          exact congrArg (List.cons entry.2) unmoved

end

end TableMap

/-! ## A list with an index -/

/-- Tables in a list, and the place of each node's table. Nothing ties the two together. -/
structure IndexedTables where
  tables : List Table
  places : Std.HashMap String Nat

namespace IndexedTables

open TableMap (Edit)

def empty : IndexedTables := ⟨[], ∅⟩

def get? (indexed : IndexedTables) (id : String) : Option Table :=
  indexed.places[id]?.bind fun place => indexed.tables[place]?

def insert (indexed : IndexedTables) (id : String) (table : Table) : IndexedTables :=
  match indexed.places[id]? with
  | some place => { indexed with tables := indexed.tables.set place table }
  | none => ⟨indexed.tables ++ [table], indexed.places.insert id indexed.tables.length⟩

def modify (indexed : IndexedTables) (id : String) (change : Table → Table) : IndexedTables :=
  match indexed.places[id]? with
  | some place => { indexed with tables := indexed.tables.modify place change }
  | none => indexed

def perform (indexed : IndexedTables) : Edit → IndexedTables
  | .insert id table => indexed.insert id table
  | .push id column => indexed.modify id fun table => table.push column

def edited (indexed : IndexedTables) (edits : List Edit) : IndexedTables :=
  edits.foldl perform indexed

/-- The list is that of the tables, and the index has the place of each of them and no other. -/
structure Represents (indexed : IndexedTables) (tables : TableMap) : Prop where
  distinct : tables.ids.Nodup
  listed : indexed.tables = tables.toTables
  placed : ∀ (id : String) (place : Nat),
    indexed.places[id]? = some place ↔ tables.ids[place]? = some id

theorem represents_empty : empty.Represents .empty where
  distinct := List.nodup_nil
  listed := rfl
  placed id place := by simp [empty, TableMap.empty, TableMap.ids]

namespace Represents

variable {indexed : IndexedTables} {tables : TableMap} (represents : indexed.Represents tables)
include represents

theorem lt_length {id : String} {place : Nat} (found : indexed.places[id]? = some place) :
    place < indexed.tables.length := by
  rw [represents.listed, tables.length_toTables]
  exact (List.getElem?_eq_some_iff.mp ((represents.placed id place).mp found)).1

theorem not_mem_of_unplaced {id : String} (unplaced : indexed.places[id]? = none) :
    id ∉ tables.ids := by
  intro member
  rcases List.mem_iff_getElem?.mp member with ⟨place, stands⟩
  rw [(represents.placed id place).mpr stands] at unplaced
  cases unplaced

theorem get?_eq (id : String) : indexed.get? id = tables.get? id := by
  rw [get?]
  cases found : indexed.places[id]? with
  | none => exact (TableMap.get?_of_not_mem (represents.not_mem_of_unplaced found)).symm
  | some place =>
      have stands := (represents.placed id place).mp found
      rw [TableMap.get?_of_place represents.distinct stands, ← represents.listed]
      rfl

theorem modify (id : String) (change : Table → Table) :
    (indexed.modify id change).Represents (tables.modify id change) := by
  rw [IndexedTables.modify]
  cases found : indexed.places[id]? with
  | none =>
      rw [TableMap.modify_of_not_mem (represents.not_mem_of_unplaced found)]
      exact represents
  | some place =>
      have stands := (represents.placed id place).mp found
      constructor
      · rw [TableMap.ids_modify]
        exact represents.distinct
      · rw [TableMap.toTables_modify represents.distinct stands, ← represents.listed]
      · rw [TableMap.ids_modify]
        exact represents.placed

theorem insert (id : String) (table : Table) :
    (indexed.insert id table).Represents (tables.insert id table) := by
  cases found : indexed.places[id]? with
  | some place =>
      -- The identifier is known, so that its table is replaced where it stands.
      have stands := (represents.placed id place).mp found
      have known : id ∈ tables.ids := List.mem_of_getElem? stands
      have replaced := represents.modify id fun _ => table
      have same : indexed.insert id table = indexed.modify id fun _ => table := by
        simp only [IndexedTables.insert, IndexedTables.modify, found, List.set_eq_modify]
      rw [same, TableMap.insert_of_mem known]
      exact replaced
  | none =>
      have fresh := represents.not_mem_of_unplaced found
      have length : indexed.tables.length = tables.ids.length := by
        rw [represents.listed, tables.length_toTables]
      have ids : (tables.insert id table).ids = tables.ids ++ [id] := by
        rw [TableMap.ids_insert, if_neg fresh]
      rw [IndexedTables.insert, found]
      constructor
      · rw [ids, ← List.concat_eq_append]
        exact represents.distinct.concat fresh
      · rw [TableMap.insert_of_not_mem fresh, represents.listed, TableMap.toTables,
          TableMap.toTables, List.map_append]
        rfl
      · -- The new place is the length of the list, and all places there were are below it.
        intro other place
        have placed := represents.placed other place
        have unplaced : tables.ids[place]? ≠ some id := mt List.mem_of_getElem? fresh
        rw [ids, Std.HashMap.getElem?_insert, length, List.getElem?_append]
        by_cases same : id = other
        · subst same
          grind
        · grind

theorem perform (edit : Edit) : (indexed.perform edit).Represents (edit.perform tables) := by
  cases edit with
  | insert id table => exact represents.insert id table
  | push id column => exact represents.modify id _

/-- What one edit keeps, a run of edits keeps. -/
theorem edited (edits : List Edit) :
    (indexed.edited edits).Represents (tables.edited edits) := by
  induction edits generalizing indexed tables with
  | nil => exact represents
  | cons edit rest induction => exact induction (represents.perform edit)

end Represents

end IndexedTables

/-- What is found after a run of edits is the table last inserted under the identifier, with the
columns pushed since, and nothing where none was inserted. There is one table for each identifier,
in the order of first insertion. One more edit is seen under its own identifier only, and a table
inserted again stands where the first one stood. The same edits on a list with an index give the
same tables: the index has the place of each identifier in that order and no other, so it never
points outside the list. -/
theorem TableMap.insertion_ordered (edits : List Edit) :
    let tables := empty.edited edits
    let indexed := IndexedTables.empty.edited edits
    (∀ id found, tables.get? id = some found ↔
        ∃ table columns, LastInserted edits id table columns ∧ found = table.pushAll columns) ∧
      (∀ id, tables.get? id = none ↔ id ∉ insertedIds edits) ∧
      List.Forall₂ (fun id table => tables.get? id = some table) (insertionOrder edits)
        tables.toTables ∧
      (∀ (edit : Edit) (id : String), id ≠ edit.target →
        (edit.perform tables).get? id = tables.get? id) ∧
      (∀ id place table, (insertionOrder edits)[place]? = some id →
        (tables.insert id table).toTables = tables.toTables.set place table) ∧
      (indexed.tables = tables.toTables ∧ ∀ id, indexed.get? id = tables.get? id) ∧
      (∀ (id : String) (place : Nat),
        indexed.places[id]? = some place ↔ (insertionOrder edits)[place]? = some id) ∧
      ∀ (id : String) (place : Nat),
        indexed.places[id]? = some place → place < indexed.tables.length := by
  intro tables indexed
  have represents : indexed.Represents tables := IndexedTables.represents_empty.edited edits
  have order : tables.ids = insertionOrder edits := ids_edited_empty edits
  rw [← order]
  refine ⟨fun id found => get?_edited_eq_some_iff, fun id => get?_edited_eq_none_iff, ?_, ?_, ?_,
    ⟨represents.listed, represents.get?_eq⟩, represents.placed, ?_⟩
  · apply forall₂_get? represents.distinct
    exact List.map_id' _
  · intro edit id other
    exact get?_perform_of_ne other tables
  · intro id place table stands
    rw [insert_of_mem (List.mem_of_getElem? stands), List.set_eq_modify]
    exact toTables_modify represents.distinct stands _
  · intro id place found
    exact represents.lt_length found

end ErSchema
