import ErSchema.Proofs.Columns

/-! # Names given in turn

Columns that a routine adds one after another are named in turn, each against all
names that the table has by then. So no column is lost, none is named like an
earlier one, and what a name looks like depends only on those before it. -/

namespace ErSchema

namespace Table

/-- The wanted name if it is free; a taken name is qualified, and then numbered if
that is taken too. -/
inductive Qualified (taken : List String) (wanted qualifier : String) : String → Prop
  | free (isFree : wanted ∉ taken) : Qualified taken wanted qualifier wanted
  | qualified (isTaken : wanted ∈ taken) {name : String}
      (numbered : Numbered taken (qualifier ++ "_" ++ wanted) name) :
      Qualified taken wanted qualifier name

theorem Qualified.not_mem {taken : List String} {wanted qualifier name : String}
    (qualified : Qualified taken wanted qualifier name) : name ∉ taken := by
  cases qualified with
  | free isFree => exact isFree
  | qualified _ numbered => exact numbered.not_mem

theorem qualified_uniqueName (table : Table) (wanted qualifier : String) :
    Qualified table.names wanted qualifier (table.uniqueName wanted qualifier) := by
  unfold uniqueName
  split
  case isTrue isTaken =>
    exact .qualified (has_iff.mp isTaken) (numbered_numberedName table _)
  case isFalse isFree => exact .free (by rwa [← has_iff])

end Table

/-- One name for each item, by a rule that is told which names are taken by then. -/
inductive NamedInTurn {α : Type} (rule : List String → α → String → Prop) :
    List String → List α → List String → Prop
  | nil (taken : List String) : NamedInTurn rule taken [] []
  | cons {taken : List String} {item : α} {name : String} {items : List α}
      {names : List String} (named : rule taken item name)
      (others : NamedInTurn rule (taken ++ [name]) items names) :
      NamedInTurn rule taken (item :: items) (name :: names)

namespace NamedInTurn

variable {α : Type} {rule : List String → α → String → Prop} {taken names : List String}
  {items : List α}

theorem length_eq (inTurn : NamedInTurn rule taken items names) :
    names.length = items.length := by
  induction inTurn with
  | nil => rfl
  | cons _ _ induction => rw [List.length_cons, List.length_cons, induction]

/-- A rule that gives free names gives each of them once. -/
theorem nodup_append (free : ∀ {taken item name}, rule taken item name → name ∉ taken)
    (inTurn : NamedInTurn rule taken items names) (distinct : taken.Nodup) :
    (taken ++ names).Nodup := by
  induction inTurn with
  | nil => rwa [List.append_nil]
  | @cons taken _ name _ _ named _ induction =>
      have extended : (taken ++ [name]).Nodup := by
        rw [← List.concat_eq_append]
        exact distinct.concat (free named)
      rw [List.append_cons]
      exact induction extended

theorem map_name_zipWith {make : α → String → Column}
    (named : ∀ item name, (make item name).name = name)
    (inTurn : NamedInTurn rule taken items names) :
    (List.zipWith make items names).map Column.name = names := by
  induction inTurn with
  | nil => rfl
  | cons _ _ induction => rw [List.zipWith_cons_cons, List.map_cons, named, induction]

/-- What a column is apart from its name is settled by the item. -/
theorem map_zipWith {β : Type} {make : α → String → Column} {view : Column → β} {seen : α → β}
    (same : ∀ item name, view (make item name) = seen item)
    (inTurn : NamedInTurn rule taken items names) :
    (List.zipWith make items names).map view = items.map seen := by
  induction inTurn with
  | nil => rfl
  | cons _ _ induction =>
      rw [List.zipWith_cons_cons, List.map_cons, List.map_cons, same, induction]

theorem zipWith_eq_map {β : Type} (make : String → β)
    (inTurn : NamedInTurn rule taken items names) :
    List.zipWith (fun _ name => make name) items names = names.map make := by
  induction inTurn with
  | nil => rfl
  | cons _ _ induction => rw [List.zipWith_cons_cons, List.map_cons, induction]

theorem map {β : Type} {rule : List String → β → String → Prop} {wanted : α → β}
    (inTurn : NamedInTurn (fun taken item => rule taken (wanted item)) taken items names) :
    NamedInTurn rule taken (items.map wanted) names := by
  induction inTurn with
  | nil => exact .nil _
  | cons named _ induction => exact .cons named induction

end NamedInTurn

namespace Table

section
variable {α : Type} (rule : List String → α → String → Prop) (choose : Table → α → String)
  (make : α → String → Column) (named : ∀ item name, (make item name).name = name)
include named

/-- Columns that are pushed under names chosen in turn are all there. -/
theorem foldl_push_named (chosen : ∀ table item, rule table.names item (choose table item))
    (free : ∀ {taken item name}, rule taken item name → name ∉ taken) (items : List α)
    (table : Table) :
    ∃ names, NamedInTurn rule table.names items names ∧
      items.foldl (fun table item => table.push (make item (choose table item))) table =
        { table with columns := table.columns ++ List.zipWith make items names } := by
  induction items generalizing table with
  | nil => exact ⟨[], .nil _, by simp⟩
  | cons item rest induction =>
      let name := choose table item
      let column := make item name
      have isNamed : column.name = name := named item name
      have isFree : column.name ∉ table.names := isNamed ▸ free (chosen table item)
      rcases induction (table.push column) with ⟨names, inTurn, pushed⟩
      have taken : (table.push column).names = table.names ++ [name] := by
        rw [push_of_not_mem isFree, Table.names, List.map_append, List.map_singleton, isNamed]
        rfl
      refine ⟨name :: names, .cons (chosen table item) (taken ▸ inTurn), ?_⟩
      rw [List.foldl_cons, pushed, push_of_not_mem isFree]
      simp [column, name]

end

end Table

end ErSchema
