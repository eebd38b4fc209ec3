import ErSchema.Proofs.Digits
import ErSchema.Proofs.Naming
import ErSchema.Proofs.Sql.Script
import Mathlib

/-! # The columns that a statement declares

In every table the names of the columns are distinct. A statement declares their
identifiers, and two names can have one: then it declares the same column twice,
and lists it twice in the primary key if both columns belong to it. This takes a
name with a blank, because a name without blanks is its own identifier, and so is
everything that is put together from such names. -/

namespace ErSchema

namespace Sql

open Text (Unbroken)

/-! ## Names without blanks -/

theorem isBlank_of_isDigit {character : Char} (digit : Decimal.isDigit character = true) :
    Text.isBlank character = false := by
  have bounds : '0'.toNat ≤ character.toNat ∧ character.toNat ≤ '9'.toNat := by
    rw [Decimal.isDigit, Bool.and_eq_true, decide_eq_true_eq, decide_eq_true_eq] at digit
    exact digit
  rw [show '0'.toNat = 48 from rfl, show '9'.toNat = 57 from rfl] at bounds
  simp only [Text.isBlank, Bool.or_eq_false_iff, Bool.and_eq_false_iff,
    decide_eq_false_iff_not, beq_eq_false_iff_ne]
  omega

theorem spelling_unbroken : Spelling fun name => Unbroken name.toList where
  append first second := by
    rw [String.toList_append]
    exact first.append second
  words := by decide +kernel
  number value := by
    intro digit member
    rw [Decimal.natText, String.toList_ofList] at member
    exact isBlank_of_isDigit (Decimal.isDigit_of_mem_digitsOfNat member)

/-! ## Declared columns -/

namespace Statement

variable {table : Table}

theorem perm_columns (table : Table) :
    (ofTable table).columns.Perm (table.names.map identifier) := by
  rw [Table.names, List.map_map]
  exact table.perm_displayOrder.map fun column => identifier column.name

theorem keys_eq (table : Table) : (ofTable table).keys = table.keyNames.map identifier := by
  rw [Table.keyNames, List.map_map]
  rfl

theorem nodup_columns_iff (distinct : table.names.Nodup) :
    (ofTable table).columns.Nodup ↔ ∀ first ∈ table.names, ∀ second ∈ table.names,
      identifier first = identifier second → first = second := by
  rw [(perm_columns table).nodup_iff]
  exact List.nodup_map_iff_inj_on distinct

theorem nodup_keys (distinct : (ofTable table).columns.Nodup) : (ofTable table).keys.Nodup := by
  have included : (table.keyNames.map identifier).Sublist (table.names.map identifier) :=
    (List.filter_sublist.map Column.name).map identifier
  rw [(perm_columns table).nodup_iff] at distinct
  rw [keys_eq]
  exact distinct.sublist included

theorem nodup_columns_of_unbroken
    (spelled : table.Spelled fun name => Unbroken name.toList) :
    (ofTable table).columns.Nodup := by
  rw [nodup_columns_iff spelled.distinct]
  intro first isFirst second isSecond same
  rwa [identifier_of_unbroken (spelled.each first isFirst),
    identifier_of_unbroken (spelled.each second isSecond)] at same

end Statement

end Sql

namespace Derivation

open Sql (Statement)

/-- A script has one statement for each table. It declares its columns once exactly
if no two names of the table have one identifier, and then its primary key names
each column once. It does so in every table if no name in the drawing has a
blank. -/
theorem declares_once (diagram : Diagram) (limit : Option Nat) :
    let schema := (ofDiagram diagram limit).schema
    (∀ config, (Sql.script schema config).toList = (config.sqlHeader ++ "\n\n").toList ++
        Sql.ended ((schema.tables.map Statement.ofTable).flatMap
          (Statement.lines config.columnType))) ∧
      ∀ table ∈ schema.tables,
        table.names.Nodup ∧
          ((Statement.ofTable table).columns.Nodup ↔
            ∀ first ∈ table.names, ∀ second ∈ table.names,
              Sql.identifier first = Sql.identifier second → first = second) ∧
          ((Statement.ofTable table).columns.Nodup → (Statement.ofTable table).keys.Nodup) ∧
          (diagram.Spelled (fun name => Text.Unbroken name.toList) →
            (Statement.ofTable table).columns.Nodup) := by
  intro schema
  apply And.intro (Sql.toList_script schema)
  intro table member
  have each := spelled_ofDiagram .any limit (fun _ _ _ => trivial) table member
  refine ⟨each.distinct, Statement.nodup_columns_iff each.distinct, Statement.nodup_keys, ?_⟩
  intro drawn
  apply Statement.nodup_columns_of_unbroken
  exact spelled_ofDiagram Sql.spelling_unbroken limit drawn table member

/-- Students enrol in courses, and both have a number as their key. -/
def enrolling (student course : String) : Diagram where
  nodes := [Node.entity "s" "Student", (Node.simpleAttribute "i" student).primaryKey,
    Node.entity "c" "Course", (Node.simpleAttribute "n" course).primaryKey,
    Node.relationship "e" "Enrols"]
  edges := [.between "s" "i", .between "c" "n",
    (Edge.between "s" "e").withCards "N" "", (Edge.between "e" "c").withCards "" "N"]

/-- Equal names are told apart by their sources, whose names have no blanks. -/
theorem declares_once_enrolling :
    ∃ table ∈ (ofDiagram (enrolling "no" "no") none).schema.tables,
      table.keyNames = ["Student_no", "Course_no"] ∧
        (enrolling "no" "no").Spelled (fun name => Text.Unbroken name.toList) ∧
        (Statement.ofTable table).columns.Nodup ∧ (Statement.ofTable table).keys.Nodup := by
  have keyNames : (ofDiagram (enrolling "no" "no") none).schema.tables.map Table.keyNames =
      [["no"], ["no"], ["Student_no", "Course_no"]] := by cbv
  have drawn : (enrolling "no" "no").Spelled fun name => Text.Unbroken name.toList := by
    unfold Diagram.Spelled
    decide +kernel
  have last : ["Student_no", "Course_no"] ∈
      (ofDiagram (enrolling "no" "no") none).schema.tables.map Table.keyNames := by
    rw [keyNames]
    decide
  rcases List.mem_map.mp last with ⟨table, member, keys⟩
  rcases (declares_once (enrolling "no" "no") none).2 table member with
    ⟨_, _, keyed, unbroken⟩
  exact ⟨table, member, keys, drawn, unbroken drawn, keyed (unbroken drawn)⟩

/-- Names that differ in a blank only are not equal, so nothing tells them apart,
and the statement of the junction table declares `ref_no` twice. -/
theorem not_declares_once :
    ¬ ∀ (diagram : Diagram) (limit : Option Nat),
      ∀ table ∈ (ofDiagram diagram limit).schema.tables,
        (Statement.ofTable table).columns.Nodup ∧ (Statement.ofTable table).keys.Nodup := by
  intro once
  have keyNames : (ofDiagram (enrolling "ref no" "ref_no") none).schema.tables.map
      Table.keyNames = [["ref no"], ["ref_no"], ["ref no", "ref_no"]] := by cbv
  have last : ["ref no", "ref_no"] ∈
      (ofDiagram (enrolling "ref no" "ref_no") none).schema.tables.map Table.keyNames := by
    rw [keyNames]
    decide
  rcases List.mem_map.mp last with ⟨table, member, keys⟩
  have distinct := (once (enrolling "ref no" "ref_no") none table member).2
  rw [Statement.keys_eq, keys] at distinct
  exact absurd distinct (by decide +kernel)

end Derivation

end ErSchema
