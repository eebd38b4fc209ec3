import ErSchema.Document
import ErSchema.Proofs.Naming
import ErSchema.Proofs.Sql.Identifier
import ErSchema.Proofs.Text.Runs
import Mathlib

/-! # Names with something in them

A node's name is trimmed when the node is made, and an attribute whose name is
empty then is not stored. So the name of every column has a character that is not
blank: what is put before it or after it takes nothing away. Such a name has an
identifier, for only blanks are lost in one. -/

namespace ErSchema

namespace Text

/-- A text with a character that is not blank. -/
def Worded (text : String) : Prop := ∃ character ∈ text.toList, isBlank character = false

theorem Trimmed.worded {text : String} (trimmed : Trimmed text) (nonempty : text ≠ "") :
    Worded text := by
  by_contra blank
  have all : ∀ character ∈ text.toList, isBlank character = true := by
    intro character member
    by_contra solid
    exact blank ⟨character, member, Bool.eq_false_iff.mpr solid⟩
  have dropped : text.toList.dropWhile isBlank = [] := List.dropWhile_eq_nil_iff.mpr all
  rw [Trimmed, trim, trimBlanks, dropped] at trimmed
  exact nonempty trimmed.symm

/-! ## Adding to a name -/

theorem Worded.append_left {name : String} (worded : Worded name) (front : String) :
    Worded (front ++ name) := by
  rcases worded with ⟨character, member, solid⟩
  exact ⟨character, String.toList_append ▸ List.mem_append_right _ member, solid⟩

theorem Worded.append_right {name : String} (worded : Worded name) (back : String) :
    Worded (name ++ back) := by
  rcases worded with ⟨character, member, solid⟩
  exact ⟨character, String.toList_append ▸ List.mem_append_left _ member, solid⟩

/-- Anything may stand before such a name. -/
theorem naming_worded : Naming (fun _ => True) Worded where
  prefixed _ worded := worded.append_left _
  qualified _ worded := worded.append_left _
  suffixed worded _ := (worded.append_right _).append_right _
  words _ _ := trivial

theorem Worded.identifier_ne {name : String} (worded : Worded name) :
    Sql.identifier name ≠ "" := by
  rcases worded with ⟨character, member, solid⟩
  have kept : character ∈ (Sql.identifier name).toList := by
    apply (Sql.sublist_identifier name).subset
    exact List.mem_filter.mpr ⟨member, by rw [solid]; rfl⟩
  intro isEmpty
  rw [isEmpty] at kept
  exact List.not_mem_nil kept

end Text

open Text (Trimmed Worded)

/-! ## How nodes are made -/

/-- A constructor trims the name; marking a node or moving it keeps the name. -/
inductive Node.Made : Node → Prop
  | ofKind (kind : NodeKind) (id name : String) : Made (.ofKind kind id name)
  | weak {node : Node} (made : node.Made) : Made node.weak
  | primaryKey {node : Node} (made : node.Made) : Made node.primaryKey
  | drawnAt {node : Node} (made : node.Made) (x y : Float) : Made (node.drawnAt x y)

theorem Node.Made.trimmed {node : Node} (made : node.Made) : Trimmed node.name := by
  induction made with
  | ofKind _ _ name => exact Text.trimmed_trim name
  | weak _ induction => exact induction
  | primaryKey _ induction => exact induction
  | drawnAt _ _ _ induction => exact induction

namespace Diagram

def Trimmed (diagram : Diagram) : Prop := ∀ node ∈ diagram.nodes, Text.Trimmed node.name

theorem trimmed_toDiagram (document : Document) : document.toDiagram.Trimmed := by
  intro node member
  rcases List.mem_map.mp member with ⟨element, _, rfl⟩
  exact Text.trimmed_trim element.text

theorem Trimmed.named {diagram : Diagram} (trimmed : diagram.Trimmed) :
    (Adjacency.ofDiagram diagram).Named (fun _ => True) Worded where
  owners _ _ _ := trivial
  attributes node member _ nonempty :=
    (trimmed node ((firstBy_sublist Node.id diagram.nodes).subset member)).worded nonempty

end Diagram

namespace Derivation

/-- Names of nodes are trimmed when they are made by a constructor or read from a
document. Then in every table of the schema the names of the columns are distinct,
and each has a character that is not blank and thus an identifier. -/
theorem names_worded :
    (∀ node : Node, node.Made → Trimmed node.name) ∧
      (∀ document : Document, document.toDiagram.Trimmed) ∧
      ∀ (diagram : Diagram) (limit : Option Nat), diagram.Trimmed →
        ∀ table ∈ (ofDiagram diagram limit).schema.tables,
          table.names.Nodup ∧ ∀ name ∈ table.names, Worded name ∧ Sql.identifier name ≠ "" := by
  refine ⟨fun _ made => made.trimmed, Diagram.trimmed_toDiagram, ?_⟩
  intro diagram limit trimmed table member
  have spelled := Text.naming_worded.spelled_ofDiagram limit trimmed.named table member
  refine ⟨spelled.distinct, fun name isName => ?_⟩
  have worded := spelled.each name isName
  exact ⟨worded, worded.identifier_ne⟩

/-- Names are written with blanks around them, and one attribute has nothing else. -/
def shelf : Diagram where
  nodes := [Node.entity "b" " Book", (Node.simpleAttribute "t" "title ").primaryKey,
    Node.multivaluedAttribute "a" "\tauthor", Node.simpleAttribute "n" "  "]
  edges := [.between "b" "t", .between "b" "a", .between "b" "n"]

theorem names_worded_shelf :
    shelf.Trimmed ∧ (ofDiagram shelf none).schema.tables.map Table.names =
        [["title"], ["title", "author"]] ∧
      ∀ table ∈ (ofDiagram shelf none).schema.tables,
        table.names.Nodup ∧ ∀ name ∈ table.names, Worded name ∧ Sql.identifier name ≠ "" := by
  have made : ∀ node ∈ shelf.nodes, node.Made :=
    List.forall_mem_cons.mpr ⟨.ofKind .entity "b" " Book",
      List.forall_mem_cons.mpr ⟨.primaryKey (.ofKind (.ofAttribute .simple) "t" "title "),
        List.forall_mem_cons.mpr ⟨.ofKind (.ofAttribute .multivalued) "a" "\tauthor",
          List.forall_mem_singleton.mpr (.ofKind (.ofAttribute .simple) "n" "  ")⟩⟩⟩
  have trimmed : shelf.Trimmed := fun node member => names_worded.1 node (made node member)
  have names : (ofDiagram shelf none).schema.tables.map Table.names =
      [["title"], ["title", "author"]] := by cbv
  exact ⟨trimmed, names, names_worded.2.2 shelf none trimmed⟩

end Derivation

end ErSchema
