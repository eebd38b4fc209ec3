import ErSchema.Document
import ErSchema.Proofs.Json.Accepted

/-! # Members looked up by name

Sorting changes where members stand, and of several with one name it keeps the
last: a name finds in the sorted members what it would find first if the members
were searched from their end. A member that is a field has a value of its form. -/

namespace ErSchema

open Json (Value Form)

namespace Json

theorem mem_of_lookup {β : Type} {members : List (String × β)} {name : String} {value : β}
    (found : members.lookup name = some value) : (name, value) ∈ members := by
  rcases List.lookup_eq_some_iff.mp found with ⟨front, back, rfl, _⟩
  exact List.mem_append_right _ List.mem_cons_self

theorem lookup_insertMember (key name : String) (value : Value)
    (members : List (String × Value)) :
    (insertMember key value members).lookup name =
      if name = key then some value else members.lookup name := by
  induction members with
  | nil => grind [insertMember]
  | cons first rest induction =>
      rw [insertMember]
      split
      case isTrue same => grind
      case isFalse different =>
        split
        case isTrue => grind
        case isFalse => grind

theorem lookup_sortMembers (members : List (String × Value)) (name : String) :
    (sortMembers members).lookup name = members.reverse.lookup name := by
  induction members using List.reverseRecOn with
  | nil => rfl
  | append_singleton front last induction =>
      calc (sortMembers (front ++ [last])).lookup name
          = (insertMember last.1 last.2 (sortMembers front)).lookup name := by
            rw [sortMembers, List.foldl_append]
            rfl
        _ = if name = last.1 then some last.2 else front.reverse.lookup name := by
            rw [lookup_insertMember, induction]
        _ = (last :: front.reverse).lookup name := by grind
        _ = (front ++ [last]).reverse.lookup name := by rw [List.reverse_concat]

theorem lookup_filter (keeps : String → Bool) (members : List (String × Value)) (name : String) :
    (members.filter fun member => keeps member.1).lookup name =
      if keeps name then members.lookup name else none := by
  induction members with
  | nil => exact (ite_self none).symm
  | cons first rest induction =>
      cases kept : keeps first.1 <;> grind

/-! ## Fields of a form -/

/-- A form whose values open no container. -/
def Form.isPlain : Form → Bool
  | .text | .optionalText | .flag => true
  | _ => false

theorem takes_readForm {form : Form} (plain : form.isPlain = true) (depth : Nat)
    (cursor : Cursor) : Yields form.Takes (readForm depth form cursor) := by
  cases form with
  | kept | ignored | list | record => cases plain
  | text | optionalText | flag =>
      unfold readForm
      apply Yields.bind
      rintro ⟨found, after⟩ _
      cases found with
      | inl value =>
          cases value <;> first
            | exact yields_fail _ _
            | exact yields_ok (by constructor) after
      | inr container =>
          cases depth with
          | zero => exact yields_failAhead _ _
          | succ => cases container <;> exact yields_fail _ _

/-- Every field of the record has a value of its form. -/
def Typed (fields : List (String × Form)) (value : Value) : Prop :=
  ∃ members, value = .object members ∧
    ∀ member ∈ members, ∀ form, fields.lookup member.1 = some form → form.Takes member.2

theorem typed_readForm_record {fields : List (String × Form)}
    (plain : ∀ field ∈ fields, field.2.isPlain = true) (depth : Nat) (name : String)
    (others : Form) (cursor : Cursor) :
    Yields (Typed fields) (readForm (depth + 1) (.record name fields others false) cursor) := by
  have each (key : String) (cursor : Cursor) :
      Yields (fun value => ∀ form, fields.lookup key = some form → form.Takes value)
        (readForm depth ((fields.lookup key).getD others) cursor) := by
    intro value after read form found
    rw [found] at read
    exact takes_readForm (plain (key, form) (mem_of_lookup found)) depth cursor value after read
  have record : Yields _ (readForm (depth + 1) (.record name fields others false) cursor) :=
    yields_readForm_record each (by nofun) cursor
  exact record

end Json

/-- An unknown name has the value that was given last. -/
theorem Member.lookup_others (members : List (String × Value)) (fields : List (String × Form))
    (name : String) : (Member.others members fields).lookup name =
      if (fields.lookup name).isNone then members.reverse.lookup name else none := by
  rw [others, Json.lookup_sortMembers, ← List.filter_reverse]
  exact Json.lookup_filter (fun name => (fields.lookup name).isNone) members.reverse name

end ErSchema
