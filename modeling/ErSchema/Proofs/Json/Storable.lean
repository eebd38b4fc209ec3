import ErSchema.Proofs.Json.Containers
import Mathlib.Data.List.Induction

/-! # Values that can be stored

A stored value lists the names of each object in order, each once, and opens no
more levels than it may. If its numbers read back, so does the value. -/

namespace ErSchema.Json

/-! ## Sorted members -/

def Sorted (members : List (String × Value)) : Prop :=
  members.Pairwise fun left right => left.1 < right.1

theorem Sorted.distinct {members : List (String × Value)} (sorted : Sorted members) :
    (members.map (·.1)).Nodup := by
  refine List.pairwise_map.mpr (sorted.imp fun {left right} less same => ?_)
  exact String.lt_irrefl right.1 (same ▸ less)

theorem mem_insertMember {key : String} {value : Value} {members : List (String × Value)}
    {member : String × Value} (inside : member ∈ insertMember key value members) :
    member = (key, value) ∨ member ∈ members := by
  induction members with
  | nil => exact .inl (List.mem_singleton.mp inside)
  | cons first rest induction =>
      rw [insertMember] at inside
      split at inside
      · exact (List.mem_cons.mp inside).imp_right (List.mem_cons_of_mem _)
      split at inside
      · exact List.mem_cons.mp inside
      · rcases List.mem_cons.mp inside with rfl | later
        · exact .inr List.mem_cons_self
        · exact (induction later).imp_right (List.mem_cons_of_mem _)

theorem Sorted.insertMember {members : List (String × Value)} (sorted : Sorted members)
    (key : String) (value : Value) : Sorted (insertMember key value members) := by
  induction members with
  | nil => exact List.pairwise_singleton _ _
  | cons first rest induction =>
      have both := List.pairwise_cons.mp sorted
      rw [Json.insertMember]
      split
      case isTrue same =>
        exact List.pairwise_cons.mpr ⟨fun member later => same ▸ both.1 member later, both.2⟩
      case isFalse different =>
        split
        case isTrue less =>
          refine List.pairwise_cons.mpr ⟨fun member later => ?_, sorted⟩
          rcases List.mem_cons.mp later with rfl | later
          · exact less
          · exact String.lt_trans less (both.1 member later)
        case isFalse notLess =>
          refine List.pairwise_cons.mpr ⟨fun member later => ?_, induction both.2⟩
          rcases mem_insertMember later with rfl | later
          · exact Std.lt_of_le_of_ne (String.not_lt.mp notLess) (Ne.symm different)
          · exact both.1 member later

theorem insertMember_of_forall_lt {key : String} {members : List (String × Value)}
    (less : ∀ member ∈ members, member.1 < key) (value : Value) :
    insertMember key value members = members ++ [(key, value)] := by
  induction members with
  | nil => rfl
  | cons first rest induction =>
      have both := List.forall_mem_cons.mp less
      have different : key ≠ first.1 := fun equal => String.lt_irrefl _ (equal ▸ both.1)
      rw [insertMember, if_neg different, if_neg (String.lt_asymm both.1), induction both.2]
      rfl

theorem sorted_sortMembers (members : List (String × Value)) : Sorted (sortMembers members) :=
  List.foldlRecOn members _ List.Pairwise.nil fun _ sorted member _ =>
    Sorted.insertMember sorted member.1 member.2

theorem mem_sortMembers {members : List (String × Value)} :
    ∀ member ∈ sortMembers members, member ∈ members := by
  apply List.foldlRecOn (motive := fun sorted => ∀ member ∈ sorted, member ∈ members)
  · exact fun _ none => absurd none List.not_mem_nil
  · intro sorted known next isMember member inside
    rcases mem_insertMember inside with rfl | earlier
    · exact isMember
    · exact known member earlier

theorem sortMembers_of_sorted {members : List (String × Value)} (sorted : Sorted members) :
    sortMembers members = members := by
  induction members using List.reverseRecOn with
  | nil => rfl
  | append_singleton front last induction =>
      -- The last name is above all others, so its member is inserted at the end.
      have parts := List.pairwise_append.mp sorted
      have less : ∀ member ∈ front, member.1 < last.1 := fun member inside =>
        parts.2.2 member inside last (List.mem_singleton_self last)
      calc sortMembers (front ++ [last])
          = insertMember last.1 last.2 (sortMembers front) := by
            rw [sortMembers, List.foldl_append]
            rfl
        _ = insertMember last.1 last.2 front := by rw [induction parts.1]
        _ = front ++ [last] := insertMember_of_forall_lt less last.2

/-! ## Numbers of a value -/

mutual
def Value.numbers : Value → List Number
  | .number number => [number]
  | .array items => itemNumbers items
  | .object members => memberNumbers members
  | _ => []

def itemNumbers : List Value → List Number
  | [] => []
  | item :: items => item.numbers ++ itemNumbers items

def memberNumbers : List (String × Value) → List Number
  | [] => []
  | (_, value) :: members => value.numbers ++ memberNumbers members
end

theorem mem_itemNumbers {items : List Value} {item : Value} (inside : item ∈ items)
    {number : Number} (isNumber : number ∈ item.numbers) : number ∈ itemNumbers items := by
  induction items with
  | nil => cases inside
  | cons first others induction =>
      rw [itemNumbers]
      rcases List.mem_cons.mp inside with rfl | later
      · exact List.mem_append_left _ isNumber
      · exact List.mem_append_right _ (induction later)

theorem mem_memberNumbers {members : List (String × Value)} {member : String × Value}
    (inside : member ∈ members) {number : Number} (isNumber : number ∈ member.2.numbers) :
    number ∈ memberNumbers members := by
  induction members with
  | nil => cases inside
  | cons first others induction =>
      rw [memberNumbers]
      rcases List.mem_cons.mp inside with rfl | later
      · exact List.mem_append_left _ isNumber
      · exact List.mem_append_right _ (induction later)

/-! ## Stored values -/

inductive Storable (good : Number → Prop) : (depth : Nat) → Value → Prop
  | null {depth : Nat} : Storable good depth .null
  | bool {depth : Nat} (value : Bool) : Storable good depth (.bool value)
  | number {depth : Nat} {number : Number} (isGood : good number) :
      Storable good depth (.number number)
  | string {depth : Nat} (text : String) : Storable good depth (.string text)
  | array {depth : Nat} {items : List Value}
      (stored : ∀ item ∈ items, Storable good depth item) :
      Storable good (depth + 1) (.array items)
  | object {depth : Nat} {members : List (String × Value)} (sorted : Sorted members)
      (stored : ∀ member ∈ members, Storable good depth member.2) :
      Storable good (depth + 1) (.object members)

theorem Storable.imp {good better : Number → Prop} {depth : Nat} {value : Value}
    (storable : Storable good depth value)
    (improve : ∀ number ∈ value.numbers, good number → better number) :
    Storable better depth value := by
  induction storable with
  | null => exact .null
  | bool value => exact .bool value
  | number isGood => exact .number (improve _ (List.mem_singleton_self _) isGood)
  | string text => exact .string text
  | array stored induction =>
      refine .array fun item inside => induction item inside fun number isNumber => ?_
      exact improve number (mem_itemNumbers inside isNumber)
  | object sorted stored induction =>
      refine .object sorted fun member inside => induction member inside fun number isNumber => ?_
      exact improve number (mem_memberNumbers inside isNumber)

theorem Storable.rereads {depth : Nat} {value : Value}
    (storable : Storable Number.ReadsBack depth value) (level : Nat) :
    Rereads depth .kept level value := by
  induction storable generalizing level with
  | null => exact rereads_null (.kept _)
  | bool value => exact rereads_bool (.kept _)
  | number back => exact rereads_number (.kept _) back
  | string text => exact rereads_string (.kept _)
  | array stored induction =>
      exact rereads_array rfl fun item inside => induction item inside (level + 1)
  | object sorted stored induction =>
      exact rereads_object sorted.distinct (sortMembers_of_sorted sorted)
        fun member inside => induction member inside (level + 1)

end ErSchema.Json
