import ErSchema.Proofs.Json.Numbers

/-! # Reading containers back

A value rereads under a form if its text is read as the value again, whatever is
open around it. A list rereads if its items do, and an object if its members do
under the forms of their names and no name stands twice. -/

namespace ErSchema.Json

/-- A text that can stand as an item. -/
def Opens (text : List Char) : Prop :=
  ∃ head tail, text = head :: tail ∧ Cursor.isBlank head = false ∧ head ≠ ']'

structure Rereads (depth : Nat) (form : Form) (level : Nat) (value : Value) : Prop where
  opens : Opens (value.write level)
  reads : ∀ {rest cursor}, Ends rest → cursor.skipBlanks.rest = value.write level ++ rest →
    ∃ after, readForm depth form cursor = .ok (value, ⟨rest, after⟩)

theorem Opens.skipBlanks {text : List Char} (opens : Opens text) (rest : List Char)
    (position : Position) :
    Cursor.skipBlanks ⟨text ++ rest, position⟩ = ⟨text ++ rest, position⟩ := by
  rcases opens with ⟨head, tail, rfl, plain, notEnd⟩
  exact Cursor.skipBlanks_of_not_blank plain _ position

theorem Opens.skipBlanks_lineBreak {text : List Char} (opens : Opens text) (level : Nat)
    (rest : List Char) (position : Position) :
    ∃ after, Cursor.skipBlanks ⟨lineBreak level ++ (text ++ rest), position⟩ =
      ⟨text ++ rest, after⟩ := by
  rcases opens with ⟨head, tail, rfl, plain, notEnd⟩
  exact Cursor.skipBlanks_lineBreak level plain _ position

theorem opens_quoteChars (text : List Char) : Opens (quoteChars text) :=
  ⟨'"', _, rfl, by decide, by decide⟩

theorem ends_lineBreak (level : Nat) (rest : List Char) : Ends (lineBreak level ++ rest) :=
  fun _ isHead => .inr (Option.some.inj isHead).symm

theorem ends_comma (rest : List Char) : Ends (',' :: rest) :=
  fun _ isHead => .inl (Option.some.inj isHead).symm

theorem ends_nil : Ends [] := nofun

theorem ends_writeItems {level outer : Nat} (items : List Value) (rest : List Char) :
    Ends (writeItems level items ++ (lineBreak outer ++ rest)) := by
  cases items with
  | nil => exact ends_lineBreak outer rest
  | cons item items => exact ends_comma _

theorem ends_writeMembers {level outer : Nat} (members : List (String × Value))
    (rest : List Char) : Ends (writeMembers level members ++ (lineBreak outer ++ rest)) := by
  cases members with
  | nil => exact ends_lineBreak outer rest
  | cons member members => exact ends_comma _

/-! ## Scalars under a form -/

inductive Form.Takes : Form → Value → Prop
  | kept (value : Value) : Takes .kept value
  | text (text : String) : Takes .text (.string text)
  | optionalText (text : String) : Takes .optionalText (.string text)
  | absent : Takes .optionalText .null
  | flag (value : Bool) : Takes .flag (.bool value)

theorem readForm_of_readScalar {depth : Nat} {form : Form} {value : Value} {cursor after : Cursor}
    (takes : form.Takes value)
    (scalar : readScalar cursor.skipBlanks = .ok (.inl value, after)) :
    readForm depth form cursor = .ok (value, after) := by
  unfold readForm
  simp only [scalar]
  cases takes <;> rfl

theorem Rereads.ofScalar {depth level : Nat} {form : Form} {value : Value}
    (takes : form.Takes value) (opens : Opens (value.write level))
    (scalar : ∀ rest, Ends rest → Reads readScalar (value.write level) (.inl value) rest) :
    Rereads depth form level value where
  opens := opens
  reads := by
    intro rest cursor ends here
    rcases scalar rest ends cursor.skipBlanks.position with ⟨after, read⟩
    rw [← here] at read
    exact ⟨after, readForm_of_readScalar takes read⟩

/-- A word behind its first letter, as a value. -/
theorem reads_word (letters : List Char) (value : Value) (rest : List Char)
    (position : Position) :
    ∃ after, (readWord letters ⟨letters ++ rest, position⟩).map
      (fun cursor => ((.inl value : Sum Value Container), cursor)) =
        .ok (.inl value, ⟨rest, after⟩) := by
  rcases readWord_append letters rest position with ⟨after, word⟩
  exact ⟨after, by rw [word]; rfl⟩

theorem rereads_null {depth level : Nat} {form : Form} (takes : form.Takes .null) :
    Rereads depth form level .null :=
  .ofScalar takes ⟨'n', _, rfl, by decide, by decide⟩ fun rest _ _ =>
    reads_word "ull".toList .null rest _

theorem rereads_bool {depth level : Nat} {form : Form} {value : Bool}
    (takes : form.Takes (.bool value)) : Rereads depth form level (.bool value) := by
  cases value with
  | false =>
      exact .ofScalar takes ⟨'f', _, rfl, by decide, by decide⟩ fun rest _ _ =>
        reads_word "alse".toList (.bool false) rest _
  | true =>
      exact .ofScalar takes ⟨'t', _, rfl, by decide, by decide⟩ fun rest _ _ =>
        reads_word "rue".toList (.bool true) rest _

theorem rereads_string {depth level : Nat} {form : Form} {text : String}
    (takes : form.Takes (.string text)) : Rereads depth form level (.string text) := by
  refine .ofScalar takes (opens_quoteChars _) fun rest ends position => ?_
  rcases reads_string text rest (position.after '"') with ⟨after, read⟩
  refine ⟨after, ?_⟩
  change (readString ⟨text.toList.flatMap escapeChar ++ ['"'] ++ rest, _⟩).map _ = _
  rw [read]
  rfl

theorem plain_of_digit {character : Char} (digit : Decimal.isDigit character = true) :
    Cursor.isBlank character = false ∧ character ≠ ']' := by
  constructor
  · refine Bool.eq_false_iff.mpr fun blank => ?_
    simp only [Cursor.isBlank, Bool.or_eq_true, decide_eq_true_eq] at blank
    rcases blank with ((rfl | rfl) | rfl) | rfl <;> exact absurd digit (by decide)
  · rintro rfl
    exact absurd digit (by decide)

/-- What a scalar or a container starts with. -/
theorem opens_of_readScalar {cursor after : Cursor} {found : Sum Value Container}
    (read : readScalar cursor = .ok (found, after)) : Opens cursor.rest := by
  rcases cursor with ⟨text, position⟩
  cases text with
  | nil => cases read
  | cons head tail =>
      refine ⟨head, tail, rfl, ?_⟩
      unfold readScalar at read
      simp only [Cursor.peek?, List.head?_cons] at read
      split at read
      case h_9 leading same =>
        cases same
        split at read
        case isTrue digit => exact plain_of_digit digit
        case isFalse => cases read
      all_goals
        rename_i same
        cases same
        try exact ⟨by decide, by decide⟩

theorem rereads_number {depth level : Nat} {form : Form} {number : Number}
    (takes : form.Takes (.number number)) (back : number.ReadsBack) :
    Rereads depth form level (.number number) := by
  refine .ofScalar takes ?_ fun rest ends => back.reads ends
  rcases back with ⟨after, read⟩
  exact opens_of_readScalar read

/-! ## Lists -/

theorem nextItem_end (first : Bool) (level : Nat) (rest : List Char) (position : Position) :
    ∃ after, nextItem first ⟨lineBreak level ++ ']' :: rest, position⟩ =
      .ok (false, ⟨rest, after⟩) := by
  have plain : Cursor.isBlank ']' = false := by decide
  rcases Cursor.skipBlanks_lineBreak level plain rest position with ⟨after, skipped⟩
  refine ⟨after.after ']', ?_⟩
  rw [nextItem, skipped]
  rfl

theorem Opens.nextItem_first {text : List Char} (opens : Opens text) (level : Nat)
    (rest : List Char) (position : Position) :
    ∃ after, nextItem true ⟨lineBreak level ++ (text ++ rest), position⟩ =
      .ok (true, ⟨text ++ rest, after⟩) := by
  rcases opens.skipBlanks_lineBreak level rest position with ⟨after, skipped⟩
  rcases opens with ⟨head, tail, rfl, plain, notEnd⟩
  refine ⟨after, ?_⟩
  rw [nextItem, skipped]
  simp [Cursor.peek?]

theorem Opens.nextItem_comma {text : List Char} (opens : Opens text) (level : Nat)
    (rest : List Char) (position : Position) :
    ∃ after, nextItem false ⟨',' :: lineBreak level ++ (text ++ rest), position⟩ =
      .ok (true, ⟨text ++ rest, after⟩) := by
  rcases opens.skipBlanks_lineBreak level rest (position.after ',') with ⟨after, skipped⟩
  rcases opens with ⟨head, tail, rfl, plain, notEnd⟩
  refine ⟨after, ?_⟩
  have behind : (Cursor.skip ⟨',' :: (lineBreak level ++ (head :: tail ++ rest)),
      position⟩).skipBlanks = ⟨head :: tail ++ rest, after⟩ := skipped
  rw [nextItem, List.cons_append, Cursor.skipBlanks_of_not_blank (by decide)]
  simp only [behind]
  simp [Cursor.peek?]

theorem readItems_item {reader : Reader Value} {first : Bool} {cursor start after : Cursor}
    {value : Value} (next : nextItem first cursor = .ok (true, start))
    (read : reader start = .ok (value, after)) (steps : Nat) (before : List Value) :
    readItems reader (steps + 1) first before cursor =
      readItems reader steps false (value :: before) after := by
  rw [readItems, next]
  change (reader start).bind _ = _
  rw [read]
  rfl

/-- The form of the items, where a list may stand. -/
def Form.item? : Form → Option Form
  | .kept => some .kept
  | .list item => some item
  | _ => none

section
variable {depth level : Nat} {form : Form}

/-- The items behind the first, and the end of the list. -/
theorem readItems_writeItems (outer : Nat) {items : List Value}
    (reread : ∀ item ∈ items, Rereads depth form level item) {steps : Nat}
    (enough : items.length < steps) (before : List Value) (rest : List Char)
    (position : Position) :
    ∃ after, readItems (readForm depth form) steps false before
        ⟨writeItems level items ++ (lineBreak outer ++ ']' :: rest), position⟩ =
      .ok (before.reverse ++ items, ⟨rest, after⟩) := by
  -- Every item takes one step and the end another; the rest is to spare.
  rcases Nat.exists_eq_add_of_lt enough with ⟨spare, rfl⟩
  clear enough
  induction items generalizing before position with
  | nil =>
      rcases nextItem_end false outer rest position with ⟨after, ended⟩
      refine ⟨after, ?_⟩
      rw [writeItems, List.nil_append, readItems, ended, List.append_nil]
      rfl
  | cons item items induction =>
      have both := List.forall_mem_cons.mp reread
      let behind := writeItems level items ++ (lineBreak outer ++ ']' :: rest)
      rcases both.1.opens.nextItem_comma level behind position with ⟨start, next⟩
      rcases both.1.reads (ends_writeItems items _) (congrArg Cursor.rest
        (both.1.opens.skipBlanks behind start)) with ⟨stop, read⟩
      rcases induction both.2 (item :: before) stop with ⟨after, others⟩
      refine ⟨after, ?_⟩
      have steps : (item :: items).length + spare + 1 = items.length + spare + 1 + 1 := by
        simp only [List.length_cons]
        omega
      have written : writeItems level (item :: items) ++ (lineBreak outer ++ ']' :: rest) =
          ',' :: lineBreak level ++ (item.write level ++ behind) := by
        simp [writeItems, behind]
      rw [steps, written, readItems_item next read, others]
      simp

theorem length_le_writeItems (level : Nat) (items : List Value) :
    items.length ≤ (writeItems level items).length := by
  induction items with
  | nil => exact Nat.le_refl 0
  | cons item items induction =>
      simp only [writeItems, List.length_cons, List.length_append]
      omega

/-- What stands behind the bracket that opens a list. -/
theorem readItems_write {items : List Value}
    (reread : ∀ item ∈ items, Rereads depth form (level + 1) item) (rest : List Char)
    (position : Position) :
    ∃ text after, (Value.array items).write level ++ rest = '[' :: text ∧
      readItems (readForm depth form) (text.length + 1) true [] ⟨text, position⟩ =
        .ok (items, ⟨rest, after⟩) := by
  cases items with
  | nil => exact ⟨']' :: rest, _, rfl, rfl⟩
  | cons item items =>
      have both := List.forall_mem_cons.mp reread
      let behind := writeItems (level + 1) items ++ (lineBreak level ++ ']' :: rest)
      let text := lineBreak (level + 1) ++ (item.write (level + 1) ++ behind)
      have enough : items.length < text.length := by
        have fewer := length_le_writeItems (level + 1) items
        simp only [text, behind, lineBreak, List.length_append, List.length_cons]
        omega
      rcases both.1.opens.nextItem_first (level + 1) behind position with ⟨start, next⟩
      rcases both.1.reads (ends_writeItems items _) (congrArg Cursor.rest
        (both.1.opens.skipBlanks behind start)) with ⟨stop, read⟩
      rcases readItems_writeItems level both.2 enough [item] rest stop with ⟨after, others⟩
      refine ⟨text, after, by simp [Value.write, text, behind], ?_⟩
      rw [readItems_item next read, others]
      rfl

theorem readForm_list {item : Form} (takesItems : form.item? = some item) {cursor : Cursor}
    {text : List Char} {position : Position}
    (opened : cursor.skipBlanks = ⟨'[' :: text, position⟩) :
    readForm (depth + 1) form cursor =
      (readItems (readForm depth item) (text.length + 1) true []
        ⟨text, position.after '['⟩).bind fun found => .ok (.array found.1, found.2) := by
  unfold readForm
  simp only [opened]
  cases form <;> cases takesItems <;> rfl

theorem opens_array (items : List Value) : Opens ((Value.array items).write level) := by
  cases items with
  | nil => exact ⟨'[', _, rfl, by decide, by decide⟩
  | cons item items => exact ⟨'[', _, rfl, by decide, by decide⟩

theorem rereads_array {item : Form} (takesItems : form.item? = some item) {items : List Value}
    (reread : ∀ value ∈ items, Rereads depth item (level + 1) value) :
    Rereads (depth + 1) form level (.array items) where
  opens := opens_array items
  reads := by
    intro rest cursor ends here
    rcases readItems_write reread rest (cursor.skipBlanks.position.after '[') with
      ⟨text, after, written, read⟩
    have opened : cursor.skipBlanks = ⟨'[' :: text, cursor.skipBlanks.position⟩ := by
      rw [← written, ← here]
    exact ⟨after, by rw [readForm_list takesItems opened, read]; rfl⟩

end

/-! ## Objects -/

theorem nextKey_end (first : Bool) (level : Nat) (rest : List Char) (position : Position) :
    ∃ after, nextKey first ⟨lineBreak level ++ '}' :: rest, position⟩ =
      .ok (none, ⟨rest, after⟩) := by
  have plain : Cursor.isBlank '}' = false := by decide
  rcases Cursor.skipBlanks_lineBreak level plain rest position with ⟨after, skipped⟩
  refine ⟨after.after '}', ?_⟩
  rw [nextKey, skipped]
  rfl

theorem nextKey_first (key : String) (level : Nat) (rest : List Char) (position : Position) :
    ∃ after, nextKey true ⟨lineBreak level ++ (quoteChars key.toList ++ rest), position⟩ =
      .ok (some key, ⟨rest, after⟩) := by
  rcases (opens_quoteChars key.toList).skipBlanks_lineBreak level rest position with
    ⟨start, skipped⟩
  rcases reads_string key rest (start.after '"') with ⟨after, read⟩
  refine ⟨after, ?_⟩
  rw [nextKey, skipped]
  change (readString ⟨key.toList.flatMap escapeChar ++ ['"'] ++ rest, _⟩).map _ = _
  rw [read]
  rfl

theorem nextKey_comma (key : String) (level : Nat) (rest : List Char) (position : Position) :
    ∃ after, nextKey false
        ⟨',' :: lineBreak level ++ (quoteChars key.toList ++ rest), position⟩ =
      .ok (some key, ⟨rest, after⟩) := by
  rcases (opens_quoteChars key.toList).skipBlanks_lineBreak level rest (position.after ',') with
    ⟨start, skipped⟩
  rcases reads_string key rest (start.after '"') with ⟨after, read⟩
  have behind : (Cursor.skip ⟨',' :: (lineBreak level ++ (quoteChars key.toList ++ rest)),
      position⟩).skipBlanks = ⟨quoteChars key.toList ++ rest, start⟩ := skipped
  refine ⟨after, ?_⟩
  rw [nextKey, List.cons_append, Cursor.skipBlanks_of_not_blank (by decide)]
  simp only [behind]
  change (readString ⟨key.toList.flatMap escapeChar ++ ['"'] ++ rest, _⟩).map _ = _
  rw [read]
  rfl

section
variable {depth level : Nat} {fields : List (String × Form)} {others : Form}

/-- One member behind its key, and what is read after it. -/
theorem readMembers_member {first : Bool} {before : List (String × Value)} {key : String}
    {value : Value} {cursor : Cursor} {behind : List Char} {position : Position}
    (next : nextKey first cursor =
      .ok (some key, ⟨[':', ' '] ++ (value.write level ++ behind), position⟩))
    (single : key ∉ before.map (·.1))
    (reread : Rereads depth ((fields.lookup key).getD others) level value)
    (ends : Ends behind) (steps : Nat) :
    ∃ after, readMembers (readForm depth) fields others (steps + 1) first before cursor =
      readMembers (readForm depth) fields others steps false ((key, value) :: before)
        ⟨behind, after⟩ := by
  have alone : ((fields.lookup key).isSome &&
      before.any fun member => decide (member.1 = key)) = false := by
    have absent : before.any (fun member => decide (member.1 = key)) = false := by
      refine List.any_eq_false.mpr fun member inside equal => single ?_
      exact List.mem_map.mpr ⟨member, inside, of_decide_eq_true equal⟩
    rw [absent, Bool.and_false]
  let colon := position.after ':'
  have spaced : (Cursor.skipBlanks ⟨' ' :: (value.write level ++ behind), colon⟩).rest =
      value.write level ++ behind :=
    congrArg Cursor.rest (reread.opens.skipBlanks behind (colon.after ' '))
  rcases reread.reads ends spaced with ⟨after, read⟩
  refine ⟨after, ?_⟩
  rw [readMembers, next]
  change (if _ then _ else (readForm depth ((fields.lookup key).getD others)
    ⟨' ' :: (value.write level ++ behind), colon⟩).bind _) = _
  rw [if_neg (by rw [alone]; exact Bool.false_ne_true), read]
  rfl

/-- The members behind the first, and the end of the object. -/
theorem readMembers_writeMembers (outer : Nat) {members : List (String × Value)}
    (reread : ∀ member ∈ members,
      Rereads depth ((fields.lookup member.1).getD others) level member.2)
    {steps : Nat} (enough : members.length < steps) (before : List (String × Value))
    (distinct : ((before.reverse ++ members).map (·.1)).Nodup) (rest : List Char)
    (position : Position) :
    ∃ after, readMembers (readForm depth) fields others steps false before
        ⟨writeMembers level members ++ (lineBreak outer ++ '}' :: rest), position⟩ =
      .ok (before.reverse ++ members, ⟨rest, after⟩) := by
  rcases Nat.exists_eq_add_of_lt enough with ⟨spare, rfl⟩
  clear enough
  induction members generalizing before position with
  | nil =>
      rcases nextKey_end false outer rest position with ⟨after, ended⟩
      refine ⟨after, ?_⟩
      rw [writeMembers, List.nil_append, readMembers, ended, List.append_nil]
      rfl
  | cons member members induction =>
      rcases member with ⟨key, value⟩
      have both := List.forall_mem_cons.mp reread
      have single : key ∉ before.map (·.1) := by
        intro earlier
        rw [List.map_append, List.nodup_append] at distinct
        refine distinct.2.2 key ?_ key List.mem_cons_self rfl
        rwa [List.map_reverse, List.mem_reverse]
      let behind := writeMembers level members ++ (lineBreak outer ++ '}' :: rest)
      rcases nextKey_comma key level ([':', ' '] ++ (value.write level ++ behind)) position with
        ⟨colon, next⟩
      have steps : ((key, value) :: members).length + spare + 1 =
          members.length + spare + 1 + 1 := by
        simp only [List.length_cons]
        omega
      rcases readMembers_member next single both.1 (ends_writeMembers members _)
        (members.length + spare + 1) with ⟨stop, read⟩
      rcases induction both.2 ((key, value) :: before) (by simpa using distinct) stop with
        ⟨after, others⟩
      refine ⟨after, ?_⟩
      have written : writeMembers level ((key, value) :: members) ++
          (lineBreak outer ++ '}' :: rest) = ',' :: lineBreak level ++
            (quoteChars key.toList ++ ([':', ' '] ++ (value.write level ++ behind))) := by
        simp [writeMembers, behind]
      rw [steps, written, read, others]
      simp

theorem length_le_writeMembers (level : Nat) (members : List (String × Value)) :
    members.length ≤ (writeMembers level members).length := by
  induction members with
  | nil => exact Nat.le_refl 0
  | cons member members induction =>
      simp only [writeMembers, List.length_cons, List.length_append]
      omega

/-- What stands behind the brace that opens an object. -/
theorem readMembers_write {members : List (String × Value)}
    (distinct : (members.map (·.1)).Nodup)
    (reread : ∀ member ∈ members,
      Rereads depth ((fields.lookup member.1).getD others) (level + 1) member.2)
    (rest : List Char) (position : Position) :
    ∃ text after, (Value.object members).write level ++ rest = '{' :: text ∧
      readMembers (readForm depth) fields others (text.length + 1) true [] ⟨text, position⟩ =
        .ok (members, ⟨rest, after⟩) := by
  cases members with
  | nil => exact ⟨'}' :: rest, _, rfl, rfl⟩
  | cons member members =>
      rcases member with ⟨key, value⟩
      have both := List.forall_mem_cons.mp reread
      let behind := writeMembers (level + 1) members ++ (lineBreak level ++ '}' :: rest)
      let written := [':', ' '] ++ (value.write (level + 1) ++ behind)
      let text := lineBreak (level + 1) ++ (quoteChars key.toList ++ written)
      have enough : members.length < text.length := by
        have fewer := length_le_writeMembers (level + 1) members
        simp only [text, written, behind, lineBreak, List.length_append, List.length_cons]
        omega
      rcases nextKey_first key (level + 1) written position with ⟨colon, next⟩
      have single : key ∉ ([] : List (String × Value)).map (·.1) := List.not_mem_nil
      rcases readMembers_member next single both.1 (ends_writeMembers members _) text.length with
        ⟨stop, read⟩
      rcases readMembers_writeMembers level both.2 enough [(key, value)] distinct rest
        stop with ⟨after, others⟩
      refine ⟨text, after, by simp [Value.write, text, written, behind], ?_⟩
      rw [read, others]
      rfl

theorem readForm_kept_object {cursor : Cursor} {text : List Char} {position : Position}
    (opened : cursor.skipBlanks = ⟨'{' :: text, position⟩) :
    readForm (depth + 1) .kept cursor =
      (readMembers (readForm depth) [] .kept (text.length + 1) true []
        ⟨text, position.after '{'⟩).bind fun found => .ok (keptObject found.1, found.2) := by
  unfold readForm
  simp only [opened]
  rfl

theorem readForm_record {name : String} {positional : Bool} {cursor : Cursor}
    {text : List Char} {position : Position}
    (opened : cursor.skipBlanks = ⟨'{' :: text, position⟩) :
    readForm (depth + 1) (.record name fields others positional) cursor =
      (readMembers (readForm depth) fields others (text.length + 1) true []
        ⟨text, position.after '{'⟩).bind fun found => .ok (.object found.1, found.2) := by
  unfold readForm
  simp only [opened]
  rfl

theorem opens_object (members : List (String × Value)) :
    Opens ((Value.object members).write level) := by
  cases members with
  | nil => exact ⟨'{', _, rfl, by decide, by decide⟩
  | cons member members => exact ⟨'{', _, rfl, by decide, by decide⟩

theorem rereads_record {name : String} {positional : Bool} {members : List (String × Value)}
    (distinct : (members.map (·.1)).Nodup)
    (reread : ∀ member ∈ members,
      Rereads depth ((fields.lookup member.1).getD others) (level + 1) member.2) :
    Rereads (depth + 1) (.record name fields others positional) level (.object members) where
  opens := opens_object members
  reads := by
    intro rest cursor ends here
    rcases readMembers_write distinct reread rest (cursor.skipBlanks.position.after '{') with
      ⟨text, after, written, read⟩
    have opened : cursor.skipBlanks = ⟨'{' :: text, cursor.skipBlanks.position⟩ := by
      rw [← written, ← here]
    exact ⟨after, by rw [readForm_record opened, read]; rfl⟩

/-- A kept object is read sorted, so only a sorted one rereads. -/
theorem rereads_object {members : List (String × Value)}
    (distinct : (members.map (·.1)).Nodup) (sorted : sortMembers members = members)
    (reread : ∀ member ∈ members, Rereads depth .kept (level + 1) member.2) :
    Rereads (depth + 1) .kept level (.object members) where
  opens := opens_object members
  reads := by
    intro rest cursor ends here
    have noFields : ∀ member ∈ members,
        Rereads depth ((([] : List (String × Form)).lookup member.1).getD .kept) (level + 1)
          member.2 := reread
    rcases readMembers_write distinct noFields rest (cursor.skipBlanks.position.after '{') with
      ⟨text, after, written, read⟩
    have opened : cursor.skipBlanks = ⟨'{' :: text, cursor.skipBlanks.position⟩ := by
      rw [← written, ← here]
    refine ⟨after, ?_⟩
    rw [readForm_kept_object opened, read]
    change Except.ok (keptObject members, _) = _
    rw [keptObject, sorted]

end

end ErSchema.Json
