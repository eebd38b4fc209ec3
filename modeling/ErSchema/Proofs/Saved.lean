import ErSchema.Embedding
import ErSchema.Proofs.Json.Accepted

/-! # Saving a document and reading it again

What was read is stored beside the fields of its element or line: sorted, under
names of its own, and not too deep. A document whose numbers read back is read
back from its own text. -/

namespace ErSchema

open Json (Value Form Number)

namespace Document

/-- How many levels an extra member may open: its record, the list of the records
and the document are open already. -/
def extraDepth : Nat := Json.nestingLimit - 3

/-- The numbers that the program does not interpret. -/
def numbers (document : Document) : List Number :=
  document.elements.flatMap (fun element => Json.memberNumbers element.extra) ++
    document.lines.flatMap fun line => Json.memberNumbers line.extra

end Document

/-! ## Extra members -/

structure Spare (good : Number → Prop) (fields : List (String × Form))
    (extra : List (String × Value)) : Prop where
  sorted : Json.Sorted extra
  unknown : ∀ member ∈ extra, fields.lookup member.1 = none
  stored : ∀ member ∈ extra, Json.Storable good Document.extraDepth member.2

theorem spare_nil (good : Number → Prop) (fields : List (String × Form)) :
    Spare good fields [] :=
  ⟨List.Pairwise.nil, nofun, nofun⟩

section
variable {good : Number → Prop} {fields : List (String × Form)} {named extra : List (String × Value)}

theorem spare_others {members : List (String × Value)}
    (stored : ∀ member ∈ members, fields.lookup member.1 = none →
      Json.Storable good Document.extraDepth member.2) :
    Spare good fields (Member.others members fields) := by
  have unknown : ∀ member ∈ Member.others members fields,
      member ∈ members ∧ fields.lookup member.1 = none := by
    intro member inside
    have parts := List.mem_filter.mp (Json.mem_sortMembers member inside)
    exact ⟨parts.1, Option.isNone_iff_eq_none.mp parts.2⟩
  exact ⟨Json.sorted_sortMembers _, fun member inside => (unknown member inside).2,
    fun member inside => stored member (unknown member inside).1 (unknown member inside).2⟩

theorem Spare.imp {better : Number → Prop} (spare : Spare good fields extra)
    (improve : ∀ number ∈ Json.memberNumbers extra, good number → better number) :
    Spare better fields extra where
  sorted := spare.sorted
  unknown := spare.unknown
  stored member inside := (spare.stored member inside).imp fun number isNumber =>
    improve number (Json.mem_memberNumbers inside isNumber)

theorem Spare.lookup_eq_none (spare : Spare good fields extra) {name : String}
    (known : fields.lookup name ≠ none) : extra.lookup name = none := by
  refine List.lookup_eq_none_iff.mpr fun member inside => bne_iff_ne.mpr fun same => known ?_
  rw [same]
  exact spare.unknown member inside

/-- The fields that are written of a record. -/
structure Named (fields : List (String × Form)) (named : List (String × Value)) : Prop where
  distinct : (named.map (·.1)).Nodup
  fills : ∀ member ∈ named, ∃ form, fields.lookup member.1 = some form ∧
    ∀ level, Json.Rereads Document.extraDepth form level member.2

/-- The extra members are found again behind the fields. -/
theorem Spare.others_append (spare : Spare good fields extra) (isNamed : Named fields named) :
    Member.others (named ++ extra) fields = extra := by
  have noneNamed : named.filter (fun member => (fields.lookup member.1).isNone) = [] := by
    refine List.filter_eq_nil_iff.mpr fun member inside => ?_
    rcases isNamed.fills member inside with ⟨form, found, rereads⟩
    rw [found]
    exact Bool.false_ne_true
  have allExtra : extra.filter (fun member => (fields.lookup member.1).isNone) = extra := by
    refine List.filter_eq_self.mpr fun member inside => ?_
    rw [spare.unknown member inside]
    rfl
  rw [Member.others, List.filter_append, noneNamed, allExtra, List.nil_append,
    Json.sortMembers_of_sorted spare.sorted]

theorem Spare.distinct_append (spare : Spare good fields extra) (isNamed : Named fields named) :
    ((named ++ extra).map (·.1)).Nodup := by
  rw [List.map_append]
  refine List.nodup_append.mpr ⟨isNamed.distinct, spare.sorted.distinct, ?_⟩
  intro name isField other isExtra same
  rcases List.mem_map.mp isField with ⟨member, inside, rfl⟩
  rcases List.mem_map.mp isExtra with ⟨beside, outside, rfl⟩
  rcases isNamed.fills member inside with ⟨form, found, rereads⟩
  rw [same, spare.unknown beside outside] at found
  cases found

theorem Spare.rereads (spare : Spare Number.ReadsBack fields extra)
    (isNamed : Named fields named) (name : String) (level : Nat) :
    Json.Rereads (Document.extraDepth + 1) (.record name fields .kept false) level
      (.object (named ++ extra)) := by
  refine Json.rereads_record (spare.distinct_append isNamed) fun member inside => ?_
  rcases List.mem_append.mp inside with isField | isExtra
  · rcases isNamed.fills member isField with ⟨form, found, rereads⟩
    rw [found]
    exact rereads _
  · rw [spare.unknown member isExtra]
    exact (spare.stored member isExtra).rereads _

theorem fills_optional {name : String} (found : fields.lookup name = some .optionalText)
    (text? : Option String) :
    ∀ member ∈ Member.optional name text?, ∃ form, fields.lookup member.1 = some form ∧
      ∀ level, Json.Rereads Document.extraDepth form level member.2 := by
  cases text? with
  | none => exact nofun
  | some text =>
      intro member inside
      rw [List.mem_singleton.mp inside]
      exact ⟨_, found, fun _ => Json.rereads_string (.optionalText text)⟩

/-- A record that was read holds what it was read with under other names. -/
theorem yields_record (name : String) (cursor : Json.Cursor) :
    Json.Yields (fun value => ∃ members, value = .object members ∧
        Spare Number.Fits fields (Member.others members fields))
      (Json.readForm (Document.extraDepth + 1) (.record name fields .kept false) cursor) := by
  intro value after read
  let good (key : String) (value : Value) : Prop :=
    fields.lookup key = none → Json.Storable Number.Fits Document.extraDepth value
  have each (key : String) (cursor : Json.Cursor) : Json.Yields (good key)
      (Json.readForm Document.extraDepth ((fields.lookup key).getD .kept) cursor) := by
    intro value after read unknown
    rw [unknown] at read
    exact Json.storable_readForm_kept _ _ value after read
  have record : Json.Yields _
      (Json.readForm (Document.extraDepth + 1) (.record name fields .kept false) cursor) :=
    Json.yields_readForm_record each (by nofun) cursor
  rcases record value after read with ⟨members, rfl, stored⟩
  exact ⟨members, rfl, spare_others stored⟩

end

/-! ## Elements and lines -/

namespace ElementRecord

def named (element : ElementRecord) : List (String × Value) :=
  [("id", .string element.id), ("type", .string element.kind),
    ("left", .string element.left), ("top", .string element.top)] ++
  Member.optional "width" element.width ++ Member.optional "height" element.height ++
  [("text", .string element.text), ("isWeak", .bool element.isWeak),
    ("isPK", .bool element.isPrimaryKey)]

theorem isNamed_named (element : ElementRecord) : Named fields element.named where
  distinct := by
    unfold named
    cases element.width <;> cases element.height <;> simp [Member.optional]
  fills := by
    unfold named
    simp only [List.forall_mem_append, List.forall_mem_cons]
    refine ⟨⟨⟨⟨?_, ?_, ?_, ?_, nofun⟩, ?_⟩, ?_⟩, ?_, ?_, ?_, nofun⟩
    · exact ⟨.text, rfl, fun _ => Json.rereads_string (.text _)⟩
    · exact ⟨.text, rfl, fun _ => Json.rereads_string (.text _)⟩
    · exact ⟨.text, rfl, fun _ => Json.rereads_string (.text _)⟩
    · exact ⟨.text, rfl, fun _ => Json.rereads_string (.text _)⟩
    · exact fills_optional rfl element.width
    · exact fills_optional rfl element.height
    · exact ⟨.text, rfl, fun _ => Json.rereads_string (.text _)⟩
    · exact ⟨.flag, rfl, fun _ => Json.rereads_bool (.flag _)⟩
    · exact ⟨.flag, rfl, fun _ => Json.rereads_bool (.flag _)⟩

theorem ofValue_toValue {good : Number → Prop} {element : ElementRecord}
    (spare : Spare good fields element.extra) : ofValue element.toValue = element := by
  have others : Member.others (element.named ++ element.extra) fields = element.extra :=
    spare.others_append element.isNamed_named
  have noWidth : element.extra.lookup "width" = none := spare.lookup_eq_none nofun
  have noHeight : element.extra.lookup "height" = none := spare.lookup_eq_none nofun
  change ofValue (.object (element.named ++ element.extra)) = element
  rcases element with ⟨id, kind, left, top, width, height, text, isWeak, isPrimaryKey, extra⟩
  unfold ofValue
  dsimp only [Member.ofObject]
  rw [others]
  dsimp only at noWidth noHeight
  cases width <;> cases height <;>
    simp [named, Member.text, Member.text?, Member.flag, Member.optional, List.lookup_cons, noWidth,
      noHeight]

end ElementRecord

namespace LineRecord

def named (line : LineRecord) : List (String × Value) :=
  [("startId", .string line.startId), ("endId", .string line.finishId),
    ("cardStart", .string line.startCard), ("cardEnd", .string line.finishCard),
    ("lineType", .string line.lineType)]

theorem isNamed_named (line : LineRecord) : Named fields line.named where
  distinct := by simp [named]
  fills := by
    unfold named
    simp only [List.forall_mem_cons]
    refine ⟨?_, ?_, ?_, ?_, ?_, nofun⟩
    all_goals exact ⟨.text, rfl, fun _ => Json.rereads_string (.text _)⟩

theorem ofValue_toValue {good : Number → Prop} {line : LineRecord}
    (spare : Spare good fields line.extra) : ofValue line.toValue = line := by
  have others : Member.others (line.named ++ line.extra) fields = line.extra :=
    spare.others_append line.isNamed_named
  change ofValue (.object (line.named ++ line.extra)) = line
  unfold ofValue
  dsimp only [Member.ofObject]
  rw [others]
  simp [named, Member.text, List.lookup_cons]

end LineRecord

/-! ## Documents -/

namespace Document

/-- What may stand in a document that is saved. -/
structure Storable (good : Number → Prop) (document : Document) : Prop where
  elements : ∀ element ∈ document.elements, Spare good ElementRecord.fields element.extra
  lines : ∀ line ∈ document.lines, Spare good LineRecord.fields line.extra

variable {document : Document}

theorem Storable.imp {good better : Number → Prop} (storable : document.Storable good)
    (improve : ∀ number ∈ document.numbers, good number → better number) :
    document.Storable better where
  elements element inside := (storable.elements element inside).imp fun number isNumber =>
    improve number (List.mem_append_left _ (List.mem_flatMap.mpr ⟨element, inside, isNumber⟩))
  lines line inside := (storable.lines line inside).imp fun number isNumber =>
    improve number (List.mem_append_right _ (List.mem_flatMap.mpr ⟨line, inside, isNumber⟩))

theorem Storable.embed {good : Number → Prop} (storable : document.Storable good)
    (html : String) : (document.embed html).Storable good where
  elements element inside := by
    rcases List.mem_append.mp inside with old | new
    · exact storable.elements element old
    · rw [List.mem_singleton.mp new]
      exact spare_nil good _
  lines := storable.lines

theorem Storable.embedAll {good : Number → Prop} (storable : document.Storable good)
    (htmls : List String) : (htmls.foldl Document.embed document).Storable good :=
  List.foldlRecOn htmls _ storable fun _ embedded html _ => embedded.embed html

theorem ofValue_toValue {good : Number → Prop} (storable : document.Storable good) :
    ofValue document.toValue = document := by
  have elements : document.elements.map (ElementRecord.ofValue ∘ ElementRecord.toValue) =
      document.elements := by
    refine (List.map_congr_left fun element inside => ?_).trans (List.map_id _)
    exact ElementRecord.ofValue_toValue (storable.elements element inside)
  have lines : document.lines.map (LineRecord.ofValue ∘ LineRecord.toValue) = document.lines := by
    refine (List.map_congr_left fun line inside => ?_).trans (List.map_id _)
    exact LineRecord.ofValue_toValue (storable.lines line inside)
  calc ofValue document.toValue
      = ⟨(document.elements.map ElementRecord.toValue).map ElementRecord.ofValue,
          (document.lines.map LineRecord.toValue).map LineRecord.ofValue⟩ := rfl
    _ = document := by rw [List.map_map, List.map_map, elements, lines]

theorem Storable.rereads (storable : document.Storable Number.ReadsBack) :
    Json.Rereads Json.nestingLimit form 0 document.toValue := by
  have distinct : ["elements", "lines"].Nodup := by decide
  refine Json.rereads_record distinct ?_
  simp only [List.forall_mem_cons]
  refine ⟨?_, ?_, nofun⟩
  · refine Json.rereads_array rfl fun value inside => ?_
    rcases List.mem_map.mp inside with ⟨element, isElement, rfl⟩
    exact (storable.elements element isElement).rereads element.isNamed_named _ _
  · refine Json.rereads_array rfl fun value inside => ?_
    rcases List.mem_map.mp inside with ⟨line, isLine, rfl⟩
    exact (storable.lines line isLine).rereads line.isNamed_named _ _

theorem Storable.read_value (storable : document.Storable Number.ReadsBack) :
    Json.read form document.write = .ok document.toValue := by
  have written : document.write.toList = document.toValue.write 0 := String.toList_ofList
  have rereads := storable.rereads
  have opened := rereads.opens.skipBlanks [] ⟨1, 0⟩
  have start : (Json.Cursor.start document.write).skipBlanks.rest =
      document.toValue.write 0 ++ [] := by
    rw [List.append_nil] at opened ⊢
    rw [Json.Cursor.start, written, opened]
  rcases rereads.reads Json.ends_nil start with ⟨after, found⟩
  rw [Json.read, found]
  rfl

theorem Storable.read_write (storable : document.Storable Number.ReadsBack) :
    read document.write = .ok document := by
  rw [read, storable.read_value]
  exact congrArg Except.ok (ofValue_toValue storable)

theorem mem_records {members : List (String × Value)} {name : String} {item : Value}
    (inside : item ∈ Member.records members name) :
    ∃ items, (name, Value.array items) ∈ members ∧ item ∈ items := by
  unfold Member.records at inside
  split at inside
  case h_1 items found =>
    rcases List.lookup_eq_some_iff.mp found with ⟨front, back, rfl, unlike⟩
    exact ⟨items, List.mem_append_right _ List.mem_cons_self, inside⟩
  case h_2 => cases inside

/-- A list of records, each with extra members that can be stored. -/
def RecordList (fields : List (String × Form)) (value : Value) : Prop :=
  ∃ items, value = .array items ∧ ∀ item ∈ items, ∃ members, item = .object members ∧
    Spare Number.Fits fields (Member.others members fields)

theorem spare_of_mem_records {members : List (String × Value)} {fields : List (String × Form)}
    {name : String} (lists : ∀ member ∈ members, member.1 = name → RecordList fields member.2)
    {item : Value} (inside : item ∈ Member.records members name) :
    Spare Number.Fits fields (Member.others (Member.ofObject item) fields) := by
  rcases mem_records inside with ⟨items, isMember, isItem⟩
  rcases lists _ isMember rfl with ⟨same, equal, records⟩
  cases equal
  rcases records item isItem with ⟨held, rfl, spare⟩
  exact spare

/-- A member of a document holds the records that its name promises. -/
def Promised (name : String) (value : Value) : Prop :=
  (name = "elements" → RecordList ElementRecord.fields value) ∧
    (name = "lines" → RecordList LineRecord.fields value)

/-- What every element and every line that is read has, all of a document has. -/
theorem yields_lists {element line : Value → Prop}
    (ofElement : ∀ cursor, Json.Yields element
      (Json.readForm (extraDepth + 1) ElementRecord.form cursor))
    (ofLine : ∀ cursor, Json.Yields line (Json.readForm (extraDepth + 1) LineRecord.form cursor))
    (cursor : Json.Cursor) :
    Json.Yields (fun value => ∃ members, value = .object members ∧ ∀ member ∈ members,
        (member.1 = "elements" → ∃ items, member.2 = .array items ∧
          ∀ item ∈ items, element item) ∧
        (member.1 = "lines" → ∃ items, member.2 = .array items ∧ ∀ item ∈ items, line item))
      (Json.readForm Json.nestingLimit form cursor) := by
  let promised (name : String) (value : Value) : Prop :=
    (name = "elements" → ∃ items, value = .array items ∧ ∀ item ∈ items, element item) ∧
      (name = "lines" → ∃ items, value = .array items ∧ ∀ item ∈ items, line item)
  have each (name : String) (cursor : Json.Cursor) : Json.Yields (promised name)
      (Json.readForm (extraDepth + 2) ((fields.lookup name).getD .ignored) cursor) := by
    intro value after read
    constructor
    · rintro rfl
      exact Json.yields_readForm_list ofElement cursor value after read
    · rintro rfl
      exact Json.yields_readForm_list ofLine cursor value after read
  have inOrder : ∀ field ∈ fields, ∀ cursor, Json.Yields (promised field.1)
      (Json.readForm (extraDepth + 2) field.2 cursor) := by
    simp only [fields, List.forall_mem_cons]
    exact ⟨each "elements", each "lines", nofun⟩
  exact Json.yields_readForm_record each (fun _ => inOrder) cursor

theorem yields_document (cursor : Json.Cursor) :
    Json.Yields (fun value => ∃ members, value = .object members ∧
        ∀ member ∈ members, Promised member.1 member.2)
      (Json.readForm Json.nestingLimit form cursor) :=
  yields_lists (yields_record "ElementRecord") (yields_record "LineRecord") cursor

theorem storable_of_read {text : String} (isRead : read text = .ok document) :
    document.Storable Number.Fits := by
  rcases Json.map_eq_ok.mp isRead with ⟨value, accepted, rfl⟩
  rcases Json.readForm_of_read accepted with ⟨after, found⟩
  rcases yields_document _ value after found with ⟨members, rfl, promised⟩
  constructor
  · intro element inside
    rcases List.mem_map.mp inside with ⟨item, isItem, rfl⟩
    exact spare_of_mem_records (fun member isMember => (promised member isMember).1) isItem
  · intro line inside
    rcases List.mem_map.mp inside with ⟨item, isItem, rfl⟩
    exact spare_of_mem_records (fun member isMember => (promised member isMember).2) isItem

/-- Integers read back, so only the floats of a document need to be trusted. -/
theorem storable_readsBack {text : String} (isRead : read text = .ok document)
    (faithful : ∀ value, .float value ∈ document.numbers → (Number.float value).ReadsBack) :
    document.Storable Number.ReadsBack := by
  refine (storable_of_read isRead).imp fun number isNumber fits => ?_
  cases number with
  | integer value => exact Json.integer_readsBack fits
  | float value => exact faithful value isNumber

end Document

end ErSchema
