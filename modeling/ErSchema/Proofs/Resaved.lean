import ErSchema.Proofs.Json.Members
import ErSchema.Proofs.Listings
import ErSchema.Proofs.Saved
import Mathlib.Data.List.Forall2

/-! # What a document keeps when it is saved

A record that is read and written again has each of its fields, as given or by
default, and beside them exactly the members of other names, each with the value
that was given last. From the second time on nothing changes any more: what is
written is read as the document it was written from. -/

namespace ErSchema

open Json (Value Form Number)

/-! ## Records -/

/-- What is written for a field that was given so, or not at all. -/
def Json.Form.stored : Form → Option Value → Option Value
  | .text, none => some (.string "")
  | .flag, none => some (.bool false)
  | .optionalText, some .null => none
  | _, given? => given?

/-- The members that are written of a record that was given with these members. -/
structure Member.Kept (fields : List (String × Form)) (given written : List (String × Value)) :
    Prop where
  distinct : (written.map (·.1)).Nodup
  known : ∀ name form, fields.lookup name = some form →
    written.lookup name = form.stored (given.lookup name)
  unknown : ∀ name, fields.lookup name = none →
    written.lookup name = given.reverse.lookup name

/-- One record as it was given and as it is written. -/
def Preserved (fields : List (String × Form)) (given written : Value) : Prop :=
  ∃ before after, given = .object before ∧ written = .object after ∧
    Member.Kept fields before after

section
variable {members : List (String × Value)} {name : String}

/-- The members have values of this form under this name. -/
def Member.Takes (form : Form) (members : List (String × Value)) (name : String) : Prop :=
  ∀ value, members.lookup name = some value → form.Takes value

theorem Member.stored_text (takes : Member.Takes .text members name) :
    Form.text.stored (members.lookup name) = some (.string (Member.text members name)) := by
  unfold Member.text
  cases found : members.lookup name with
  | none => rfl
  | some value =>
      cases takes value found
      rfl

theorem Member.stored_flag (takes : Member.Takes .flag members name) :
    Form.flag.stored (members.lookup name) = some (.bool (Member.flag members name)) := by
  unfold Member.flag
  cases found : members.lookup name with
  | none => rfl
  | some value =>
      cases takes value found
      rfl

theorem Member.stored_optionalText (takes : Member.Takes .optionalText members name) :
    Form.optionalText.stored (members.lookup name) =
      (Member.text? members name).map .string := by
  unfold Member.text?
  cases found : members.lookup name with
  | none => rfl
  | some value => cases takes value found <;> rfl

end

section
variable {good : Number → Prop} {fields : List (String × Form)}
  {named given : List (String × Value)}

/-- Fields and unknown members do not get in each other's way. -/
theorem Member.kept_append (spare : Spare good fields (Member.others given fields))
    (isNamed : Named fields named)
    (known : ∀ name form, fields.lookup name = some form →
      named.lookup name = form.stored (given.lookup name)) :
    Member.Kept fields given (named ++ Member.others given fields) where
  distinct := spare.distinct_append isNamed
  known name form found := by
    have noExtra : (Member.others given fields).lookup name = none := by
      rw [Member.lookup_others, found]
      rfl
    rw [List.lookup_append, noExtra, Option.or_none, known name form found]
  unknown name missing := by
    have noField : named.lookup name = none := by
      refine List.lookup_eq_none_iff.mpr fun member inside => bne_iff_ne.mpr fun same => ?_
      rcases isNamed.fills member inside with ⟨form, found, _⟩
      rw [← same, missing] at found
      cases found
    rw [List.lookup_append, noField, Option.none_or, Member.lookup_others, missing]
    rfl

end

/-! ## Elements and lines -/

theorem Json.Typed.takes {fields : List (String × Form)} {members : List (String × Value)}
    (typed : Json.Typed fields (.object members)) {name : String} {form : Form}
    (found : fields.lookup name = some form) : Member.Takes form members name := by
  rcases typed with ⟨same, equal, each⟩
  cases equal
  intro value isValue
  exact each (name, value) (Json.mem_of_lookup isValue) form found

namespace ElementRecord

/-- The fields of an element are looked up in what is written of it. -/
theorem lookup_named (element : ElementRecord) :
    element.named.lookup "id" = some (.string element.id) ∧
      element.named.lookup "type" = some (.string element.kind) ∧
      element.named.lookup "left" = some (.string element.left) ∧
      element.named.lookup "top" = some (.string element.top) ∧
      element.named.lookup "width" = element.width.map .string ∧
      element.named.lookup "height" = element.height.map .string ∧
      element.named.lookup "text" = some (.string element.text) ∧
      element.named.lookup "isWeak" = some (.bool element.isWeak) ∧
      element.named.lookup "isPK" = some (.bool element.isPrimaryKey) := by
  unfold named
  cases element.width <;> cases element.height <;> simp [Member.optional, List.lookup_cons]

theorem preserved {good : Number → Prop} {given : Value}
    (typed : Json.Typed fields given) (spare : Spare good fields (ofValue given).extra) :
    Preserved fields given (ofValue given).toValue := by
  rcases typed with ⟨members, rfl, each⟩
  have takes {name : String} {form : Form} (found : fields.lookup name = some form) :
      Member.Takes form members name := Json.Typed.takes ⟨members, rfl, each⟩ found
  let element := ofValue (.object members)
  refine ⟨members, element.named ++ Member.others members fields, rfl, rfl, ?_⟩
  apply Member.kept_append spare element.isNamed_named
  intro name form found
  rcases element.lookup_named with
    ⟨id, kind, left, top, width, height, text, isWeak, isPrimaryKey⟩
  have isField := Json.mem_of_lookup found
  simp only [fields, List.mem_cons, List.not_mem_nil, or_false, Prod.mk.injEq] at isField
  rcases isField with ⟨rfl, rfl⟩ | ⟨rfl, rfl⟩ | ⟨rfl, rfl⟩ | ⟨rfl, rfl⟩ | ⟨rfl, rfl⟩ |
    ⟨rfl, rfl⟩ | ⟨rfl, rfl⟩ | ⟨rfl, rfl⟩ | ⟨rfl, rfl⟩
  · exact id.trans (Member.stored_text (takes found)).symm
  · exact kind.trans (Member.stored_text (takes found)).symm
  · exact left.trans (Member.stored_text (takes found)).symm
  · exact top.trans (Member.stored_text (takes found)).symm
  · exact width.trans (Member.stored_optionalText (takes found)).symm
  · exact height.trans (Member.stored_optionalText (takes found)).symm
  · exact text.trans (Member.stored_text (takes found)).symm
  · exact isWeak.trans (Member.stored_flag (takes found)).symm
  · exact isPrimaryKey.trans (Member.stored_flag (takes found)).symm

end ElementRecord

namespace LineRecord

theorem lookup_named (line : LineRecord) :
    line.named.lookup "startId" = some (.string line.startId) ∧
      line.named.lookup "endId" = some (.string line.finishId) ∧
      line.named.lookup "cardStart" = some (.string line.startCard) ∧
      line.named.lookup "cardEnd" = some (.string line.finishCard) ∧
      line.named.lookup "lineType" = some (.string line.lineType) := by
  simp [named, List.lookup_cons]

theorem preserved {good : Number → Prop} {given : Value}
    (typed : Json.Typed fields given) (spare : Spare good fields (ofValue given).extra) :
    Preserved fields given (ofValue given).toValue := by
  rcases typed with ⟨members, rfl, each⟩
  have takes {name : String} {form : Form} (found : fields.lookup name = some form) :
      Member.Takes form members name := Json.Typed.takes ⟨members, rfl, each⟩ found
  let line := ofValue (.object members)
  refine ⟨members, line.named ++ Member.others members fields, rfl, rfl, ?_⟩
  apply Member.kept_append spare line.isNamed_named
  intro name form found
  rcases line.lookup_named with ⟨startId, finishId, startCard, finishCard, lineType⟩
  have isField := Json.mem_of_lookup found
  simp only [fields, List.mem_cons, List.not_mem_nil, or_false, Prod.mk.injEq] at isField
  rcases isField with ⟨rfl, rfl⟩ | ⟨rfl, rfl⟩ | ⟨rfl, rfl⟩ | ⟨rfl, rfl⟩ | ⟨rfl, rfl⟩
  · exact startId.trans (Member.stored_text (takes found)).symm
  · exact finishId.trans (Member.stored_text (takes found)).symm
  · exact startCard.trans (Member.stored_text (takes found)).symm
  · exact finishCard.trans (Member.stored_text (takes found)).symm
  · exact lineType.trans (Member.stored_text (takes found)).symm

end LineRecord

/-! ## Documents -/

/-- The number is no float. -/
def Json.Number.isInteger : Number → Bool
  | .integer _ => true
  | .float _ => false

namespace Document

variable {document : Document}

theorem typed_of_mem_records {fields : List (String × Form)} {members : List (String × Value)}
    {name : String}
    (lists : ∀ member ∈ members, member.1 = name → ∃ items, member.2 = .array items ∧
      ∀ item ∈ items, Json.Typed fields item) :
    ∀ item ∈ Member.records members name, Json.Typed fields item := by
  intro item inside
  rcases mem_records inside with ⟨items, isMember, isItem⟩
  rcases lists _ isMember rfl with ⟨same, equal, each⟩
  cases equal
  exact each item isItem

/-- Elements and lines correspond to the records that were given, one by one. -/
theorem preserved_of_read {text : String} (isRead : read text = .ok document) :
    ∃ members, Json.read form text = .ok (.object members) ∧
      List.Forall₂ (Preserved ElementRecord.fields) (Member.records members "elements")
        (document.elements.map ElementRecord.toValue) ∧
      List.Forall₂ (Preserved LineRecord.fields) (Member.records members "lines")
        (document.lines.map LineRecord.toValue) := by
  have storable := storable_of_read isRead
  rcases Json.map_eq_ok.mp isRead with ⟨value, accepted, rfl⟩
  rcases Json.readForm_of_read accepted with ⟨after, found⟩
  have element : ∀ field ∈ ElementRecord.fields, field.2.isPlain = true := by decide
  have line : ∀ field ∈ LineRecord.fields, field.2.isPlain = true := by decide
  rcases yields_lists (Json.typed_readForm_record element _ "ElementRecord" .kept)
      (Json.typed_readForm_record line _ "LineRecord" .kept) _ value after found with
    ⟨members, rfl, lists⟩
  have elements := typed_of_mem_records fun member inside => (lists member inside).1
  have lines := typed_of_mem_records fun member inside => (lists member inside).2
  refine ⟨members, accepted, ?_, ?_⟩
  · dsimp only [ofValue, Member.ofObject]
    rw [List.forall₂_map_right_iff, List.forall₂_map_right_iff, List.forall₂_same]
    intro item inside
    exact ElementRecord.preserved (elements item inside)
      (storable.elements _ (List.mem_map_of_mem inside))
  · dsimp only [ofValue, Member.ofObject]
    rw [List.forall₂_map_right_iff, List.forall₂_map_right_iff, List.forall₂_same]
    intro item inside
    exact LineRecord.preserved (lines item inside)
      (storable.lines _ (List.mem_map_of_mem inside))

/-- Listings stand behind the elements, without members of their own. -/
theorem exists_listings (document : Document) (htmls : List String) :
    ∃ listings, (htmls.foldl embed document).elements = document.elements ++ listings ∧
      listings.length = htmls.length ∧ (∀ listing ∈ listings, listing.extra = []) ∧
      (htmls.foldl embed document).lines = document.lines := by
  refine ⟨document.listings htmls, ?_, length_listings document htmls,
    extra_listings document htmls, ?_⟩
  · rw [foldl_embed]
  · rw [foldl_embed]

/-- A document that was read, with any number of listings embedded, is read from
its own text as it is, so writing it again gives the same text. What that text
holds of each record is what the first text held: the fields, as given or by
default, and exactly the members of other names, each as it was given last.
Floats are taken to be read as they are written. -/
theorem rereads_embedded {text : String} (isRead : read text = .ok document)
    (faithful : ∀ value, .float value ∈ document.numbers → (Number.float value).ReadsBack)
    (htmls : List String) :
    let embedded := htmls.foldl embed document
    (∃ reread, read embedded.write = .ok reread ∧ reread = embedded ∧
        reread.write = embedded.write) ∧
      Json.read form embedded.write = .ok embedded.toValue ∧
      (∃ listings, embedded.elements = document.elements ++ listings ∧
        listings.length = htmls.length ∧ (∀ listing ∈ listings, listing.extra = []) ∧
        embedded.lines = document.lines) ∧
      ∃ members, Json.read form text = .ok (.object members) ∧
        List.Forall₂ (Preserved ElementRecord.fields) (Member.records members "elements")
          (document.elements.map ElementRecord.toValue) ∧
        List.Forall₂ (Preserved LineRecord.fields) (Member.records members "lines")
          (document.lines.map LineRecord.toValue) := by
  intro embedded
  have storable : embedded.Storable Number.ReadsBack :=
    (storable_readsBack isRead faithful).embedAll htmls
  exact ⟨⟨embedded, storable.read_write, rfl, rfl⟩, storable.read_value,
    exists_listings document htmls, preserved_of_read isRead⟩

/-- The lists of elements and lines without their names; `z` is given twice. -/
def unnamedLists : String :=
  "[[\x7b\"z\":1,\"id\":\"a\",\"width\":null,\"z\":[-7]\x7d],[\x7b\"k\":null\x7d]]"

/-- The last `z` is kept, and what is kept is read again after two listings. -/
theorem rereads_embedded_unnamedLists :
    ∃ document, read unnamedLists = .ok document ∧
      (∀ value, .float value ∉ document.numbers) ∧
      document.elements.all (fun element => Json.sameMembers element.extra
        [("z", .array [.number (.integer (-7))])]) = true ∧
      let embedded := ["<table>", ""].foldl embed document
      read embedded.write = .ok embedded := by
  have evaluated : ((read unnamedLists).toOption.any fun document =>
      document.numbers.all Number.isInteger &&
        document.elements.all fun element => Json.sameMembers element.extra
          [("z", .array [.number (.integer (-7))])]) = true := by
    decide +kernel
  cases isRead : read unnamedLists with
  | error failure =>
      rw [isRead] at evaluated
      cases evaluated
  | ok document =>
      rw [isRead] at evaluated
      rcases Bool.and_eq_true_iff.mp evaluated with ⟨integers, kept⟩
      have noFloats : ∀ value, .float value ∉ document.numbers := fun value inside =>
        Bool.false_ne_true (List.all_eq_true.mp integers _ inside)
      rcases rereads_embedded isRead (fun value inside => absurd inside (noFloats value))
        ["<table>", ""] with ⟨⟨reread, again, rfl, _⟩, _⟩
      exact ⟨document, rfl, noFloats, kept, again⟩

end Document

end ErSchema
