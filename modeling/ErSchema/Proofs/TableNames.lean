import ErSchema.Proofs.Outline
import ErSchema.Proofs.References
import ErSchema.Proofs.Sql.Declared
import Mathlib

/-! # The names of tables

A table has the name of an entity or of a relationship, or it keeps the values of a
multivalued attribute with the key of a holder and is named after the two, with an
underscore between them. Names are put together without looking at those that there
are already, so whether they are distinct can be read off the drawing. -/

namespace ErSchema

/-! ## Lists -/

theorem flatMap_if_singleton {α β : Type} (wanted : α → Bool) (make : α → β) (members : List α) :
    (members.flatMap fun member => if wanted member then [make member] else []) =
      (members.filter wanted).map make := by
  induction members with
  | nil => rfl
  | cons member rest induction =>
      rw [List.flatMap_cons, induction]
      cases kept : wanted member <;> simp [kept]

/-- Each member of the result tells what it was made from. -/
theorem nodup_flatMap_of_made {α β : Type} {members : List α} {make : α → List β}
    (maker : β → α) (distinct : members.Nodup) (each : ∀ member ∈ members, (make member).Nodup)
    (made : ∀ member ∈ members, ∀ result ∈ make member, maker result = member) :
    (members.flatMap make).Nodup := by
  refine List.nodup_flatMap.mpr ⟨each, distinct.imp_of_mem ?_⟩
  intro left right isLeft isRight differ result fromLeft fromRight
  exact differ ((made left isLeft result fromLeft).symm.trans (made right isRight result fromRight))

theorem split_at_mark {mark : Char} {front other back rest : List Char}
    (free : mark ∉ front) (otherFree : mark ∉ other)
    (same : front ++ mark :: back = other ++ mark :: rest) : front = other ∧ back = rest := by
  induction front generalizing other with
  | nil =>
      cases other with
      | nil => exact ⟨rfl, (List.cons.inj same).2⟩
      | cons head tail => exact absurd (List.cons.inj same).1 (List.ne_of_not_mem_cons otherFree)
  | cons head tail induction =>
      cases other with
      | nil => exact absurd (List.cons.inj same).1.symm (List.ne_of_not_mem_cons free)
      | cons next others =>
          rcases List.cons.inj same with ⟨sameHead, sameTail⟩
          rcases induction (List.not_mem_of_not_mem_cons free)
            (List.not_mem_of_not_mem_cons otherFree) sameTail with ⟨sameFront, sameBack⟩
          exact ⟨by rw [sameHead, sameFront], sameBack⟩

/-! ## Which tables there are -/

/-- The values of a multivalued attribute of the source, kept with the key of the
holder. -/
@[ext] structure ValueSet where
  source : Node
  holder : Node
  attributeName : String

def ValueSet.tableName (values : ValueSet) : String :=
  values.holder.name ++ "_" ++ values.attributeName

namespace Adjacency

/-- The nodes with attributes to be stored, in the order in which these are looked
for. -/
def owners (index : Adjacency) : List Node :=
  index.entities ++ Derivation.relationshipsOf index

/-- The nodes with tables of their own. -/
def tableOwners (index : Adjacency) : List Node :=
  index.entities ++ (Derivation.relationshipsOf index).filter (Resolution.needsJunction index)

/-- Where the values of the attributes of a node are kept: with itself, if it has a
table. -/
def keepers (index : Adjacency) (source : Node) : List Node :=
  if source.isEntity || Resolution.needsJunction index source then [source]
  else Resolution.holders index index.ownerships source

def valueSetsOf (index : Adjacency) (source : Node) : List ValueSet :=
  (index.keepers source).flatMap fun holder =>
    (index.attributesOf source).multivalued.map fun name => ⟨source, holder, name⟩

def valueSets (index : Adjacency) : List ValueSet :=
  index.owners.flatMap index.valueSetsOf

theorem mem_valueSets {index : Adjacency} {values : ValueSet} :
    values ∈ index.valueSets ↔
      values.source ∈ index.owners ∧
        values.holder ∈ index.keepers values.source ∧
          values.attributeName ∈ (index.attributesOf values.source).multivalued := by
  simp only [valueSets, valueSetsOf, List.mem_flatMap, List.mem_map]
  constructor
  · rintro ⟨source, isSource, holder, isHolder, name, isName, rfl⟩
    exact ⟨isSource, isHolder, isName⟩
  · rcases values with ⟨source, holder, name⟩
    rintro ⟨isSource, isHolder, isName⟩
    exact ⟨source, isSource, holder, isHolder, name, isName, rfl⟩

theorem names_valueSetsOf (index : Adjacency) (source : Node) :
    (index.valueSetsOf source).map ValueSet.tableName =
      (index.keepers source).flatMap fun holder =>
        (index.valueCaptions source holder.name).map Prod.snd := by
  simp only [valueSetsOf, valueCaptions, List.map_flatMap, List.map_map]
  rfl

theorem names_valueSetsOf_entity {index : Adjacency} {entity : Node}
    (member : entity ∈ index.entities) :
    (index.valueSetsOf entity).map ValueSet.tableName =
      (index.valueCaptions entity entity.name).map Prod.snd := by
  have isEntity := (mem_entities.mp member).2
  rw [names_valueSetsOf, keepers, if_pos (by simp [isEntity]), List.flatMap_singleton]

theorem names_relationshipCaptions {index : Adjacency} {relationship : Node}
    (isRelationship : relationship.isRelationship = true) :
    (index.relationshipCaptions relationship).map Prod.snd =
      (if Resolution.needsJunction index relationship then [relationship.name] else []) ++
        (index.valueSetsOf relationship).map ValueSet.tableName := by
  have notEntity : relationship.isEntity = false := by
    simp only [Node.isRelationship, decide_eq_true_eq] at isRelationship
    simp [Node.isEntity, isRelationship]
  rw [names_valueSetsOf, keepers, relationshipCaptions, notEntity, Bool.false_or]
  split
  · simp
  · rw [List.nil_append, List.map_flatMap]

end Adjacency

namespace Derivation

section
variable {index : Adjacency} (wellFormed : index.WellFormed) (limit : Option Nat)
include wellFormed

theorem names_entities :
    (resolution index limit).tables.toTables.map Table.name = index.entities.map Node.name := by
  have captions := congrArg (List.map Prod.snd) (captions_entities wellFormed limit)
  rwa [List.map_map, List.map_map] at captions

theorem names_multivaluedTables {entity : Node} (member : entity ∈ index.entities) :
    (multivaluedTables index (resolution index limit).tables entity).map Table.name =
      (index.valueSetsOf entity).map ValueSet.tableName := by
  have captions := congrArg (List.map Prod.snd) (captions_values wellFormed limit member entity)
  rw [List.map_map, ← Adjacency.names_valueSetsOf_entity member] at captions
  exact captions

theorem names_derivedBy {relationship : Node} (member : relationship ∈ relationshipsOf index) :
    (Resolution.derivedBy index index.ownerships (resolution index limit).tables
        relationship).map Table.name =
      (if Resolution.needsJunction index relationship then [relationship.name] else []) ++
        (index.valueSetsOf relationship).map ValueSet.tableName := by
  have captions := congrArg (List.map Prod.snd) (captions_derivedBy wellFormed limit relationship)
  rw [List.map_map, Adjacency.names_relationshipCaptions (List.mem_filter.mp member).2] at captions
  exact captions

end

/-- The names of the nodes with tables, and those of the tables of values. -/
theorem perm_tableNames (diagram : Diagram) (limit : Option Nat) :
    let index := Adjacency.ofDiagram diagram
    ((ofDiagram diagram limit).schema.tables.map Table.name).Perm
      (index.tableOwners.map Node.name ++ index.valueSets.map ValueSet.tableName) := by
  intro index
  have wellFormed : index.WellFormed := Adjacency.wellFormed_ofDiagram diagram
  let ownNames (relationship : Node) : List String :=
    if Resolution.needsJunction index relationship then [relationship.name] else []
  let valueNames (source : Node) : List String :=
    (index.valueSetsOf source).map ValueSet.tableName
  have tables : (ofDiagram diagram limit).schema.tables.map Table.name =
      index.entities.map Node.name ++ index.entities.flatMap valueNames ++
        (relationshipsOf index).flatMap fun relationship =>
          ownNames relationship ++ valueNames relationship := by
    rw [tables_ofDiagram_final, List.map_append, List.map_append, names_entities wellFormed,
      List.map_flatMap, List.map_flatMap,
      List.flatMap_congr fun entity => names_multivaluedTables wellFormed limit,
      List.flatMap_congr fun relationship => names_derivedBy wellFormed limit]
  have junctions : (relationshipsOf index).flatMap ownNames =
      ((relationshipsOf index).filter (Resolution.needsJunction index)).map Node.name :=
    flatMap_if_singleton _ _ _
  have parted : ((relationshipsOf index).flatMap ownNames ++
      (relationshipsOf index).flatMap valueNames).Perm
        ((relationshipsOf index).flatMap fun relationship =>
          ownNames relationship ++ valueNames relationship) :=
    List.flatMap_append_perm _ _ _
  rw [tables, Adjacency.tableOwners, List.map_append, ← junctions, Adjacency.valueSets,
    List.map_flatMap, Adjacency.owners, List.flatMap_append]
  refine (parted.symm.append_left _).trans ?_
  rw [List.append_assoc, List.append_assoc]
  apply List.Perm.append_left
  rw [← List.append_assoc, ← List.append_assoc]
  exact List.perm_append_comm.append_right _

end Derivation

/-! ## When names are distinct -/

namespace Adjacency

/-- Names of entities and relationships are distinct, and none of these nodes has two
multivalued attributes of one name. -/
structure DistinctlyNamed (index : Adjacency) : Prop where
  owners : (index.owners.map Node.name).Nodup
  attributes : ∀ owner ∈ index.owners, (index.attributesOf owner).multivalued.Nodup

/-- No entity takes the multivalued attributes of a relationship twice. -/
def TakesOnce (index : Adjacency) : Prop :=
  ∀ relationship ∈ Derivation.relationshipsOf index,
    (index.attributesOf relationship).multivalued ≠ [] →
      (Resolution.holders index index.ownerships relationship).Nodup

section
variable {index : Adjacency}

theorem eq_of_name_eq (named : index.DistinctlyNamed) {left right : Node}
    (isLeft : left ∈ index.owners) (isRight : right ∈ index.owners)
    (same : left.name = right.name) : left = right :=
  List.inj_on_of_nodup_map named.owners isLeft isRight same

theorem tableOwners_sublist (index : Adjacency) : index.tableOwners.Sublist index.owners :=
  (List.Sublist.refl _).append List.filter_sublist

theorem WellFormed.nodup_owners (wellFormed : index.WellFormed) : index.owners.Nodup := by
  have nodes : index.nodes.Nodup := wellFormed.distinct.of_map Node.id
  refine (nodes.filter _).append (nodes.filter _) fun node isEntity isRelationship => ?_
  have entityKind := (List.mem_filter.mp isEntity).2
  have relationshipKind := (List.mem_filter.mp isRelationship).2
  simp only [Node.isEntity, Node.isRelationship, decide_eq_true_eq] at entityKind relationshipKind
  exact absurd (entityKind.symm.trans relationshipKind) (by decide)

theorem DistinctlyNamed.nodup_tableOwners (named : index.DistinctlyNamed) :
    (index.tableOwners.map Node.name).Nodup :=
  named.owners.sublist ((tableOwners_sublist index).map Node.name)

theorem TakesOnce.nodup_keepers (once : index.TakesOnce) {source : Node}
    (isSource : source ∈ index.owners) (takes : (index.attributesOf source).multivalued ≠ []) :
    (index.keepers source).Nodup := by
  rw [keepers]
  split
  case isTrue => exact List.nodup_singleton source
  case isFalse others =>
    rcases List.mem_append.mp isSource with isEntity | isRelationship
    · exact absurd (by simp [(mem_entities.mp isEntity).2]) others
    · exact once source isRelationship takes

theorem nodup_valueSets (wellFormed : index.WellFormed) (named : index.DistinctlyNamed)
    (once : index.TakesOnce) : index.valueSets.Nodup := by
  refine nodup_flatMap_of_made ValueSet.source wellFormed.nodup_owners ?_ ?_
  · intro source isSource
    by_cases takes : (index.attributesOf source).multivalued = []
    · have none : index.valueSetsOf source = [] := by
        rw [valueSetsOf, takes]
        exact List.flatMap_eq_nil_iff.mpr fun _ _ => rfl
      exact none ▸ List.nodup_nil
    refine nodup_flatMap_of_made ValueSet.holder (once.nodup_keepers isSource takes) ?_ ?_
    · intro holder _
      refine (named.attributes source isSource).map fun left right same => ?_
      exact congrArg ValueSet.attributeName same
    · intro holder _ values isMade
      rcases List.mem_map.mp isMade with ⟨name, _, rfl⟩
      rfl
  · intro source _ values isMade
    rcases List.mem_flatMap.mp isMade with ⟨holder, _, listed⟩
    rcases List.mem_map.mp listed with ⟨name, _, rfl⟩
    rfl

theorem mem_owners_of_mem_keepers (wellFormed : index.WellFormed) {source holder : Node}
    (isSource : source ∈ index.owners) (member : holder ∈ index.keepers source) :
    holder ∈ index.owners := by
  rw [keepers] at member
  split at member
  case isTrue => exact List.mem_singleton.mp member ▸ isSource
  case isFalse =>
    exact List.mem_append_left _ (Resolution.mem_entities_of_mem_holders wellFormed member)

end

/-- No table of values is named like a table of an entity or a relationship, and no two
tables of values have the same name. -/
structure KeepsNamesApart (index : Adjacency) : Prop where
  fromOwners : ∀ values ∈ index.valueSets, ∀ owner ∈ index.tableOwners,
    values.tableName ≠ owner.name
  fromValues : ∀ left ∈ index.valueSets, ∀ right ∈ index.valueSets,
    left.tableName = right.tableName → left = right

end Adjacency

theorem ValueSet.toList_tableName (values : ValueSet) :
    values.tableName.toList = values.holder.name.toList ++ '_' :: values.attributeName.toList := by
  rw [tableName, String.toList_append, String.toList_append, List.append_assoc]
  rfl

namespace Adjacency

/-- Without underscores in the names of entities and relationships, names of tables
clash only if a holder takes attributes of one name from two sources. -/
theorem keepsNamesApart_iff_of_no_underscore {index : Adjacency} (wellFormed : index.WellFormed)
    (named : index.DistinctlyNamed) (plain : ∀ owner ∈ index.owners, '_' ∉ owner.name.toList) :
    index.KeepsNamesApart ↔ ∀ left ∈ index.valueSets, ∀ right ∈ index.valueSets,
      left.holder = right.holder → left.attributeName = right.attributeName →
        left.source = right.source := by
  have isHolder {values : ValueSet} (member : values ∈ index.valueSets) :
      values.holder ∈ index.owners := by
    rcases mem_valueSets.mp member with ⟨isSource, isKeeper, _⟩
    exact mem_owners_of_mem_keepers wellFormed isSource isKeeper
  constructor
  · intro apart left isLeft right isRight sameHolder sameName
    have sameTable : left.tableName = right.tableName := by
      rw [ValueSet.tableName, sameHolder, sameName, ValueSet.tableName]
    exact congrArg ValueSet.source (apart.fromValues left isLeft right isRight sameTable)
  · intro single
    constructor
    · intro values member owner isOwner same
      apply plain owner ((tableOwners_sublist index).subset isOwner)
      rw [← same, ValueSet.toList_tableName]
      exact List.mem_append_right _ List.mem_cons_self
    · intro left isLeft right isRight same
      have parts := congrArg String.toList same
      rw [ValueSet.toList_tableName, ValueSet.toList_tableName] at parts
      rcases split_at_mark (plain _ (isHolder isLeft)) (plain _ (isHolder isRight)) parts with
        ⟨sameHolderName, sameAttribute⟩
      have sameHolder : left.holder = right.holder :=
        eq_of_name_eq named (isHolder isLeft) (isHolder isRight) (String.toList_inj.mp sameHolderName)
      have sameName := String.toList_inj.mp sameAttribute
      exact ValueSet.ext (single left isLeft right isRight sameHolder sameName) sameHolder sameName

end Adjacency

namespace Derivation

section
variable {diagram : Diagram} {limit : Option Nat}

theorem exists_table_of_entity {entity : Node}
    (member : entity ∈ (Adjacency.ofDiagram diagram).entities) :
    ∃ target ∈ (ofDiagram diagram limit).schema.tables, target.name = entity.name := by
  rcases exists_get?_resolution (Adjacency.wellFormed_ofDiagram diagram) limit member with
    ⟨table, found, name, _⟩
  exact ⟨table, List.mem_append_left _ (List.mem_append_left _
    (TableMap.mem_toTables_of_get? found)), name⟩

/-- A reference names a table. In a table of values it is the holder's; elsewhere it is
that of an entity. -/
theorem exists_target {table : Table} (member : table ∈ (ofDiagram diagram limit).schema.tables)
    {column : Column} (isColumn : column ∈ table.columns) {source : String}
    (isSource : source ∈ column.source) :
    ∃ target ∈ (ofDiagram diagram limit).schema.tables, target.name = source := by
  let index := Adjacency.ofDiagram diagram
  have wellFormed : index.WellFormed := Adjacency.wellFormed_ofDiagram diagram
  have reached := reached_resolution wellFormed limit
  by_cases multivalued : table.kind = .multivalued
  · rcases exists_owner_of_multivalued limit member multivalued with ⟨owner, isOwner, _, _, rfl⟩
    rcases Table.mem_columns_multivalued isColumn with ⟨key, _, rfl⟩ | ⟨_, rfl⟩
    · exact ⟨owner, isOwner, Option.some.inj isSource⟩
    · cases isSource
  rcases List.mem_append.mp member with front | derived
  · rcases List.mem_append.mp front with own | values
    · rcases reached.tables.exists_before own with ⟨before, isBefore, appends⟩
      rcases appends.columns with ⟨added, columns, folded⟩
      rcases List.mem_append.mp (columns ▸ isColumn) with old | new
      · have resolves := (resolves_settled wellFormed limit before isBefore).columns column old
        rcases resolves.keyed source isSource with ⟨target, isTarget, rfl, _⟩
        rcases reached.tables.exists_after isTarget with ⟨later, isLater, since⟩
        exact ⟨later, List.mem_append_left _ (List.mem_append_left _ isLater), since.name⟩
      · rcases folded column new with ⟨_, rfl⟩ | ⟨target, isTarget, _, _, rfl⟩
        · cases isSource
        · cases isSource
          exact exists_table_of_entity isTarget
    · exact absurd (kind_of_mem_multivaluedTables values) multivalued
  · cases reached.derived table derived with
    | junction relationship attributes entities =>
        rcases mem_columns_junctionTable isColumn with
          ⟨_, without⟩ | ⟨participant, isParticipant, _, _, given⟩
        · cases without.symm.trans isSource
        · cases given.symm.trans isSource
          exact exists_table_of_entity (entities participant isParticipant)
    | ofEntity => exact absurd (Table.multivalued_kind _ _) multivalued
    | ofJunction => exact absurd (Table.multivalued_kind _ _) multivalued

/-- Names of tables are spelled like the names in the drawing. -/
theorem spelled_tableNames {fits : String → Prop} (spelling : Spelling fits)
    (drawn : diagram.Spelled fits) (limit : Option Nat) :
    ∀ table ∈ (ofDiagram diagram limit).schema.tables, fits table.name := by
  let index := Adjacency.ofDiagram diagram
  have wellFormed : index.WellFormed := Adjacency.wellFormed_ofDiagram diagram
  have spelled : index.Spelled fits := Adjacency.spelled_ofDiagram drawn
  have owners : ∀ owner ∈ index.owners, fits owner.name := by
    intro owner member
    rcases List.mem_append.mp member with isEntity | isRelationship
    · rcases List.mem_filter.mp isEntity with ⟨isNode, kind⟩
      exact spelled owner isNode (by simp [kind])
    · rcases List.mem_filter.mp isRelationship with ⟨isNode, kind⟩
      exact spelled owner isNode (by simp [kind])
  intro table member
  have isName := (perm_tableNames diagram limit).mem_iff.mp (List.mem_map_of_mem member)
  rcases List.mem_append.mp isName with own | values
  · rcases List.mem_map.mp own with ⟨owner, isOwner, same⟩
    exact same ▸ owners owner ((Adjacency.tableOwners_sublist index).subset isOwner)
  · rcases List.mem_map.mp values with ⟨values, isValues, same⟩
    rcases Adjacency.mem_valueSets.mp isValues with ⟨isSource, isKeeper, isAttribute⟩
    have holder := owners _ (Adjacency.mem_owners_of_mem_keepers wellFormed isSource isKeeper)
    have fit := (spelled.named.attributesOf wellFormed values.source).multivalued _ isAttribute
    rw [← same]
    exact spelling.append (spelling.append holder (spelling.words "_" (by decide))) fit

end

/-- With distinct names of entities and relationships, and distinct names of the
multivalued attributes of each, the names of tables are distinct exactly if no table of
values has the name of another table. Then every reference has one target, and the
statements create tables of distinct names exactly if no two names have one identifier,
as when no name in the drawing has a blank. -/
theorem tableNames_nodup_iff (diagram : Diagram) (limit : Option Nat)
    (named : (Adjacency.ofDiagram diagram).DistinctlyNamed)
    (once : (Adjacency.ofDiagram diagram).TakesOnce) :
    let index := Adjacency.ofDiagram diagram
    let tables := (ofDiagram diagram limit).schema.tables
    ((tables.map Table.name).Nodup ↔ index.KeepsNamesApart) ∧
      ((∀ owner ∈ index.owners, '_' ∉ owner.name.toList) →
        (index.KeepsNamesApart ↔ ∀ left ∈ index.valueSets, ∀ right ∈ index.valueSets,
          left.holder = right.holder → left.attributeName = right.attributeName →
            left.source = right.source)) ∧
      ((tables.map Table.name).Nodup →
        (∀ table ∈ tables, ∀ column ∈ table.columns, ∀ source ∈ column.source,
          ∃! target, target ∈ tables ∧ target.name = source) ∧
        ((tables.map fun table => (Sql.Statement.ofTable table).name).Nodup ↔
          ∀ left ∈ tables, ∀ right ∈ tables,
            Sql.identifier left.name = Sql.identifier right.name → left.name = right.name) ∧
        (diagram.Spelled (fun name => Text.Unbroken name.toList) →
          (tables.map fun table => (Sql.Statement.ofTable table).name).Nodup)) := by
  intro index tables
  have wellFormed : index.WellFormed := Adjacency.wellFormed_ofDiagram diagram
  have names := perm_tableNames diagram limit
  refine ⟨?_, Adjacency.keepsNamesApart_iff_of_no_underscore wellFormed named,
    fun distinct => ⟨?_, ?_, fun drawn => ?_⟩⟩
  · rw [names.nodup_iff, List.nodup_append]
    constructor
    · rintro ⟨_, values, apart⟩
      refine ⟨fun value isValue owner isOwner same => ?_,
        fun left isLeft right isRight => List.inj_on_of_nodup_map values isLeft isRight⟩
      exact apart _ (List.mem_map_of_mem isOwner) _ (List.mem_map_of_mem isValue) same.symm
    · rintro ⟨fromOwners, fromValues⟩
      refine ⟨named.nodup_tableOwners,
        (Adjacency.nodup_valueSets wellFormed named once).map_on
          fun left isLeft right isRight => fromValues left isLeft right isRight, ?_⟩
      intro name isOwn other isOther same
      rcases List.mem_map.mp isOwn with ⟨owner, isOwner, rfl⟩
      rcases List.mem_map.mp isOther with ⟨value, isValue, rfl⟩
      exact fromOwners value isValue owner isOwner same.symm
  · intro table member column isColumn source isSource
    rcases exists_target member isColumn isSource with ⟨target, isTarget, rfl⟩
    refine ⟨target, ⟨isTarget, rfl⟩, fun other same => ?_⟩
    exact List.inj_on_of_nodup_map distinct same.1 isTarget same.2
  · rw [List.nodup_map_iff_inj_on (distinct.of_map Table.name)]
    constructor
    · exact fun apart left isLeft right isRight same =>
        congrArg Table.name (apart left isLeft right isRight same)
    · exact fun apart left isLeft right isRight same =>
        List.inj_on_of_nodup_map distinct isLeft isRight (apart left isLeft right isRight same)
  · have unbroken := spelled_tableNames Sql.spelling_unbroken drawn limit
    have same : tables.map (fun table => (Sql.Statement.ofTable table).name) =
        tables.map Table.name :=
      List.map_congr_left fun table member => Sql.identifier_of_unbroken (unbroken table member)
    rwa [same]

/-- Persons have several phone numbers and use devices, whose entity may be called like
the table of the numbers; the use of a device has remarks. -/
def phoneBook (isTaken : Bool) : Diagram where
  nodes := [Node.entity "p" "Person", (Node.simpleAttribute "i" "ssn").primaryKey,
    Node.multivaluedAttribute "m" "phone",
    Node.entity "d" (if isTaken then "Person_phone" else "Device"),
    (Node.simpleAttribute "n" "no").primaryKey, Node.relationship "u" "Uses",
    Node.multivaluedAttribute "r" "remark"]
  edges := [.between "p" "i", .between "p" "m", .between "d" "n",
    (Edge.between "p" "u").withCards "1" "", (Edge.between "u" "d").withCards "" "N",
    .between "u" "r"]

theorem multivalued_nodup_phoneBook (isTaken : Bool) :
    ∀ owner ∈ (Adjacency.ofDiagram (phoneBook isTaken)).owners,
      ((Adjacency.ofDiagram (phoneBook isTaken)).attributesOf owner).multivalued.Nodup := by
  have multivalued : (Adjacency.ofDiagram (phoneBook isTaken)).owners.map (fun owner =>
      ((Adjacency.ofDiagram (phoneBook isTaken)).attributesOf owner).multivalued) =
        [["phone"], [], ["remark"]] := by
    cases isTaken <;> cbv
  have all : ∀ names ∈ [["phone"], [], ["remark"]], names.Nodup := by decide
  rw [← multivalued] at all
  exact List.forall_mem_map.mp all

theorem takesOnce_phoneBook : (Adjacency.ofDiagram (phoneBook false)).TakesOnce := by
  have holders : (relationshipsOf (Adjacency.ofDiagram (phoneBook false))).map
      (fun relationship => (Resolution.holders (Adjacency.ofDiagram (phoneBook false))
        (Adjacency.ofDiagram (phoneBook false)).ownerships relationship).map Node.id) =
        [["d"]] := by
    cbv
  have all : ∀ ids ∈ [["d"]], ids.Nodup := by decide
  rw [← holders] at all
  exact fun relationship member _ => (List.forall_mem_map.mp all relationship member).of_map Node.id

theorem tableNames_nodup_iff_phoneBook :
    (Adjacency.ofDiagram (phoneBook false)).KeepsNamesApart ∧
      ((ofDiagram (phoneBook false) none).schema.tables.map fun table =>
        (Sql.Statement.ofTable table).name).Nodup := by
  have owners : (Adjacency.ofDiagram (phoneBook false)).owners.map Node.name =
      ["Person", "Device", "Uses"] := by cbv
  have names : (Adjacency.ofDiagram (phoneBook false)).tableOwners.map Node.name ++
      (Adjacency.ofDiagram (phoneBook false)).valueSets.map ValueSet.tableName =
        ["Person", "Device", "Person_phone", "Device_remark"] := by cbv
  have named : (Adjacency.ofDiagram (phoneBook false)).DistinctlyNamed :=
    ⟨by rw [owners]; decide, multivalued_nodup_phoneBook false⟩
  have drawn : (phoneBook false).Spelled fun name => Text.Unbroken name.toList := by
    unfold Diagram.Spelled
    decide +kernel
  have distinct : ((ofDiagram (phoneBook false) none).schema.tables.map Table.name).Nodup := by
    rw [(perm_tableNames (phoneBook false) none).nodup_iff, names]
    decide
  rcases tableNames_nodup_iff (phoneBook false) none named takesOnce_phoneBook with
    ⟨apart, _, unique⟩
  exact ⟨apart.mp distinct, (unique distinct).2.2 drawn⟩

/-- The entity of the devices and the phone numbers of persons have tables of one name. -/
theorem not_tableNames_nodup :
    ¬ ∀ (diagram : Diagram) (limit : Option Nat),
      (Adjacency.ofDiagram diagram).DistinctlyNamed →
        (∀ owner ∈ (Adjacency.ofDiagram diagram).owners, owner.name ≠ "") →
          ((ofDiagram diagram limit).schema.tables.map Table.name).Nodup := by
  intro all
  have owners : (Adjacency.ofDiagram (phoneBook true)).owners.map Node.name =
      ["Person", "Person_phone", "Uses"] := by cbv
  have names : (Adjacency.ofDiagram (phoneBook true)).tableOwners.map Node.name ++
      (Adjacency.ofDiagram (phoneBook true)).valueSets.map ValueSet.tableName =
        ["Person", "Person_phone", "Person_phone", "Person_phone_remark"] := by cbv
  have named : (Adjacency.ofDiagram (phoneBook true)).DistinctlyNamed :=
    ⟨by rw [owners]; decide, multivalued_nodup_phoneBook true⟩
  have nonempty : ∀ name ∈ ["Person", "Person_phone", "Uses"], name ≠ "" := by decide
  rw [← owners] at nonempty
  have distinct := all (phoneBook true) none named fun owner member =>
    nonempty owner.name (List.mem_map_of_mem member)
  rw [(perm_tableNames (phoneBook true) none).nodup_iff, names] at distinct
  exact absurd distinct (by decide)

end Derivation

end ErSchema
