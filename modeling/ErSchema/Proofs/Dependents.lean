import ErSchema.Proofs.Outcome
import Mathlib

/-! # The dependents of an identifying relationship

The attributes of an identifying relationship belong to the weak participants
that it gives an owner. The program reads these off the list of ownerships,
which keeps one link for each dependent and owner, whichever relationship gave
it first. So the attributes arrive where they belong only if the links that the
relationship gives were kept, and this is said here exactly. -/

namespace ErSchema

namespace Adjacency

/-- The relationship itself gives the weak participant an owner. -/
def IsDependent (index : Adjacency) (relationship : Node) (id : String) : Prop :=
  ∃ weak ∈ index.entityNeighbors relationship.id, weak.node.id = id ∧
    weak.node.isWeak = true ∧
    ∃ other ∈ index.entityNeighbors relationship.id, other.node.id ≠ weak.node.id ∧
      isOwner weak.card other.node other.card = true

/-- One of the links that were kept came through the relationship. -/
def Records (index : Adjacency) (relationship : Node) (id : String) : Prop :=
  ∃ link ∈ index.ownerships, link.relationship.id = relationship.id ∧ link.dependent.id = id

instance (index : Adjacency) (relationship : Node) (id : String) :
    Decidable (index.IsDependent relationship id) :=
  inferInstanceAs (Decidable (∃ _ ∈ _, _))

instance (index : Adjacency) (relationship : Node) (id : String) :
    Decidable (index.Records relationship id) :=
  inferInstanceAs (Decidable (∃ _ ∈ _, _))

namespace WellFormed

variable {index : Adjacency} (wellFormed : index.WellFormed)
include wellFormed

/-- A link says what is drawn: its relationship gives its dependent an owner. -/
theorem isDependent_of_mem_ownerships {link : Ownership} (member : link ∈ index.ownerships) :
    link.relationship ∈ index.nodes ∧
      index.IsDependent link.relationship link.dependent.id := by
  have listed := (firstBy_sublist _ _).subset member
  rcases List.mem_flatMap.mp listed with ⟨weak, isWeak, connected⟩
  rcases List.mem_flatMap.mp connected with ⟨connection, isConnection, given⟩
  rcases List.mem_map.mp given with ⟨other, isOther, rfl⟩
  rcases List.mem_filter.mp isWeak with ⟨isNode, weakEntity⟩
  rcases List.mem_filter.mp isConnection with ⟨isNeighbor, _⟩
  rcases List.mem_filter.mp isOther with ⟨isParticipant, owns⟩
  rw [Bool.and_eq_true_iff] at weakEntity
  simp only [ne_eq, decide_not, Bool.and_eq_true, Bool.not_eq_true', decide_eq_false_iff_not]
    at owns
  have seen := wellFormed.mem_neighbors_symm isNode isNeighbor
  exact ⟨wellFormed.node_of_mem_neighbors isNeighbor,
    _, List.mem_filter.mpr ⟨seen, weakEntity.1⟩, rfl, weakEntity.2, other, isParticipant, owns⟩

theorem isDependent_of_records {relationship : Node} {id : String}
    (records : index.Records relationship id) : index.IsDependent relationship id := by
  rcases records with ⟨link, isLink, through, rfl⟩
  have dependent := (wellFormed.isDependent_of_mem_ownerships isLink).2
  rwa [IsDependent, through] at dependent

theorem isDependent_mem {relationship : Node} {id : String}
    (dependent : index.IsDependent relationship id) : id ∈ index.entities.map Node.id := by
  rcases dependent with ⟨weak, isNeighbor, rfl, _⟩
  exact List.mem_map_of_mem (wellFormed.node_of_mem_entityNeighbors isNeighbor)

end WellFormed

/-- The entities that the program folds the attributes into, by identifier. -/
def holderIds (index : Adjacency) (relationship : Node) : List String :=
  (Resolution.dependents relationship
    ((index.entityNeighbors relationship.id).map (·.node)) index.ownerships).map Node.id

variable {index : Adjacency} {relationship : Node}

section
variable (recorded : ∃ link ∈ index.ownerships, link.relationship.id = relationship.id)
include recorded

theorem holderIds_of_recorded :
    index.holderIds relationship = (firstBy Node.id ((index.ownerships.filter fun link =>
      link.relationship.id = relationship.id).map (·.dependent))).map Node.id := by
  rcases recorded with ⟨link, isLink, through⟩
  unfold holderIds Resolution.dependents
  split
  case h_1 empty =>
    have member : link.dependent ∈ (index.ownerships.filter fun link =>
        link.relationship.id = relationship.id).map (·.dependent) :=
      List.mem_map_of_mem (List.mem_filter.mpr ⟨isLink, by simpa using through⟩)
    rcases exists_mem_firstBy Node.id member with ⟨first, isFirst, _⟩
    exact absurd (empty ▸ isFirst) List.not_mem_nil
  case h_2 => rfl

theorem nodup_holderIds_of_recorded : (index.holderIds relationship).Nodup := by
  rw [holderIds_of_recorded recorded]
  exact List.pairwise_map.mpr (pairwise_firstBy Node.id _)

theorem mem_holderIds_of_recorded {id : String} :
    id ∈ index.holderIds relationship ↔ index.Records relationship id := by
  rw [holderIds_of_recorded recorded, mem_map_firstBy]
  simp [Records, and_assoc]

end

theorem holderIds_of_not_recorded
    (unrecorded : ∀ link ∈ index.ownerships, link.relationship.id ≠ relationship.id) :
    index.holderIds relationship =
      ((index.entityNeighbors relationship.id).filter (·.node.isWeak)).map (·.node.id) := by
  have empty : index.ownerships.filter (fun link =>
      link.relationship.id = relationship.id) = [] := by
    simpa using unrecorded
  simp [holderIds, Resolution.dependents, empty, firstBy, List.filter_map, Function.comp_def]

theorem WellFormed.holderIds_subset (wellFormed : index.WellFormed) :
    index.holderIds relationship ⊆ index.entities.map Node.id := by
  intro id member
  by_cases recorded : ∃ link ∈ index.ownerships, link.relationship.id = relationship.id
  · rw [mem_holderIds_of_recorded recorded] at member
    exact wellFormed.isDependent_mem (wellFormed.isDependent_of_records member)
  · push Not at recorded
    rw [holderIds_of_not_recorded recorded] at member
    rcases List.mem_map.mp member with ⟨weak, isWeak, rfl⟩
    exact List.mem_map_of_mem
      (wellFormed.node_of_mem_entityNeighbors (List.mem_of_mem_filter isWeak))

end Adjacency

/-! ## Attributes in the right tables -/

/-- Dependents, if there are any, receive a column for each attribute and no
other table changes; and no table receives two columns for one attribute. -/
structure LandsOnce (index : Adjacency) (relationship : Node) (before after : TableMap) :
    Prop where
  received : ∀ id, index.IsDependent relationship id → ∃ old new,
    before.get? id = some old ∧ after.get? id = some new ∧
      old.Receives relationship (index.attributesOf relationship).stored new
  unchanged : (∃ id, index.IsDependent relationship id) →
    ∀ id, ¬ index.IsDependent relationship id → after.get? id = before.get? id
  once : ∀ id old new, before.get? id = some old → after.get? id = some new →
    ∃ names, names.Sublist (index.attributesOf relationship).stored ∧
      old.Receives relationship names new

namespace Resolution

variable {index : Adjacency} {relationship : Node} {state : Resolution}

theorem get?_resolveOne_identifying
    (identifying : isIdentifying relationship
      ((index.entityNeighbors relationship.id).map (·.node)) = true) (id : String) :
    (resolveOne index index.ownerships state relationship).tables.get? id =
      (state.tables.get? id).map
        (Table.receive relationship (index.attributesOf relationship).stored)^[
          (index.holderIds relationship).count id] := by
  unfold resolveOne
  dsimp only
  rw [if_pos identifying, get?_foldl_foldAttributes]
  rfl

/-- Holders occur once each and are the dependents, if there are any. -/
def HoldersAreDependents (index : Adjacency) (relationship : Node) : Prop :=
  (index.holderIds relationship).Nodup ∧ ((∃ id, index.IsDependent relationship id) →
    ∀ id, id ∈ index.holderIds relationship ↔ index.IsDependent relationship id)

section
variable (identifying : isIdentifying relationship
    ((index.entityNeighbors relationship.id).map (·.node)) = true)
  (ids : state.tables.ids = index.entities.map Node.id)
include identifying ids

/-- How much the table of an entity grows. -/
theorem length_columns_resolveOne {id : String} (member : id ∈ index.entities.map Node.id) :
    ∃ old new, state.tables.get? id = some old ∧
      (resolveOne index index.ownerships state relationship).tables.get? id = some new ∧
      new.columns.length = old.columns.length + (index.holderIds relationship).count id *
        (index.attributesOf relationship).stored.length := by
  rw [← ids] at member
  rcases TableMap.exists_get?_of_mem_ids member with ⟨old, found⟩
  refine ⟨old, _, found, ?_, Table.length_columns_iterate_receive relationship _ _ old⟩
  rw [get?_resolveOne_identifying identifying, found, Option.map_some]

variable (wellFormed : index.WellFormed)
include wellFormed

theorem landsOnce_of_holdersAreDependents
    (holders : HoldersAreDependents index relationship) :
    LandsOnce index relationship state.tables
      (resolveOne index index.ownerships state relationship).tables := by
  rcases holders with ⟨distinct, same⟩
  have step := @get?_resolveOne_identifying index relationship state identifying
  have count_le (id : String) : (index.holderIds relationship).count id ≤ 1 :=
    List.nodup_iff_count_le_one.mp distinct id
  constructor
  · intro id dependent
    have member := (same ⟨id, dependent⟩ id).mpr dependent
    have single := List.count_eq_one_of_mem distinct member
    rcases TableMap.exists_get?_of_mem_ids (ids ▸ wellFormed.isDependent_mem dependent) with
      ⟨old, found⟩
    refine ⟨old, _, found, ?_, Table.receives_receive relationship _ old⟩
    rw [step, found, single, Function.iterate_one, Option.map_some]
  · intro dependents id independent
    have missing := mt (same dependents id).mp independent
    rw [step, List.count_eq_zero_of_not_mem missing, Function.iterate_zero, Option.map_id_fun,
      id_eq]
  · intro id old new found foundNew
    rw [step, found, Option.map_some] at foundNew
    cases foundNew
    rcases Nat.le_one_iff_eq_zero_or_eq_one.mp (count_le id) with never | single
    · exact ⟨[], List.nil_sublist _, never ▸ .refl relationship old⟩
    · exact ⟨_, List.Sublist.refl _, single ▸ Table.receives_receive relationship _ old⟩

theorem landsOnce_of_stored_eq_nil (empty : (index.attributesOf relationship).stored = []) :
    LandsOnce index relationship state.tables
      (resolveOne index index.ownerships state relationship).tables := by
  have same (id : String) :
      (resolveOne index index.ownerships state relationship).tables.get? id =
        state.tables.get? id := by
    rw [get?_resolveOne_identifying identifying, empty]
    have fixed : (Table.receive relationship [])^[(index.holderIds relationship).count id] =
        fun table => table := funext fun table => Function.iterate_fixed rfl _
    rw [fixed, Option.map_id']
  constructor
  · intro id dependent
    rcases TableMap.exists_get?_of_mem_ids (ids ▸ wellFormed.isDependent_mem dependent) with
      ⟨old, found⟩
    exact ⟨old, old, found, (same id).trans found, empty ▸ .refl relationship old⟩
  · exact fun _ id _ => same id
  · intro id old new found foundNew
    cases (found.symm.trans (same id).symm).trans foundNew
    exact ⟨[], List.nil_sublist _, .refl relationship old⟩

/-! A table tells by its length how often it was among the holders. -/

section
variable (attributed : (index.attributesOf relationship).stored ≠ [])
  (lands : LandsOnce index relationship state.tables
    (resolveOne index index.ownerships state relationship).tables)
include attributed lands

theorem nodup_holderIds_of_landsOnce : (index.holderIds relationship).Nodup := by
  refine List.nodup_iff_count_le_one.mpr fun id => ?_
  by_cases member : id ∈ index.holderIds relationship
  · rcases length_columns_resolveOne identifying ids (wellFormed.holderIds_subset member) with
      ⟨old, new, found, foundNew, length⟩
    rcases lands.once id old new found foundNew with ⟨names, sublist, receives⟩
    have few := sublist.length_le
    have received := receives.length_columns
    apply Nat.le_of_mul_le_mul_right _ (List.length_pos_iff.mpr attributed)
    omega
  · exact (List.count_eq_zero_of_not_mem member).trans_le (Nat.zero_le 1)

theorem isDependent_of_mem_holderIds (dependents : ∃ id, index.IsDependent relationship id)
    {id : String} (member : id ∈ index.holderIds relationship) :
    index.IsDependent relationship id := by
  by_contra independent
  rcases length_columns_resolveOne identifying ids (wellFormed.holderIds_subset member) with
    ⟨old, new, found, foundNew, length⟩
  have same := lands.unchanged dependents id independent
  cases (found.symm.trans same.symm).trans foundNew
  have often := Nat.mul_pos (List.count_pos_iff.mpr member) (List.length_pos_iff.mpr attributed)
  omega

theorem mem_holderIds_of_isDependent {id : String}
    (dependent : index.IsDependent relationship id) : id ∈ index.holderIds relationship := by
  by_contra missing
  rcases length_columns_resolveOne identifying ids (wellFormed.isDependent_mem dependent) with
    ⟨old, new, found, foundNew, length⟩
  rcases lands.received id dependent with ⟨_, _, foundOld, foundReceived, receives⟩
  cases found.symm.trans foundOld
  cases foundNew.symm.trans foundReceived
  have received := receives.length_columns
  have positive := List.length_pos_iff.mpr attributed
  rw [List.count_eq_zero_of_not_mem missing] at length
  omega

theorem holdersAreDependents_of_landsOnce : HoldersAreDependents index relationship :=
  ⟨nodup_holderIds_of_landsOnce identifying ids wellFormed attributed lands,
    fun dependents _ =>
      ⟨isDependent_of_mem_holderIds identifying ids wellFormed attributed lands dependents,
        mem_holderIds_of_isDependent identifying ids wellFormed attributed lands⟩⟩

end

end

end Resolution

/-! ## When they land where they belong -/

namespace Adjacency

/-- A link was kept for each dependent, and there is one. -/
def KeepsLinks (index : Adjacency) (relationship : Node) : Prop :=
  (∃ link ∈ index.ownerships, link.relationship.id = relationship.id) ∧
    ∀ weak ∈ index.entityNeighbors relationship.id,
      index.IsDependent relationship weak.node.id → index.Records relationship weak.node.id

/-- No link was kept, but the weak participants, which are taken instead, are
attached once each, and all of them are dependents if any is. -/
def NeedsNoLinks (index : Adjacency) (relationship : Node) : Prop :=
  (∀ link ∈ index.ownerships, link.relationship.id ≠ relationship.id) ∧
    (((index.entityNeighbors relationship.id).filter (·.node.isWeak)).map
      (·.node.id)).Nodup ∧
    ((∃ weak ∈ index.entityNeighbors relationship.id,
        index.IsDependent relationship weak.node.id) →
      ∀ weak ∈ index.entityNeighbors relationship.id, weak.node.isWeak = true →
        index.IsDependent relationship weak.node.id)

instance (index : Adjacency) (relationship : Node) :
    Decidable (index.KeepsLinks relationship) :=
  inferInstanceAs (Decidable (_ ∧ _))

instance (index : Adjacency) (relationship : Node) :
    Decidable (index.NeedsNoLinks relationship) :=
  inferInstanceAs (Decidable (_ ∧ _ ∧ (_ → _)))

end Adjacency

namespace Resolution

variable {index : Adjacency} {relationship : Node}

theorem holdersAreDependents_iff_keepsLinks (wellFormed : index.WellFormed)
    (recorded : ∃ link ∈ index.ownerships, link.relationship.id = relationship.id) :
    HoldersAreDependents index relationship ↔ index.KeepsLinks relationship := by
  have member (id : String) : id ∈ index.holderIds relationship ↔
      index.Records relationship id := Adjacency.mem_holderIds_of_recorded recorded
  constructor
  · rintro ⟨_, same⟩
    refine ⟨recorded, fun weak _ dependent => ?_⟩
    exact (member _).mp ((same ⟨_, dependent⟩ _).mpr dependent)
  · rintro ⟨_, kept⟩
    refine ⟨Adjacency.nodup_holderIds_of_recorded recorded, fun _ id => ?_⟩
    rw [member]
    refine ⟨wellFormed.isDependent_of_records, ?_⟩
    rintro ⟨weak, isNeighbor, rfl, found⟩
    exact kept weak isNeighbor ⟨weak, isNeighbor, rfl, found⟩

theorem holdersAreDependents_iff_needsNoLinks
    (unrecorded : ∀ link ∈ index.ownerships, link.relationship.id ≠ relationship.id) :
    HoldersAreDependents index relationship ↔ index.NeedsNoLinks relationship := by
  unfold HoldersAreDependents
  rw [Adjacency.holderIds_of_not_recorded unrecorded]
  constructor
  · rintro ⟨distinct, same⟩
    refine ⟨unrecorded, distinct, ?_⟩
    rintro ⟨_, _, dependent⟩ weak isNeighbor isWeak
    refine (same ⟨_, dependent⟩ _).mp (List.mem_map.mpr ⟨weak, ?_, rfl⟩)
    exact List.mem_filter.mpr ⟨isNeighbor, isWeak⟩
  · rintro ⟨_, distinct, all⟩
    refine ⟨distinct, ?_⟩
    rintro ⟨_, first, isFirst, rfl, found⟩ id
    constructor
    · intro member
      rcases List.mem_map.mp member with ⟨weak, isWeak, rfl⟩
      rcases List.mem_filter.mp isWeak with ⟨isNeighbor, isWeak⟩
      exact all ⟨first, isFirst, first, isFirst, rfl, found⟩ weak isNeighbor isWeak
    · rintro ⟨weak, isNeighbor, rfl, isWeak, _⟩
      exact List.mem_map.mpr ⟨weak, List.mem_filter.mpr ⟨isNeighbor, isWeak⟩, rfl⟩

theorem holdersAreDependents_iff (wellFormed : index.WellFormed) :
    HoldersAreDependents index relationship ↔
      index.KeepsLinks relationship ∨ index.NeedsNoLinks relationship := by
  by_cases recorded : ∃ link ∈ index.ownerships, link.relationship.id = relationship.id
  · have needsLinks : ¬ index.NeedsNoLinks relationship := by
      rcases recorded with ⟨link, isLink, through⟩
      exact fun needs => needs.1 link isLink through
    rw [holdersAreDependents_iff_keepsLinks wellFormed recorded, or_iff_left needsLinks]
  · have keepsNone : ¬ index.KeepsLinks relationship := fun keeps => recorded keeps.1
    push Not at recorded
    rw [holdersAreDependents_iff_needsNoLinks recorded, or_iff_right keepsNone]

end Resolution

namespace Derivation

theorem landsOnce_iff_holdersAreDependents (diagram : Diagram) (limit : Option Nat)
    (earlier : List Node) (relationship : Node)
    (identifying : isIdentifying relationship
      (((Adjacency.ofDiagram diagram).entityNeighbors relationship.id).map (·.node)) = true) :
    let index := Adjacency.ofDiagram diagram
    let state := resolutionAfter index limit earlier
    LandsOnce index relationship state.tables
        (Resolution.resolveOne index index.ownerships state relationship).tables ↔
      (index.attributesOf relationship).stored = [] ∨
        Resolution.HoldersAreDependents index relationship := by
  intro index state
  have wellFormed := Adjacency.wellFormed_ofDiagram diagram
  have ids := ids_of_reached wellFormed limit
    (reached_resolutionAfter wellFormed limit earlier)
  constructor
  · intro lands
    rw [or_iff_not_imp_left]
    exact fun attributed => Resolution.holdersAreDependents_of_landsOnce identifying ids
      wellFormed attributed lands
  · rintro (empty | holders)
    · exact Resolution.landsOnce_of_stored_eq_nil identifying ids wellFormed empty
    · exact Resolution.landsOnce_of_holdersAreDependents identifying ids wellFormed holders

/-- Whatever was resolved before, the attributes of an identifying relationship
land on its dependents, once each, exactly if it has no attributes, its links
were kept, or it needs no links. -/
theorem landsOnce_iff (diagram : Diagram) (limit : Option Nat) (earlier : List Node)
    (relationship : Node)
    (identifying : isIdentifying relationship
      (((Adjacency.ofDiagram diagram).entityNeighbors relationship.id).map (·.node)) = true) :
    let index := Adjacency.ofDiagram diagram
    let state := resolutionAfter index limit earlier
    LandsOnce index relationship state.tables
        (Resolution.resolveOne index index.ownerships state relationship).tables ↔
      (index.attributesOf relationship).stored = [] ∨ index.KeepsLinks relationship ∨
        index.NeedsNoLinks relationship := by
  intro index state
  rw [← Resolution.holdersAreDependents_iff (Adjacency.wellFormed_ofDiagram diagram)]
  exact landsOnce_iff_holdersAreDependents diagram limit earlier relationship identifying

/-- Seats belong to a room and rooms to a building; `holds` runs beside `has`. -/
def seating : Diagram where
  nodes := [Node.entity "a" "Building", (Node.entity "b" "Room").weak,
    (Node.entity "c" "Seat").weak, (Node.relationship "in" "In").weak,
    (Node.relationship "has" "Has").weak, (Node.relationship "holds" "Holds").weak,
    Node.simpleAttribute "d" "installed_on", Node.simpleAttribute "e" "since"]
  edges := [(Edge.between "a" "in").withCards "1" "", (Edge.between "in" "b").withCards "" "N",
    (Edge.between "b" "has").withCards "1" "", (Edge.between "has" "c").withCards "" "N",
    (Edge.between "b" "holds").withCards "1" "",
    (Edge.between "holds" "c").withCards "" "N",
    .between "has" "d", .between "holds" "e"]

/-- The room owns the seats and stays as it is. -/
theorem landsOnce_iff_seating :
    let index := Adjacency.ofDiagram seating
    let has := (Node.relationship "has" "Has").weak
    let state := resolutionAfter index none []
    LandsOnce index has state.tables
      (Resolution.resolveOne index index.ownerships state has).tables := by
  intro index has state
  have identifying :
      isIdentifying has ((index.entityNeighbors has.id).map (·.node)) = true := by
    decide +kernel
  have keeps : index.KeepsLinks has := by decide +kernel
  exact (landsOnce_iff seating none [] has identifying).mpr (.inr (.inl keeps))

/-- A task that follows itself, at both ends of one relationship. -/
def following : Diagram where
  nodes := [(Node.entity "w" "Task").weak, (Node.relationship "r" "Follows").weak,
    Node.simpleAttribute "d" "since"]
  edges := [.between "w" "r", .between "r" "w", .between "r" "d"]

/-- The links that `holds` gives were given by `has` before, so its attribute
goes to the owner as well; and a weak entity that is attached twice gets the
attribute twice. -/
theorem not_landsOnce :
    (let index := Adjacency.ofDiagram seating
      let holds := (Node.relationship "holds" "Holds").weak
      let state := resolutionAfter index none [(Node.relationship "has" "Has").weak]
      ¬ LandsOnce index holds state.tables
        (Resolution.resolveOne index index.ownerships state holds).tables) ∧
    (let index := Adjacency.ofDiagram following
      let follows := (Node.relationship "r" "Follows").weak
      let state := resolutionAfter index none []
      ¬ LandsOnce index follows state.tables
        (Resolution.resolveOne index index.ownerships state follows).tables) := by
  constructor
  · intro index holds state lands
    have identifying :
        isIdentifying holds ((index.entityNeighbors holds.id).map (·.node)) = true := by
      decide +kernel
    have stored : (index.attributesOf holds).stored = ["since"] := by cbv
    have dependent : index.IsDependent holds "c" := by decide +kernel
    have independent : ¬ index.IsDependent holds "b" := by decide +kernel
    have held : "b" ∈ index.holderIds holds := by decide +kernel
    rcases (landsOnce_iff_holdersAreDependents seating _ _ holds identifying).mp lands with
      empty | holders
    · exact List.cons_ne_nil _ _ (stored.symm.trans empty)
    · exact independent ((holders.2 ⟨"c", dependent⟩ "b").mp held)
  · intro index follows state lands
    have identifying :
        isIdentifying follows ((index.entityNeighbors follows.id).map (·.node)) = true := by
      decide +kernel
    have stored : (index.attributesOf follows).stored = ["since"] := by cbv
    have twice : ¬ (index.holderIds follows).Nodup := by decide +kernel
    rcases (landsOnce_iff_holdersAreDependents following _ _ follows identifying).mp lands with
      empty | holders
    · exact List.cons_ne_nil _ _ (stored.symm.trans empty)
    · exact twice holders.1

end Derivation

end ErSchema
