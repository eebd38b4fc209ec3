import ErSchema.Proofs.Components
import ErSchema.Proofs.Subclasses

/-! # What a limit on the passes leaves out

The loop goes through the same tables under every limit; a limit only says how far
it may go. So a smaller limit leaves names out of keys and never adds one, and a
limit that is not reported is one that the loop did not need: the derivation is
then the same as under any larger limit and as without one. -/

namespace ErSchema

/-- Some table has a column in its key, as a reference, that it did not have at all
or had as a plain column. -/
def TableMap.Gains (before after : TableMap) : Prop :=
  ∃ id old new, before.get? id = some old ∧ after.get? id = some new ∧
    ∃ column ∈ new.columns, column.isKey = true ∧ column.isForeign = true ∧
      (column.name ∉ old.names ∨ ∃ plain ∈ old.columns, plain.name = column.name ∧
        plain.isKey = false ∧ plain.isForeign = false)

namespace TableMap

/-- Tables with distinct names gain nothing by staying as they are. -/
theorem not_gains_self {tables : TableMap} (regular : tables.Regular) :
    ¬ Gains tables tables := by
  rintro ⟨id, old, new, foundOld, foundNew, column, isColumn, isKey, _, origin⟩
  obtain rfl : old = new := Option.some.inj (foundOld.symm.trans foundNew)
  rcases origin with absent | ⟨plain, isPlain, named, notKey, _⟩
  · exact absent (Table.mem_names.mpr ⟨column, isColumn, rfl⟩)
  · have distinct := (regular old (mem_toTables_of_get? foundOld)).distinct
    obtain rfl : plain = column := List.inj_on_of_nodup_map distinct isPlain isColumn named
    exact absurd (isKey.symm.trans notKey) Bool.true_eq_false.mp

/-- Where only references are added to keys, a name that is new in a key is one. -/
theorem gains_of_new_key {before after : TableMap} (regular : before.Regular)
    (keeps : Revises Table.KeepsKey before after) {id name : String}
    (key : name ∈ after.keyNames id) (fresh : name ∉ before.keyNames id) :
    Gains before after := by
  rcases mem_keyNames.mp key with ⟨new, foundNew, isKeyName⟩
  rcases Table.mem_keyNames.mp isKeyName with ⟨column, isColumn, isKey, rfl⟩
  rcases keeps.get?_some_before foundNew with ⟨old, foundOld, since⟩
  rw [keyNames_of_get? foundOld] at fresh
  have notKey (earlier : Column) (isEarlier : earlier ∈ old.columns)
      (named : earlier.name = column.name) : earlier.isKey = false :=
    Bool.eq_false_iff.mpr fun wasKey =>
      fresh (Table.mem_keyNames.mpr ⟨earlier, isEarlier, wasKey, named⟩)
  refine ⟨id, old, new, foundOld, foundNew, column, isColumn, isKey, ?_, ?_⟩
  · rcases since.added column isColumn with kept | taken
    · exact absurd (isKey.symm.trans (notKey column kept rfl)) Bool.true_eq_false.mp
    · exact taken.2
  · by_cases absent : column.name ∈ old.names
    · rcases Table.mem_names.mp absent with ⟨earlier, isEarlier, named⟩
      have plain := notKey earlier isEarlier named
      refine .inr ⟨earlier, isEarlier, named, plain, Bool.eq_false_iff.mpr fun foreign => ?_⟩
      have wasKey := (regular old (mem_toTables_of_get? foundOld)).foreign
        earlier isEarlier foreign
      exact absurd (wasKey.symm.trans plain) Bool.true_eq_false.mp
    · exact .inl absent

end TableMap

namespace Derivation

/-! ## The passes of a loop -/

/-- How many passes the loop makes. -/
def passesMade (pass : TableMap → Nat × TableMap) : (allowed : Nat) → TableMap → Nat
  | 0, _ => 0
  | allowed + 1, tables =>
      let (changed, next) := pass tables
      if changed = 0 then 1 else passesMade pass allowed next + 1

/-- The loop ends with the tables after the passes that it makes. -/
theorem settle_eq_afterPasses (pass : TableMap → Nat × TableMap) (allowed : Nat)
    (tables : TableMap) :
    (settle pass allowed tables).tables =
      afterPasses pass (passesMade pass allowed tables) tables := by
  induction allowed generalizing tables with
  | zero => rfl
  | succ allowed induction =>
      by_cases still : (pass tables).1 = 0
      · simp [settle, passesMade, still, afterPasses]
      · simpa [settle, passesMade, still, afterPasses] using induction (pass tables).2

section
variable {pass : TableMap → Nat × TableMap} {allowed quiet : Nat} {tables : TableMap}

/-- As long as every pass counts something, the limit is what ends the loop. -/
theorem settle_of_busy
    (busy : ∀ made < allowed, (pass (afterPasses pass made tables)).1 ≠ 0) :
    settle pass allowed tables = ⟨afterPasses pass allowed tables, true⟩ ∧
      passesMade pass allowed tables = allowed := by
  induction allowed generalizing tables with
  | zero => exact ⟨rfl, rfl⟩
  | succ allowed induction =>
      have first : (pass tables).1 ≠ 0 := busy 0 (Nat.zero_lt_succ allowed)
      have laterBusy : ∀ made < allowed,
          (pass (afterPasses pass made (pass tables).2)).1 ≠ 0 :=
        fun made fewer => busy (made + 1) (Nat.succ_lt_succ fewer)
      have later := induction laterBusy
      constructor
      · simpa [settle, first, afterPasses] using later.1
      · simpa [passesMade, first] using later.2

/-- The first pass that counts nothing is still made. -/
theorem passesMade_of_quiet
    (busy : ∀ made < quiet, (pass (afterPasses pass made tables)).1 ≠ 0)
    (still : (pass (afterPasses pass quiet tables)).1 = 0) (enough : quiet < allowed) :
    passesMade pass allowed tables = quiet + 1 := by
  induction quiet generalizing allowed tables with
  | zero =>
      rcases Nat.exists_eq_add_of_lt enough with ⟨rest, rfl⟩
      have first : (pass tables).1 = 0 := still
      simp [passesMade, first]
  | succ quiet induction =>
      obtain ⟨rest, rfl⟩ : ∃ rest, allowed = rest + 1 := ⟨allowed - 1, by omega⟩
      have first : (pass tables).1 ≠ 0 := busy 0 (Nat.zero_lt_succ quiet)
      have laterBusy : ∀ made < quiet,
          (pass (afterPasses pass made (pass tables).2)).1 ≠ 0 :=
        fun made fewer => busy (made + 1) (Nat.succ_lt_succ fewer)
      have later := induction laterBusy still (Nat.lt_of_succ_lt_succ enough)
      simpa [passesMade, first] using later

end

section
variable {links : List Ownership} {hierarchies : List Hierarchy} {base : TableMap}

theorem keyNames_flowed_mono {made more : Nat} (fewer : made ≤ more) (id : String) :
    (flowed links hierarchies base made).keyNames id ⊆
      (flowed links hierarchies base more).keyNames id := by
  induction fewer with
  | refl => exact List.Subset.refl _
  | step _ induction =>
      rw [flowed_succ]
      exact List.Subset.trans induction
        ((flows_flowed_succ links hierarchies base _).inherits.keyNames_subset id)

/-- A pass counts something exactly if it adds a column or promotes one. -/
theorem gains_iff_busy (ready : Ready links hierarchies base) (made : Nat) :
    TableMap.Gains (flowed links hierarchies base made)
        (flowed links hierarchies base (made + 1)) ↔
      (pass links hierarchies (flowed links hierarchies base made)).1 ≠ 0 := by
  have regular := (inherits_flowed links hierarchies base made).regular ready.regular
  constructor
  · intro gains still
    rw [flowed_succ, (flows_flowed_succ links hierarchies base made).counts.quiet still] at gains
    exact TableMap.not_gains_self regular gains
  · intro busy
    rcases exists_new_holder ready busy with ⟨name, moved⟩
    obtain ⟨id, key, fresh⟩ : ∃ id,
        name ∈ (flowed links hierarchies base (made + 1)).keyNames id ∧
          name ∉ (flowed links hierarchies base made).keyNames id := by
      by_contra unmoved
      push Not at unmoved
      refine moved (Finset.Subset.antisymm (fun id member => ?_) (holders_grow name made))
      exact TableMap.mem_holders.mpr (unmoved id (TableMap.mem_holders.mp member))
    have keeps := Table.KeepsKey.carried.pass links hierarchies
      (flowed links hierarchies base made)
    rw [← flowed_succ] at keeps
    exact TableMap.gains_of_new_key regular keeps key fresh

namespace Settles

variable {quiet : Nat} (settles : Settles links hierarchies base quiet)
include settles

theorem busy_iff (made : Nat) :
    (pass links hierarchies (flowed links hierarchies base made)).1 ≠ 0 ↔ made < quiet := by
  constructor
  · intro busy
    by_contra enough
    rw [flowed_of_settles settles (Nat.le_of_not_lt enough), settles.pass_eq] at busy
    exact busy rfl
  · exact settles.busy made

/-- How far the loop gets under a limit. -/
theorem settle_eq_min (allowed : Nat) :
    settle (pass links hierarchies) allowed base =
        ⟨flowed links hierarchies base (min allowed quiet), decide (allowed ≤ quiet)⟩ ∧
      passesMade (pass links hierarchies) allowed base = min allowed (quiet + 1) := by
  by_cases short : allowed ≤ quiet
  · have busy : ∀ made < allowed,
        (pass links hierarchies (flowed links hierarchies base made)).1 ≠ 0 :=
      fun made fewer => settles.busy made (Nat.lt_of_lt_of_le fewer short)
    have loop := settle_of_busy busy
    rw [loop.1, loop.2, Nat.min_eq_left short, Nat.min_eq_left (Nat.le_succ_of_le short),
      decide_eq_true short]
    exact ⟨rfl, rfl⟩
  · have enough : quiet < allowed := Nat.lt_of_not_le short
    have still := congrArg Prod.fst settles.pass_eq
    rw [settles.settle_eq enough, passesMade_of_quiet settles.busy still enough,
      Nat.min_eq_right (Nat.le_of_lt enough), Nat.min_eq_right enough, decide_eq_false short]
    exact ⟨rfl, rfl⟩

end Settles

end

/-! ## Derivations under limits -/

/-- A limit matters only through the tables that the loop ends with, and through
the report if it is what ended the loop. -/
theorem ofDiagram_congr {diagram : Diagram} {limit other : Option Nat}
    (same : settled (.ofDiagram diagram) limit = settled (.ofDiagram diagram) other)
    (finished : (settled (.ofDiagram diagram) other).stopped = false) :
    ofDiagram diagram limit = ofDiagram diagram other := by
  have schema : (ofDiagram diagram limit).schema = (ofDiagram diagram other).schema := by
    have tables : (ofDiagram diagram limit).schema.tables =
        (ofDiagram diagram other).schema.tables := by
      rw [tables_ofDiagram, tables_ofDiagram, resolution, resolution, resolutionAfter,
        resolutionAfter, same]
    exact congrArg Schema.mk tables
  have diagnostics : (ofDiagram diagram limit).diagnostics =
      (ofDiagram diagram other).diagnostics := by
    rw [diagnostics_ofDiagram, diagnostics_ofDiagram, laterProblems, laterProblems,
      limitProblems, limitProblems, same, finished]
    rfl
  calc ofDiagram diagram limit
      = ⟨(ofDiagram diagram limit).schema, (ofDiagram diagram limit).diagnostics⟩ := rfl
    _ = ⟨(ofDiagram diagram other).schema, (ofDiagram diagram other).diagnostics⟩ := by
        rw [schema, diagnostics]

section
variable {diagram : Diagram} {quiet : Nat}
  (settles : Settles (Adjacency.ofDiagram diagram).ownerships
    (Adjacency.ofDiagram diagram).hierarchies (baseTables (.ofDiagram diagram)) quiet)
include settles

theorem settled_limited (limit : Nat) :
    settled (.ofDiagram diagram) (some limit) =
      ⟨flowed (Adjacency.ofDiagram diagram).ownerships (Adjacency.ofDiagram diagram).hierarchies
          (baseTables (.ofDiagram diagram)) (min (max limit 1) quiet),
        decide (max limit 1 ≤ quiet)⟩ :=
  (settles.settle_eq_min (max limit 1)).1

theorem limit_reported_iff (limit passes : Nat) :
    .propagationLimit passes ∈ (ofDiagram diagram (some limit)).diagnostics ↔
      max limit 1 ≤ quiet ∧ passes = max limit 1 := by
  rw [mem_diagnostics_propagationLimit, settled_limited settles, decide_eq_true_iff]
  rfl

/-- A limit that leaves room for the passes needed makes no difference. -/
theorem ofDiagram_of_enough
    (inTime : quiet < max (Adjacency.ofDiagram diagram).entities.length 1) {limit : Nat}
    (enough : quiet < max limit 1) :
    ofDiagram diagram (some limit) = ofDiagram diagram none := by
  have unlimited : settled (.ofDiagram diagram) none = _ := settle_unlimited settles inTime
  have limited := settled_limited settles limit
  rw [Nat.min_eq_right (Nat.le_of_lt enough), decide_eq_false (Nat.not_le_of_lt enough)] at limited
  exact ofDiagram_congr (limited.trans unlimited.symm) (congrArg Settled.stopped unlimited)

end

/-- Under a smaller limit the keys have fewer names, and no others, than under a
larger one or without any. A limit is reported exactly if as many passes were made
and the last of them still added a column or promoted one; and if it is not
reported, a larger limit, or none, leads to the same derivation. -/
theorem limit_truncates (diagram : Diagram) :
    let index := Adjacency.ofDiagram diagram
    let final (limit : Option Nat) := (resolution index limit).tables
    let after := flowed index.ownerships index.hierarchies (baseTables index)
    let made (allowed : Nat) :=
      passesMade (pass index.ownerships index.hierarchies) allowed (baseTables index)
    (∀ limit, (ofDiagram diagram limit).schema.baseTables = (final limit).toTables ∧
        (final limit).ids = index.entities.map Node.id ∧
        (settled index limit).tables = after (made (passLimit index limit))) ∧
      (∀ limit passes,
        .propagationLimit passes ∈ (ofDiagram diagram (some limit)).diagnostics ↔
          passes = max limit 1 ∧ made (max limit 1) = max limit 1 ∧
            TableMap.Gains (after (max limit 1 - 1)) (after (max limit 1))) ∧
      ∀ smaller larger, smaller ≤ larger →
        (∀ id, (final (some smaller)).keyNames id ⊆ (final (some larger)).keyNames id ∧
          (final (some smaller)).keyNames id ⊆ (final none).keyNames id) ∧
        ((∀ passes,
            .propagationLimit passes ∉ (ofDiagram diagram (some smaller)).diagnostics) →
          ofDiagram diagram (some larger) = ofDiagram diagram (some smaller) ∧
            ofDiagram diagram none = ofDiagram diagram (some smaller)) := by
  intro index final after made
  have wellFormed : index.WellFormed := Adjacency.wellFormed_ofDiagram diagram
  have ready := ready_baseTables wellFormed
  rcases exists_settles ready with ⟨quiet, inTime, settles⟩
  rw [size_baseTables wellFormed] at inTime
  have keyNames (limit : Option Nat) (id : String) :
      (final limit).keyNames id = (settled index limit).tables.keyNames id :=
    keyNames_resolution wellFormed limit id
  refine ⟨fun limit => ⟨baseTables_ofDiagram limit diagram,
    ids_of_reached wellFormed limit (reached_resolution wellFormed limit),
    settle_eq_afterPasses _ _ _⟩, fun limit passes => ?_,
    fun smaller larger le => ⟨fun id => ⟨?_, ?_⟩, fun silent => ?_⟩⟩
  · obtain ⟨earlier, last⟩ : ∃ earlier, max limit 1 = earlier + 1 :=
      ⟨max limit 1 - 1, by omega⟩
    have gains := (gains_iff_busy ready earlier).trans (settles.busy_iff earlier)
    have count : made (max limit 1) = min (max limit 1) (quiet + 1) :=
      (settles.settle_eq_min (max limit 1)).2
    rw [limit_reported_iff settles, count, last, Nat.add_sub_cancel, gains]
    omega
  · rw [keyNames, keyNames, settled_limited settles, settled_limited settles]
    exact keyNames_flowed_mono (by omega) id
  · have unlimited : settled index none = _ := settle_unlimited settles inTime
    rw [keyNames, keyNames, settled_limited settles, unlimited]
    exact keyNames_flowed_mono (Nat.min_le_right _ _) id
  · have enough : quiet < max smaller 1 := by
      by_contra short
      exact silent _ ((limit_reported_iff settles smaller _).mpr ⟨Nat.le_of_not_lt short, rfl⟩)
    have smallerSame := ofDiagram_of_enough settles inTime enough
    have largerSame := ofDiagram_of_enough settles inTime (show quiet < max larger 1 by omega)
    exact ⟨largerSame.trans smallerSame.symm, smallerSame.symm⟩

/-- Seats in rooms in buildings, drawn from the last to the first: one pass brings
the key of a building to the rooms only. -/
def seats : Diagram where
  nodes := [(Node.entity "c" "Seat").weak, (Node.entity "b" "Room").weak,
    Node.entity "a" "Building", (Node.simpleAttribute "k" "no").primaryKey,
    (Node.relationship "i" "In").weak, (Node.relationship "h" "Has").weak]
  edges := [.between "a" "k", (Edge.between "i" "b").withCards "" "N", .between "i" "a",
    .between "b" "h", (Edge.between "h" "c").withCards "" "N"]

/-- Two passes bring it to the seats, a third finds nothing to do. -/
theorem limit_truncates_seats :
    let final (limit : Option Nat) := (resolution (Adjacency.ofDiagram seats) limit).tables
    ((1 : Nat) ≤ 3 ∧ (final (some 1)).keyNames "c" = [] ∧
        (final (some 3)).keyNames "c" = ["no"] ∧
        (final (some 1)).keyNames "c" ⊆ (final (some 3)).keyNames "c") ∧
      (∀ passes, .propagationLimit passes ∉ (ofDiagram seats (some 3)).diagnostics) ∧
      ofDiagram seats none = ofDiagram seats (some 3) := by
  intro final
  have few : (resolution (Adjacency.ofDiagram seats) (some 1)).tables.keyNames "c" = [] := by cbv
  have all : (resolution (Adjacency.ofDiagram seats) (some 3)).tables.keyNames "c" = ["no"] := by
    cbv
  have silent : ∀ passes, .propagationLimit passes ∉ (ofDiagram seats (some 3)).diagnostics := by
    have finished : (settled (Adjacency.ofDiagram seats) (some 3)).stopped = false := by cbv
    intro passes reported
    rw [mem_diagnostics_propagationLimit, finished] at reported
    exact absurd reported.1 Bool.false_ne_true
  have truncates := (limit_truncates seats).2.2
  exact ⟨⟨by decide, few, all, ((truncates 1 3 (by decide)).1 "c").1⟩, silent,
    ((truncates 3 3 (by decide)).2 silent).2⟩

end Derivation

end ErSchema
