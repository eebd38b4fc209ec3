import ErSchema.Proofs.Sql.Identifier
import ErSchema.Proofs.Text.Runs

/-! # Reading a clause back

A clause of a statement declares a column, lists the primary key or refers to
another table. The names in it are identifiers and therefore unbroken, whatever
punctuation they have, so the first blank after an opening ends a name. Only the
column type is free text: a column called `PRIMARY` is told from a key list by
its type not being spelled like one. -/

namespace ErSchema.Sql

open Text (Unbroken)

/-! ## Up to a blank -/

def beforeBlank (text : List Char) : List Char :=
  text.takeWhile (· != ' ')

theorem beforeBlank_append {word : List Char} (unbroken : Unbroken word) (rest : List Char) :
    beforeBlank (word ++ ' ' :: rest) = word := by
  have solid : ∀ character ∈ word, (character != ' ') = true := by
    intro character member
    apply bne_iff_ne.mpr
    intro equal
    exact unbroken.not_mem (by decide) (equal ▸ member)
  exact Text.takeWhile_run solid (Text.stops_cons (by decide))

/-! ## Comma after all but the last

A list joined by commas and a blank is the same text as its members joined by the
blank once each but the last has its comma. -/

def listed : List (List Char) → List (List Char)
  | [] => []
  | [last] => [last]
  | first :: next :: rest => (first ++ [',']) :: listed (next :: rest)

def unlisted : List (List Char) → List (List Char)
  | [] => []
  | [last] => [last]
  | first :: next :: rest => first.dropLast :: unlisted (next :: rest)

theorem listed_ne_nil {items : List (List Char)} (some : items ≠ []) : listed items ≠ [] := by
  cases items with
  | nil => exact absurd rfl some
  | cons first rest => cases rest <;> exact List.cons_ne_nil _ _

theorem unlisted_listed (items : List (List Char)) : unlisted (listed items) = items := by
  induction items with
  | nil => rfl
  | cons first rest induction =>
      cases rest with
      | nil => rfl
      | cons next others =>
          cases tail : listed (next :: others) with
          | nil => exact absurd tail (listed_ne_nil (List.cons_ne_nil _ _))
          | cons shown more =>
              rw [listed, tail, unlisted, ← tail, induction, List.dropLast_concat]

theorem intercalate_listed (blank : Char) (items : List (List Char)) :
    [',', blank].intercalate items = [blank].intercalate (listed items) := by
  induction items with
  | nil => rfl
  | cons first rest induction =>
      cases rest with
      | nil => rfl
      | cons next others =>
          cases tail : listed (next :: others) with
          | nil => exact absurd tail (listed_ne_nil (List.cons_ne_nil _ _))
          | cons shown more =>
              rw [listed, tail, List.intercalate_cons_cons, List.intercalate_cons_cons, ← tail,
                ← induction, List.append_assoc, List.append_assoc, List.append_assoc]
              rfl

theorem forall_mem_listed {holds : List Char → Prop} {items : List (List Char)}
    (each : ∀ item ∈ items, holds item) (comma : ∀ item, holds item → holds (item ++ [','])) :
    ∀ item ∈ listed items, holds item := by
  induction items with
  | nil => exact nofun
  | cons first rest induction =>
      have both := List.forall_mem_cons.mp each
      cases rest with
      | nil => exact each
      | cons next others =>
          exact List.forall_mem_cons.mpr ⟨comma first both.1, induction both.2⟩

theorem map_listed {α : Type} {measure : List Char → α}
    (comma : ∀ item, measure (item ++ [',']) = measure item) (items : List (List Char)) :
    (listed items).map measure = items.map measure := by
  induction items with
  | nil => rfl
  | cons first rest induction =>
      cases rest with
      | nil => rfl
      | cons next others =>
          rw [listed, List.map_cons, induction, comma]
          rfl

/-! ## Clauses -/

inductive Clause where
  | column (name : String)
  | primaryKey (names : List String)
  | foreignKey (name target : String)
  deriving DecidableEq, Repr

namespace Clause

def columns : Clause → List String
  | .column name => [name]
  | .primaryKey _ | .foreignKey _ _ => []

def keys : Clause → List String
  | .primaryKey names => names
  | .column _ | .foreignKey _ _ => []

def references : Clause → List (String × String)
  | .foreignKey name target => [(name, target)]
  | .column _ | .primaryKey _ => []

def keyOpening : List Char := "PRIMARY KEY (".toList
def referenceOpening : List Char := "FOREIGN KEY (".toList
def referenceMiddle : List Char := ") REFERENCES ".toList

/-- The text of a clause, without its indentation. -/
def write (columnType : String) : Clause → List Char
  | .column name => name.toList ++ ' ' :: columnType.toList
  | .primaryKey names =>
      keyOpening ++ ([',', ' '].intercalate (names.map String.toList) ++ [')'])
  | .foreignKey name target =>
      referenceOpening ++ (name.toList ++ (referenceMiddle ++
        (target.toList ++ ('(' :: name.toList ++ [')']))))

/-- The two names of a reference: the column stands before the first blank with a
parenthesis after it, and again, in two parentheses, at the end. -/
def readReference (text : List Char) : Clause :=
  let name := (beforeBlank text).dropLast
  let rest := text.drop (name.length + referenceMiddle.length)
  .foreignKey (.ofList name) (.ofList (rest.take (rest.length - (name.length + 2))))

def read (text : List Char) : Clause :=
  if keyOpening <+: text then
    let shown := (text.drop keyOpening.length).dropLast
    .primaryKey ((unlisted (shown.splitOn ' ')).map String.ofList)
  else if referenceOpening <+: text then readReference (text.drop referenceOpening.length)
  else .column (.ofList (beforeBlank text))

/-- The names are identifiers, and a list of keys has a member. -/
def Sound : Clause → Prop
  | .column name => Unbroken name.toList
  | .primaryKey names => names ≠ [] ∧ ∀ name ∈ names, Unbroken name.toList
  | .foreignKey name target => Unbroken name.toList ∧ Unbroken target.toList

/-- A column whose type does not look like a key list is not taken for one: the
word before the blank ends where the word of the opening does. -/
theorem not_opening_prefix {columnType : String} (plain : ¬ "KEY (".toList <+: columnType.toList)
    {name : List Char} (unbroken : Unbroken name) (word : List Char) (solid : Unbroken word) :
    ¬ word ++ ' ' :: "KEY (".toList <+: name ++ ' ' :: columnType.toList := by
  intro opens
  rcases opens with ⟨rest, equal⟩
  have same : word = name := by
    rw [← beforeBlank_append unbroken columnType.toList, ← equal, List.append_assoc]
    exact (beforeBlank_append solid _).symm
  subst same
  rw [List.append_assoc] at equal
  apply plain
  exact ⟨rest, (List.cons.inj (List.append_cancel_left equal)).2⟩

theorem read_write_column {columnType : String} (plain : ¬ "KEY (".toList <+: columnType.toList)
    {name : String} (unbroken : Unbroken name.toList) :
    read (write columnType (.column name)) = .column name := by
  have notKeys : ¬ keyOpening <+: name.toList ++ ' ' :: columnType.toList :=
    not_opening_prefix plain unbroken "PRIMARY".toList (by decide +kernel)
  have notReference : ¬ referenceOpening <+: name.toList ++ ' ' :: columnType.toList :=
    not_opening_prefix plain unbroken "FOREIGN".toList (by decide +kernel)
  rw [write, read, if_neg notKeys, if_neg notReference, beforeBlank_append unbroken,
    String.ofList_toList]

theorem read_write_primaryKey (columnType : String) {names : List String} (some : names ≠ [])
    (unbroken : ∀ name ∈ names, Unbroken name.toList) :
    read (write columnType (.primaryKey names)) = .primaryKey names := by
  have solid : ∀ shown ∈ listed (names.map String.toList), ' ' ∉ shown := by
    have each : ∀ shown ∈ listed (names.map String.toList), Unbroken shown := by
      apply forall_mem_listed
      · exact List.forall_mem_map.mpr unbroken
      · exact fun item holds => holds.append (by decide)
    exact fun shown member => (each shown member).not_mem (by decide)
  have shown : listed (names.map String.toList) ≠ [] :=
    listed_ne_nil (mt List.map_eq_nil_iff.mp some)
  rw [write, read, if_pos (List.prefix_append _ _), List.drop_left]
  dsimp only
  rw [List.dropLast_concat, intercalate_listed, List.splitOn_intercalate ' ' solid shown,
    unlisted_listed, List.map_map]
  congr 1
  exact (List.map_congr_left fun _ _ => String.ofList_toList).trans (List.map_id _)

theorem read_write_foreignKey (columnType : String) {name target : String}
    (unbroken : Unbroken name.toList) :
    read (write columnType (.foreignKey name target)) = .foreignKey name target := by
  have notKeys (rest : List Char) : ¬ keyOpening <+: referenceOpening ++ rest := by
    intro opens
    have same := List.prefix_of_prefix_length_le opens (List.prefix_append _ rest) (by decide +kernel)
    exact absurd same (by decide +kernel)
  have first (rest : List Char) :
      beforeBlank (name.toList ++ (referenceMiddle ++ rest)) = name.toList ++ [')'] := by
    have ended : Unbroken (name.toList ++ [')']) := unbroken.append (by decide)
    have split : name.toList ++ (referenceMiddle ++ rest) =
        (name.toList ++ [')']) ++ ' ' :: ("REFERENCES ".toList ++ rest) := by
      rw [List.append_assoc]
      rfl
    rw [split, beforeBlank_append ended]
  have last : (target.toList ++ ('(' :: name.toList ++ [')'])).take
      ((target.toList ++ ('(' :: name.toList ++ [')'])).length - (name.toList.length + 2)) =
        target.toList := by
    apply List.take_left'
    simp only [List.length_append, List.length_cons, List.length_nil]
    omega
  have found : readReference (name.toList ++ (referenceMiddle ++
      (target.toList ++ ('(' :: name.toList ++ [')'])))) = .foreignKey name target := by
    rw [readReference, first, List.dropLast_concat, ← List.length_append, ← List.append_assoc,
      List.drop_left, last, String.ofList_toList, String.ofList_toList]
  rw [write, read, if_neg (notKeys _), if_pos (List.prefix_append _ _), List.drop_left, found]

theorem break_not_mem_write {columnType : String} (oneLine : '\n' ∉ columnType.toList)
    {clause : Clause} (sound : clause.Sound) : '\n' ∉ clause.write columnType := by
  have apart {word : List Char} (unbroken : Unbroken word) : '\n' ∉ word :=
    unbroken.not_mem (by decide)
  cases clause with
  | column name => simp [write, apart sound, oneLine]
  | primaryKey names =>
      have joined : ∀ character ∈ [',', ' '].intercalate (names.map String.toList),
          character ≠ '\n' := by
        have between : ∀ character ∈ [',', ' '], character ≠ '\n' := by simp
        apply forall_mem_intercalate between
        intro part isPart character within equal
        obtain ⟨name, member, rfl⟩ := List.mem_map.mp isPart
        exact apart (sound.2 name member) (equal ▸ within)
      have whole : '\n' ∉ [',', ' '].intercalate (names.map String.toList) :=
        fun inside => joined '\n' inside rfl
      have opened : '\n' ∉ keyOpening := by decide +kernel
      simp [write, opened, whole]
  | foreignKey name target =>
      have opened : '\n' ∉ referenceOpening := by decide +kernel
      have middle : '\n' ∉ referenceMiddle := by decide +kernel
      simp [write, opened, middle, apart sound.1, apart sound.2]

theorem read_write {columnType : String} (plain : ¬ "KEY (".toList <+: columnType.toList)
    {clause : Clause} (sound : clause.Sound) : read (clause.write columnType) = clause := by
  cases clause with
  | column name => exact read_write_column plain sound
  | primaryKey names => exact read_write_primaryKey columnType sound.1 sound.2
  | foreignKey name target => exact read_write_foreignKey columnType sound.1

end Clause

end ErSchema.Sql
