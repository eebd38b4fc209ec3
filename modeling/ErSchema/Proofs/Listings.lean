import ErSchema.Embedding
import ErSchema.Proofs.Digits
import ErSchema.Proofs.Text.Runs
import Mathlib.Data.List.Nodup

/-! # Listings behind the elements

While there are numbers left, a listing is numbered above every number that an
identifier ends in, however that is written, and its own identifier ends in its
number. So one listing after the other gets the next number, under an identifier
that no element had before, and is put behind the elements, which stay as they
are. -/

namespace ErSchema.Document

/-! ## Numbers in identifiers -/

theorem afterLastDash_append {digits : List Char} (plain : '-' ∉ digits) (text : List Char) :
    afterLastDash (text ++ '-' :: digits) = digits := by
  have undashed : ∀ character ∈ digits.reverse, decide (character ≠ '-') = true := by
    intro character member
    refine decide_eq_true fun dash => plain ?_
    rw [← dash]
    exact List.mem_reverse.mp member
  have reversed : (text ++ '-' :: digits).reverse = digits.reverse ++ '-' :: text.reverse := by
    simp
  rw [afterLastDash, reversed, Text.takeWhile_run undashed (Text.stops_cons (by decide)),
    List.reverse_reverse]

def mintedId (number : Nat) : String :=
  "element-" ++ Decimal.natText number

theorem elementNumber?_mintedId {number : Nat} (below : number < numberLimit) :
    elementNumber? (mintedId number) = some number := by
  have plain : '-' ∉ Decimal.digitsOfNat number := fun member =>
    absurd (Decimal.isDigit_of_mem_digitsOfNat member) (by decide)
  have digits := afterLastDash_append plain "element".toList
  have text : (mintedId number).toList =
      "element".toList ++ '-' :: Decimal.digitsOfNat number := by
    simp [mintedId, Decimal.natText]
  rw [elementNumber?, text, digits, Decimal.countBelow?_digitsOfNat below]

theorem le_foldl_max {numbers : List Nat} {start : Nat} :
    start ≤ numbers.foldl max start ∧ ∀ number ∈ numbers, number ≤ numbers.foldl max start := by
  induction numbers generalizing start with
  | nil => simp
  | cons head rest induction =>
      have later := @induction (max start head)
      refine ⟨Nat.le_trans (Nat.le_max_left _ _) later.1,
        List.forall_mem_cons.mpr ⟨Nat.le_trans (Nat.le_max_right _ _) later.1, later.2⟩⟩

variable {document : Document}

theorem lt_numberAbove {element : ElementRecord} (member : element ∈ document.elements)
    {number : Nat} (found : elementNumber? element.id = some number) :
    number < document.numberAbove :=
  le_foldl_max.2 (number + 1)
    (List.mem_map_of_mem (List.mem_filterMap.mpr ⟨element, member, found⟩))

theorem numberAbove_le {limit : Nat}
    (small : ∀ element ∈ document.elements, ∀ number, elementNumber? element.id = some number →
      number < limit) : document.numberAbove ≤ limit := by
  unfold numberAbove
  refine List.foldlRecOn (motive := (· ≤ limit)) _ _ (Nat.zero_le limit) ?_
  intro highest sofar next member
  rcases List.mem_map.mp member with ⟨number, listed, rfl⟩
  rcases List.mem_filterMap.mp listed with ⟨element, isElement, found⟩
  exact Nat.max_le.mpr ⟨sofar, small element isElement number found⟩

theorem nextNumber_eq_numberAbove (below : document.numberAbove < numberLimit) :
    document.nextNumber = document.numberAbove :=
  Nat.mod_eq_of_lt below

/-! ## One listing -/

theorem id_ne_mintedId {element : ElementRecord} (member : element ∈ document.elements)
    {number : Nat} (high : document.numberAbove ≤ number) (below : number < numberLimit) :
    element.id ≠ mintedId number := by
  intro same
  have found : elementNumber? element.id = some number := same ▸ elementNumber?_mintedId below
  exact Nat.not_lt_of_le high (lt_numberAbove member found)

theorem id_listingElement (below : document.numberAbove < numberLimit) (html : String) :
    (document.listingElement html).id = mintedId document.numberAbove :=
  congrArg mintedId (nextNumber_eq_numberAbove below)

theorem numberAbove_embed (below : document.numberAbove < numberLimit) (html : String) :
    (document.embed html).numberAbove = document.numberAbove + 1 := by
  have minted : elementNumber? (document.listingElement html).id = some document.numberAbove := by
    rw [id_listingElement below, elementNumber?_mintedId below]
  apply Nat.le_antisymm
  · refine numberAbove_le fun element member number found => Nat.lt_succ_iff.mpr ?_
    rcases List.mem_append.mp member with old | new
    · exact Nat.le_of_lt (lt_numberAbove old found)
    · rw [List.mem_singleton.mp new, minted] at found
      exact Nat.le_of_eq (Option.some.inj found).symm
  · have isLast : document.listingElement html ∈ (document.embed html).elements :=
      List.mem_append_right _ List.mem_cons_self
    exact lt_numberAbove isLast minted

/-! ## One listing after the other -/

/-- What is put behind the elements when the texts are embedded in turn. -/
def listings (document : Document) : List String → List ElementRecord
  | [] => []
  | html :: rest => document.listingElement html :: (document.embed html).listings rest

theorem foldl_embed (document : Document) (htmls : List String) :
    htmls.foldl embed document =
      ⟨document.elements ++ document.listings htmls, document.lines⟩ := by
  induction htmls generalizing document with
  | nil => exact congrArg (Document.mk · document.lines) (List.append_nil _).symm
  | cons html rest induction =>
      rw [List.foldl_cons, induction]
      exact congrArg (Document.mk · document.lines) (List.append_assoc _ [_] _)

theorem map_text_listings (document : Document) (htmls : List String) :
    (document.listings htmls).map (·.text) = htmls := by
  induction htmls generalizing document with
  | nil => rfl
  | cons html rest induction => exact congrArg (html :: ·) (induction _)

theorem length_listings (document : Document) (htmls : List String) :
    (document.listings htmls).length = htmls.length := by
  rw [← List.length_map (·.text), map_text_listings]

theorem extra_listings (document : Document) (htmls : List String) :
    ∀ listing ∈ document.listings htmls, listing.extra = [] := by
  induction htmls generalizing document with
  | nil => exact List.forall_mem_nil _
  | cons html rest induction => exact List.forall_mem_cons.mpr ⟨rfl, induction _⟩

theorem map_id_listings (htmls : List String)
    (enough : document.numberAbove + htmls.length ≤ numberLimit) :
    (document.listings htmls).map (·.id) =
      (List.range' document.numberAbove htmls.length).map mintedId := by
  induction htmls generalizing document with
  | nil => rfl
  | cons html rest induction =>
      rw [List.length_cons] at enough
      have below : document.numberAbove < numberLimit := by omega
      have next := numberAbove_embed below html
      have later : ((document.embed html).listings rest).map (·.id) =
          (List.range' (document.embed html).numberAbove rest.length).map mintedId :=
        induction (by omega)
      rw [listings, List.map_cons, id_listingElement below, later, next, List.length_cons,
        List.range'_succ, List.map_cons]

/-- Each of the texts is embedded under a number above all before it, and under an identifier
that no element and no other listing has. The elements and the lines stay as they were. The
numbers are those of 64 bits, so there cannot be more listings than numbers. -/
theorem embed_mints_fresh (document : Document) (htmls : List String)
    (countable : htmls.length ≤ numberLimit)
    (small : ∀ element ∈ document.elements, ∀ number, elementNumber? element.id = some number →
      number < numberLimit - 1 - htmls.length) :
    let embedded := htmls.foldl embed document
    let numbers := List.range' document.nextNumber htmls.length
    ∃ listings, embedded.elements = document.elements ++ listings ∧
      embedded.lines = document.lines ∧
      listings.map (·.text) = htmls ∧
      listings.map (·.id) = numbers.map mintedId ∧
      listings.map (fun listing => elementNumber? listing.id) = numbers.map some ∧
      numbers.Pairwise (· < ·) ∧
      (∀ number ∈ numbers, ∀ element ∈ document.elements, ∀ earlier,
        elementNumber? element.id = some earlier → earlier < number) ∧
      (listings.map (·.id)).Nodup ∧
      ∀ listing ∈ listings, ∀ element ∈ document.elements, listing.id ≠ element.id := by
  intro embedded numbers
  -- There is room for all listings above the elements, so no number starts over at zero.
  have highest : document.numberAbove ≤ numberLimit - 1 - htmls.length := numberAbove_le small
  have positive : 0 < numberLimit := by decide
  have next : document.nextNumber = document.numberAbove :=
    nextNumber_eq_numberAbove (by omega)
  have after : embedded = ⟨document.elements ++ document.listings htmls, document.lines⟩ :=
    foldl_embed document htmls
  have ids : (document.listings htmls).map (·.id) = numbers.map mintedId := by
    rw [map_id_listings htmls (by omega), ← next]
  have increasing : numbers.Pairwise (· < ·) := List.pairwise_lt_range'
  have distinct : numbers.Nodup := increasing.imp Nat.ne_of_lt
  have range {number : Nat} (listed : number ∈ numbers) :
      document.numberAbove ≤ number ∧ number < numberLimit := by
    have bounds := List.mem_range'_1.mp listed
    omega
  have back : ((document.listings htmls).map (·.id)).map elementNumber? = numbers.map some := by
    rw [ids, List.map_map]
    exact List.map_congr_left fun number listed => elementNumber?_mintedId (range listed).2
  refine ⟨document.listings htmls, ?_, ?_, map_text_listings document htmls, ids, ?_, increasing,
    ?_, ?_, ?_⟩
  · rw [after]
  · rw [after]
  · rw [← back, List.map_map]
    rfl
  · intro number listed element isElement earlier found
    exact Nat.lt_of_lt_of_le (lt_numberAbove isElement found) (range listed).1
  · apply List.Nodup.of_map elementNumber?
    rw [back]
    exact distinct.map fun _ _ => Option.some.inj
  · intro listing isListing element isElement
    have named : listing.id ∈ numbers.map mintedId := ids ▸ List.mem_map_of_mem isListing
    rcases List.mem_map.mp named with ⟨number, listed, isId⟩
    rw [← isId]
    exact (id_ne_mintedId isElement (range listed).1 (range listed).2).symm

/-- Numbers are read behind the last dash, with a plus sign or zeros in front; two elements have
one identifier, and a number of more than 64 bits is none. -/
def oddlyNumbered : Document where
  elements :=
    ["note", "7", "a-b--007", "x-+41", "x-+41", "e-", "e-18446744073709551616"].map fun id =>
      { id := id, kind := "entity", left := "", top := "", width := none, height := none
        text := "", isWeak := false, isPrimaryKey := false, extra := [] }
  lines := []

theorem embed_mints_fresh_oddlyNumbered :
    let embedded := ["<table>", "", "<table>"].foldl embed oddlyNumbered
    (∀ element ∈ oddlyNumbered.elements, ∀ number, elementNumber? element.id = some number →
      number < numberLimit - 1 - 3) ∧
    ∃ listings, embedded.elements = oddlyNumbered.elements ++ listings ∧
      embedded.lines = oddlyNumbered.lines ∧
      listings.map (·.id) = ["element-42", "element-43", "element-44"] ∧
      ∀ listing ∈ listings, ∀ element ∈ oddlyNumbered.elements, listing.id ≠ element.id := by
  have found : oddlyNumbered.elements.map (fun element => elementNumber? element.id) =
      [none, some 7, some 7, some 41, some 41, none, none] := by decide +kernel
  have small : ∀ element ∈ oddlyNumbered.elements, ∀ number,
      elementNumber? element.id = some number → number < numberLimit - 1 - 3 := by
    intro element member number isNumber
    have listed : some number ∈ [none, some 7, some 7, some 41, some 41, none, none] := by
      rw [← found, ← isNumber]
      exact List.mem_map_of_mem member
    have few : number = 7 ∨ number = 41 := by simpa using listed
    rcases few with rfl | rfl <;> decide
  have ids : (List.range' oddlyNumbered.nextNumber 3).map mintedId =
      ["element-42", "element-43", "element-44"] := by decide +kernel
  rcases embed_mints_fresh oddlyNumbered ["<table>", "", "<table>"] (by decide) small with
    ⟨listings, elements, lines, _, named, _, _, _, _, fresh⟩
  exact ⟨small, listings, elements, lines, named.trans ids, fresh⟩

end ErSchema.Document
