import ErSchema.Document

/-! # A listing inside its own diagram

The listing becomes an element to the right of everything drawn, level with the
highest element, under an identifier with a number above all others. Numbers have
64 bits: above the last of them comes zero again. -/

namespace ErSchema.Document

def listingKind : String := "schema"
def listingWidth : String := "450px"
def listingHeight : String := "auto"

/-- The distance between the drawing and the listing. -/
def listingGap : Float := 40

def rightEdgeOf (element : ElementRecord) : Float :=
  ElementRecord.coordinate element.left +
    (element.width.bind Length.read?).getD 0

def rightEdge (document : Document) : Float :=
  (document.elements.map rightEdgeOf).foldl (fun farthest edge =>
    if farthest < edge then edge else farthest) 0

/-- The first of several equal places is kept. -/
def topEdge (document : Document) : Float :=
  match document.elements.filterMap fun element => Length.read? element.top with
  | [] => 0
  | first :: rest =>
      rest.foldl (fun highest place => if place < highest then place else highest) first

/-! ## Numbered identifiers -/

/-- What follows the last dash, or the whole text without one. -/
def afterLastDash (text : List Char) : List Char :=
  (text.reverse.takeWhile (· ≠ '-')).reverse

def numberLimit : Nat := UInt64.size

/-- The number at the end of an identifier, perhaps with a plus sign. -/
def elementNumber? (id : String) : Option Nat :=
  Decimal.countBelow? numberLimit (afterLastDash id.toList)

/-- One more than the highest number, and zero without any. -/
def numberAbove (document : Document) : Nat :=
  ((document.elements.filterMap fun element => elementNumber? element.id).map
    (· + 1)).foldl max 0

def nextNumber (document : Document) : Nat :=
  document.numberAbove % numberLimit

example (document : Document) (last : document.numberAbove = numberLimit) :
    document.nextNumber = 0 := by
  rw [nextNumber, last, Nat.mod_self]

example : elementNumber? "element-+07" = some 7 := by decide +kernel

def listingElement (document : Document) (html : String) : ElementRecord :=
  { id := "element-" ++ Decimal.natText document.nextNumber
    kind := listingKind
    left := Length.display (document.rightEdge + listingGap) ++ "px"
    top := Length.display document.topEdge ++ "px"
    width := some listingWidth
    height := some listingHeight
    text := html
    isWeak := false
    isPrimaryKey := false
    extra := [] }

def embed (document : Document) (html : String) : Document :=
  { document with elements := document.elements ++ [document.listingElement html] }

end ErSchema.Document
