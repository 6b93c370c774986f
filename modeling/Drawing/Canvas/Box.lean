import Drawing.Number.Arithmetic
import Drawing.Schema.Shape

/-!
# `Drawing/Canvas/Box.lean` — axis-parallel boxes

One type for all boxes: regions as fractions of a canvas, the same regions in pixels, the bounds of a
shape and the part of the plane that a view shows. A box is closed, so it contains its edges.
-/

namespace Drawing

/-- A point of the plane. -/
structure Point (α : Type) where
  x : α
  y : α
  deriving Repr, BEq, DecidableEq

/-- A box by its upper left corner and its size. -/
structure Box (α : Type) where
  x : α
  y : α
  width : α
  height : α
  deriving Repr, BEq, DecidableEq

namespace Box

variable {α : Type}

section Geometry

variable [Scalar α]

def right (b : Box α) : α := b.x + b.width

/-- The lower edge. -/
def bottom (b : Box α) : α := b.y + b.height

def center (b : Box α) : Point α :=
  ⟨b.x + b.width / Scalar.ofRat 2, b.y + b.height / Scalar.ofRat 2⟩

/-- Whether a point lies in the box or on its edge. -/
def contains (b : Box α) (p : Point α) : Bool :=
  b.x ≤ p.x && p.x ≤ b.right && b.y ≤ p.y && p.y ≤ b.bottom

/-- Whether a place lies in the box or on its edge. -/
def holds (b : Box α) (x y : Numeral α) : Bool :=
  x.isWithin (.real b.x) (.real b.right) && y.isWithin (.real b.y) (.real b.bottom)

def area (b : Box α) : α := b.width * b.height

/-- The area between the edges. It is the area of the box, but for rounding. -/
def edgeArea (b : Box α) : α := (b.right - b.x) * (b.bottom - b.y)

/-- The length that two intervals share. -/
def sharedLength (lo hi lo' hi' : α) : α :=
  let length := Scalar.least hi hi' - Scalar.greatest lo lo'
  if Scalar.zero < length then length else Scalar.zero

/-- The area that two boxes share. -/
def sharedArea (a b : Box α) : α :=
  sharedLength a.x a.right b.x b.right * sharedLength a.y a.bottom b.y b.bottom

/-- The box with its sides scaled to a width and a height. -/
def scale (b : Box α) (w h : α) : Box α := ⟨b.x * w, b.y * h, b.width * w, b.height * h⟩

end Geometry

/-- The four numbers of a box. -/
def toList (b : Box α) : List α := [b.x, b.y, b.width, b.height]

/-- The four numbers of a box as raw data. -/
def jsonList (b : Box α) : Json α := .arr (b.toList.map Json.ofReal)

/-- Reads four finite numbers. -/
def readList [Scalar α] (v : Json α) : Checked (Box α) :=
  (Schema.quadruple Schema.finite v).map fun (x, y, w, h) => ⟨x, y, w, h⟩

def readFields [Scalar α] (fields : Fields α) : Checked (Box α) :=
  Box.mk <$> Schema.required (.same "x") Schema.finite fields <*>
    Schema.required (.same "y") Schema.finite fields <*>
    Schema.required (.same "width") Schema.finite fields <*>
    Schema.required (.same "height") Schema.finite fields

def read [Scalar α] : Json α → Checked (Box α) := Schema.record "RegionBox" readFields

def json (sp : Schema.Spelling) (b : Box α) : Json α :=
  Schema.write sp [
    (.same "x", .ofReal b.x), (.same "y", .ofReal b.y),
    (.same "width", .ofReal b.width), (.same "height", .ofReal b.height)]

end Box

/-- Reads a pair of finite numbers as a point. -/
def Point.read {α : Type} [Scalar α] (v : Json α) : Checked (Point α) :=
  (Schema.pair Schema.finite v).map fun (x, y) => ⟨x, y⟩

def Point.json {α : Type} (p : Point α) : Json α := .arr [.ofReal p.x, .ofReal p.y]

end Drawing
