import Drawing.Canvas.Aspect
import Drawing.Canvas.Box

/-!
# `Drawing/Canvas/Basic.lean` — the canvas

The canvas has a size in whole pixels, an aspect ratio tag and possibly a view box. The tag is what the
drawing was asked for; nothing forces the size to agree with it.
-/

namespace Drawing

/-- A canvas. Both sides are at least one pixel. -/
structure Canvas (α : Type) where
  width : Nat
  height : Nat
  aspect : Aspect
  viewBox : Option (Box α)
  width_pos : 0 < width
  height_pos : 0 < height
  deriving Repr, DecidableEq, BEq

namespace Canvas

variable {α : Type}

/-- The canonical canvas of an aspect ratio. -/
def ofAspect (a : Aspect) : Canvas α where
  width := a.size.1
  height := a.size.2
  aspect := a
  viewBox := none
  width_pos := by cases a <;> decide
  height_pos := by cases a <;> decide

def w [Scalar α] (c : Canvas α) : α := Scalar.ofNat c.width

def h [Scalar α] (c : Canvas α) : α := Scalar.ofNat c.height

/-- The width and height as scalars, or the fault that one is too large. -/
def sides [Scalar α] (c : Canvas α) : Except (Fault α) (α × α) := do
  let w ← (Numeral.whole c.width).toScalar
  let h ← (Numeral.whole c.height).toScalar
  return (w, h)

/-- Whether a point lies outside a canvas. -/
def isOutside [Scalar α] (c : Canvas α) (p : Point α) : Bool :=
  -- The sides stay whole numbers here, since a large one has no exact scalar.
  p.x < Scalar.zero || (Numeral.whole c.width).isBelow (.real p.x) ||
    p.y < Scalar.zero || (Numeral.whole c.height).isBelow (.real p.y)

/-- Whether a place lies on a canvas or its edges. -/
def covers [Scalar α] (c : Canvas α) (x y : Numeral α) : Bool :=
  x.isWithin (.whole 0) (.whole c.width) && y.isWithin (.whole 0) (.whole c.height)

/-- A positive whole number. -/
def readSide [Scalar α] (v : Json α) : Checked { n : Nat // 0 < n } :=
  (Schema.whole v).refine fun n =>
    if h : 0 < n.toNat then .valid ⟨n.toNat, h⟩ else .refuse .notPositive

/-- The canvas of two sides, an aspect ratio and a view box. -/
def ofSides (w h : { n : Nat // 0 < n }) (aspect : Aspect) (viewBox : Option (Box α)) : Canvas α where
  width := w.1
  height := h.1
  aspect
  viewBox
  width_pos := w.2
  height_pos := h.2

def readFields [Scalar α] (fields : Fields α) : Checked (Canvas α) :=
  ofSides <$>
    Schema.optional (.same "width") ⟨512, by decide⟩ readSide fields <*>
    Schema.optional (.same "height") ⟨512, by decide⟩ readSide fields <*>
    Schema.optional ⟨"aspectRatio", "aspect_ratio"⟩ Aspect.square Aspect.read fields <*>
    Schema.optional ⟨"viewBox", "view_box"⟩ none (Schema.nullable Box.readList) fields

def read [Scalar α] : Json α → Checked (Canvas α) := Schema.record "Canvas" readFields

def json (sp : Schema.Spelling) (c : Canvas α) : Json α :=
  Schema.write sp [
    (.same "width", .ofInt c.width),
    (.same "height", .ofInt c.height),
    (⟨"aspectRatio", "aspect_ratio"⟩, .str c.aspect.tag),
    (⟨"viewBox", "view_box"⟩, .ofOption (c.viewBox.map Box.jsonList))]

end Canvas

end Drawing
