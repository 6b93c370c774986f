import Drawing.Canvas.Box

/-!
# `Drawing/Region/Anchor.lean` — anchor points

An anchor names one of nine points of a box: its corners, the middles of its sides, and its centre. It is
given by the fractions of width and height that separate it from the upper left corner.
-/

namespace Drawing

/-- The nine anchor points of a box. -/
inductive Anchor where
  | center
  | topLeft
  | topRight
  | bottomLeft
  | bottomRight
  | topCenter
  | bottomCenter
  | middleLeft
  | middleRight
  deriving Repr, DecidableEq, BEq

namespace Anchor

/-- All anchors, in the order in which they are listed. -/
def all : List Anchor :=
  [center, topLeft, topRight, bottomLeft, bottomRight, topCenter, bottomCenter, middleLeft, middleRight]

def name : Anchor → String
  | center => "center"
  | topLeft => "top_left"
  | topRight => "top_right"
  | bottomLeft => "bottom_left"
  | bottomRight => "bottom_right"
  | topCenter => "top_center"
  | bottomCenter => "bottom_center"
  | middleLeft => "middle_left"
  | middleRight => "middle_right"

def ofName? (s : String) : Option Anchor := all.find? fun a => a.name == s

/-- The fractions of width and height at which an anchor lies. -/
def fractions : Anchor → Rat × Rat
  | center => (1 / 2, 1 / 2)
  | topLeft => (0, 0)
  | topRight => (1, 0)
  | bottomLeft => (0, 1)
  | bottomRight => (1, 1)
  | topCenter => (1 / 2, 0)
  | bottomCenter => (1 / 2, 1)
  | middleLeft => (0, 1 / 2)
  | middleRight => (1, 1 / 2)

/-- The point of a box that an anchor names. -/
def pointOf {α : Type} [Scalar α] (a : Anchor) (b : Box α) : Point α :=
  ⟨b.x + b.width * Scalar.ofRat a.fractions.1, b.y + b.height * Scalar.ofRat a.fractions.2⟩

def read {α : Type} : Json α → Checked Anchor := Schema.oneOf (all.map name) ofName?

end Anchor

end Drawing
