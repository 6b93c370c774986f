import Drawing.Number.Arithmetic
import Drawing.Schema.Shape

/-!
# `Drawing/Canvas/Aspect.lean` — aspect ratios

A drawing is made for one of six aspect ratios. Each has a tag, a canonical canvas whose longer side is
512 pixels, and an exact value; the pixel sizes are rounded down, so the two differ slightly for three
to two.
-/

namespace Drawing

/-- The aspect ratios a canvas can have. -/
inductive Aspect where
  | square
  | fourThree
  | sixteenNine
  | threeTwo
  | twoThree
  | nineSixteen
  deriving Repr, DecidableEq, BEq

namespace Aspect

/-- All aspect ratios, in the order that ties are broken in. -/
def all : List Aspect := [square, fourThree, sixteenNine, threeTwo, twoThree, nineSixteen]

def tag : Aspect → String
  | square => "1:1"
  | fourThree => "4:3"
  | sixteenNine => "16:9"
  | threeTwo => "3:2"
  | twoThree => "2:3"
  | nineSixteen => "9:16"

def ofTag? (s : String) : Option Aspect := all.find? fun a => a.tag == s

/-- The width and height of the canonical canvas. -/
def size : Aspect → Nat × Nat
  | square => (512, 512)
  | fourThree => (512, 384)
  | sixteenNine => (512, 288)
  | threeTwo => (512, 341)
  | twoThree => (341, 512)
  | nineSixteen => (288, 512)

/-- The exact value of the ratio. -/
def ratio : Aspect → Rat
  | square => 1
  | fourThree => 4 / 3
  | sixteenNine => 16 / 9
  | threeTwo => 3 / 2
  | twoThree => 2 / 3
  | nineSixteen => 9 / 16

/-- The aspect ratio with a tag, or the fault that there is none. -/
def named {α : Type} (tag : String) : Except (Fault α) Aspect :=
  match ofTag? tag with
  | some a => .ok a
  | none => .error (.unknownAspect tag)

/-- The view box of the canonical canvas as text. -/
def viewBoxText (a : Aspect) : String := s!"0 0 {a.size.1} {a.size.2}"

def read {α : Type} : Json α → Checked Aspect := Schema.oneOf (all.map tag) ofTag?

end Aspect

/-! ## The closest aspect ratio -/

section

variable {α : Type} [Scalar α]

/-- The aspect ratio nearest to a value; the first of several equally near ones. -/
def Aspect.nearest (actual : α) : Aspect :=
  let distance (a : Aspect) : α := Scalar.abs (Scalar.ofRat a.ratio - actual)
  -- Only a strictly nearer ratio takes over, so the first of several equally near ones stays.
  (Aspect.all.drop 1).foldl (fun best a => if distance a < distance best then a else best) .square

/-- The aspect ratio nearest to that of a size, square where a side is not above zero. -/
def Aspect.closest (width height : Numeral α) : Except (Fault α) Aspect :=
  if width.atMostZero || height.atMostZero then .ok .square
  else (width.quotient height).map Aspect.nearest

end

end Drawing
