import Drawing.Viewport.Fit

/-!
# `Drawing/Viewport/Report.lean` — what a view shows of a drawing

A report compares the extent of a drawing with the view box and with the canvas. The view box is as the
caller wrote it, so its edges are sums of numerals.
-/

namespace Drawing

/-- What can be said against a view. -/
inductive ViewProblem where
  | nothingDrawn
  | clipped
  | pastCanvas
  | otherAspect
  deriving Repr, DecidableEq

def ViewProblem.text : ViewProblem → String
  | nothingDrawn => "No drawable content"
  | clipped => "Content is clipped by the view box"
  | pastCanvas => "Content extends past the canvas"
  | otherAspect => "Content aspect differs from the canvas"

/-- The extent of a drawing and the problems of its view. -/
structure ViewReport (α : Type) where
  content : Extent α
  problems : List ViewProblem
  deriving Repr

section

variable {α : Type} [Scalar α]

namespace Extent

/-- Whether an extent leaves a view box on any side. -/
def isClipped (e : Extent α) (x y width height : Numeral α) : Except (Fault α) Bool := do
  if (Numeral.real e.left).isBelow x || (Numeral.real e.top).isBelow y then return true
  else if (← x.plus width).isBelow (.real e.right) then return true
  else return (← y.plus height).isBelow (.real e.bottom)

/-- Whether an extent leaves a canvas on any side. -/
def isPastCanvas (e : Extent α) (width height : Numeral α) : Bool :=
  e.left < Scalar.zero || e.top < Scalar.zero || width.isBelow (.real e.right) ||
    height.isBelow (.real e.bottom)

/-- Whether an extent with an area has an aspect far from that of a canvas. -/
def isOfOtherAspect (e : Extent α) (width height : Numeral α) : Except (Fault α) Bool :=
  if Scalar.zero < e.width && Scalar.zero < e.height then do
    return e.isFarFrom (← width.quotient height)
  else .ok false

end Extent

/-- What a view box of four numerals shows of some commands on a canvas. -/
def viewReport (commands : List (Command α)) (viewBox : List (Numeral α)) (width height : Numeral α) :
    Except (Fault α) (ViewReport α) :=
  match viewBox with
  | [x, y, w, h] =>
    let points := pointsOf commands
    let content := extent points
    if points.isEmpty then .ok ⟨content, [.nothingDrawn]⟩
    else do
      let clipped ← content.isClipped x y w h
      let otherAspect ← content.isOfOtherAspect width height
      let findings := [(clipped, ViewProblem.clipped), (content.isPastCanvas width height, .pastCanvas),
        (otherAspect, .otherAspect)]
      return ⟨content, findings.filterMap fun (found, p) => if found then some p else none⟩
  | _ => .error (.wrongCount 4 viewBox.length)

end

end Drawing
