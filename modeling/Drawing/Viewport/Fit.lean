import Drawing.Document.Basic

/-!
# `Drawing/Viewport/Fit.lean` — framing what is drawn

A view box shows the content of a drawing with some padding around it. Content whose aspect is far from
that of the canvas is first scaled down about its own centre, so that it fills at most four fifths of
either side; scaling is never up. Content without extent in one direction is shown on the whole canvas.
-/

namespace Drawing

/-- A view box, the commands it frames, and the factor they were scaled by, if they were. -/
structure Framing (α : Type) where
  viewBox : Box α
  commands : List (Command α)
  factor : Option α
  deriving Repr

section

variable {α : Type} [Scalar α]

/-- The difference of aspects beyond which content is scaled. -/
def aspectTolerance : α := Scalar.ofRat 0.5

/-- The share of a side that scaled content fills at most. -/
def targetFill : α := Scalar.ofRat 0.8

/-- The padding of a view box as a share of the longer side of the content, unless another is asked
for. -/
def defaultPadding : α := Scalar.ofRat 0.15

/-- The text of the scaling that was applied, empty if none was. -/
def Framing.transformText (f : Framing α) : String :=
  match f.factor with
  | some s => "scale(" ++ Scalar.fixedText 3 s ++ ")"
  | none => ""

namespace Extent

/-- The middle of an extent. -/
def middle (e : Extent α) : Point α :=
  ⟨(e.left + e.right) / Scalar.ofRat 2, (e.top + e.bottom) / Scalar.ofRat 2⟩

/-- Whether the aspect of an extent is far from a ratio. -/
def isFarFrom (e : Extent α) (ratio : α) : Bool :=
  aspectTolerance < Scalar.abs (e.width / e.height - ratio)

/-- The box around an extent, a padding away on each side. -/
def padded (e : Extent α) (pad : α) : Box α :=
  ⟨e.left - pad, e.top - pad, e.width + Scalar.ofRat 2 * pad, e.height + Scalar.ofRat 2 * pad⟩

/-- The padding around an extent that is a share of its longer side. -/
def padding (e : Extent α) (share : α) : α := Scalar.greatest e.width e.height * share

/-- The largest factor that keeps both sides within their share of a canvas. -/
def fillFactor (e : Extent α) (width height : α) : α :=
  Scalar.least (width * targetFill / e.width) (height * targetFill / e.height)

/-- The factor that content is scaled down by on a canvas, if it is. -/
def shrinking? (e : Extent α) (width height : Numeral α) : Except (Fault α) (Option α) := do
  let ratio ← width.quotient height
  -- Both sides are scalars by now: `frame` has asked.
  let factor := e.fillFactor width.value height.value
  return if e.isFarFrom ratio && factor < Scalar.one then some factor else none

end Extent

/-- Points scaled about the middle of their extent. -/
def shrink (points : List (Point α)) (factor : α) : List (Point α) :=
  let c := (extent points).middle
  points.map fun p => p.scaleAbout factor c.x c.y

/-- Commands and the view box that frames them on a canvas. -/
def frame (commands : List (Command α)) (width height padding : Numeral α) :
    Except (Fault α) (Framing α) := do
  let w ← width.toScalar
  let h ← height.toScalar
  let whole : Framing α := ⟨⟨Scalar.zero, Scalar.zero, w, h⟩, commands, none⟩
  let points := pointsOf commands
  let content := extent points
  if points.isEmpty || content.width ≤ Scalar.zero || content.height ≤ Scalar.zero then return whole
  else match ← content.shrinking? width height with
    | none => return ⟨content.padded (content.padding (← padding.toScalar)), commands, none⟩
    | some factor =>
      let shrunk := shrink points factor
      let drawn ← rebuilt commands shrunk
      -- The view box goes around the scaled points as they were rounded.
      let content := extent shrunk
      return ⟨content.padded (content.padding (← padding.toScalar)), drawn, some factor⟩

end

/-! ## Whole documents -/

section

variable {α : Type}

/-- Paths with other commands, dealt out in order, each path getting as many as it had; and the commands
that are left. -/
def dealToPaths : List (ShapePath α) → List (Command α) → List (ShapePath α) × List (Command α)
  | [], commands => ([], commands)
  | p :: rest, commands =>
    let n := p.commands.length
    let (dealt, left) := dealToPaths rest (commands.drop n)
    (p.withCommands (commands.take n) :: dealt, left)

/-- Layers with other commands, dealt out in order. -/
def dealToLayers : List (Layer α) → List (Command α) → List (Layer α)
  | [], _ => []
  | l :: rest, commands =>
    let (paths, left) := dealToPaths l.paths commands
    l.withPaths paths :: dealToLayers rest left

/-- A document framed as a whole: its commands scaled together, its canvas with the view box. -/
def Document.fit [Scalar α] (d : Document α) (padding : Numeral α) :
    Except (Fault α) (Document α × Framing α) := do
  let framing ← frame d.commands (.whole d.canvas.width) (.whole d.canvas.height) padding
  return ({ d with
    canvas := { d.canvas with viewBox := some framing.viewBox }
    layers := dealToLayers d.layers framing.commands }, framing)

end

end Drawing
