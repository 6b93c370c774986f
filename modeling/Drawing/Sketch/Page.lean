import Drawing.Markup.Attribute
import Drawing.Markup.Page
import Drawing.Sketch.Basic

/-!
# `Drawing/Sketch/Page.lean` — sketches on a page

What is delivered when no model draws: a painted sketch, or if there is not even that, the plainest drawing.
-/

namespace Drawing

/-! ## Painted sketches

A sketch is of use once it is painted. Who paints it is left open, so that a sketch is painted like every
other document of its studio.
-/

/-- A painted sketch, and the document behind it if there is one. -/
structure SketchPage (α : Type) where
  markup : String
  warnings : List String
  document : Option (Document α)

/-- The painted sketch of a request. -/
def sketchPage {α : Type} [Scalar α] [Trig α] (paint : Document α → Except (Fault α) String)
    (r : SizedRequest) : Except (Fault α) (SketchPage α) := do
  let sketch ← Sketch.ofRequest r
  return ⟨← paint sketch.document, sketch.warnings, some sketch.document⟩

/-! ## The plainest drawing

When nothing else can be drawn there is still a circle in the middle of the canvas, its radius a quarter
of the shorter side. It is put together from two numbers, so nothing about it can fail.
-/

section

variable {α : Type} [Scalar α] [DecimalText α]

/-- A circle in the middle of a canvas of a width and a height. -/
def plainMarkup (width height : α) : String :=
  let w := coordinateText width
  let h := coordinateText height
  let cx := coordinateText (width / Scalar.ofRat 2)
  let cy := coordinateText (height / Scalar.ofRat 2)
  let r := coordinateText (Scalar.least width height / Scalar.ofRat 4)
  s!"<svg xmlns=\"{svgNamespace}\" viewBox=\"0 0 {w} {h}\" width=\"{w}\" height=\"{h}\">\n" ++
    s!"  <circle cx=\"{cx}\" cy=\"{cy}\" r=\"{r}\"" ++
    " fill=\"#3B82F6\" stroke=\"#1E40AF\" stroke-width=\"2\"/>\n</svg>"

end

end Drawing
