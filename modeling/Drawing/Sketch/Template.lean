import Drawing.Sketch.Shape
import Drawing.Text.Word

/-!
# `Drawing/Sketch/Template.lean` — shapes and colours that words ask for

Each template is a shape together with the words that call for it. A prompt matches a template if one of
its words is among them; what matches is kept in the order of the list, not of the prompt.
-/

namespace Drawing

/-- The shapes that words can ask for. -/
inductive Template where
  | star
  | heart
  | triangle
  | square
  | pentagon
  | hexagon
  | octagon
  | diamond
  | wave
  | arrow
  | house
  | circle
  deriving Repr, DecidableEq, BEq

namespace Template

/-- All templates, in the order in which they are drawn. -/
def all : List Template :=
  [star, heart, triangle, square, pentagon, hexagon, octagon, diamond, wave, arrow, house, circle]

/-- The word that names a template. -/
def name : Template → String
  | star => "star"
  | heart => "heart"
  | triangle => "triangle"
  | square => "square"
  | pentagon => "pentagon"
  | hexagon => "hexagon"
  | octagon => "octagon"
  | diamond => "diamond"
  | wave => "wave"
  | arrow => "arrow"
  | house => "house"
  | circle => "circle"

/-- The other words that call for a template. -/
def synonyms : Template → List String
  | heart => ["love"]
  | square => ["rectangle", "rect", "box"]
  | diamond => ["rhombus"]
  | wave => ["water", "ocean"]
  | house => ["home", "icon"]
  | circle => ["sun", "ball", "dot"]
  | _ => []

/-- All words that call for a template. -/
def keywords (t : Template) : List String := t.name :: t.synonyms

/-- Whether the shape is a line without a surface. -/
def isOpen : Template → Bool
  | wave => true
  | _ => false

/-- The templates that a prompt asks for. -/
def matching (prompt : String) : List Template :=
  let words := plainWords prompt
  all.filter fun t => t.keywords.any words.contains

variable {α : Type} [Scalar α] [Trig α]

def outline (size : α) : Template → Except (Fault α) (List (Command α))
  | star => Shape.star (.real size) (.whole 5) (.real Shape.starDepth)
  | heart => .ok (Shape.heart size)
  | triangle => Shape.regular (.whole 3) (.real size) (.real Shape.upward)
  | square => Shape.rectangle (.real (size * Scalar.ofRat 1.6)) (.real (size * Scalar.ofRat 1.2))
  | pentagon => Shape.regular (.whole 5) (.real size) (.real Shape.upward)
  | hexagon => Shape.regular (.whole 6) (.real size) (.real Shape.upward)
  | octagon => Shape.regular (.whole 8) (.real size) (.real Shape.upward)
  | diamond => Shape.diamond size
  | wave => Shape.wave (.real (size * Scalar.ofRat 2)) (.real (size * Scalar.ofRat 0.3)) (.whole 3)
  | arrow => Shape.arrow (size * Scalar.ofRat 2) size
  | house => Shape.house size
  | circle => .ok (Shape.circle size)

/-- A template at a size. -/
def draw (size : α) (t : Template) : Except (Fault α) (List (Command α)) := do
  Shape.checkedShape (← t.outline size)

end Template

/-! ## Palettes

A palette is the colours of a sketch: one for surfaces, a darker one for outlines, and one in between. It
is the one asked for, or else that of the first colour in the list below that the words name, or else
blue.
-/

/-- The colours there are palettes of. -/
inductive Hue where
  | red
  | orange
  | yellow
  | green
  | blue
  | purple
  | pink
  | gray
  | black
  | gold
  deriving Repr, DecidableEq, BEq

namespace Hue

/-- All colours, in the order in which they are looked for. -/
def all : List Hue := [red, orange, yellow, green, blue, purple, pink, gray, black, gold]

/-- The word for a colour. -/
def name : Hue → String
  | red => "red"
  | orange => "orange"
  | yellow => "yellow"
  | green => "green"
  | blue => "blue"
  | purple => "purple"
  | pink => "pink"
  | gray => "gray"
  | black => "black"
  | gold => "gold"

def palette : Hue → List String
  | red => ["#EF4444", "#B91C1C", "#DC2626"]
  | orange => ["#F97316", "#C2410C", "#EA580C"]
  | yellow => ["#EAB308", "#A16207", "#CA8A04"]
  | green => ["#22C55E", "#15803D", "#16A34A"]
  | blue => ["#3B82F6", "#1E40AF", "#1D4ED8"]
  | purple => ["#A855F7", "#7E22CE", "#9333EA"]
  | pink => ["#EC4899", "#BE185D", "#DB2777"]
  | gray => ["#6B7280", "#374151", "#4B5563"]
  | black => ["#111827", "#000000", "#1F2937"]
  | gold => ["#F59E0B", "#B45309", "#D97706"]

/-- The colour that a prompt names, if it names one. -/
def ofPrompt? (prompt : String) : Option Hue :=
  let words := plainWords prompt
  all.find? fun h => words.contains h.name

end Hue

/-- The palette for a prompt: the one asked for, unless it is empty. -/
def paletteFor (prompt : String) (asked : List String) : List String :=
  if asked.isEmpty then ((Hue.ofPrompt? prompt).getD .blue).palette else asked

/-- The colour at a place of a palette, which is gone through again when it ends. -/
def colourAt (palette : List String) (index : Nat) : String :=
  (palette[index % palette.length]?).getD ""

end Drawing
