import Drawing.Document.Basic
import Drawing.Number.Arithmetic
import Drawing.Request.Basic
import Drawing.Sketch.Template
import Drawing.Text.Casing

/-!
# `Drawing/Sketch/Basic.lean` — sketches

A sketch is a document made from the words of a request alone, without a model. The first three templates
that the words ask for are drawn, one layer each, in the middle of the canvas or side by side; if the words
ask for none it is a circle. Size and height vary a little with the seed, and a request for a pattern
repeats the shapes in a small grid.
-/

namespace Drawing

/-! ## Repeatable chance

Sketches vary a little, and the same seed gives the same variation every time. The numbers come from a
linear congruential sequence of period at most 233280; a seed of any size is first reduced to that range.
-/

/-- How many states chance has. -/
def chanceStates : Nat := 233280

/-- A state of the sequence. -/
structure Chance where
  state : Fin chanceStates
  deriving Repr, DecidableEq

namespace Chance

/-- The state that a number of any size stands for. -/
def reduce (n : Int) : Fin chanceStates :=
  ⟨(n % (chanceStates : Int)).toNat, by
    have h : (chanceStates : Int) ≠ 0 := by decide
    have := Int.emod_nonneg n h
    have := Int.emod_lt_of_pos n (show (0 : Int) < chanceStates by decide)
    omega⟩

/-- The sequence that a seed starts. -/
def ofSeed (seed : Int) : Chance := ⟨reduce seed⟩

/-- The state after a state. -/
def next (c : Chance) : Chance := ⟨reduce (c.state.val * 9301 + 49297)⟩

variable {α : Type} [Scalar α]

/-- A number from zero up to one, and the state behind it. -/
def draw (c : Chance) : α × Chance := (Scalar.ofRat (mkRat c.next.state.val chanceStates), c.next)

/-- A number between two others, and the state behind it. -/
def between (c : Chance) (low high : α) : α × Chance :=
  let (x, c) : α × Chance := c.draw
  (low + (high - low) * x, c)

/-- A number between two others as they were written, and the state behind it. -/
def amid (c : Chance) (low high : Numeral α) : Except (Fault α) (Numeral α × Chance) := do
  let (x, c) : α × Chance := c.draw
  return (← low.plus (← (← high.minus low).times (.real x)), c)

end Chance

/-- The seed of a text whose first character stands at a place. -/
def seedFrom (place : Nat) : List Char → Nat
  | [] => 0
  | c :: rest => place * c.toNat + seedFrom (place + 1) rest

/-- The seed of a text: its characters added up, each as often as its place says. -/
def textSeed (s : String) : Nat := seedFrom 1 s.toList

/-! ## Sketches -/

/-- A document made from words, and what is to be said about it. -/
structure Sketch (α : Type) where
  document : Document α
  warnings : List String
  deriving Repr

namespace Sketch

variable {α : Type}

/-! ## Choices -/

/-- What is said of words that ask for no shape. -/
def noMatchText : String := "No template matched the prompt; drew a circle"

/-- The most layers a sketch has. -/
def layerLimit : Nat := 3

/-- The shapes of a sketch: those that the words ask for, or a circle. -/
def templatesFor (prompt : String) : List Template :=
  match Template.matching prompt with
  | [] => [.circle]
  | matched => matched.take layerLimit

/-- Whether the words ask for a pattern. -/
def wantsPattern (prompt : String) : Bool := containsText (lowered prompt) "pattern"

/-- The regions of the layers of a sketch, in order. -/
def regionsFor (templates : List Template) : List String :=
  if templates.length = 1 then [wholeCanvas] else ["middle_left", wholeCanvas, "middle_right"]

/-- The style of a layer: the colours follow each other through the palette. -/
def styleFor [Scalar α] (palette : List String) (index : Nat) (t : Template) : PathStyle α :=
  let primary := colourAt palette index
  if t.isOpen then
    { PathStyle.plain with
      fill := some "none", stroke := some primary, strokeWidth := some (Scalar.ofRat 4),
      linecap := some .round }
  else
    { PathStyle.plain with
      fill := some primary, stroke := some (colourAt palette (index + 1)),
      strokeWidth := some (Scalar.ofRat 2), linejoin := some .round }

/-- The grid of a pattern. -/
def patternGrid [Scalar α] : Repetition α := ⟨.grid, .pair 3 3, some (Scalar.ofRat 0.3), none⟩

/-- What the layers of a sketch have in common. -/
structure Plan (α : Type) where
  palette : List String
  /-- The size of a shape before it varies. -/
  size : α
  /-- Whether shapes make room for others. -/
  crowded : Bool
  pattern : Bool

/-! ## Layers -/

variable [Scalar α]

/-- The layout of a layer: in the middle of its region, a little up or down. -/
def layoutFor (plan : Plan α) (region : String) (shift : α) : LayoutSpec α where
  region := some region
  anchor := some .center
  offset := some ⟨Scalar.zero, shift⟩
  size := none
  repetition := if plan.pattern then some patternGrid else none
  zIndex := none

/-- The layer of a template, the first having index zero, and the chance left behind. -/
def layerFor [Trig α] (plan : Plan α) (chance : Chance) (index : Nat) (region : String) (t : Template) :
    Except (Fault α) (Layer α × Chance) := do
  -- Chance is asked for the size first and for the shift second, and the order is part of the result.
  let (factor, chance) : α × Chance := chance.between (Scalar.ofRat 0.85) (Scalar.ofRat 1.15)
  let size := plan.size * factor * (if plan.crowded then Scalar.ofRat 0.6 else Scalar.one)
  let (shift, chance) := chance.between (Scalar.ofRat (-0.05)) (Scalar.ofRat 0.05)
  let id := s!"shape_{index + 1}"
  let path : ShapePath α :=
    ⟨id ++ "_path", styleFor plan.palette index t, ← t.draw size, none⟩
  return (⟨id, titled t.name, [path], some (layoutFor plan region shift)⟩, chance)

/-- The layers of some templates and their regions. -/
def layersFor [Trig α] (plan : Plan α) (chance : Chance) (index : Nat) :
    List (String × Template) → Except (Fault α) (List (Layer α))
  | [] => .ok []
  | (region, t) :: rest => do
    let (layer, chance) ← layerFor plan chance index region t
    return layer :: (← layersFor plan chance (index + 1) rest)

/-! ## Whole sketches -/

/-- The canvas of a request, or the complaint that it has none. -/
def canvasFor (r : SizedRequest) : Except (Fault α) (Canvas α) := do
  let aspect ← Aspect.closest (α := α) (.whole r.width) (.whole r.height)
  let side (name : String) (n : Int) : Checked { n : Nat // 0 < n } :=
    (Canvas.readSide (.ofInt n : Json α)).within (.field name)
  match (fun w h => Canvas.ofSides w h aspect none) <$> side "width" r.width <*> side "height" r.height with
  | .invalid complaints => .error (.record "Canvas" complaints)
  | .valid canvas => return canvas

/-- The size of a shape before it varies: a quarter of the shorter side, less in a pattern. -/
def sizeFor (r : SizedRequest) : Except (Fault α) α := do
  let shorter ← (Numeral.whole (min r.width r.height)).toScalar
  let size := shorter * Scalar.ofRat 0.25
  return if wantsPattern r.prompt then size * Scalar.ofRat 0.4 else size

/-- The seed of a request, made of its words if it has none. -/
def seedFor (r : SizedRequest) : Int := r.seed.getD (textSeed r.prompt)

/-- The sketch of a request. -/
def ofRequest [Trig α] (r : SizedRequest) : Except (Fault α) (Sketch α) := do
  let canvas ← canvasFor r
  let templates := templatesFor r.prompt
  let plan : Plan α := {
    palette := paletteFor r.prompt r.palette
    size := ← sizeFor r
    crowded := 1 < templates.length
    pattern := wantsPattern r.prompt }
  let layers ← layersFor plan (.ofSeed (seedFor r)) 0 ((regionsFor templates).zip templates)
  return ⟨⟨canvas, none, layers, false⟩,
    if (Template.matching r.prompt).isEmpty then [noMatchText] else []⟩

end Sketch

end Drawing
