import Drawing.Layout.Effective

/-!
# `Drawing/Validation/Sanitize.lean` — documents made to fit a canvas

A document is first moved to the canvas that was asked for, and then its coordinates are made clean.
-/

namespace Drawing

/-! ## Moving to a canvas

A document is moved to another canvas by scaling its coordinates with the ratios of the sides, whether a
layout will move them or not. On a canvas of the same size nothing is scaled and only the tag may change.
The view box keeps its place relative to the content.
-/

/-- A change of canvas: the size before and the canvas after. -/
structure Rescale (α : Type) where
  width : Nat
  height : Nat
  canvas : Canvas α
  deriving Repr

/-- The wording of a change of canvas. -/
def Rescale.text {α : Type} (r : Rescale α) : String :=
  s!"Rescaled content from {r.width}x{r.height} to the {r.canvas.aspect.tag} canvas " ++
    s!"{r.canvas.width}x{r.canvas.height}"

section

variable {α : Type} [Scalar α]

/-- A point with its coordinates multiplied by two factors. -/
def Point.stretch (p : Point α) (sx sy : α) : Point α := ⟨p.x * sx, p.y * sy⟩

/-- A path with its coordinates multiplied by two factors. -/
def ShapePath.stretch (p : ShapePath α) (sx sy : α) : Except (Fault α) (ShapePath α) := do
  return p.withCommands (← rebuilt p.commands ((pointsOf p.commands).map fun q => q.stretch sx sy))

/-- A layer with its coordinates multiplied by two factors. -/
def Layer.stretch (l : Layer α) (sx sy : α) : Except (Fault α) (Layer α) := do
  return l.withPaths (← l.paths.mapM fun p => p.stretch sx sy)

/-- A document moved to a canvas, and the change of size if there is one. -/
def Document.conform (d : Document α) (canvas : Canvas α) :
    Except (Fault α) (Document α × Option (Rescale α)) :=
  let current := d.canvas
  if current.width = canvas.width ∧ current.height = canvas.height then
    -- The aspect ratio is that of the new canvas even then; only the view box is the document's own.
    .ok ({ d with canvas := { canvas with viewBox := current.viewBox } }, none)
  else do
    let sx ← (Numeral.whole canvas.width).quotient (.whole current.width)
    let sy ← (Numeral.whole canvas.height).quotient (.whole current.height)
    let target := { canvas with viewBox := current.viewBox.map fun b => b.scale sx sy }
    let layers ← d.layers.mapM fun l => l.stretch sx sy
    return ({ d with canvas := target, layers }, some ⟨current.width, current.height, canvas⟩)

end

/-! ## Clean coordinates

Every coordinate is rounded to two decimals. In a path that no layout moves, each point is first replaced
by the nearest point of the canvas, and each point for which that is another one is reported. The points
of a moved path are local; they are put on the canvas when the layout is carried out.
-/

/-- A point of a path that lies outside the canvas. -/
structure Stray (α : Type) where
  path : String
  point : Point α
  deriving Repr

def Stray.fault {α : Type} (s : Stray α) : Fault α := .outside s.path (.real s.point.x) (.real s.point.y)

section

variable {α : Type} [Scalar α]

/-- The number of decimals that coordinates keep. -/
def coordinatePlaces : Nat := 2

def Point.round (p : Point α) : Point α :=
  ⟨Scalar.roundTo coordinatePlaces p.x, Scalar.roundTo coordinatePlaces p.y⟩

/-- The number from zero to the length of a side nearest to a number. -/
def nearestOnSide (side : Nat) (x : α) : α :=
  if (Numeral.whole side).isBelow (.real x) then Scalar.ofNat side else Scalar.greatest x Scalar.zero

/-- The point of a canvas nearest to a point. -/
def Canvas.nearest (c : Canvas α) (p : Point α) : Point α :=
  ⟨nearestOnSide c.width p.x, nearestOnSide c.height p.y⟩

/-- What becomes of a point of a path that is moved or not. -/
def Canvas.sanitizePoint (c : Canvas α) (moved : Bool) (p : Point α) : Point α :=
  if moved then p.round else (c.nearest p).round

/-- The path with clean coordinates. -/
def ShapePath.sanitize (c : Canvas α) (moved : Bool) (p : ShapePath α) : ShapePath α :=
  p.withCommands (p.commands.map (Command.map (c.sanitizePoint moved)))

def ShapePath.strays (c : Canvas α) (moved : Bool) (p : ShapePath α) : List (Stray α) :=
  if moved then [] else
    ((pointsOf p.commands).filter c.isOutside).map fun q => ⟨p.id, q⟩

/-- The document with clean coordinates. -/
def Document.sanitize (d : Document α) : Document α :=
  { d with layers := d.layers.map fun l =>
      l.withPaths (l.paths.map fun p => p.sanitize d.canvas (d.isMoved l p)) }

/-- The stray points of a document, in order. -/
def Document.strays (d : Document α) : List (Stray α) :=
  d.layers.flatMap fun l => l.paths.flatMap fun p => p.strays d.canvas (d.isMoved l p)

end

end Drawing
