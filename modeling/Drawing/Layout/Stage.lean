import Drawing.Layout.Effective

/-!
# `Drawing/Layout/Stage.lean` — carrying out layouts

A stage is a canvas with a catalog of regions. On it a layout turns local coordinates into absolute
ones: the points are scaled about the local origin to the requested size, the origin is put on an anchor
of the region, shifted by a fraction of the region, and the whole is repeated. Every point that comes
out is clamped to the canvas. A document is resolved by carrying out the layouts of all its paths.
-/

namespace Drawing

/-- A canvas and the regions on it. -/
structure Stage (α : Type) where
  canvas : Canvas α
  catalog : Catalog α
  deriving Repr

namespace Stage

variable {α : Type} [Scalar α]

/-- The share of its region that a shape without a size fills. -/
def defaultSize : α := Scalar.ofRat 0.1

/-- The share of its region between the cells of a grid without a spacing. -/
def defaultSpacing : α := Scalar.ofRat 0.1

/-- The radius of a circle without one, in pixels. -/
def defaultRadius : α := Scalar.ofRat 50

/-- The box of a region in pixels. -/
def regionBox (s : Stage α) (region : String) : Except (Fault α) (Box α) :=
  s.catalog.pixelBounds s.canvas region

/-- The point of a region that an anchor names. -/
def anchorPoint (s : Stage α) (region anchor : String) : Except (Fault α) (Point α) := do
  let box ← s.regionBox region
  match Anchor.ofName? anchor with
  | some a => return a.pointOf box
  | none => .error (.unknownAnchor anchor)

/-- Where a layout puts the local origin. -/
def position (s : Stage α) (layout : EffectiveLayout α) : Except (Fault α) (Point α) := do
  let box ← s.regionBox layout.region
  let p ← s.anchorPoint layout.region layout.anchor
  return ⟨p.x + layout.offset.x * box.width, p.y + layout.offset.y * box.height⟩

/-- The width and height that a size stands for in a region. -/
def targetSize (s : Stage α) (size : Option (SizeSpec α)) (region : String) :
    Except (Fault α) (α × α) := do
  let box ← s.regionBox region
  return match size with
    | none => (box.width * defaultSize, box.height * defaultSize)
    | some (.absolute w h) => (w, h)
    | some (.relative share) => (box.width * share, box.height * share)
    | some (.constrained w aspect) => (w, w / aspect)

/-! ## Repetition -/

/-- Where the first of some cells in a row lies around a base. -/
def gridStart (base : α) (cells : Nat) (step : α) : Except (Fault α) α := do
  -- Counted as a numeral, because too many steps for a scalar are a fault.
  let steps ← (Numeral.whole ((cells : Int) - 1)).toScalar
  return base - steps * step / Scalar.ofRat 2

/-- The origins of a grid of cells around a base point, row by row. -/
def gridPositions (base : Point α) (columns rows : Nat) (stepX stepY : α) :
    Except (Fault α) (List (Point α)) := do
  let startX ← gridStart base.x columns stepX
  let startY ← gridStart base.y rows stepY
  return (List.range rows).flatMap fun row =>
    (List.range columns).map fun column =>
      ⟨startX + Scalar.ofNat column * stepX, startY + Scalar.ofNat row * stepY⟩

/-- The origins on a circle around a base point, the first one to the right of it. -/
def radialPositions [Trig α] (base : Point α) (count : Nat) (radius : α) : List (Point α) :=
  (List.range count).map fun (i : Nat) =>
    -- The share of the turn is a quotient of whole numbers and rounded once.
    let angle := Scalar.ofRat (mkRat i count) * Scalar.ofRat 2 * Trig.pi
    ⟨base.x + radius * Trig.cos angle, base.y + radius * Trig.sin angle⟩

/-- The columns and rows of a count. -/
def gridShape : RepeatCount → Nat × Nat
  | .one n => (n, 1)
  | .pair columns rows => (columns, rows)

/-- The number of places on a circle of a count. -/
def radialCount : RepeatCount → Nat
  | .one n => n
  | .pair n _ => n

/-- The origins of all instances of a shape, given where a single one would be. -/
def positions [Trig α] (s : Stage α) (layout : EffectiveLayout α) (base : Point α) :
    Except (Fault α) (List (Point α)) :=
  match layout.repetition with
  | none => .ok [base]
  | some r =>
    match r.pattern with
    | .grid => do
      let box ← s.regionBox layout.region
      let spacing := r.spacing.getD defaultSpacing
      let (columns, rows) := gridShape r.count
      gridPositions base columns rows (box.width * spacing) (box.height * spacing)
    | .radial => .ok (radialPositions base (radialCount r.count) (r.radius.getD defaultRadius))

/-! ## Size -/

/-- The factors that take the sides of a shape to those of a target; a side without extent has none. -/
def sideFactors (extent : Extent α) (target : α × α) : List α :=
  [(target.1, extent.width), (target.2, extent.height)].filterMap fun (t, side) =>
    if Scalar.zero < side then some (t / side) else none

/-- Points scaled about the local origin by the largest factor that keeps both sides within a target.
A shape without extent is left alone. -/
def fitPoints (points : List (Point α)) (target : α × α) : List (Point α) :=
  match sideFactors (extent points) target with
  | [] => points
  | f :: fs => points.map fun p => p.scaleAbout (fs.foldl Scalar.least f) Scalar.zero Scalar.zero

/-- The points of a shape at the size that its layout asks for. -/
def sizedPoints (s : Stage α) (points : List (Point α)) (layout : EffectiveLayout α) :
    Except (Fault α) (List (Point α)) :=
  match layout.size, points with
  | none, _ => .ok points
  | some _, [] => .ok points
  | some size, _ => do return fitPoints points (← s.targetSize (some size) layout.region)

/-! ## Commands -/

/-- The points of an instance whose origin is at a position, inside the canvas. -/
def placed (s : Stage α) (points : List (Point α)) (origin : Point α) : List (Point α) :=
  points.map fun p => (p.shift origin.x origin.y).clamp s.canvas.w s.canvas.h

/-- The commands of an instance. One that follows another begins with a move. -/
def instanceAt (s : Stage α) (commands : List (Command α)) (points : List (Point α)) (first : Bool)
    (origin : Point α) : Except (Fault α) (List (Command α)) := do
  let moved := s.placed points origin
  let drawn ← rebuilt commands moved
  if first || drawn.head?.map Command.letter == some .move then return drawn
  else
    -- Without a move of its own the instance would go on from where the one before it ended.
    let start := moved.head?.getD origin
    let opening ← Command.ofChecked (Command.check .move [start.x, start.y])
    return opening :: drawn

/-- The commands of all instances, in order. -/
def instances (s : Stage α) (commands : List (Command α)) (points : List (Point α)) (first : Bool) :
    List (Point α) → Except (Fault α) (List (Command α))
  | [] => .ok []
  | origin :: rest => do
    let drawn ← s.instanceAt commands points first origin
    return drawn ++ (← s.instances commands points false rest)

/-- Commands taken from local to absolute coordinates. The identity leaves them as they are. -/
def transform [Trig α] (s : Stage α) (commands : List (Command α)) (layout : EffectiveLayout α) :
    Except (Fault α) (List (Command α)) :=
  if layout.isIdentity then .ok commands
  else if commands.isEmpty then .ok []
  else do
    let points ← s.sizedPoints (pointsOf commands) layout
    let base ← s.position layout
    -- All instances are drawn from the same points, so rounding does not add up from one to the next.
    s.instances commands points true (← s.positions layout base)

/-- A path taken from local to absolute coordinates under the layout in force for it. -/
def transformPath [Trig α] (s : Stage α) (path : ShapePath α) (layer : Layer α)
    (document : Document α) : Except (Fault α) (ShapePath α) := do
  return path.withCommands (← s.transform path.commands (document.layoutOf layer path))

end Stage

/-! ## Fitting without a layout -/

/-- The quotient of two sides, one if the second has no extent. -/
def sideRatio {α : Type} [Scalar α] (target : Numeral α) (side : α) : Except (Fault α) α :=
  if Scalar.zero < side then target.quotient (.real side) else .ok Scalar.one

/-- Commands scaled and moved so that their bounds fill a box at the origin. -/
def scaleToFit {α : Type} [Scalar α] (commands : List (Command α)) (width height : Numeral α)
    (keepAspect : Bool) : Except (Fault α) (List (Command α)) :=
  match pointsOf commands with
  | [] => .ok commands
  | points => do
    let e := extent points
    let sx ← sideRatio width e.width
    let sy ← sideRatio height e.height
    let (sx, sy) := if keepAspect then (Scalar.least sx sy, Scalar.least sx sy) else (sx, sy)
    rebuilt commands (points.map fun p => ⟨(p.x - e.left) * sx, (p.y - e.top) * sy⟩)

/-! ## Documents

Resolving turns every path of a document into absolute coordinates, in place: layers and paths keep
their order, ids, styles and layouts. A path that no layout moves keeps its commands. A document that is
resolved already is its own result.
-/

section

variable {α : Type} [Scalar α] [Trig α]

/-- A path with its layout carried out. -/
def Document.resolvePath (d : Document α) (stage : Stage α) (layer : Layer α) (path : ShapePath α) :
    Except (Fault α) (ShapePath α) :=
  if d.isMoved layer path then stage.transformPath path layer d else .ok path

/-- A layer with the layouts of its paths carried out. -/
def Document.resolveLayer (d : Document α) (stage : Stage α) (layer : Layer α) :
    Except (Fault α) (Layer α) := do
  return layer.withPaths (← layer.paths.mapM (d.resolvePath stage layer))

/-- A document with all layouts carried out. -/
def Document.resolve (d : Document α) : Except (Fault α) (Document α) :=
  if d.resolved then .ok d
  else do
    let stage : Stage α := ⟨d.canvas, ← d.catalog⟩
    -- Marked even where nothing has moved, so that resolving again changes nothing.
    return { d with layers := ← d.layers.mapM (d.resolveLayer stage), resolved := true }

/-- The document on the canonical canvas of another aspect ratio. -/
def Document.retarget {α : Type} (d : Document α) (a : Aspect) : Document α :=
  { d with canvas := Canvas.ofAspect a }

/-- The extent of all coordinates, that of the canvas if there are none. -/
def Document.extent {α : Type} [Scalar α] (d : Document α) : Except (Fault α) (Extent α) :=
  match pointsOf d.commands with
  | [] => do
    let (w, h) ← d.canvas.sides
    return ⟨Scalar.zero, Scalar.zero, w, h⟩
  | points => .ok (Drawing.extent points)

end

end Drawing
