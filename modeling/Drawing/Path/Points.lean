import Drawing.Path.Command

/-!
# `Drawing/Path/Points.lean` — commands as points

Every change to a drawing is a change to its points: commands are flattened into their points, the points
are moved, and the commands are rebuilt around them. Rebuilding pours points into commands by the number
each letter takes, so it undoes flattening, and it refuses points that are not finite.
-/

namespace Drawing

/-- The least and greatest coordinates of some points. -/
structure Extent (α : Type) where
  left : α
  top : α
  right : α
  bottom : α
  deriving Repr, BEq, DecidableEq

namespace Extent

variable {α : Type} [Scalar α]

def width (e : Extent α) : α := e.right - e.left

def height (e : Extent α) : α := e.bottom - e.top

/-- The extent as a box. -/
def box (e : Extent α) : Box α := ⟨e.left, e.top, e.width, e.height⟩

/-- The extent of a point and some more. -/
def ofPoints (p : Point α) (ps : List (Point α)) : Extent α where
  left := (ps.map Point.x).foldl Scalar.lower p.x
  top := (ps.map Point.y).foldl Scalar.lower p.y
  right := (ps.map Point.x).foldl Scalar.upper p.x
  bottom := (ps.map Point.y).foldl Scalar.upper p.y

end Extent

/-! ## Points -/

section Points

variable {α : Type} [Scalar α]

/-- The extent of some points, all zero if there are none. -/
def extent : List (Point α) → Extent α
  | [] => ⟨Scalar.zero, Scalar.zero, Scalar.zero, Scalar.zero⟩
  | p :: ps => Extent.ofPoints p ps

/-- A point moved by an offset. -/
def Point.shift (p : Point α) (dx dy : α) : Point α := ⟨p.x + dx, p.y + dy⟩

/-- A point scaled about a centre. -/
def Point.scaleAbout (p : Point α) (factor cx cy : α) : Point α :=
  ⟨(p.x - cx) * factor + cx, (p.y - cy) * factor + cy⟩

/-- The nearest point of the box from the origin to a corner. -/
def Point.clamp (p : Point α) (width height : α) : Point α :=
  ⟨Scalar.clamp Scalar.zero width p.x, Scalar.clamp Scalar.zero height p.y⟩

end Points

/-! ## Commands -/

variable {α : Type}

/-- All points of some commands, control points included. -/
def pointsOf (commands : List (Command α)) : List (Point α) := commands.flatMap Command.points

/-- A command with a function applied to each of its points. -/
def Command.map (f : Point α → Point α) : Command α → Command α
  | .move p => .move (f p)
  | .line p => .line (f p)
  | .cubic a b p => .cubic (f a) (f b) (f p)
  | .quadratic a p => .quadratic (f a) (f p)
  | .close => .close

/-- The commands with other points. Each command takes as many as its letter does. -/
def rebuild [Scalar α] : List (Command α) → List (Point α) → Checked (List (Command α))
  | [], _ => .valid []
  | c :: rest, ps =>
    let n := c.letter.pointCount
    (Command.check c.letter ((ps.take n).flatMap fun p => [p.x, p.y])).refine fun c' =>
      (rebuild rest (ps.drop n)).refine fun rest' => .valid (c' :: rest')

/-- The commands with other points, or the fault that one of them is refused. -/
def rebuilt [Scalar α] (commands : List (Command α)) (points : List (Point α)) :
    Except (Fault α) (List (Command α)) :=
  Command.ofChecked (rebuild commands points)

/-- The bounds of some commands, control points included. -/
def boundsOf [Scalar α] (commands : List (Command α)) : Box α := (extent (pointsOf commands)).box

end Drawing
