import Drawing.Path.Command

/-!
# `Drawing/Path/Segment.lean` — what a pen draws

A segment is one stroke of the pen with both its ends. Where commands say how to go on, segments say
what is on the paper, so two lists of commands draw the same picture if they have the same segments
(`strokes`). Foreign path data is read into segments first, because a stroke there may be an elliptical
arc, for which there is no command.
-/

namespace Drawing

/-- An elliptical arc between two points, in the terms of path data: radii, the rotation of the ellipse in
degrees, and which of the four arcs through both points is meant. -/
structure Arc (α : Type) where
  start : Point α
  radiusX : α
  radiusY : α
  rotation : α
  large : Bool
  sweep : Bool
  stop : Point α
  deriving Repr, BEq, DecidableEq

/-- One stroke of the pen. -/
inductive Segment (α : Type) where
  | line (start stop : Point α)
  | quadratic (start control stop : Point α)
  | cubic (start control₁ control₂ stop : Point α)
  | arc (a : Arc α)
  deriving Repr, BEq, DecidableEq

namespace Segment

variable {α : Type}

/-- Where a stroke begins. -/
def start : Segment α → Point α
  | line a _ => a
  | quadratic a _ _ => a
  | cubic a _ _ _ => a
  | arc a => a.start

/-- Where a stroke ends. -/
def stop : Segment α → Point α
  | line _ b => b
  | quadratic _ _ b => b
  | cubic _ _ _ b => b
  | arc a => a.stop

end Segment

/-- Where the pen is, and where its subpath began. -/
structure Pen (α : Type) where
  pos : Point α
  opened : Point α
  deriving Repr, BEq, DecidableEq

/-- A pen that nothing was drawn with, at the origin. -/
def Pen.start {α : Type} [Scalar α] : Pen α :=
  ⟨⟨Scalar.zero, Scalar.zero⟩, ⟨Scalar.zero, Scalar.zero⟩⟩

/-- The strokes of some commands, from where the pen is. A close is a line back to the opening. -/
def strokesFrom {α : Type} (pen : Pen α) : List (Command α) → List (Segment α)
  | [] => []
  | .move p :: rest => strokesFrom ⟨p, p⟩ rest
  | .line p :: rest => .line pen.pos p :: strokesFrom { pen with pos := p } rest
  | .quadratic c p :: rest => .quadratic pen.pos c p :: strokesFrom { pen with pos := p } rest
  | .cubic c d p :: rest => .cubic pen.pos c d p :: strokesFrom { pen with pos := p } rest
  | .close :: rest => .line pen.pos pen.opened :: strokesFrom { pen with pos := pen.opened } rest

/-- The strokes of some commands, the pen starting at the origin. -/
def strokes {α : Type} [Scalar α] (commands : List (Command α)) : List (Segment α) :=
  strokesFrom Pen.start commands

end Drawing
