import Drawing.Canvas.Box
import Drawing.Path.Segment

/-!
# `Drawing/Path/Arc.lean` — elliptical arcs as cubic curves

An arc is given by its ends. To draw it as a cubic curve one needs the angle at which it starts and the
angle it sweeps, and for these its centre; with the angles, the control points lie on the tangents at both
ends, at a distance that depends on the sweep alone. Radii that are too small to span the ends are
enlarged.

The centre is found where the ellipse is upright and the ends lie opposite each other about the origin.
What is small there may vanish when it is squared: then there is nothing to divide by, or a root to be
taken of a number below zero, and there is no such arc (`ArcFault`).
-/

namespace Drawing

/-! ## The plane as complex numbers

Turning, stretching and moving the plane is arithmetic on complex numbers, and the pen of foreign path
data moves in that plane. So a point there is not a pair that is written down but a sum `x + y·i`. For
exact numbers the two are the same. In floating point they part where an ordinate is infinite: the
product `y·i` has the real part `y·0`, which then is not-a-number and takes the abscissa with it.
-/

namespace Point

variable {α : Type} [Scalar α]

/-- The sum `x + y·i`. -/
def ofParts (x y : α) : Point α := ⟨x + y * Scalar.zero, y + Scalar.zero⟩

/-- A real number as a point of the plane. -/
def ofReal (x : α) : Point α := ⟨x, Scalar.zero⟩

/-- The imaginary unit. -/
def unit : Point α := ⟨Scalar.zero, Scalar.one⟩

def plus (p q : Point α) : Point α := ⟨p.x + q.x, p.y + q.y⟩

def minus (p q : Point α) : Point α := ⟨p.x - q.x, p.y - q.y⟩

def times (p q : Point α) : Point α := ⟨p.x * q.x - p.y * q.y, p.x * q.y + p.y * q.x⟩

/-- The quotient of two points. Top and bottom are divided by the larger part of the divisor first, so that
no square is taken; a divisor of which neither part is the larger one is not a number. -/
def quotient (p q : Point α) : Point α :=
  if Scalar.abs q.y ≤ Scalar.abs q.x then
    let ratio := q.y / q.x
    let bottom := q.x + q.y * ratio
    ⟨(p.x + p.y * ratio) / bottom, (p.y - p.x * ratio) / bottom⟩
  else if Scalar.abs q.x ≤ Scalar.abs q.y then
    let ratio := q.x / q.y
    let bottom := q.x * ratio + q.y
    ⟨(p.x * ratio + p.y) / bottom, (p.y * ratio - p.x) / bottom⟩
  else ⟨q.x + q.y, q.x + q.y⟩

end Point

/-! ## Arcs -/

/-- Why an arc has no centre. -/
inductive ArcFault where
  /-- A radius or the distance of the ends is zero when squared. -/
  | vanishes
  /-- The centre would lie at an imaginary distance. -/
  | imaginary
  deriving Repr, DecidableEq

/-- An arc by its angles: the ellipse, the starting angle and the sweep, both in degrees. -/
structure CentredArc (α : Type) where
  radiusX : α
  radiusY : α
  /-- Cosine and sine of the rotation of the ellipse. -/
  cosine : α
  sine : α
  theta : α
  delta : α
  deriving Repr

namespace Arc

variable {α : Type} [Scalar α] [Trig α]

def radians (degrees : α) : α := degrees * (Trig.pi / Scalar.ofRat 180)

def degrees (radians : α) : α := radians * (Scalar.ofRat 180 / Trig.pi)

/-- A cosine or sine without what rounding put outside `[-1, 1]`. -/
def clipUnit (x : α) : α := Scalar.clamp (-Scalar.one) Scalar.one x

/-- The angle, in degrees, of a cosine on the side given by a sign; on neither side it is zero or
half a turn. -/
def signedAngle (cosine side : α) : α :=
  if Scalar.zero < side then degrees (Trig.arccos cosine)
  else if side < Scalar.zero then -degrees (Trig.arccos cosine)
  else if Scalar.zero < cosine then Scalar.zero else Scalar.ofRat 180

def square (x : α) : α := x * x

/-- Where an end of the arc lies on the unit circle, if the ellipse is moved and squeezed onto it. -/
def onCircle (rx ry : α) (centre p : Point α) : Point α :=
  let across := (p.x - centre.x) / rx
  let upward := (Point.unit.times (.ofReal (p.y - centre.y))).quotient (.ofReal ry)
  let place := (Point.ofReal across).plus upward
  .ofParts (clipUnit place.x) (clipUnit place.y)

/-- The angle from one point of the unit circle to another, in the direction and of the size that the
flags of an arc ask for. -/
def swept (large sweep : Bool) (u v : Point α) : α :=
  let turn := signedAngle (clipUnit (u.x * v.x + u.y * v.y)) (u.x * v.y - u.y * v.x)
  let full : α := Scalar.ofRat 360
  if !sweep && Scalar.zero ≤ turn then turn - full
  else if large && turn ≤ Scalar.zero then turn + full
  else turn

/-- An arc by its angles. -/
def centred (a : Arc α) : Except ArcFault (CentredArc α) := do
  let phi := radians a.rotation
  let turn : Point α := ⟨Trig.cos phi, Trig.sin phi⟩
  let half := (((Point.ofReal Scalar.one).quotient turn).times (a.start.minus a.stop)).quotient
    (.ofReal (Scalar.ofRat 2))
  let given : Point α := .ofParts a.radiusX a.radiusY
  if square given.x == Scalar.zero || square given.y == Scalar.zero then throw .vanishes
  let check := square half.x / square given.x + square half.y / square given.y
  -- An ellipse that does not reach from end to end is scaled up until it just does.
  let (rx, ry) := if Scalar.one < check then
      (given.x * Trig.sqrt check, given.y * Trig.sqrt check) else (given.x, given.y)
  let radius : Point α := if Scalar.one < check then .ofParts rx ry else given
  let spanned := square rx * square half.y + square ry * square half.x
  if spanned == Scalar.zero then throw .vanishes
  let radicand := (square rx * square ry - spanned) / spanned
  -- Where the ellipse just reaches, rounding may leave a radicand of either sign.
  let isSmall : Bool := Scalar.abs radicand ≤ Scalar.ofRat 1e-8
  if !isSmall && radicand < Scalar.zero then throw .imaginary
  let root : α := if isSmall then Scalar.zero else Trig.sqrt radicand
  -- The flags choose between the two centres.
  let side := if a.large == a.sweep then -root else root
  let upward := ((Point.unit.times (.ofReal ry)).times (.ofReal half.x)).quotient (.ofReal rx)
  let centre := (Point.ofReal side).times ((Point.ofReal (rx * half.y / ry)).minus upward)
  let u := onCircle rx ry centre half
  let v := onCircle rx ry centre ⟨-half.x, -half.y⟩
  return { radiusX := radius.x, radiusY := radius.y, cosine := turn.x, sine := turn.y,
           theta := signedAngle u.x u.y, delta := swept a.large a.sweep u v }

end Arc

namespace CentredArc

variable {α : Type} [Scalar α] [Trig α]

/-- The tangent of the ellipse at an angle in radians. -/
def tangent (c : CentredArc α) (angle : α) : Point α :=
  let s := Trig.sin angle
  let k := Trig.cos angle
  ⟨-(c.radiusX * c.cosine * s) - c.radiusY * c.sine * k,
    -(c.radiusX * c.sine * s) + c.radiusY * c.cosine * k⟩

/-- How far along the tangents the control points lie. -/
def reach (c : CentredArc α) : α :=
  let s := Arc.radians c.delta
  let t := Trig.tan (s / Scalar.ofRat 2)
  Trig.sin s * (Trig.sqrt (Scalar.ofRat 4 + Scalar.ofRat 3 * (t * t)) - Scalar.one) / Scalar.ofRat 3

/-- The cubic curve from one end of an arc to the other. -/
def cubic (c : CentredArc α) (start stop : Point α) : Command α :=
  let begins := Arc.radians c.theta
  let ends := begins + Arc.radians c.delta
  let first := c.tangent begins
  let last := c.tangent ends
  .cubic (.ofParts (start.x + c.reach * first.x) (start.y + c.reach * first.y))
    (.ofParts (stop.x - c.reach * last.x) (stop.y - c.reach * last.y)) stop

end CentredArc

/-- The command that stands for an arc: a cubic curve with the ends of the arc, or a line where the ellipse
has no rotation that is a number, or no centre. -/
def Arc.command {α : Type} [Scalar α] [Trig α] (a : Arc α) : Command α :=
  match a.centred with
  | .ok c => if Scalar.isFinite a.rotation then c.cubic a.start a.stop else .line a.stop
  | .error _ => .line a.stop

end Drawing
