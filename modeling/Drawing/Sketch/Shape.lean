import Drawing.Number.Arithmetic
import Drawing.Path.Command

/-!
# `Drawing/Sketch/Shape.lean` — shapes around the origin

The shapes that sketches are made of. Each is drawn around its own origin, so that a layout can put it
anywhere, and is given by a few measures; every one of them begins with a move. Measures that are whole numbers
stay exact until they meet a scalar. A measure may be so large that a coordinate overflows, which
`checkedShape` finds out.
-/

namespace Drawing.Shape

variable {α : Type} [Scalar α]

def point (x y : α) : Point α := ⟨x, y⟩

/-- The closed polygon of some vertices, of which there has to be at least one. -/
def polygon : List (Point α) → Except (Fault α) (List (Command α))
  | [] => .error .noVertices
  | p :: ps => .ok (.move p :: ps.map .line ++ [.close])

/-- A shape whose coordinates are all finite, or the fault that one is not. -/
def checkedShape (commands : List (Command α)) : Except (Fault α) (List (Command α)) :=
  commands.mapM fun c => Command.ofChecked (Command.check c.letter c.coords)

/-! ## Shapes with straight sides -/

/-- The straight line to a vertex given by raw numbers, of which there have to be two. -/
def sideTo : List (Json α) → Except (Fault α) (Command α)
  | [x, y] => Command.ofRaw (.str Letter.line.text) [x, y]
  | coords => .error (.wrongCount 2 coords.length)

/-- The closed polygon of some vertices given by raw numbers. -/
def rawPolygon : List (List (Json α)) → Except (Fault α) (List (Command α))
  | [] => .error .noVertices
  | p :: ps => do
    let start ← Command.ofRaw (.str Letter.move.text) p
    return start :: (← ps.mapM sideTo) ++ [.close]

/-- A rectangle of a width and a height. -/
def rectangle (w h : Numeral α) : Except (Fault α) (List (Command α)) := do
  let x ← w.quotient (.whole 2)
  let y ← h.quotient (.whole 2)
  polygon [⟨-x, -y⟩, ⟨x, -y⟩, ⟨x, y⟩, ⟨-x, y⟩]

/-- A rhombus of half a height, seven tenths as wide. -/
def diamond (r : α) : Except (Fault α) (List (Command α)) :=
  let x := r * Scalar.ofRat 0.7
  polygon [⟨Scalar.zero, -r⟩, ⟨x, Scalar.zero⟩, ⟨Scalar.zero, r⟩, ⟨-x, Scalar.zero⟩]

/-- An arrow to the right: its shaft three tenths as thick as the head is high, its head a bit more than a
third as long as the whole. -/
def arrow (w h : α) : Except (Fault α) (List (Command α)) :=
  let tip := w / Scalar.ofRat 2
  let neck := tip - w * Scalar.ofRat 0.35
  let barb := h / Scalar.ofRat 2
  let shaft := h * Scalar.ofRat 0.3 / Scalar.ofRat 2
  polygon [⟨-tip, -shaft⟩, ⟨neck, -shaft⟩, ⟨neck, -barb⟩, ⟨tip, Scalar.zero⟩, ⟨neck, barb⟩, ⟨neck, shaft⟩,
    ⟨-tip, shaft⟩]

/-- The front of a house under a gable roof. -/
def house (r : α) : Except (Fault α) (List (Command α)) :=
  let eaves := -r * Scalar.ofRat 0.1
  let wall := r * Scalar.ofRat 0.75
  polygon [⟨Scalar.zero, -r⟩, ⟨r, eaves⟩, ⟨wall, eaves⟩, ⟨wall, r⟩, ⟨-wall, r⟩, ⟨-wall, eaves⟩,
    ⟨-r, eaves⟩]

section Circular

variable [Trig α]

/-- The direction straight up. -/
def upward : α := -Trig.pi / Scalar.ofRat 2

/-- The point at a distance from the origin in a direction. -/
def polar (r angle : α) : Point α := ⟨r * Trig.cos angle, r * Trig.sin angle⟩

/-- As many vertices as asked for, each at a distance from the origin and in a direction, both of which may
depend on how many vertices there are before it. -/
def vertices (count : Int) (distance : Nat → Except (Fault α) (Numeral α))
    (direction : Nat → Except (Fault α) α) : Except (Fault α) (List (Point α)) :=
  (List.range count.toNat).mapM fun i => do
    let r ← distance i
    let angle ← direction i
    if Scalar.isInfinite angle then .error (.number .endlessAngle) else return polar (← r.toScalar) angle

/-- A regular polygon, its first vertex in a direction. -/
def regular (sides r rotation : Numeral α) : Except (Fault α) (List (Command α)) := do
  let n ← sides.toCount
  polygon (← vertices n (fun _ => .ok r) fun i => do
    return (← rotation.toScalar) + Scalar.ofNat (i * 2) * Trig.pi / Scalar.ofInt n)

/-- How far the inner vertices of a star are from its centre, as a share of its radius. -/
def starDepth : α := Scalar.ofRat 0.45

/-- A star, every other vertex of which is drawn in. -/
def star (r points depth : Numeral α) : Except (Fault α) (List (Command α)) := do
  let n ← points.toCount
  polygon (← vertices (n * 2) (fun i => if i % 2 = 0 then .ok r else r.times depth) fun i =>
    .ok (upward + Scalar.ofNat i * Trig.pi / Scalar.ofInt n))

end Circular

/-! ## Shapes with curved sides -/

/-- A circle as four cubic curves. -/
def circle (r : α) : List (Command α) :=
  let o : α := Scalar.zero
  -- How far the control points of a quarter of a circle lie from its ends.
  let k := Scalar.ofRat 0.5523 * r
  [.move ⟨o, -r⟩, .cubic ⟨k, -r⟩ ⟨r, -k⟩ ⟨r, o⟩, .cubic ⟨r, k⟩ ⟨k, r⟩ ⟨o, r⟩,
    .cubic ⟨-k, r⟩ ⟨-r, k⟩ ⟨-r, o⟩, .cubic ⟨-r, -k⟩ ⟨-k, -r⟩ ⟨o, -r⟩, .close]

/-- A heart, its two halves a cubic curve each. -/
def heart (r : α) : List (Command α) :=
  let o : α := Scalar.zero
  let foot : Point α := ⟨o, r * Scalar.ofRat 0.9⟩
  let cleft : Point α := ⟨o, -r * Scalar.ofRat 0.35⟩
  [.move foot,
    .cubic ⟨-r * Scalar.ofRat 1.2, r * Scalar.ofRat 0.1⟩ ⟨-r * Scalar.ofRat 0.9, -r * Scalar.ofRat 0.9⟩
      cleft,
    .cubic ⟨r * Scalar.ofRat 0.9, -r * Scalar.ofRat 0.9⟩ ⟨r * Scalar.ofRat 1.2, r * Scalar.ofRat 0.1⟩
      foot,
    .close]

/-- Half waves from a place to the right, one up and one down by turns, each pulled towards a peak. -/
def halfWaves (peak step : α) (upNext : Bool) (x : α) : Nat → List (Command α)
  | 0 => []
  | n + 1 =>
    .quadratic ⟨x + step / Scalar.ofRat 2, if upNext then -peak else peak⟩ ⟨x + step, Scalar.zero⟩ ::
      halfWaves peak step (!upNext) (x + step) n

/-- A wave of a width, as many periods long as asked for; its curve reaches the amplitude. -/
def wave (w amplitude periods : Numeral α) : Except (Fault α) (List (Command α)) := do
  let halves ← periods.times (.whole 2)
  let step ← w.quotient halves
  let left := -(← w.quotient (.whole 2))
  let start ← checkedShape [.move ⟨left, Scalar.zero⟩]
  let count := (← halves.toCount).toNat
  if count = 0 then return start
  else
    -- A quadratic curve goes half the way to its control point, hence twice the amplitude.
    let peak ← (← amplitude.times (.whole 2)).toScalar
    return start ++ halfWaves peak step true left count

end Drawing.Shape
