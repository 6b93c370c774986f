import Drawing.Canvas.Basic
import Drawing.Json.Key
import Drawing.Repair.Action

/-!
# `Drawing/Repair/Canvas.lean` — repairing the canvas

A canvas keeps a known aspect ratio and gets the one closest to its size instead of an unknown one. It
keeps a size of two positive numbers, rounded to whole pixels, and gets the canonical size of its aspect
ratio instead of any other.
-/

namespace Drawing

section

variable {α : Type} [Scalar α]

/-- The sides of a canvas as written, if both are finite numbers. -/
def sides? (canvas : Fields α) : Except (Fault α) (Option (Numeral α × Numeral α)) := do
  let side? (name : String) : Except (Fault α) (Option (Numeral α)) :=
    match Table.get? canvas name with
    | some (.num n) => do
      let x ← n.toScalar
      return if Scalar.isFinite x then some n else none
    | _ => .ok none
  match ← side? "width" with
  -- Without a width the height is not looked at, and cannot be a fault.
  | none => return none
  | some w => return (← side? "height").map fun h => (w, h)

/-- The aspect ratio of a canvas as written. -/
def writtenAspect (canvas : Fields α) : Json α :=
  match Table.get? canvas "aspectRatio" with
  | some v => v
  | none => (Table.get? canvas "aspect_ratio").getD .null

/-- The aspect ratio of a canvas, the closest to its size if it names none. -/
def repairAspect (canvas : Fields α) (sides : Option (Numeral α × Numeral α)) :
    Except (Fault α) (Repaired α Aspect) := do
  let written := writtenAspect canvas
  let known? : Option Aspect := match written with
    | .str s => Aspect.ofTag? s
    | _ => none
  match ← lookUp written known? with
  | some a => return .same a
  | none =>
    let a ← match sides with
      | some (w, h) => Aspect.closest w h
      | none => pure .square
    return ⟨a, [.setAspect a]⟩

/-- A numeral rounded to whole pixels, a half going to the even one. -/
def Numeral.pixels : Numeral α → Int
  | .whole n => n
  | .real x => Scalar.nearest x

/-- The size of a canvas in pixels, that of its aspect ratio if it has none. -/
def repairSize (aspect : Aspect) (sides : Option (Numeral α × Numeral α)) :
    Repaired α (Int × Int) :=
  let fallback : Repaired α (Int × Int) := ⟨(aspect.size.1, aspect.size.2), [.setCanvasSize]⟩
  match sides with
  | some (w, h) => if w.atMostZero || h.atMostZero then fallback else .same (w.pixels, h.pixels)
  | none => fallback

def repairCanvas (design : Fields α) : Except (Fault α) (Repaired α (Fields α)) :=
  match Table.get? design "canvas" with
  | some (.obj canvas) => do
    let sides ← sides? canvas
    let aspect ← repairAspect canvas sides
    let size := repairSize aspect.value sides
    -- The other spelling goes, or the canvas would name two aspect ratios.
    let canvas := Table.put "aspectRatio" (.str aspect.value.tag) <|
      Table.put "height" (.ofInt size.value.2) <|
      Table.put "width" (.ofInt size.value.1) (Table.erase "aspect_ratio" canvas)
    return ⟨Table.put "canvas" (.obj canvas) design, aspect.actions ++ size.actions⟩
  | _ =>
    .ok ⟨Table.put "canvas" ((Canvas.ofAspect .square : Canvas α).json .stored) design, [.addedCanvas]⟩

end

end Drawing
