import Drawing.Proofs.Layout.Stretch

/-!
# `Drawing/Proofs/Layout/Pixels.lean` — layouts that ask for pixels, on a stretched stage

What a layout asks for in fractions of its region stretches with the stage, and what it asks for in pixels does not: an
absolute size, the width of a constrained one, the radius of a circle. If these are multiplied by hand (`scalePixels`),
and the stage is stretched by the same factor in both directions, then every layout draws what it drew, stretched:

> **a stage twice as large needs twice the pixels**, and then all of its layouts scale.

The factor has to be the same in both directions, for a circle and an aspect stay what they are.
-/

namespace Drawing

/-! ## Quantities in pixels -/

/-- A size with its pixels multiplied by a factor. -/
def SizeSpec.scalePixels (k : Rat) : SizeSpec Rat → SizeSpec Rat
  | .absolute w h => .absolute (w * k) (h * k)
  | .relative share => .relative share
  | .constrained w aspect => .constrained (w * k) aspect

/-- A repetition with its radius multiplied by a factor. A radius that is left out is one in pixels as well. -/
def Repetition.scalePixels (k : Rat) (r : Repetition Rat) : Repetition Rat :=
  { r with radius := some (r.radius.getD Stage.defaultRadius * k) }

/-- A layout with everything that it asks for in pixels multiplied by a factor. -/
def LayoutSpec.scalePixels (k : Rat) (spec : LayoutSpec Rat) : LayoutSpec Rat :=
  { spec with size := spec.size.map (·.scalePixels k), repetition := spec.repetition.map (·.scalePixels k) }

/-- A layout in force with everything that it asks for in pixels multiplied by a factor. -/
def EffectiveLayout.scalePixels (k : Rat) (layout : EffectiveLayout Rat) : EffectiveLayout Rat :=
  { layout with size := layout.size.map (·.scalePixels k), repetition := layout.repetition.map (·.scalePixels k) }

theorem EffectiveLayout.isIdentity_scalePixels (k : Rat) (layout : EffectiveLayout Rat) :
    (layout.scalePixels k).isIdentity = layout.isIdentity := by
  simp [isIdentity, scalePixels]

/-! ## Stages -/

namespace Stage.Stretched

variable {s s' : Stage Rat} {k : Rat} {layout : EffectiveLayout Rat}

theorem targetSize_scaled (h : s.Stretched s' k k) {region : String} (hr : s.catalog.isValid region = true)
    (size : SizeSpec Rat) :
    Carried (fun t => (t.1 * k, t.2 * k)) (s.targetSize (some size) region)
      (s'.targetSize (some (size.scalePixels k)) region) := by
  refine (h.regionBox hr).bind fun box => ?_
  cases size with
  | absolute w h => exact .ok rfl
  | relative share =>
    refine .ok ?_
    unfold Box.scale
    dsimp only
    congr 1 <;> ring
  | constrained w aspect =>
    have hheight : w / aspect * k = w * k / aspect := div_mul_eq_mul_div w aspect k
    exact .ok (congrArg (Prod.mk (w * k)) hheight)

theorem sizedPoints_scaled (h : s.Stretched s' k k) (hr : s.catalog.isValid layout.region = true)
    (ps : List (Point Rat)) :
    Carried (List.map fun p => p.stretch k k) (s.sizedPoints ps layout)
      (s'.sizedPoints (ps.map fun p => p.stretch k k) (layout.scalePixels k)) := by
  unfold Stage.sizedPoints EffectiveLayout.scalePixels
  cases layout.size with
  | none => exact .ok rfl
  | some size =>
    cases ps with
    | nil => exact .ok rfl
    | cons p ps =>
      refine (h.targetSize_scaled hr size).bind fun t => ?_
      exact .ok (fitPoints_stretch h.sx_pos h.sy_pos (p :: ps) t).symm

theorem positions_scaled [Trig Rat] (h : s.Stretched s' k k) (hr : s.catalog.isValid layout.region = true)
    (base : Point Rat) :
    Carried (List.map fun p => p.stretch k k) (s.positions layout base)
      (s'.positions (layout.scalePixels k) (base.stretch k k)) := by
  cases hrep : layout.repetition with
  | none =>
    unfold Stage.positions EffectiveLayout.scalePixels
    rw [hrep]
    exact .ok rfl
  | some r =>
    cases hpattern : r.pattern with
    | grid =>
      -- the steps of a grid are fractions of its region
      have hsame : s'.positions (layout.scalePixels k) (base.stretch k k) =
          s'.positions layout (base.stretch k k) := by
        unfold Stage.positions EffectiveLayout.scalePixels Repetition.scalePixels
        rw [hrep, Option.map_some]
        dsimp only
        rw [hpattern]
      rw [hsame]
      refine h.positions hr (fun r' hr' => ?_) base
      obtain rfl := Option.some.inj (hrep.symm.trans hr')
      exact hpattern
    | radial =>
      unfold Stage.positions EffectiveLayout.scalePixels Repetition.scalePixels
      rw [hrep, Option.map_some]
      dsimp only
      rw [hpattern]
      refine .ok ?_
      unfold radialPositions
      rw [List.map_map]
      refine List.map_congr_left fun i _ => ?_
      simp only [Function.comp, Point.stretch, Option.getD_some]
      congr 1 <;> ring

/-- What a layout draws on the stretched stage with its pixels multiplied is what it draws, stretched. -/
theorem transform_scaled [Trig Rat] (h : s.Stretched s' k k) (hr : s.catalog.isValid layout.region = true)
    (ha : ∃ a, Anchor.ofName? layout.anchor = some a) (commands : List (Command Rat)) :
    Carried (List.map (Command.map fun p => p.stretch k k)) (s.transform commands layout)
      (s'.transform (commands.map (Command.map fun p => p.stretch k k)) (layout.scalePixels k)) := by
  unfold Stage.transform
  rw [pointsOf_map, List.isEmpty_map, layout.isIdentity_scalePixels]
  split_ifs
  · exact .ok rfl
  · exact .ok rfl
  · obtain ⟨sized, hsized, hsized'⟩ := h.sizedPoints_scaled hr (pointsOf commands)
    obtain ⟨f, rfl⟩ := sizedPoints_eq hsized
    rw [hsized, hsized']
    have hposition : s'.position (layout.scalePixels k) = s'.position layout := rfl
    rw [hposition]
    refine (h.position hr ha).bind fun base => ?_
    exact (h.positions_scaled hr base).bind fun origins => h.instances f true origins

end Stage.Stretched

end Drawing
