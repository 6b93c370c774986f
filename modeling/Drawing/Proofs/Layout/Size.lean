import Drawing.Proofs.Layout.Instances
import Drawing.Proofs.Region.Catalog

/-!
# `Drawing/Proofs/Layout/Size.lean` — a shape at the size it asks for

A size is a width and a height in pixels, a share of a region, or a width with an aspect, and whichever it is, it comes to
a target with two positive sides: what was asked for is positive, and so are the sides of every region. A shape is scaled
about its origin by one factor until it fits into the target. A side without extent fits into anything, so it neither sets
the factor nor is divided by.

> **The shape is no larger than the target, and as large as it in one direction.**
-/

namespace Drawing

namespace Stage

/-! ## Targets -/

/-- The target of a positive size in a region of a catalog has two positive sides. -/
theorem targetSize_pos {s : Stage Rat} {region : String} {size : SizeSpec Rat} (hsound : s.catalog.IsSound)
    (hregion : s.catalog.isValid region = true) (hsize : size.IsPositive) :
    ∃ target, s.targetSize (some size) region = .ok target ∧ 0 < target.1 ∧ 0 < target.2 := by
  obtain ⟨b, hb⟩ := Catalog.bounds_of_isValid hregion
  have hbox : s.regionBox region = .ok (b.scale s.canvas.width s.canvas.height) :=
    Catalog.pixelBounds_exact hb s.canvas
  have hinside : b.InUnitSquare := hsound.bounds_inside hb
  have hwidth : 0 < b.width * s.canvas.width := mul_pos hinside.width.1 (Nat.cast_pos.mpr s.canvas.width_pos)
  have hheight : 0 < b.height * s.canvas.height := mul_pos hinside.height.1 (Nat.cast_pos.mpr s.canvas.height_pos)
  refine ⟨_, bind_eq_ok_iff.mpr ⟨_, hbox, rfl⟩, ?_⟩
  cases size with
  | absolute w h => exact ⟨hsize w (by simp [SizeSpec.numbers]), hsize h (by simp [SizeSpec.numbers])⟩
  | relative share =>
    have hshare : 0 < share := hsize share (by simp [SizeSpec.numbers])
    exact ⟨mul_pos hwidth hshare, mul_pos hheight hshare⟩
  | constrained w aspect =>
    have hw : 0 < w := hsize w (by simp [SizeSpec.numbers])
    exact ⟨hw, div_pos hw (hsize aspect (by simp [SizeSpec.numbers]))⟩

/-! ## Factors -/

section

variable {e : Extent Rat} {target : Rat × Rat}

theorem fitFactor_pos (hw : 0 < target.1) (hh : 0 < target.2) : 0 < fitFactor e target := by
  unfold fitFactor
  split_ifs with hwidth hheight hheight
  · exact lt_min (div_pos hw hwidth) (div_pos hh hheight)
  · exact div_pos hw hwidth
  · exact div_pos hh hheight
  · exact one_pos

/-- Neither side is scaled past the target. -/
theorem mul_fitFactor_le (e : Extent Rat) (target : Rat × Rat) :
    (0 < e.width → e.width * fitFactor e target ≤ target.1) ∧
      (0 < e.height → e.height * fitFactor e target ≤ target.2) := by
  have hside {side t k : Rat} (hside : 0 < side) (hk : k ≤ t / side) : side * k ≤ t := by
    rw [mul_comm]
    exact (le_div_iff₀ hside).mp hk
  unfold fitFactor
  split_ifs with hwidth hheight hheight
  · exact ⟨fun _ => hside hwidth (min_le_left _ _), fun _ => hside hheight (min_le_right _ _)⟩
  · exact ⟨fun _ => hside hwidth le_rfl, fun h => absurd h hheight⟩
  · exact ⟨fun h => absurd h hwidth, fun _ => hside hheight le_rfl⟩
  · exact ⟨fun h => absurd h hwidth, fun h => absurd h hheight⟩

/-- One side is scaled to that of the target. -/
theorem mul_fitFactor_eq (h : 0 < e.width ∨ 0 < e.height) :
    0 < e.width ∧ e.width * fitFactor e target = target.1 ∨
      0 < e.height ∧ e.height * fitFactor e target = target.2 := by
  have hside {side t : Rat} (hside : 0 < side) : side * (t / side) = t := mul_div_cancel₀ t hside.ne'
  unfold fitFactor
  split_ifs with hwidth hheight hheight
  · rcases min_choice (target.1 / e.width) (target.2 / e.height) with hmin | hmin
    · rw [hmin]
      exact .inl ⟨hwidth, hside hwidth⟩
    · rw [hmin]
      exact .inr ⟨hheight, hside hheight⟩
  · exact .inl ⟨hwidth, hside hwidth⟩
  · exact .inr ⟨hheight, hside hheight⟩
  · exact absurd h (not_or.mpr ⟨hwidth, hheight⟩)

end

/-! ## Shapes -/

section

variable {ps : List (Point Rat)} {target : Rat × Rat}

theorem extent_fitPoints (hk : 0 < fitFactor (extent ps) target) :
    (extent (fitPoints ps target)).width = (extent ps).width * fitFactor (extent ps) target ∧
      (extent (fitPoints ps target)).height = (extent ps).height * fitFactor (extent ps) target := by
  rw [fitPoints_exact, extent_stretch hk hk]
  exact ⟨(sub_mul _ _ _).symm, (sub_mul _ _ _).symm⟩

theorem fitPoints_of_flat (hwidth : (extent ps).width ≤ 0) (hheight : (extent ps).height ≤ 0) :
    fitPoints ps target = ps := by
  have hfactor : fitFactor (extent ps) target = 1 := by
    unfold fitFactor
    rw [if_neg (not_lt.mpr hwidth), if_neg (not_lt.mpr hheight)]
  rw [fitPoints_exact, hfactor]
  simp [Point.stretch]

end

/-- **A shape at the size it asks for.** On every canvas, in every region of a catalog that registrations left behind and
for every positive size, the points of a shape are multiplied by one positive factor. In each direction in which the shape
has an extent it is then no larger than the target, and in one of them as large. A shape without extent is left as it
is. -/
theorem sizedPoints_fit (regions : List (CustomRegion Rat)) (canvas : Canvas Rat) {layout : EffectiveLayout Rat}
    {size : SizeSpec Rat} (hregion : (Catalog.ofAttempts regions).isValid layout.region = true)
    (hsize : layout.size = some size) (hpositive : size.IsPositive) (commands : List (Command Rat)) :
    letI s : Stage Rat := ⟨canvas, .ofAttempts regions⟩
    letI e := extent (pointsOf commands)
    ∃ target k ps, s.targetSize (some size) layout.region = .ok target ∧
      s.sizedPoints (pointsOf commands) layout = .ok ps ∧
      0 < k ∧ ps = (pointsOf commands).map (fun p => ⟨p.x * k, p.y * k⟩) ∧
      (0 < e.width → (extent ps).width ≤ target.1) ∧ (0 < e.height → (extent ps).height ≤ target.2) ∧
      (0 < e.width ∨ 0 < e.height →
        0 < e.width ∧ (extent ps).width = target.1 ∨ 0 < e.height ∧ (extent ps).height = target.2) ∧
      (e.width = 0 → e.height = 0 → ps = pointsOf commands) := by
  obtain ⟨target, htarget, hw, hh⟩ := targetSize_pos (s := ⟨canvas, .ofAttempts regions⟩)
    (Catalog.isSound_ofAttempts regions) hregion hpositive
  have hk : 0 < fitFactor (extent (pointsOf commands)) target := fitFactor_pos hw hh
  obtain ⟨hwidth, hheight⟩ := extent_fitPoints hk
  obtain ⟨hle, hle'⟩ := mul_fitFactor_le (extent (pointsOf commands)) target
  refine ⟨target, _, fitPoints (pointsOf commands) target, htarget, sizedPoints_of_target hsize htarget _, hk,
    fitPoints_exact _ target, ?_, ?_, ?_, ?_⟩
  · exact hwidth ▸ hle
  · exact hheight ▸ hle'
  · rw [hwidth, hheight]
    exact mul_fitFactor_eq
  · exact fun hflat hflat' => fitPoints_of_flat hflat.le hflat'.le

/-- A region at the foot of the canvas. -/
def strip : List (CustomRegion Rat) := [⟨"strip", ⟨0, 0.9, 1, 0.1⟩⟩]

/-- A layout that asks for a size there. -/
def stripLayout : EffectiveLayout Rat := ⟨"strip", "center", ⟨0, 0⟩, some (.constrained 20 4), none⟩

/-- A stroke without a height. -/
def levelStroke : List (Command Rat) := [.move ⟨10, 3⟩, .line ⟨50, 3⟩]

theorem sizedPoints_fit_levelStroke :
    letI s : Stage Rat := ⟨.ofAspect .square, .ofAttempts strip⟩
    s.catalog.isValid stripLayout.region = true ∧ stripLayout.size = some (.constrained 20 4) ∧
      (SizeSpec.constrained 20 4 : SizeSpec Rat).IsPositive ∧
      ∃ target k ps, s.targetSize (some (.constrained 20 4)) stripLayout.region = .ok target ∧
        s.sizedPoints (pointsOf levelStroke) stripLayout = .ok ps ∧ 0 < k ∧
        ps = (pointsOf levelStroke).map (fun p => ⟨p.x * k, p.y * k⟩) ∧ (extent ps).width = target.1 := by
  have hregion : (Catalog.ofAttempts strip).isValid stripLayout.region = true := by decide +kernel
  -- a size is positive if it is one that is read
  have hread : SizeSpec.read (.obj [("aspectConstrained", .obj [("width", .ofReal 20), ("aspect", .ofReal 4)])]) =
      .valid (.constrained 20 4 : SizeSpec Rat) := rfl
  have hpositive := SizeSpec.read_isPositive hread
  obtain ⟨target, k, ps, htarget, hps, hk, heq, -, -, hreach, -⟩ :=
    sizedPoints_fit strip (.ofAspect .square) hregion rfl hpositive levelStroke
  refine ⟨hregion, rfl, hpositive, target, k, ps, htarget, hps, hk, heq, ?_⟩
  rcases hreach (by decide +kernel) with ⟨-, hwidth⟩ | ⟨hheight, -⟩
  · exact hwidth
  · exact absurd hheight (by decide +kernel)

end Stage

end Drawing
