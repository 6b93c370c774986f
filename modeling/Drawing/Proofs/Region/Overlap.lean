import Drawing.Proofs.Region.Catalog
import Mathlib.MeasureTheory.Measure.Lebesgue.Basic
import Mathlib.MeasureTheory.Measure.Real
import Mathlib.Order.CompletePartialOrder

/-!
# `Drawing/Proofs/Region/Overlap.lean` — how much two regions overlap

The overlap of two regions is the area that they share, divided by the area that they cover together. Areas are computed
from edges, and that is all a computation needs. What they are the areas of is said here: a box is a set of points of the
plane, its area is the Lebesgue measure of that set, and the two areas of an overlap are those of the intersection and of
the union.

> **the overlap is the measure of the intersection over that of the union,** and a similarity: it is the same both ways, it
> is one for equal boxes alone, and nought for those whose interiors do not meet.

All of it comes down to the length that two intervals share, for the area that two boxes share is the product of two such
lengths. Numbers are exact here.
-/

namespace Drawing

open MeasureTheory

/-! ## Intervals -/

namespace Box

section

variable {lo hi lo' hi' : Rat}

theorem sharedLength_exact (lo hi lo' hi' : Rat) :
    sharedLength lo hi lo' hi' = max (min hi hi' - max lo lo') 0 := by
  have hpositive (length : Rat) : (if Scalar.zero < length then length else Scalar.zero) = max length 0 :=
    (Scalar.greatest_exact 0 length).trans (max_comm 0 length)
  unfold sharedLength
  rw [Scalar.least_exact, Scalar.greatest_exact]
  exact hpositive _

theorem sharedLength_comm (lo hi lo' hi' : Rat) : sharedLength lo hi lo' hi' = sharedLength lo' hi' lo hi := by
  rw [sharedLength_exact, sharedLength_exact, min_comm, max_comm lo]

theorem sharedLength_nonneg : 0 ≤ sharedLength lo hi lo' hi' :=
  sharedLength_exact lo hi lo' hi' ▸ le_max_right _ _

theorem sharedLength_le (h : lo ≤ hi) : sharedLength lo hi lo' hi' ≤ hi - lo := by
  rw [sharedLength_exact]
  exact max_le (sub_le_sub (min_le_left _ _) (le_max_left _ _)) (sub_nonneg.mpr h)

theorem sharedLength_eq_zero_iff : sharedLength lo hi lo' hi' = 0 ↔ min hi hi' ≤ max lo lo' := by
  rw [sharedLength_exact, max_eq_right_iff, sub_nonpos]

/-- An interval shares all of its length with those that it lies in. -/
theorem sharedLength_eq_iff (h : lo < hi) : sharedLength lo hi lo' hi' = hi - lo ↔ lo' ≤ lo ∧ hi ≤ hi' := by
  rw [sharedLength_exact]
  constructor
  · intro heq
    have hpos : (0 : Rat) < hi - lo := sub_pos.mpr h
    have hshared : min hi hi' - max lo lo' = hi - lo := by
      rcases max_choice (min hi hi' - max lo lo') 0 with hmax | hmax
      · exact hmax.symm.trans heq
      · exact absurd (hmax.symm.trans heq) hpos.ne
    have hhi := min_le_left hi hi'
    have hlo := le_max_left lo lo'
    exact ⟨max_eq_left_iff.mp (by linarith), min_eq_left_iff.mp (by linarith)⟩
  · rintro ⟨hlo, hhi⟩
    rw [min_eq_left hhi, max_eq_left hlo, max_eq_left (sub_nonneg.mpr h.le)]

end

/-! ## Boxes -/

/-- A box with an extent in both directions. -/
structure IsSolid (b : Box Rat) : Prop where
  width : b.x < b.right
  height : b.y < b.bottom

section

variable {a b : Box Rat}

theorem sharedArea_comm (a b : Box Rat) : a.sharedArea b = b.sharedArea a := by
  unfold sharedArea
  rw [sharedLength_comm a.x, sharedLength_comm a.y]

theorem sharedArea_nonneg : 0 ≤ a.sharedArea b := mul_nonneg sharedLength_nonneg sharedLength_nonneg

theorem IsSolid.edgeArea_pos (h : b.IsSolid) : 0 < b.edgeArea := mul_pos (sub_pos.mpr h.width) (sub_pos.mpr h.height)

theorem IsSolid.sharedArea_le (h : a.IsSolid) : a.sharedArea b ≤ a.edgeArea :=
  mul_le_mul (sharedLength_le h.width.le) (sharedLength_le h.height.le) sharedLength_nonneg
    (sub_nonneg.mpr h.width.le)

/-- A box shares all of its area with those that it lies in. -/
theorem IsSolid.sharedArea_eq_iff (h : a.IsSolid) : a.sharedArea b = a.edgeArea ↔
    (b.x ≤ a.x ∧ a.right ≤ b.right) ∧ b.y ≤ a.y ∧ a.bottom ≤ b.bottom := by
  have hwidth : 0 < a.right - a.x := sub_pos.mpr h.width
  have hheight : 0 < a.bottom - a.y := sub_pos.mpr h.height
  rw [← sharedLength_eq_iff h.width, ← sharedLength_eq_iff h.height]
  unfold sharedArea edgeArea
  refine ⟨fun heq => ?_, fun ⟨hx, hy⟩ => by rw [hx, hy]⟩
  -- neither side of what is shared is longer than that of the box, so none is shorter if the products are equal
  have hx : sharedLength a.x a.right b.x b.right ≤ a.right - a.x := sharedLength_le h.width.le
  have hy : sharedLength a.y a.bottom b.y b.bottom ≤ a.bottom - a.y := sharedLength_le h.height.le
  have hx' := le_of_mul_le_mul_right (heq.ge.trans (mul_le_mul_of_nonneg_left hy sharedLength_nonneg)) hheight
  have hy' := le_of_mul_le_mul_left (heq.ge.trans (mul_le_mul_of_nonneg_right hx sharedLength_nonneg)) hwidth
  exact ⟨hx.antisymm hx', hy.antisymm hy'⟩

theorem eq_of_edges (hx : a.x = b.x) (hy : a.y = b.y) (hright : a.right = b.right) (hbottom : a.bottom = b.bottom) :
    a = b := by
  obtain ⟨ax, ay, aw, ah⟩ := a
  obtain ⟨bx, bY, bw, bh⟩ := b
  obtain rfl : ax = bx := hx
  obtain rfl : ay = bY := hy
  obtain rfl : aw = bw := add_left_cancel (show ax + aw = ax + bw from hright)
  obtain rfl : ah = bh := add_left_cancel (show ay + ah = ay + bh from hbottom)
  rfl

/-- Solid boxes are equal if the area they share is all that either of them has. -/
theorem IsSolid.eq_iff (ha : a.IsSolid) (hb : b.IsSolid) :
    a = b ↔ a.sharedArea b = a.edgeArea ∧ a.sharedArea b = b.edgeArea := by
  rw [ha.sharedArea_eq_iff, sharedArea_comm, hb.sharedArea_eq_iff]
  constructor
  · rintro rfl
    exact ⟨⟨⟨le_rfl, le_rfl⟩, le_rfl, le_rfl⟩, ⟨le_rfl, le_rfl⟩, le_rfl, le_rfl⟩
  · rintro ⟨⟨⟨hx, hright⟩, hy, hbottom⟩, ⟨hx', hright'⟩, hy', hbottom'⟩
    exact eq_of_edges (hx'.antisymm hx) (hy'.antisymm hy) (hright.antisymm hright') (hbottom.antisymm hbottom')

end

/-! ## Areas -/

/-- The points of the plane that lie in a box. -/
def pointSet (b : Box Rat) : Set (ℝ × ℝ) := Set.Icc (b.x : ℝ) b.right ×ˢ Set.Icc (b.y : ℝ) b.bottom

theorem volume_inter (a b : Box Rat) : volume.real (a.pointSet ∩ b.pointSet) = a.sharedArea b := by
  have hlength (lo hi lo' hi' : Rat) :
      volume.real (Set.Icc (lo : ℝ) hi ∩ Set.Icc (lo' : ℝ) hi') = sharedLength lo hi lo' hi' := by
    rw [Set.Icc_inter_Icc, Real.volume_real_Icc, sharedLength_exact]
    push_cast
    rfl
  unfold pointSet sharedArea
  rw [Set.prod_inter_prod, Measure.volume_eq_prod, measureReal_prod_prod, hlength, hlength]
  push_cast
  rfl

theorem volume_pointSet {b : Box Rat} (h : b.IsSolid) : volume.real b.pointSet = b.edgeArea := by
  rw [← Set.inter_self b.pointSet, volume_inter, Rat.cast_inj]
  exact h.sharedArea_eq_iff.mpr ⟨⟨le_rfl, le_rfl⟩, le_rfl, le_rfl⟩

theorem volume_union {a b : Box Rat} (ha : a.IsSolid) (hb : b.IsSolid) :
    volume.real (a.pointSet ∪ b.pointSet) = (a.edgeArea + b.edgeArea - a.sharedArea b : Rat) := by
  have hcompact (c : Box Rat) : IsCompact c.pointSet := isCompact_Icc.prod isCompact_Icc
  have hsum : volume.real (a.pointSet ∪ b.pointSet) + volume.real (a.pointSet ∩ b.pointSet) =
      volume.real a.pointSet + volume.real b.pointSet :=
    measureReal_union_add_inter (hcompact b).measurableSet (hcompact a).measure_lt_top.ne
      (hcompact b).measure_lt_top.ne
  rw [volume_inter, volume_pointSet ha, volume_pointSet hb] at hsum
  push_cast
  linarith

/-- Boxes whose interiors do not meet share no area, and the other way round. -/
theorem disjoint_interior_iff (a b : Box Rat) :
    Disjoint (interior a.pointSet) (interior b.pointSet) ↔ a.sharedArea b = 0 := by
  unfold pointSet sharedArea
  rw [interior_prod_eq, interior_prod_eq, interior_Icc, interior_Icc, interior_Icc, interior_Icc, Set.disjoint_prod,
    Set.Ioo_disjoint_Ioo, Set.Ioo_disjoint_Ioo, mul_eq_zero, sharedLength_eq_zero_iff, sharedLength_eq_zero_iff]
  norm_cast

end Box

/-! ## Regions -/

namespace Catalog

variable {c : Catalog Rat} {name : String} {b : Box Rat}

theorem IsSound.isSolid_of_bounds (h : c.IsSound) (hb : c.bounds name = .ok b) : b.IsSolid := by
  have hinside : b.InUnitSquare := h.bounds_inside hb
  exact ⟨lt_add_of_pos_right b.x hinside.width.1, lt_add_of_pos_right b.y hinside.height.1⟩

/-- Solid boxes cover some area together, so their overlap is a quotient. -/
theorem overlap_exact {first second : String} {a : Box Rat} (hfirst : c.bounds first = .ok a)
    (hsecond : c.bounds second = .ok b) (ha : a.IsSolid) (hb : b.IsSolid) :
    c.overlap first second = .ok (a.sharedArea b / (a.edgeArea + b.edgeArea - a.sharedArea b)) := by
  have hcovered : 0 < a.edgeArea + b.edgeArea - a.sharedArea b := by
    linarith [ha.edgeArea_pos, hb.edgeArea_pos, ha.sharedArea_le (b := b)]
  unfold overlap
  rw [hfirst, hsecond]
  exact congrArg Except.ok (if_neg (not_le.mpr hcovered))

/-- **The overlap of two regions.** In a catalog that registrations left behind, two names that are valid have an overlap.
It is the same both ways and between nought and one, it is one exactly if the boxes are equal, and nought exactly if
their interiors do not meet. It is the area of the intersection over the sum of the areas without it, and that is over
the area of the union. -/
theorem overlap_similarity (regions : List (CustomRegion Rat)) {first second : String}
    (hfirst : (ofAttempts regions).isValid first = true) (hsecond : (ofAttempts regions).isValid second = true) :
    ∃ a b q, (ofAttempts regions).bounds first = .ok a ∧ (ofAttempts regions).bounds second = .ok b ∧
      (ofAttempts regions).overlap first second = .ok q ∧ (ofAttempts regions).overlap second first = .ok q ∧
      (0 ≤ q ∧ q ≤ 1) ∧ (q = 1 ↔ a = b) ∧ (q = 0 ↔ Disjoint (interior a.pointSet) (interior b.pointSet)) ∧
      (q : ℝ) = volume.real (a.pointSet ∩ b.pointSet) /
        (volume.real a.pointSet + volume.real b.pointSet - volume.real (a.pointSet ∩ b.pointSet)) ∧
      (q : ℝ) = volume.real (a.pointSet ∩ b.pointSet) / volume.real (a.pointSet ∪ b.pointSet) := by
  obtain ⟨a, ha⟩ := bounds_of_isValid hfirst
  obtain ⟨b, hb⟩ := bounds_of_isValid hsecond
  have hsolid := (isSound_ofAttempts regions).isSolid_of_bounds ha
  have hsolid' := (isSound_ofAttempts regions).isSolid_of_bounds hb
  have hle : a.sharedArea b ≤ a.edgeArea := hsolid.sharedArea_le
  have hle' : a.sharedArea b ≤ b.edgeArea := a.sharedArea_comm b ▸ hsolid'.sharedArea_le
  have hcovered : 0 < a.edgeArea + b.edgeArea - a.sharedArea b := by linarith [hsolid.edgeArea_pos]
  refine ⟨a, b, _, ha, hb, overlap_exact ha hb hsolid hsolid', ?_, ⟨?_, ?_⟩, ?_, ?_, ?_, ?_⟩
  · rw [overlap_exact hb ha hsolid' hsolid, b.sharedArea_comm, add_comm]
  · exact div_nonneg Box.sharedArea_nonneg hcovered.le
  · rw [div_le_one hcovered]
    linarith
  · rw [div_eq_one_iff_eq hcovered.ne', hsolid.eq_iff hsolid']
    constructor
    · intro heq
      constructor <;> linarith
    · rintro ⟨heq, heq'⟩
      linarith
  · rw [Box.disjoint_interior_iff, div_eq_zero_iff, or_iff_left hcovered.ne']
  · rw [Box.volume_inter, Box.volume_pointSet hsolid, Box.volume_pointSet hsolid']
    push_cast
    rfl
  · rw [Box.volume_inter, Box.volume_union hsolid hsolid']
    push_cast
    rfl

/-- A banner that is moved into the grid after a region that is refused. -/
def movedBanner : List (CustomRegion Rat) :=
  [⟨"banner", ⟨0, 0, 1, 0.2⟩⟩, ⟨"center", ⟨0, 0, 1, 1⟩⟩, ⟨"banner", ⟨0.2, 0.2, 0.4, 0.4⟩⟩]

theorem overlap_similarity_movedBanner :
    letI c := ofAttempts movedBanner
    c.isValid "banner" = true ∧ c.isValid "center" = true ∧
      ∃ a b q, c.bounds "banner" = .ok a ∧ c.bounds "center" = .ok b ∧ c.overlap "banner" "center" = .ok q ∧
        c.overlap "center" "banner" = .ok q ∧ (0 ≤ q ∧ q ≤ 1) ∧ (q = 1 ↔ a = b) ∧
        (q : ℝ) = volume.real (a.pointSet ∩ b.pointSet) / volume.real (a.pointSet ∪ b.pointSet) := by
  have hfirst : (ofAttempts movedBanner).isValid "banner" = true := by decide +kernel
  have hsecond : (ofAttempts movedBanner).isValid "center" = true := by decide +kernel
  obtain ⟨a, b, q, ha, hb, hq, hq', hmem, hone, -, -, hunion⟩ := overlap_similarity movedBanner hfirst hsecond
  exact ⟨hfirst, hsecond, a, b, q, ha, hb, hq, hq', hmem, hone, hunion⟩

end Catalog

end Drawing
