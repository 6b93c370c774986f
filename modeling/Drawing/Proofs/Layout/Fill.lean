import Drawing.Proofs.Layout.Size
import Drawing.Proofs.Viewport.Similarity

/-!
# `Drawing/Proofs/Layout/Fill.lean` — filling a box without a layout

Commands can be scaled and moved so that their bounds begin at the origin and fill a box. If the proportions are to be
kept, both directions are scaled by the smaller of the two factors that fit a side each. A side without extent fits into
anything; it is given the factor one all the same, and takes part in the choice.

> **The box is filled in one direction** unless a flat shape would have to be enlarged for it (`scaleToFit_fills_iff`).

So a stroke without a height is shortened to the box but never lengthened to it. Fitting a shape to the size of a layout
leaves such a side out (`Stage.fitFactor`) and lengthens it.
-/

namespace Drawing

/-! ## Factors -/

/-- The factor by which a shape is scaled to fill a target. -/
def fillFactor (e : Extent Rat) (target : Rat × Rat) : Rat :=
  min (if 0 < e.width then target.1 / e.width else 1) (if 0 < e.height then target.2 / e.height else 1)

section

variable {e : Extent Rat} {target : Rat × Rat}

theorem fillFactor_pos (hw : 0 < target.1) (hh : 0 < target.2) : 0 < fillFactor e target := by
  unfold fillFactor
  apply lt_min
  · split_ifs with hwidth
    · exact div_pos hw hwidth
    · exact one_pos
  · split_ifs with hheight
    · exact div_pos hh hheight
    · exact one_pos

/-- A shape with an extent in both directions is scaled by the factor that fits it into the target, a flat one by that
factor or by one, whichever is smaller. -/
theorem fillFactor_eq (h : 0 < e.width ∨ 0 < e.height) :
    fillFactor e target =
      if 0 < e.width ∧ 0 < e.height then Stage.fitFactor e target else min (Stage.fitFactor e target) 1 := by
  unfold fillFactor Stage.fitFactor
  by_cases hwidth : 0 < e.width
  · by_cases hheight : 0 < e.height
    · simp [hwidth, hheight]
    · simp [hwidth, hheight]
  · by_cases hheight : 0 < e.height
    · simp [hwidth, hheight, min_comm]
    · exact absurd h (not_or.mpr ⟨hwidth, hheight⟩)

theorem fillFactor_le (h : 0 < e.width ∨ 0 < e.height) : fillFactor e target ≤ Stage.fitFactor e target := by
  rw [fillFactor_eq h]
  split_ifs
  · exact le_rfl
  · exact min_le_left _ _

theorem fillFactor_eq_fitFactor_iff (h : 0 < e.width ∨ 0 < e.height) :
    fillFactor e target = Stage.fitFactor e target ↔
      (¬ 0 < e.height → target.1 ≤ e.width) ∧ (¬ 0 < e.width → target.2 ≤ e.height) := by
  rw [fillFactor_eq h]
  unfold Stage.fitFactor
  by_cases hwidth : 0 < e.width
  · by_cases hheight : 0 < e.height
    · simp [hwidth, hheight]
    · simp [hwidth, hheight, div_le_one₀ hwidth]
  · by_cases hheight : 0 < e.height
    · simp [hwidth, hheight, div_le_one₀ hheight]
    · exact absurd h (not_or.mpr ⟨hwidth, hheight⟩)

/-- Of the factors that keep a shape within a target only the largest takes a side to that of the target. -/
theorem reaches_iff (h : 0 < e.width ∨ 0 < e.height) {k : Rat} (hk : k ≤ Stage.fitFactor e target) :
    (0 < e.width ∧ e.width * k = target.1 ∨ 0 < e.height ∧ e.height * k = target.2) ↔
      k = Stage.fitFactor e target := by
  obtain ⟨hle, hle'⟩ := Stage.mul_fitFactor_le e target
  constructor
  · rintro (⟨hwidth, heq⟩ | ⟨hheight, heq⟩)
    · exact le_antisymm hk (le_of_mul_le_mul_left ((hle hwidth).trans heq.ge) hwidth)
    · exact le_antisymm hk (le_of_mul_le_mul_left ((hle' hheight).trans heq.ge) hheight)
  · intro heq
    rw [heq]
    exact Stage.mul_fitFactor_eq h

end

/-! ## Shapes -/

/-- Where a point goes when its shape is moved to the origin and scaled. -/
def Extent.fromCorner (e : Extent Rat) (k : Rat) (p : Point Rat) : Point Rat :=
  ⟨(p.x - e.left) * k, (p.y - e.top) * k⟩

theorem sides_extent_nonneg (ps : List (Point Rat)) : 0 ≤ (extent ps).width ∧ 0 ≤ (extent ps).height := by
  cases ps with
  | nil =>
    have hflat : (0 : Rat) - 0 = 0 := sub_self 0
    exact ⟨hflat.ge, hflat.ge⟩
  | cons p ps =>
    obtain ⟨⟨hleft, hright⟩, htop, hbottom⟩ := spans_extent (List.mem_cons_self (a := p) (l := ps))
    exact ⟨sub_nonneg.mpr (hleft.trans hright), sub_nonneg.mpr (htop.trans hbottom)⟩

theorem extent_fromCorner {ps : List (Point Rat)} (hne : ps ≠ []) {k : Rat} (hk : 0 ≤ k) :
    extent (ps.map ((extent ps).fromCorner k)) = ⟨0, 0, (extent ps).width * k, (extent ps).height * k⟩ := by
  have hmono {a b c : Rat} (h : a ≤ b) : (a - c) * k ≤ (b - c) * k :=
    mul_le_mul_of_nonneg_right (sub_le_sub_right h c) hk
  have hzero (a : Rat) : (a - a) * k = 0 := by rw [sub_self, zero_mul]
  obtain ⟨⟨l, hl, hleft⟩, ⟨r, hr, hright⟩, ⟨t, ht, htop⟩, b, hb, hbottom⟩ := exists_on_edges hne
  refine extent_eq_of_spans (List.forall_mem_map.mpr ?_) ⟨_, List.mem_map_of_mem hl, ?_⟩
    ⟨_, List.mem_map_of_mem hr, ?_⟩ ⟨_, List.mem_map_of_mem ht, ?_⟩ ⟨_, List.mem_map_of_mem hb, ?_⟩
  · intro p hp
    obtain ⟨⟨hpl, hpr⟩, hpt, hpb⟩ := spans_extent hp
    exact ⟨⟨(hzero _).ge.trans (hmono hpl), hmono hpr⟩, (hzero _).ge.trans (hmono hpt), hmono hpb⟩
  · simp [Extent.fromCorner, hleft]
  · simp [Extent.fromCorner, hright, Extent.width]
  · simp [Extent.fromCorner, htop]
  · simp [Extent.fromCorner, hbottom, Extent.height]

theorem sideRatio_exact (target : Numeral Rat) (side : Rat) :
    sideRatio target side = .ok (if 0 < side then target.value / side else 1) := by
  unfold sideRatio
  rw [Scalar.zero_exact]
  by_cases hside : 0 < side
  · have hzero : ¬ (side == Scalar.zero) = true := by simpa using hside.ne'
    have hquotient : target.quotient (.real side) = .ok (target.value / side) := by
      cases target <;> exact if_neg hzero
    rw [if_pos hside, if_pos hside, hquotient]
  · rw [if_neg hside, if_neg hside]
    rfl

variable {commands : List (Command Rat)}

/-- Exact commands with a point are moved to the origin and scaled by one factor. -/
theorem scaleToFit_exact (hne : pointsOf commands ≠ []) (width height : Numeral Rat) :
    scaleToFit commands width height true =
      .ok (commands.map (Command.map ((extent (pointsOf commands)).fromCorner
        (fillFactor (extent (pointsOf commands)) (width.value, height.value))))) := by
  have hdrawn := rebuilt_exact (letters_map ((extent (pointsOf commands)).fromCorner
    (fillFactor (extent (pointsOf commands)) (width.value, height.value))) commands)
  rw [pointsOf_map] at hdrawn
  unfold scaleToFit
  split
  · next hnil => exact absurd hnil hne
  · dsimp only
    rw [sideRatio_exact, sideRatio_exact]
    dsimp only [bind, Except.bind]
    rw [if_pos rfl, Scalar.least_exact]
    exact hdrawn

/-- **Filling a box.** Commands with an extent in some direction are filled into every box with positive sides. Their
letters are kept, all their points are moved by one offset and scaled by one positive factor, and their bounds then begin
at the origin, have the proportions they had and are no larger than the box. In a direction in which they have an extent
they are as large as the box, unless they are flat and shorter than the box is along them. -/
theorem scaleToFit_fills_iff {width height : Numeral Rat} (hwidth : 0 < width.value) (hheight : 0 < height.value)
    (hextent : 0 < (extent (pointsOf commands)).width ∨ 0 < (extent (pointsOf commands)).height) :
    letI e := extent (pointsOf commands)
    ∃ drawn k, scaleToFit commands width height true = .ok drawn ∧
      drawn.map Command.letter = commands.map Command.letter ∧
      0 < k ∧ pointsOf drawn = (pointsOf commands).map (fun p => ⟨(p.x - e.left) * k, (p.y - e.top) * k⟩) ∧
      extent (pointsOf drawn) = ⟨0, 0, e.width * k, e.height * k⟩ ∧
      (extent (pointsOf drawn)).right ≤ width.value ∧ (extent (pointsOf drawn)).bottom ≤ height.value ∧
      ((0 < e.width ∧ (extent (pointsOf drawn)).right = width.value ∨
          0 < e.height ∧ (extent (pointsOf drawn)).bottom = height.value) ↔
        (e.height = 0 → width.value ≤ e.width) ∧ (e.width = 0 → height.value ≤ e.height)) := by
  have hne : pointsOf commands ≠ [] := by
    intro hnil
    rw [hnil] at hextent
    exact absurd hextent (by decide +kernel)
  have hsides := sides_extent_nonneg (pointsOf commands)
  have hpoints := pointsOf_map ((extent (pointsOf commands)).fromCorner
    (fillFactor (extent (pointsOf commands)) (width.value, height.value))) commands
  have hmoved := fun {k : Rat} (hk : 0 ≤ k) => extent_fromCorner hne hk
  have hdrawn := scaleToFit_exact hne width height
  generalize extent (pointsOf commands) = e at hextent hsides hpoints hmoved hdrawn ⊢
  have hk : 0 < fillFactor e (width.value, height.value) := fillFactor_pos hwidth hheight
  have hle : fillFactor e (width.value, height.value) ≤ Stage.fitFactor e (width.value, height.value) :=
    fillFactor_le hextent
  obtain ⟨hfit, hfit'⟩ := Stage.mul_fitFactor_le e (width.value, height.value)
  refine ⟨_, _, hdrawn, letters_map _ _, hk, hpoints, ?_⟩
  rw [hpoints, hmoved hk.le]
  refine ⟨rfl, ?_, ?_, ?_⟩
  · rcases hsides.1.eq_or_lt with hflat | hpos
    · simp [← hflat, hwidth.le]
    · exact (mul_le_mul_of_nonneg_left hle hpos.le).trans (hfit hpos)
  · rcases hsides.2.eq_or_lt with hflat | hpos
    · simp [← hflat, hheight.le]
    · exact (mul_le_mul_of_nonneg_left hle hpos.le).trans (hfit' hpos)
  · have hflat : ¬ 0 < e.width ↔ e.width = 0 := by rw [hsides.1.lt_iff_ne', not_not]
    have hflat' : ¬ 0 < e.height ↔ e.height = 0 := by rw [hsides.2.lt_iff_ne', not_not]
    rw [reaches_iff hextent hle, fillFactor_eq_fitFactor_iff hextent, hflat, hflat']

/-- A stroke without a height. -/
def rail : List (Command Rat) := [.move ⟨5, 5⟩, .line ⟨15, 5⟩]

theorem scaleToFit_fills_iff_rail :
    (0 : Rat) < (Numeral.whole 4).value ∧ (0 : Rat) < (Numeral.real 0.5).value ∧
      (0 < (extent (pointsOf rail)).width ∨ 0 < (extent (pointsOf rail)).height) ∧
      ∃ drawn, scaleToFit rail (.whole 4) (.real 0.5) true = .ok drawn ∧ (extent (pointsOf drawn)).right = 4 := by
  have hwidth : (0 : Rat) < (Numeral.whole 4).value := by decide +kernel
  have hheight : (0 : Rat) < (Numeral.real 0.5).value := by decide +kernel
  have hextent : 0 < (extent (pointsOf rail)).width ∨ 0 < (extent (pointsOf rail)).height := by decide +kernel
  obtain ⟨drawn, k, hdrawn, -, -, -, -, -, -, hreach⟩ := scaleToFit_fills_iff hwidth hheight hextent
  refine ⟨hwidth, hheight, hextent, drawn, hdrawn, ?_⟩
  -- the stroke is longer than the box, so it is shortened to it
  rcases hreach.mpr (by decide +kernel) with ⟨-, hright⟩ | ⟨hflat, -⟩
  · exact hright
  · exact absurd hflat (by decide +kernel)

/-- A stroke that is shorter than the box is not lengthened to it. -/
theorem scaleToFit_leaves_gap :
    ¬ ∀ (commands drawn : List (Command Rat)) (width height : Numeral Rat), 0 < width.value → 0 < height.value →
      0 < (extent (pointsOf commands)).width ∨ 0 < (extent (pointsOf commands)).height →
      scaleToFit commands width height true = .ok drawn →
        0 < (extent (pointsOf commands)).width ∧ (extent (pointsOf drawn)).right = width.value ∨
          0 < (extent (pointsOf commands)).height ∧ (extent (pointsOf drawn)).bottom = height.value := by
  intro hall
  have hdrawn : (scaleToFit rail (.whole 100) (.whole 100) true).toOption = some [.move ⟨0, 0⟩, .line ⟨10, 0⟩] := by
    decide +kernel
  have hreach := hall rail _ (.whole 100) (.whole 100) (by decide +kernel) (by decide +kernel) (by decide +kernel)
    (eq_ok_of_toOption hdrawn)
  exact absurd hreach (by decide +kernel)

end Drawing
