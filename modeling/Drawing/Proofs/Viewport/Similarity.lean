import Drawing.Proofs.Document.Clean
import Drawing.Proofs.Document.Outline
import Drawing.Proofs.Viewport.Extent
import Drawing.Viewport.Report

/-!
# `Drawing/Proofs/Viewport/Similarity.lean` — framing is one similarity for the whole drawing

Framing leaves by one of three ways: without content, with content that is flat, and with a padded box around the
content, which may have been scaled down before. In each of them all points go where one map about the middle of the
content takes them, which for the first two is the identity. That map keeps the content on the canvas, and the box is
put around the content as it is then, so nothing is cut off by either of the two. Numbers are exact here.

> **A framed document is the document seen through a similarity** (`Document.fit_similar`), on its canvas and inside its
> view box.
-/

namespace Drawing

/-! ## Similarities -/

/-- The similarity with a centre and a factor. -/
def Point.similar (c : Point Rat) (s : Rat) (p : Point Rat) : Point Rat := ⟨c.x + s * (p.x - c.x), c.y + s * (p.y - c.y)⟩

theorem Point.scaleAbout_eq_similar (p c : Point Rat) (s : Rat) : p.scaleAbout s c.x c.y = c.similar s p := by
  unfold scaleAbout similar
  congr 1 <;> ring

theorem Point.similar_one (c p : Point Rat) : c.similar 1 p = p := by
  unfold similar
  congr 1 <;> ring

/-- The extent of points seen through a similarity. -/
def Extent.similar (c : Point Rat) (s : Rat) (e : Extent Rat) : Extent Rat :=
  ⟨c.x + s * (e.left - c.x), c.y + s * (e.top - c.y), c.x + s * (e.right - c.x), c.y + s * (e.bottom - c.y)⟩

/-- The extent is the only box with all points in it and one on each edge. -/
theorem extent_eq_of_spans {ps : List (Point Rat)} {e : Extent Rat} (hspans : ∀ p ∈ ps, e.Spans p)
    (hleft : ∃ p ∈ ps, p.x = e.left) (hright : ∃ p ∈ ps, p.x = e.right) (htop : ∃ p ∈ ps, p.y = e.top)
    (hbottom : ∃ p ∈ ps, p.y = e.bottom) : extent ps = e := by
  obtain ⟨l, hl, hleft⟩ := hleft
  obtain ⟨r, hr, hright⟩ := hright
  obtain ⟨t, ht, htop⟩ := htop
  obtain ⟨b, hb, hbottom⟩ := hbottom
  obtain ⟨⟨l', hl', hleft'⟩, ⟨r', hr', hright'⟩, ⟨t', ht', htop'⟩, b', hb', hbottom'⟩ :=
    exists_on_edges (List.ne_nil_of_mem hl)
  have hedges : (extent ps).left = e.left ∧ (extent ps).top = e.top ∧ (extent ps).right = e.right ∧
      (extent ps).bottom = e.bottom :=
    ⟨le_antisymm (hleft ▸ (spans_extent hl).1.1) (hleft' ▸ (hspans _ hl').1.1),
      le_antisymm (htop ▸ (spans_extent ht).2.1) (htop' ▸ (hspans _ ht').2.1),
      le_antisymm (hright' ▸ (hspans _ hr').1.2) (hright ▸ (spans_extent hr).1.2),
      le_antisymm (hbottom' ▸ (hspans _ hb').2.2) (hbottom ▸ (spans_extent hb).2.2)⟩
  generalize extent ps = q at hedges
  cases q
  obtain ⟨rfl, rfl, rfl, rfl⟩ := hedges
  rfl

theorem extent_similar {ps : List (Point Rat)} (hne : ps ≠ []) (c : Point Rat) {s : Rat} (hs : 0 ≤ s) :
    extent (ps.map (c.similar s)) = (extent ps).similar c s := by
  have hmono {a b m : Rat} (h : a ≤ b) : m + s * (a - m) ≤ m + s * (b - m) := by
    have := mul_le_mul_of_nonneg_left (sub_le_sub_right h m) hs
    linarith
  obtain ⟨⟨l, hl, hleft⟩, ⟨r, hr, hright⟩, ⟨t, ht, htop⟩, b, hb, hbottom⟩ := exists_on_edges hne
  refine extent_eq_of_spans (List.forall_mem_map.mpr fun p hp => ?_) ⟨_, List.mem_map_of_mem hl, ?_⟩
    ⟨_, List.mem_map_of_mem hr, ?_⟩ ⟨_, List.mem_map_of_mem ht, ?_⟩ ⟨_, List.mem_map_of_mem hb, ?_⟩
  · obtain ⟨⟨hpl, hpr⟩, hpt, hpb⟩ := spans_extent hp
    exact ⟨⟨hmono hpl, hmono hpr⟩, hmono hpt, hmono hpb⟩
  · exact congrArg (fun x => c.x + s * (x - c.x)) hleft
  · exact congrArg (fun x => c.x + s * (x - c.x)) hright
  · exact congrArg (fun y => c.y + s * (y - c.y)) htop
  · exact congrArg (fun y => c.y + s * (y - c.y)) hbottom

theorem Extent.width_similar (c : Point Rat) (s : Rat) (e : Extent Rat) : (e.similar c s).width = s * e.width := by
  unfold width similar
  ring

theorem Extent.height_similar (c : Point Rat) (s : Rat) (e : Extent Rat) : (e.similar c s).height = s * e.height := by
  unfold height similar
  ring

/-! ## Padding -/

/-- A box around content with some padding has sides and holds what the content holds. -/
theorem Extent.padded_holds {e : Extent Rat} {share : Rat} (hw : 0 < e.width) (hh : 0 < e.height) (hshare : 0 ≤ share) :
    0 < (e.padded (e.padding share)).width ∧ 0 < (e.padded (e.padding share)).height ∧
      ∀ p, e.Spans p → (e.padded (e.padding share)).contains p = true := by
  have hpad : 0 ≤ e.padding share := by
    unfold padding
    rw [Scalar.greatest_exact]
    exact mul_nonneg (hw.le.trans (le_max_left _ _)) hshare
  have hright : (e.padded (e.padding share)).x + (e.padded (e.padding share)).width = e.right + e.padding share := by
    show e.left - e.padding share + (e.right - e.left + 2 * e.padding share) = _
    ring
  have hbottom : (e.padded (e.padding share)).y + (e.padded (e.padding share)).height = e.bottom + e.padding share := by
    show e.top - e.padding share + (e.bottom - e.top + 2 * e.padding share) = _
    ring
  refine ⟨?_, ?_, ?_⟩
  · exact add_pos_of_pos_of_nonneg hw (mul_nonneg zero_le_two hpad)
  · exact add_pos_of_pos_of_nonneg hh (mul_nonneg zero_le_two hpad)
  · rintro p ⟨⟨hleft, hright'⟩, htop, hbottom'⟩
    refine Box.contains_iff.mpr ⟨⟨(sub_le_self _ hpad).trans hleft, hright.ge.trans' ?_⟩,
      (sub_le_self _ hpad).trans htop, hbottom.ge.trans' ?_⟩
    · exact hright'.trans (le_add_of_nonneg_right hpad)
    · exact hbottom'.trans (le_add_of_nonneg_right hpad)

/-! ## Framing commands -/

theorem shrink_eq (points : List (Point Rat)) (factor : Rat) :
    shrink points factor = points.map ((extent points).middle.similar factor) :=
  List.map_congr_left fun p _ => p.scaleAbout_eq_similar _ factor

theorem sides_shrink {points : List (Point Rat)} (hne : points ≠ []) {factor : Rat} (hfactor : 0 ≤ factor) :
    (extent (shrink points factor)).width = factor * (extent points).width ∧
      (extent (shrink points factor)).height = factor * (extent points).height := by
  rw [shrink_eq, extent_similar hne _ hfactor]
  exact ⟨Extent.width_similar _ _ _, Extent.height_similar _ _ _⟩

/-- Commands that were scaled down are seen through a similarity about the middle of their content. -/
theorem eq_of_shrunk {commands drawn : List (Command Rat)} {factor : Rat}
    (h : rebuilt commands (shrink (pointsOf commands) factor) = .ok drawn) :
    drawn = commands.map (Command.map ((extent (pointsOf commands)).middle.similar factor)) := by
  rw [shrink_eq, ← pointsOf_map, rebuilt_exact (letters_map _ _)] at h
  exact (Except.ok.inj h).symm

namespace Framed

variable {size : Nat × Nat} {commands : List (Command Rat)} {padding : Numeral Rat} {framing : Framing Rat}

/-- The factor of the similarity that was applied. -/
theorem exists_factor (h : Framed commands (.whole size.1) (.whole size.2) padding framing)
    (hsize : 0 < size.1 ∧ 0 < size.2) :
    ∃ s, 0 < s ∧ s ≤ 1 ∧
      framing.commands = commands.map (Command.map ((extent (pointsOf commands)).middle.similar s)) ∧
      (s < 1 → 0 < (extent (pointsOf commands)).width ∧ 0 < (extent (pointsOf commands)).height ∧
        (extent (pointsOf commands)).IsFar size ∧
        (extent (pointsOf framing.commands)).width ≤ size.1 * 0.8 ∧
        (extent (pointsOf framing.commands)).height ≤ size.2 * 0.8) := by
  have hone : commands.map (Command.map ((extent (pointsOf commands)).middle.similar 1)) = commands := by
    rw [funext (Point.similar_one _)]
    exact List.map_id'' Command.map_id commands
  cases h with
  | whole => exact ⟨1, one_pos, le_rfl, hone.symm, fun h => absurd h (lt_irrefl 1)⟩
  | kept => exact ⟨1, one_pos, le_rfl, hone.symm, fun h => absurd h (lt_irrefl 1)⟩
  | shrunk harea hfactor hdrawn =>
    obtain ⟨hfar, rfl, hfill⟩ := Extent.shrinking?_eq_some hsize.2 hfactor
    obtain ⟨hw, hh⟩ := harea.pos
    have hpos := Extent.fill_pos hw hh hsize
    refine ⟨_, hpos, hfill.le, eq_of_shrunk hdrawn, fun _ => ⟨hw, hh, hfar, ?_⟩⟩
    obtain ⟨hwidth, hheight⟩ := sides_shrink harea.ne_nil hpos.le
    rw [pointsOf_shrunk hdrawn, hwidth, hheight]
    exact Extent.fill_mul_le hw hh

/-- The view box has sides and holds all that is drawn. -/
theorem viewBox_holds (h : Framed commands (.whole size.1) (.whole size.2) padding framing)
    (hsize : 0 < size.1 ∧ 0 < size.2) (hon : CommandsOn size commands) (hpadding : 0 ≤ padding.value) :
    0 < framing.viewBox.width ∧ 0 < framing.viewBox.height ∧
      ∀ p ∈ pointsOf framing.commands, framing.viewBox.contains p = true := by
  cases h with
  | @whole w h hwidth hheight =>
    obtain rfl : w = size.1 := (Except.ok.inj hwidth).symm.trans (Int.cast_natCast _)
    obtain rfl : h = size.2 := (Except.ok.inj hheight).symm.trans (Int.cast_natCast _)
    exact ⟨Nat.cast_pos.mpr hsize.1, Nat.cast_pos.mpr hsize.2, fun p hp => Box.contains_whole (hon p hp)⟩
  | kept harea hshare =>
    obtain rfl := Except.ok.inj (padding.toScalar_exact.symm.trans hshare)
    obtain ⟨hwidth, hheight, hholds⟩ := Extent.padded_holds harea.pos.1 harea.pos.2 hpadding
    exact ⟨hwidth, hheight, fun p hp => hholds p (spans_extent hp)⟩
  | shrunk harea hfactor hdrawn hshare =>
    obtain ⟨-, rfl, -⟩ := Extent.shrinking?_eq_some hsize.2 hfactor
    obtain rfl := Except.ok.inj (padding.toScalar_exact.symm.trans hshare)
    obtain ⟨hw, hh⟩ := harea.pos
    have hpos := Extent.fill_pos hw hh hsize
    obtain ⟨hwidth, hheight⟩ := sides_shrink harea.ne_nil hpos.le
    obtain ⟨hwidth, hheight, hholds⟩ :=
      Extent.padded_holds (hwidth ▸ mul_pos hpos hw) (hheight ▸ mul_pos hpos hh) hpadding
    refine ⟨hwidth, hheight, fun p hp => hholds p (spans_extent ?_)⟩
    rwa [← pointsOf_shrunk hdrawn]

end Framed

/-! ## The report on a view -/

namespace Extent

variable {points : List (Point Rat)} {box : Box Rat} {size : Nat × Nat}

theorem isClipped_extent (hne : points ≠ []) (h : ∀ p ∈ points, box.contains p = true) :
    (extent points).isClipped (.real box.x) (.real box.y) (.real box.width) (.real box.height) = .ok false := by
  have hin {p : Point Rat} (hp : p ∈ points) := Box.contains_iff.mp (h p hp)
  obtain ⟨⟨l, hl, hleft⟩, ⟨r, hr, hright⟩, ⟨t, ht, htop⟩, b, hb, hbottom⟩ := exists_on_edges hne
  have hleft : decide ((extent points).left < box.x) = false :=
    decide_eq_false (not_lt.mpr (hleft ▸ (hin hl).1.1))
  have htop : decide ((extent points).top < box.y) = false :=
    decide_eq_false (not_lt.mpr (htop ▸ (hin ht).2.1))
  have hright : decide (box.x + box.width < (extent points).right) = false :=
    decide_eq_false (not_lt.mpr (hright ▸ (hin hr).1.2))
  have hbottom : decide (box.y + box.height < (extent points).bottom) = false :=
    decide_eq_false (not_lt.mpr (hbottom ▸ (hin hb).2.2))
  show (if (decide (_ < _) || decide (_ < _)) = true then _ else _) = _
  rw [hleft, htop]
  show (if decide (_ < _) = true then _ else _) = _
  rw [hright]
  exact congrArg Except.ok hbottom

theorem isPastCanvas_extent (hne : points ≠ []) (h : ∀ p ∈ points, p.On size) :
    (extent points).isPastCanvas (.whole size.1) (.whole size.2) = false := by
  have hbelow {n : Nat} {x : Rat} (hx : x ≤ n) : (Numeral.whole n : Numeral Rat).isBelow (.real x) = false :=
    decide_eq_false (not_lt.mpr hx)
  obtain ⟨⟨l, hl, hleft⟩, ⟨r, hr, hright⟩, ⟨t, ht, htop⟩, b, hb, hbottom⟩ := exists_on_edges hne
  unfold isPastCanvas
  rw [← hleft, ← hright, ← htop, ← hbottom, hbelow (h r hr).2.1, hbelow (h b hb).2.2.2, Scalar.zero_exact,
    decide_eq_false (not_lt.mpr (h l hl).1), decide_eq_false (not_lt.mpr (h t ht).2.2.1)]
  rfl

theorem exists_isOfOtherAspect (e : Extent Rat) (width : Nat) {height : Nat} (hheight : 0 < height) :
    ∃ other, e.isOfOtherAspect (.whole width) (.whole height) = .ok other := by
  unfold isOfOtherAspect
  rw [Numeral.quotient_exact hheight]
  split_ifs <;> exact ⟨_, rfl⟩

end Extent

/-- A view that shows all of a drawing that is on its canvas is reported neither to clip it nor to leave the canvas. -/
theorem exists_viewReport {size : Nat × Nat} (hsize : 0 < size.2) {commands : List (Command Rat)} {box : Box Rat}
    (hon : CommandsOn size commands) (hbox : ∀ p ∈ pointsOf commands, box.contains p = true) :
    ∃ report, viewReport commands (box.toList.map .real) (.whole size.1) (.whole size.2) = .ok report ∧
      .clipped ∉ report.problems ∧ .pastCanvas ∉ report.problems := by
  unfold viewReport Box.toList
  dsimp only [List.map]
  split_ifs with hempty
  · exact ⟨_, rfl, by simp, by simp⟩
  · have hne : pointsOf commands ≠ [] := by simpa using hempty
    obtain ⟨other, hother⟩ := (extent (pointsOf commands)).exists_isOfOtherAspect size.1 hsize
    rw [Extent.isClipped_extent hne hbox, hother, Extent.isPastCanvas_extent hne hon]
    refine ⟨_, rfl, ?_, ?_⟩ <;> cases other <;> simp

/-! ## Framing documents -/

/-- The box around all that a document draws, as given. -/
def Document.content (d : Document Rat) : Extent Rat := Drawing.extent (pointsOf d.commands)

/-- A document that was framed by a similarity about the middle of its content. -/
structure Document.SimilarlyFramed (d f : Document Rat) (framing : Framing Rat) (s : Rat) : Prop where
  /-- Layers and paths are kept with all that is said of them, and paths keep their letters. -/
  traced : d.Redrawn (fun _ => ShapePath.Traced) f
  /-- Every point goes where the similarity takes it. -/
  moved : f = { d with
    canvas := { d.canvas with viewBox := some framing.viewBox }
    layers := d.layers.map (Layer.mapPoints (d.content.middle.similar s)) }
  factor_pos : 0 < s
  factor_le : s ≤ 1
  /-- Only content with an area whose aspect is far from that of the canvas is scaled, to four fifths at most. -/
  shrunk : s < 1 →
    0 < d.content.width ∧ 0 < d.content.height ∧
      0.5 < |d.content.width / d.content.height - d.canvas.width / d.canvas.height| ∧
      f.content.width ≤ d.canvas.width * 0.8 ∧ f.content.height ≤ d.canvas.height * 0.8
  onCanvas : CommandsOn d.size f.commands
  viewBox_width : 0 < framing.viewBox.width
  viewBox_height : 0 < framing.viewBox.height
  inView : ∀ p ∈ pointsOf f.commands, framing.viewBox.contains p = true
  /-- The report on the view finds nothing cut off, neither by the view box nor by the canvas. -/
  reported : ∃ report, viewReport f.commands (framing.viewBox.toList.map .real) (.whole d.canvas.width)
    (.whole d.canvas.height) = .ok report ∧ .clipped ∉ report.problems ∧ .pastCanvas ∉ report.problems

/-- **A framed document is the document seen through a similarity**: whatever is on its canvas can be framed, with any
padding, and is then on its canvas and in its view box, as drawn before but for one scaling about the middle. -/
theorem Document.fit_similar {d : Document Rat} (hon : CommandsOn d.size d.commands) {padding : Numeral Rat}
    (hpadding : 0 ≤ padding.value) :
    ∃ f framing s, d.fit padding = .ok (f, framing) ∧ d.SimilarlyFramed f framing s := by
  obtain ⟨f, framing, hfit⟩ := d.exists_fit padding
  obtain ⟨framing', hframe, heq⟩ := bind_eq_ok_iff.mp hfit
  obtain ⟨rfl, rfl⟩ := Prod.mk.inj (pure_eq_ok_iff.mp heq)
  have hsize : 0 < d.size.1 ∧ 0 < d.size.2 := ⟨d.canvas.width_pos, d.canvas.height_pos⟩
  have hframed := framed_of_frame hframe
  obtain ⟨s, hpos, hle, hcommands, hshrunk⟩ := hframed.exists_factor hsize
  obtain ⟨hwidth, hheight, hholds⟩ := hframed.viewBox_holds hsize hon hpadding
  have hdealt := Document.commands_fit hfit
  have honCanvas := Document.fit_on hon hfit
  have hmoved : dealToLayers d.layers framing'.commands =
      d.layers.map (Layer.mapPoints (d.content.middle.similar s)) := by
    rw [hcommands]
    exact dealToLayers_map _ d.layers
  rw [← hdealt] at hshrunk hholds
  exact ⟨_, framing', s, hfit,
    { traced := Document.fit_redrawn hfit
      moved := by rw [hmoved]
      factor_pos := hpos
      factor_le := hle
      shrunk := hshrunk
      onCanvas := honCanvas
      viewBox_width := hwidth
      viewBox_height := hheight
      inView := hholds
      reported := exists_viewReport hsize.2 honCanvas hholds }⟩

/-- A fence along the top of a square canvas, and the sun above it. -/
def fenceDocument : Document Rat where
  canvas := .ofAspect .square
  layout := none
  resolved := false
  layers := [⟨"fence", "Fence", [⟨"rail", .plain, [.move ⟨0, 90⟩, .line ⟨500, 90⟩, .close], none⟩], none⟩,
    ⟨"sky", "Sky", [⟨"sun", .plain, [.move ⟨40, 10⟩, .quadratic ⟨60, 0⟩ ⟨80, 10⟩], none⟩], none⟩]

theorem fit_similar_fence :
    CommandsOn fenceDocument.size fenceDocument.commands ∧ 0 ≤ (defaultPadding : Rat) ∧
      fenceDocument.content.fill fenceDocument.size < 1 ∧ fenceDocument.content.IsFar fenceDocument.size ∧
      ∃ f framing s, fenceDocument.fit (.real defaultPadding) = .ok (f, framing) ∧
        fenceDocument.SimilarlyFramed f framing s := by
  have hon : CommandsOn fenceDocument.size fenceDocument.commands := by
    unfold CommandsOn
    decide +kernel
  have hpadding : 0 ≤ (defaultPadding : Rat) := by decide +kernel
  exact ⟨hon, hpadding, by decide +kernel, by decide +kernel, Document.fit_similar hon hpadding⟩

end Drawing
