import Drawing.Proofs.Markup.Root
import Drawing.Proofs.Viewport.Extent

/-!
# `Drawing/Proofs/Viewport/Framed.lean` — what is framed is inside, also as printed

A view box leaves some padding around its content, a share of the longer side. Then its four numbers are rounded to
hundredths, and so are the coordinates, each for itself. That the printed content is inside the printed box takes a
padding of more than half a hundredth, and for that the content has to be longer than a thirtieth of a pixel. Content
that is scaled down always is; where it is not scaled, it may be as small as one likes.

> **what is framed is inside** (`frame_framed`), also as printed, unless it is a speck.
-/

namespace Drawing

/-! ## Boxes -/

/-- A box of four finite numbers. -/
def Box.IsFinite {α : Type} [Scalar α] (b : Box α) : Prop :=
  Scalar.isFinite b.x = true ∧ Scalar.isFinite b.y = true ∧ Scalar.isFinite b.width = true ∧
    Scalar.isFinite b.height = true

instance {α : Type} [Scalar α] (b : Box α) : Decidable b.IsFinite := inferInstanceAs (Decidable (_ ∧ _ ∧ _ ∧ _))

/-- The box of the four exact values. -/
def Box.toRat {α : Type} [Scalar α] (b : Box α) : Box Rat :=
  ⟨Scalar.toRat b.x, Scalar.toRat b.y, Scalar.toRat b.width, Scalar.toRat b.height⟩

/-- A box with its four numbers rounded to hundredths. -/
def Box.rounded (b : Box Rat) : Box Rat :=
  ⟨roundRat 2 b.x, roundRat 2 b.y, roundRat 2 b.width, roundRat 2 b.height⟩

/-- A box that has sides and holds some points, all as they are printed. -/
structure Box.Frames (b : Box Rat) (points : List (Point Rat)) : Prop where
  width : 0 < b.rounded.width
  height : 0 < b.rounded.height
  contains : ∀ p ∈ points, b.rounded.contains p.rounded = true

/-- A side is printed as none if it is half a hundredth or less. -/
theorem roundRat_two_pos_iff {x : Rat} : 0 < roundRat 2 x ↔ 1 / 200 < x := by
  rw [roundRat_pos_iff, tenTo_two]
  constructor <;> intro h <;> linarith

/-- What is inside a box with half a hundredth to spare on the far sides is inside once both are rounded. -/
theorem Box.contains_rounded {b : Box Rat} {p : Point Rat} (hx : b.x < p.x) (hy : b.y < p.y)
    (hright : p.x + 1 / 200 < b.x + b.width) (hbottom : p.y + 1 / 200 < b.y + b.height) :
    b.rounded.contains p.rounded = true := by
  have hsum {x w r : Rat} (h : r + 1 / 200 < x + w) : roundRat 2 r ≤ roundRat 2 x + roundRat 2 w := by
    refine roundRat_le_add ?_
    rw [tenTo_two]
    linarith
  exact contains_iff.mpr ⟨⟨roundRat_le_roundRat hx.le, hsum hright⟩, roundRat_le_roundRat hy.le, hsum hbottom⟩

namespace Extent

/-- The least length of content that is sure to be inside its view box: a little more than a thirtieth. -/
def leastLength : Rat := 0.0334

/-- Content that is flat, and shown on the whole canvas, or of at least that length. -/
def IsLegible (e : Extent Rat) : Prop := e.width ≤ 0 ∨ e.height ≤ 0 ∨ leastLength ≤ max e.width e.height

instance (e : Extent Rat) : Decidable e.IsLegible := inferInstanceAs (Decidable (_ ∨ _ ∨ _))

end Extent

section

variable {α : Type} [Scalar α] [NearlyExact α]

/-! ## Padding -/

/-- What the numbers of a view box may be off by, taking all operations together. -/
def slack : Rat := 1 / 10 ^ 6

/-- The padding that a box is to have. -/
def exactPadding (e : Extent Rat) : Rat := max e.width e.height * 0.15

variable {e : Extent α} {q : Extent Rat} {share : α}

theorem exactPadding_mem (hq : q.Within (-1) 513) : 0 ≤ exactPadding q ∧ exactPadding q ≤ 514 := by
  obtain ⟨h0, h1⟩ := hq.longer_mem
  unfold exactPadding
  constructor <;> linarith

theorem padding_near (he : e.Holds q) (hq : q.Within (-1) 513) (hshare : Scalar.IsNear share 0.15 hair) :
    Scalar.IsNear (e.padding share) (exactPadding q) (520 * hair) := by
  obtain ⟨h0, h1⟩ := hq.longer_mem
  have hreach : (514 : Rat) ≤ reach := by norm_num [reach]
  have hwidth := side_near_hair he.left he.right hq.width
    (((le_max_left _ _).trans h1).trans (le_trans (by norm_num) hreach))
  have hheight := side_near_hair he.top he.bottom hq.height
    (((le_max_right _ _).trans h1).trans (le_trans (by norm_num) hreach))
  refine ((hwidth.greatest hheight).mul hshare (a := 514) (b := 1) ?_ ?_ ?_).mono ?_
  · exact (abs_of_nonneg h0).trans_le (h1.trans (by norm_num))
  · norm_num [abs_of_pos]
  · norm_num [hair, reach]
  · norm_num [hair]

/-- Where a padded side begins, and how long it is. -/
theorem padded_side_near {x y pad : α} {p q d : Rat} (hx : Scalar.toRat? x = some p) (hy : Scalar.toRat? y = some q)
    (hp : p ∈ Set.Icc (-1) 513) (hq : q ∈ Set.Icc (-1) 513) (hpq : 0 ≤ q - p) (hpad : Scalar.IsNear pad d (520 * hair))
    (h0 : 0 ≤ d) (hd : d ≤ 514) :
    Scalar.IsNear (x - pad) (p - d) slack ∧
      Scalar.IsNear (y - x + Scalar.ofRat 2 * pad) (q - p + 2 * d) slack := by
  obtain ⟨hp0, hp1⟩ := hp
  obtain ⟨hq0, hq1⟩ := hq
  have hreach : (2000 : Rat) + 2000 * hair ≤ reach := by norm_num [reach, hair]
  have hhair : 0 ≤ hair := by norm_num [hair]
  have hdouble : Scalar.IsNear (Scalar.ofRat 2 * pad) (2 * d) (1050 * hair) := by
    refine (Scalar.IsNear.mul (.of_eq NearlyExact.ofRat_two) hpad (a := 2) (b := 514) ?_ ?_ ?_).mono ?_
    · norm_num
    · rwa [abs_of_nonneg h0]
    · norm_num [hair, reach]
    · norm_num [hair]
  constructor
  · refine (Scalar.IsNear.sub (.of_eq hx) hpad ?_).mono ?_
    · have habs : |p - d| ≤ 2000 := abs_le.mpr (by constructor <;> linarith)
      linarith
    · norm_num [hair, slack]
  · refine ((side_near_hair hx hy hpq (by linarith)).add hdouble ?_).mono ?_
    · have habs : |q - p + 2 * d| ≤ 2000 := abs_le.mpr (by constructor <;> linarith)
      linarith
    · norm_num [hair, slack]

/-- The box around content: where it begins and how long its sides are. -/
theorem padded_near (he : e.Holds q) (hq : q.Within (-1) 513) (hshare : Scalar.IsNear share 0.15 hair) :
    (Scalar.IsNear (e.padded (e.padding share)).x (q.left - exactPadding q) slack ∧
      Scalar.IsNear (e.padded (e.padding share)).width (q.right - q.left + 2 * exactPadding q) slack) ∧
    Scalar.IsNear (e.padded (e.padding share)).y (q.top - exactPadding q) slack ∧
      Scalar.IsNear (e.padded (e.padding share)).height (q.bottom - q.top + 2 * exactPadding q) slack := by
  have hpad := padding_near he hq hshare
  obtain ⟨h0, h1⟩ := exactPadding_mem hq
  exact ⟨padded_side_near he.left he.right hq.left hq.right hq.width hpad h0 h1,
    padded_side_near he.top he.bottom hq.top hq.bottom hq.height hpad h0 h1⟩

theorem isFinite_padded (he : e.Holds q) (hq : q.Within (-1) 513) (hshare : Scalar.IsNear share 0.15 hair) :
    (e.padded (e.padding share)).IsFinite := by
  obtain ⟨⟨hx, hw⟩, hy, hh⟩ := padded_near he hq hshare
  exact ⟨hx.isFinite, hy.isFinite, hw.isFinite, hh.isFinite⟩

omit [NearlyExact α] [Scalar α] in
/-- A box that leaves more than half a hundredth around content frames whatever is within the content. -/
theorem frames_of_near {b : Box Rat} {q : Extent Rat} {pad : Rat} (hpad : 1 / 200 + 3 * slack ≤ pad)
    (hx : |b.x - (q.left - pad)| ≤ slack) (hw : |b.width - (q.right - q.left + 2 * pad)| ≤ slack)
    (hy : |b.y - (q.top - pad)| ≤ slack) (hh : |b.height - (q.bottom - q.top + 2 * pad)| ≤ slack) (hwidth : 0 ≤ q.width)
    (hheight : 0 ≤ q.height) {points : List (Point Rat)} (hpoints : ∀ p ∈ points, q.Spans p) : b.Frames points := by
  have hslack : 0 < slack := by norm_num [slack]
  have hwidth : 0 ≤ q.right - q.left := hwidth
  have hheight : 0 ≤ q.bottom - q.top := hheight
  rw [abs_sub_le_iff] at hx hy hw hh
  refine ⟨roundRat_two_pos_iff.mpr (by linarith), roundRat_two_pos_iff.mpr (by linarith), fun p hp => ?_⟩
  obtain ⟨⟨hl, hr⟩, ht, hb⟩ := hpoints p hp
  exact Box.contains_rounded (by linarith) (by linarith) (by linarith) (by linarith)

/-- The box around content that is long enough. -/
theorem padded_frames (he : e.Holds q) (hq : q.Within (-1) 513) (hshare : Scalar.IsNear share 0.15 hair)
    (hlong : Extent.leastLength ≤ max q.width q.height) {points : List (Point Rat)}
    (hpoints : ∀ p ∈ points, q.Spans p) : (e.padded (e.padding share)).toRat.Frames points := by
  obtain ⟨⟨hx, hw⟩, hy, hh⟩ := padded_near he hq hshare
  have hpad : 1 / 200 + 3 * slack ≤ exactPadding q :=
    le_trans (by norm_num [slack, Extent.leastLength]) (mul_le_mul_of_nonneg_right hlong (by norm_num))
  have hx : |(e.padded (e.padding share)).toRat.x - (q.left - exactPadding q)| ≤ slack := hx.abs_toRat_le
  have hw : |(e.padded (e.padding share)).toRat.width - (q.right - q.left + 2 * exactPadding q)| ≤ slack :=
    hw.abs_toRat_le
  have hy : |(e.padded (e.padding share)).toRat.y - (q.top - exactPadding q)| ≤ slack := hy.abs_toRat_le
  have hh : |(e.padded (e.padding share)).toRat.height - (q.bottom - q.top + 2 * exactPadding q)| ≤ slack :=
    hh.abs_toRat_le
  exact frames_of_near hpad hx hw hy hh hq.width hq.height hpoints

/-! ## The whole canvas -/

theorem whole_toRat [HoldsSides α] (a : Aspect) :
    (⟨Scalar.zero, Scalar.zero, Scalar.ofNat a.size.1, Scalar.ofNat a.size.2⟩ : Box α).IsFinite ∧
      (⟨Scalar.zero, Scalar.zero, Scalar.ofNat a.size.1, Scalar.ofNat a.size.2⟩ : Box α).toRat =
        ⟨0, 0, a.size.1, a.size.2⟩ := by
  obtain ⟨hw, hh⟩ := HoldsSides.toRat?_sides (α := α) a
  have hzero := (Scalar.IsNear.of_eq (Scalar.toRat?_zero (α := α))).isFinite
  refine ⟨⟨hzero, hzero, (Scalar.IsNear.of_eq hw).isFinite, (Scalar.IsNear.of_eq hh).isFinite⟩, ?_⟩
  unfold Box.toRat
  rw [Scalar.toRat_of Scalar.toRat?_zero, Scalar.toRat_of hw, Scalar.toRat_of hh]

omit [NearlyExact α] [Scalar α] in
theorem Aspect.size_mem (a : Aspect) : (288 ≤ a.size.1 ∧ a.size.1 ≤ 512) ∧ 288 ≤ a.size.2 ∧ a.size.2 ≤ 512 := by
  cases a <;> decide

/-- The whole canvas frames whatever is on it. -/
theorem whole_frames (a : Aspect) {points : List (Point Rat)} (h : ∀ p ∈ points, p.On a.size) :
    (⟨0, 0, a.size.1, a.size.2⟩ : Box Rat).Frames points := by
  have hround : (⟨0, 0, a.size.1, a.size.2⟩ : Box Rat).rounded = ⟨0, 0, a.size.1, a.size.2⟩ := by
    have hzero : roundRat 2 0 = 0 := by decide +kernel
    unfold Box.rounded
    rw [hzero, roundRat_natCast, roundRat_natCast]
  obtain ⟨⟨hw0, -⟩, hh0, -⟩ := a.size_mem
  refine ⟨?_, ?_, fun p hp => ?_⟩ <;> rw [hround]
  · exact Nat.cast_pos.mpr (show 0 < a.size.1 by omega)
  · exact Nat.cast_pos.mpr (show 0 < a.size.2 by omega)
  · obtain ⟨hx0, hx, hy0, hy⟩ := h p hp
    obtain ⟨hx0, hx⟩ := @roundRat_mem 2 _ _ hx0 hx
    obtain ⟨hy0, hy⟩ := @roundRat_mem 2 _ _ hy0 hy
    exact Box.contains_whole ⟨hx0, hx, hy0, hy⟩

/-! ## Scaled content -/

/-- The middle of a side of a canvas. -/
theorem middle_near {x y : α} {p q : Rat} (hx : Scalar.toRat? x = some p) (hy : Scalar.toRat? y = some q)
    (hp : p ∈ Set.Icc 0 512) (hq : q ∈ Set.Icc 0 512) :
    Scalar.IsNear ((x + y) / Scalar.ofRat 2) ((p + q) / 2) (2 * hair) := by
  have hsum : |p + q| ≤ 1024 := abs_le.mpr (by constructor <;> linarith [hp.1, hp.2, hq.1, hq.2])
  have hreach : 1024 + hair ≤ reach := by norm_num [reach, hair]
  have hhair : 0 ≤ hair := by norm_num [hair]
  have hadd := Scalar.IsNear.add (.of_eq hx) (.of_eq hy) (show |p + q| + (0 + 0) ≤ reach by linarith)
  exact (hadd.half (by linarith)).mono (by linarith)

/-- A number that is scaled about a middle stays on the canvas. -/
theorem scaled_mem {v m r : Rat} (hv : v ∈ Set.Icc 0 512) (hm : m ∈ Set.Icc 0 512) (hr : r ∈ Set.Icc 0 1) :
    (v - m) * r + m ∈ Set.Icc 0 512 := by
  obtain ⟨⟨hv0, hv1⟩, ⟨hm0, hm1⟩, hr0, hr1⟩ := And.intro hv (And.intro hm hr)
  constructor <;> nlinarith

theorem scaled_near {x c f : α} {v m r : Rat} (hx : Scalar.toRat? x = some v) (hc : Scalar.IsNear c m (2 * hair))
    (hf : Scalar.toRat? f = some r) (hv : v ∈ Set.Icc 0 512) (hm : m ∈ Set.Icc 0 512) (hr : r ∈ Set.Icc 0 1) :
    Scalar.IsNear ((x - c) * f + c) ((v - m) * r + m) (10 * hair) := by
  have hreach : 512 + 10 * hair ≤ reach := by norm_num [reach, hair]
  have hhair : 0 ≤ hair := by norm_num [hair]
  have hoff : |v - m| ≤ 512 := abs_le.mpr (by constructor <;> linarith [hv.1, hv.2, hm.1, hm.2])
  have hsub := Scalar.IsNear.sub (.of_eq hx) hc (by linarith)
  have hmul := hsub.mul (.of_eq hf) hoff (show |r| ≤ 1 from (abs_of_nonneg hr.1).trans_le hr.2) (by linarith)
  have hsum : |(v - m) * r + m| ≤ 512 :=
    (abs_of_nonneg (scaled_mem hv hm hr).1).trans_le (scaled_mem hv hm hr).2
  exact (hmul.add hc (by linarith)).mono (by linarith)

/-- A factor below one that makes a side fill a share of the canvas leaves a good part of the side. -/
theorem fill_mem {n : Nat} {w s : α} {d : Rat} (hw : Scalar.toRat? w = some (n : Rat)) (hn : 288 ≤ n ∧ n ≤ 512)
    (hs : Scalar.IsNear s d (d * roundOff)) (hd : 0 < d) (hd' : d ≤ 512) (h : w * targetFill / s < Scalar.one) :
    ∃ r, Scalar.toRat? (w * targetFill / s) = some r ∧ r ∈ Set.Icc 0 1 ∧ 100 ≤ d * r := by
  have hlow : (288 : Rat) ≤ n := by exact_mod_cast hn.1
  have hhigh : (n : Rat) ≤ 512 := by exact_mod_cast hn.2
  have hoff : (0 : Rat) < roundOff ∧ roundOff < 1 / 1000 := by norm_num [roundOff]
  have hhair : (0 : Rat) < hair ∧ 1000 * hair < 1 / 1000 := by norm_num [hair]
  have htarget : Scalar.IsNear (targetFill : α) 0.8 hair := Scalar.ofRat_near (by norm_num [reach, abs_of_pos])
  have hshare : Scalar.IsNear (w * targetFill) (n * 0.8) (1000 * hair) := by
    refine (Scalar.IsNear.mul (.of_eq hw) htarget (a := 512) (b := 1) ?_ ?_ ?_).mono ?_
    · rwa [abs_of_nonneg (by linarith)]
    · norm_num [abs_of_pos]
    · norm_num [reach, hair]
    · norm_num [hair]
  obtain ⟨p, hp, hpnear⟩ := hshare
  obtain ⟨q, hq, hqnear⟩ := hs
  rw [abs_sub_le_iff] at hpnear hqnear
  have hp0 : 230 ≤ p := by linarith
  have hq0 : 0 < q := by nlinarith
  have hq1 : q ≤ 513 := by nlinarith
  have hqd : q ≤ 2 * d := by nlinarith
  -- the exact quotient is not too large, so the computed one is near it
  have hquotient := NearlyExact.le_reach_of_div_lt_one hp hq (by linarith) hq0 h
  have hpq : 0 ≤ p / q := div_nonneg (by linarith) hq0.le
  obtain ⟨r, hr, hrnear⟩ := NearlyExact.div_near hp hq hq0.ne' (by rwa [abs_of_nonneg hpq])
  rw [abs_of_nonneg hpq] at hrnear
  have hrnear := abs_sub_le_iff.mp (hrnear.trans (mul_roundOff_le_hair (by linarith)))
  have hpart : 1 / 4 ≤ p / q := (le_div_iff₀ hq0).mpr (by linarith)
  have hr1 : r ≤ 1 := by
    obtain ⟨one, hone, -, hle⟩ := NearlyExact.ofRat_mem (α := α) (q := 1) (n := 1) zero_le_one
      Nat.cast_one.ge (by norm_num [reach])
    exact ((NearlyExact.lt_iff hr hone).mp h).le.trans (by exact_mod_cast hle)
  refine ⟨r, hr, ⟨by linarith, hr1⟩, ?_⟩
  calc (100 : Rat) ≤ (p - q * hair) / 2 := by nlinarith
    _ = q / 2 * (p / q - hair) := by field_simp
    _ ≤ d * r := mul_le_mul (by linarith) (by linarith) (by linarith) hd.le

theorem shrinking_held [HoldsSides α] {a : Aspect} {factor : α} (he : e.Holds q) (hq : q.Within 0 512)
    (hw : 0 < q.width) (hh : 0 < q.height) (h : e.shrinking? (.whole a.size.1) (.whole a.size.2) = .ok (some factor)) :
    ∃ r, Scalar.toRat? factor = some r ∧ r ∈ Set.Icc 0 1 ∧ (100 ≤ q.width * r ∨ 100 ≤ q.height * r) := by
  have hreach : (512 : Rat) ≤ reach := by norm_num [reach]
  obtain ⟨hwidth, hheight⟩ := HoldsSides.toRat?_sides (α := α) a
  have hw1 : q.width ≤ 512 := ((le_max_left _ _).trans hq.longer_mem.2).trans (sub_zero _).le
  have hh1 : q.height ≤ 512 := ((le_max_right _ _).trans hq.longer_mem.2).trans (sub_zero _).le
  have hvalue (n : Nat) : (Numeral.whole n : Numeral α).value = Scalar.ofNat n :=
    congrArg Scalar.ofRat (Int.cast_natCast n)
  unfold Extent.shrinking? at h
  obtain ⟨ratio, -, h⟩ := bind_eq_ok_iff.mp h
  have h := pure_eq_ok_iff.mp h
  split_ifs at h with hc
  obtain rfl := Option.some.inj h
  have hlt := of_decide_eq_true (Bool.and_eq_true_iff.mp hc).2
  rw [hvalue, hvalue] at hlt ⊢
  unfold Extent.fillFactor Scalar.least at hlt ⊢
  split_ifs at hlt ⊢
  · obtain ⟨r, hr, hmem, hlong⟩ :=
      fill_mem hheight a.size_mem.2 (side_near he.top he.bottom hq.height (hh1.trans hreach)) hh hh1 hlt
    exact ⟨r, hr, hmem, .inr hlong⟩
  · obtain ⟨r, hr, hmem, hlong⟩ :=
      fill_mem hwidth a.size_mem.1 (side_near he.left he.right hq.width (hw1.trans hreach)) hw hw1 hlt
    exact ⟨r, hr, hmem, .inl hlong⟩

omit [NearlyExact α] [Scalar α] in
theorem Extent.Within.middle_mem {q : Extent Rat} (h : q.Within 0 512) :
    q.middle.x ∈ Set.Icc 0 512 ∧ q.middle.y ∈ Set.Icc 0 512 := by
  have hmid {a b : Rat} (ha : a ∈ Set.Icc 0 512) (hb : b ∈ Set.Icc 0 512) : (a + b) / 2 ∈ Set.Icc (0 : Rat) 512 :=
    ⟨by linarith [ha.1, hb.1], by linarith [ha.2, hb.2]⟩
  exact ⟨hmid h.left h.right, hmid h.top h.bottom⟩

section

variable {factor : α} {r : Rat} {p : Point α}

/-- Where the points go that are scaled about the middle of an extent, but for rounding. -/
theorem scaleAbout_near (he : e.Holds q) (hq : q.Within 0 512) (hf : Scalar.toRat? factor = some r)
    (hr : r ∈ Set.Icc 0 1) (hp : p.IsFinite) (hx : p.toRat.x ∈ Set.Icc 0 512) (hy : p.toRat.y ∈ Set.Icc 0 512) :
    Scalar.IsNear (p.scaleAbout factor e.middle.x e.middle.y).x
        ((p.toRat.x - q.middle.x) * r + q.middle.x) (10 * hair) ∧
      Scalar.IsNear (p.scaleAbout factor e.middle.x e.middle.y).y
        ((p.toRat.y - q.middle.y) * r + q.middle.y) (10 * hair) :=
  ⟨scaled_near (Scalar.toRat?_of_isFinite hp.1) (middle_near he.left he.right hq.left hq.right) hf hx
      hq.middle_mem.1 hr,
    scaled_near (Scalar.toRat?_of_isFinite hp.2) (middle_near he.top he.bottom hq.top hq.bottom) hf hy
      hq.middle_mem.2 hr⟩

theorem scaleAbout_mem (he : e.Holds q) (hq : q.Within 0 512) (hf : Scalar.toRat? factor = some r)
    (hr : r ∈ Set.Icc 0 1) (hp : p.IsFinite) (hx : p.toRat.x ∈ Set.Icc 0 512) (hy : p.toRat.y ∈ Set.Icc 0 512) :
    (p.scaleAbout factor e.middle.x e.middle.y).toRat.x ∈ Set.Icc (-1) 513 ∧
      (p.scaleAbout factor e.middle.x e.middle.y).toRat.y ∈ Set.Icc (-1) 513 := by
  have hnear {v m x : Rat} (hv : v ∈ Set.Icc 0 512) (hm : m ∈ Set.Icc 0 512)
      (hx : |x - ((v - m) * r + m)| ≤ 10 * hair) : x ∈ Set.Icc (-1) 513 := by
    obtain ⟨h0, h1⟩ := scaled_mem hv hm hr
    have hhair : 10 * hair ≤ 1 := by norm_num [hair]
    rw [abs_sub_le_iff] at hx
    exact ⟨by linarith, by linarith⟩
  obtain ⟨hx', hy'⟩ := scaleAbout_near he hq hf hr hp hx hy
  exact ⟨hnear hx hq.middle_mem.1 hx'.abs_toRat_le, hnear hy hq.middle_mem.2 hy'.abs_toRat_le⟩

end

/-- Scaled edges are as far apart as they should be, but for rounding. -/
theorem leastLength_le {x y p q m r : Rat} (hx : |x - ((p - m) * r + m)| ≤ 10 * hair)
    (hy : |y - ((q - m) * r + m)| ≤ 10 * hair) (h : 100 ≤ (q - p) * r) : Extent.leastLength ≤ y - x := by
  have hlength : Extent.leastLength + 20 * hair ≤ 100 := by norm_num [Extent.leastLength, hair]
  rw [abs_sub_le_iff] at hx hy
  linarith

theorem Point.mem_of_on {a : Aspect} {p : Point Rat} (h : p.On a.size) : p.x ∈ Set.Icc 0 512 ∧ p.y ∈ Set.Icc 0 512 := by
  have hwidth : (a.size.1 : Rat) ≤ 512 := by exact_mod_cast a.size_mem.1.2
  have hheight : (a.size.2 : Rat) ≤ 512 := by exact_mod_cast a.size_mem.2.2
  exact ⟨⟨h.1, h.2.1.trans hwidth⟩, h.2.2.1, h.2.2.2.trans hheight⟩

/-- Content that is scaled down stays on the canvas, but for rounding, and is still long. -/
theorem shrink_held {ps : List (Point α)} {a : Aspect} {factor : α} {r : Rat} (hne : ps ≠ [])
    (hps : ∀ p ∈ ps, p.IsFinite ∧ p.toRat.On a.size) (hf : Scalar.toRat? factor = some r) (hr : r ∈ Set.Icc 0 1)
    (hlong : 100 ≤ (extent (ps.map Point.toRat)).width * r ∨ 100 ≤ (extent (ps.map Point.toRat)).height * r) :
    (∀ p ∈ shrink ps factor, p.IsFinite) ∧ (extent ((shrink ps factor).map Point.toRat)).Within (-1) 513 ∧
      Extent.leastLength ≤ max (extent ((shrink ps factor).map Point.toRat)).width
        (extent ((shrink ps factor).map Point.toRat)).height := by
  have hon {p : Point α} (hp : p ∈ ps) : p.toRat.x ∈ Set.Icc 0 512 ∧ p.toRat.y ∈ Set.Icc 0 512 :=
    Point.mem_of_on (hps p hp).2
  have hne' : ps.map Point.toRat ≠ [] := by simpa using hne
  have he := extent_holds fun p hp => (hps p hp).1
  have hq : (extent (ps.map Point.toRat)).Within 0 512 :=
    within_extent hne' (List.forall_mem_map.mpr fun _ hp => hon hp)
  obtain ⟨hleft, hright, htop, hbottom⟩ := exists_on_edges hne'
  generalize extent (ps.map Point.toRat) = q at *
  have hnear {p : Point α} (hp : p ∈ ps) := scaleAbout_near he hq hf hr (hps p hp).1 (hon hp).1 (hon hp).2
  have hspans {p : Point α} (hp : p ∈ ps) : (extent ((shrink ps factor).map Point.toRat)).Spans
      (p.scaleAbout factor (extent ps).middle.x (extent ps).middle.y).toRat :=
    spans_extent (List.mem_map_of_mem (List.mem_map_of_mem hp))
  simp only [List.mem_map, exists_exists_and_eq_and] at hleft hright htop hbottom
  refine ⟨List.forall_mem_map.mpr fun p hp => ⟨(hnear hp).1.isFinite, (hnear hp).2.isFinite⟩,
    within_extent (by simpa [shrink] using hne) (List.forall_mem_map.mpr (List.forall_mem_map.mpr fun p hp =>
      scaleAbout_mem he hq hf hr (hps p hp).1 (hon hp).1 (hon hp).2)), ?_⟩
  · rcases hlong with hlong | hlong
    · obtain ⟨⟨l, hl, hleft⟩, o, ho, hright⟩ := And.intro hleft hright
      refine le_max_of_le_left ((leastLength_le (hleft ▸ (hnear hl).1.abs_toRat_le)
        (hright ▸ (hnear ho).1.abs_toRat_le) hlong).trans ?_)
      exact sub_le_sub (hspans ho).1.2 (hspans hl).1.1
    · obtain ⟨⟨t, ht, htop⟩, b, hb, hbottom⟩ := And.intro htop hbottom
      refine le_max_of_le_right ((leastLength_le (htop ▸ (hnear ht).2.abs_toRat_le)
        (hbottom ▸ (hnear hb).2.abs_toRat_le) hlong).trans ?_)
      exact sub_le_sub (hspans hb).2.2 (hspans ht).2.1

/-! ## Framing -/

/-- Sides that are computed to have a length have one. -/
theorem sides_pos (he : e.Holds q) (hq : q.Within 0 512) (hwidth : ¬ e.width ≤ Scalar.zero)
    (hheight : ¬ e.height ≤ Scalar.zero) : 0 < q.width ∧ 0 < q.height := by
  have hreach : (512 : Rat) - 0 ≤ reach := by norm_num [reach]
  obtain ⟨hw, hh⟩ := max_le_iff.mp hq.longer_mem.2
  exact ⟨not_le.mp fun hle => hwidth ((side_le_zero_iff he.left he.right hq.width (hw.trans hreach)).mpr hle),
    not_le.mp fun hle => hheight ((side_le_zero_iff he.top he.bottom hq.height (hh.trans hreach)).mpr hle)⟩

/-- **What is framed is inside** the view box, also as printed, unless it is a speck. -/
theorem frame_framed [HoldsSides α] {commands : List (Command α)} {a : Aspect} {framing : Framing α}
    (hon : ∀ p ∈ pointsOf commands, p.IsFinite ∧ p.toRat.On a.size)
    (h : frame commands (.whole a.size.1) (.whole a.size.2) (.real defaultPadding) = .ok framing) :
    framing.viewBox.IsFinite ∧ ((extent ((pointsOf framing.commands).map Point.toRat)).IsLegible →
      framing.viewBox.toRat.Frames ((pointsOf framing.commands).map Point.toRat)) := by
  have hpadding : Scalar.IsNear (defaultPadding : α) 0.15 hair := Scalar.ofRat_near (by norm_num [reach, abs_of_pos])
  have he := extent_holds fun p hp => (hon p hp).1
  have hwithin (hne : pointsOf commands ≠ []) : (extent ((pointsOf commands).map Point.toRat)).Within 0 512 :=
    within_extent (by simpa using hne) (List.forall_mem_map.mpr fun p hp => Point.mem_of_on (hon p hp).2)
  cases framed_of_frame h with
  | whole hwidth hheight =>
    obtain rfl := Numeral.eq_of_toScalar hwidth
    obtain rfl := Numeral.eq_of_toScalar hheight
    obtain ⟨hfinite, hexact⟩ := whole_toRat (α := α) a
    refine ⟨hfinite, fun _ => ?_⟩
    dsimp only
    rw [hexact]
    exact whole_frames a (List.forall_mem_map.mpr fun p hp => (hon p hp).2)
  | kept harea hshare =>
    obtain rfl := Except.ok.inj hshare
    have hq := hwithin harea.ne_nil
    obtain ⟨hw0, hh0⟩ := sides_pos he hq harea.width harea.height
    have hq := hq.mono (show (-1 : Rat) ≤ 0 by norm_num) (show (512 : Rat) ≤ 513 by norm_num)
    refine ⟨isFinite_padded he hq hpadding, fun hlegible => padded_frames he hq hpadding ?_ fun _ => spans_extent⟩
    -- content that is not flat in the least is not flat
    rcases hlegible with hflat | hflat | hlong
    · exact absurd hflat (not_le.mpr hw0)
    · exact absurd hflat (not_le.mpr hh0)
    · exact hlong
  | shrunk harea hfactor hdrawn hshare =>
    obtain rfl := Except.ok.inj hshare
    have hq := hwithin harea.ne_nil
    obtain ⟨hw0, hh0⟩ := sides_pos he hq harea.width harea.height
    obtain ⟨r, hr, hmem, hlong⟩ := shrinking_held he hq hw0 hh0 hfactor
    obtain ⟨hfinite, hq', hlong'⟩ := shrink_held harea.ne_nil hon hr hmem hlong
    have he' := extent_holds hfinite
    refine ⟨isFinite_padded he' hq' hpadding, fun _ => padded_frames he' hq' hpadding hlong' ?_⟩
    dsimp only
    rw [pointsOf_shrunk hdrawn]
    exact fun _ => spans_extent

end

end Drawing
