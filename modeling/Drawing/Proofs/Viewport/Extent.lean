import Drawing.Proofs.Document.Held
import Mathlib.Order.Interval.Set.Defs

/-!
# `Drawing/Proofs/Viewport/Extent.lean` — the extent of exact points

An extent is found by comparing alone. So the extent of some points holds the exact values of their least and greatest
coordinates, and whatever bounds the coordinates bounds it. Only its sides are computed.

> **the extent of finite points is that of their exact values** (`extent_holds`).
-/

namespace Drawing

/-! ## Exact points -/

/-- What is chosen again and again compares with all numbers as it does with the two of each choice. -/
theorem foldl_choice_rel {R : Rat → Rat → Prop} (hrefl : ∀ a, R a a) (htrans : ∀ a b c, R a b → R b c → R a c)
    {f : Rat → Rat → Rat} (hf : ∀ a b, R (f a b) a ∧ R (f a b) b) {a x : Rat} {xs : List Rat} (hx : x ∈ a :: xs) :
    R (xs.foldl f a) x := by
  induction xs generalizing a x with
  | nil =>
    rw [List.mem_singleton.mp hx]
    exact hrefl a
  | cons y ys ih =>
    have hstart : R (ys.foldl f (f a y)) (f a y) := ih List.mem_cons_self
    rcases List.mem_cons.mp hx with rfl | hx
    · exact htrans _ _ _ hstart (hf x y).1
    · rcases List.mem_cons.mp hx with rfl | hx
      · exact htrans _ _ _ hstart (hf a x).2
      · exact ih (List.mem_cons_of_mem _ hx)

theorem foldl_lower_le {a x : Rat} {xs : List Rat} (hx : x ∈ a :: xs) : xs.foldl Scalar.lower a ≤ x := by
  have hlower (a b : Rat) : Scalar.lower a b = min a b := Scalar.least_exact a b
  refine foldl_choice_rel le_refl (fun _ _ _ => le_trans) (fun a b => ?_) hx
  rw [hlower]
  exact ⟨min_le_left a b, min_le_right a b⟩

theorem le_foldl_upper {a x : Rat} {xs : List Rat} (hx : x ∈ a :: xs) : x ≤ xs.foldl Scalar.upper a := by
  have hupper (a b : Rat) : Scalar.upper a b = max a b := Scalar.greatest_exact a b
  refine foldl_choice_rel (R := fun a b => b ≤ a) le_refl (fun _ _ _ => ge_trans) (fun a b => ?_) hx
  rw [hupper]
  exact ⟨le_max_left a b, le_max_right a b⟩

theorem Box.contains_iff {b : Box Rat} {p : Point Rat} :
    b.contains p = true ↔ (b.x ≤ p.x ∧ p.x ≤ b.x + b.width) ∧ b.y ≤ p.y ∧ p.y ≤ b.y + b.height := by
  unfold contains
  simp only [Bool.and_eq_true, decide_eq_true_iff, and_assoc]
  rfl

/-- The box of a whole canvas. -/
theorem Box.contains_whole {size : Nat × Nat} {p : Point Rat} (h : p.On size) :
    (⟨0, 0, size.1, size.2⟩ : Box Rat).contains p = true := by
  obtain ⟨hx0, hx, hy0, hy⟩ := h
  rw [contains_iff, zero_add, zero_add]
  exact ⟨⟨hx0, hx⟩, hy0, hy⟩

/-- A point that is no further out than the edges. -/
def Extent.Spans (e : Extent Rat) (p : Point Rat) : Prop :=
  (e.left ≤ p.x ∧ p.x ≤ e.right) ∧ e.top ≤ p.y ∧ p.y ≤ e.bottom

theorem spans_extent {ps : List (Point Rat)} {p : Point Rat} (hp : p ∈ ps) : (extent ps).Spans p := by
  cases ps with
  | nil => exact absurd hp List.not_mem_nil
  | cons q qs =>
    have hx : p.x ∈ q.x :: qs.map Point.x := List.mem_map_of_mem (f := Point.x) hp
    have hy : p.y ∈ q.y :: qs.map Point.y := List.mem_map_of_mem (f := Point.y) hp
    exact ⟨⟨foldl_lower_le hx, le_foldl_upper hx⟩, foldl_lower_le hy, le_foldl_upper hy⟩

/-- Every edge of an extent goes through a point. -/
theorem exists_on_edges {ps : List (Point Rat)} (hne : ps ≠ []) :
    (∃ p ∈ ps, p.x = (extent ps).left) ∧ (∃ p ∈ ps, p.x = (extent ps).right) ∧
      (∃ p ∈ ps, p.y = (extent ps).top) ∧ ∃ p ∈ ps, p.y = (extent ps).bottom := by
  obtain ⟨p, ps, rfl⟩ := List.exists_cons_of_ne_nil hne
  have hx {x : Rat} (hx : x ∈ p.x :: ps.map Point.x) : ∃ q ∈ p :: ps, q.x = x :=
    List.mem_map.mp (show x ∈ (p :: ps).map Point.x from hx)
  have hy {y : Rat} (hy : y ∈ p.y :: ps.map Point.y) : ∃ q ∈ p :: ps, q.y = y :=
    List.mem_map.mp (show y ∈ (p :: ps).map Point.y from hy)
  exact ⟨hx (foldl_choice_mem lower_choice _ _), hx (foldl_choice_mem upper_choice _ _),
    hy (foldl_choice_mem lower_choice _ _), hy (foldl_choice_mem upper_choice _ _)⟩

open Set in
/-- An extent all of whose edges are in an interval. -/
structure Extent.Within (lo hi : Rat) (e : Extent Rat) : Prop where
  left : e.left ∈ Icc lo hi
  right : e.right ∈ Icc lo hi
  top : e.top ∈ Icc lo hi
  bottom : e.bottom ∈ Icc lo hi
  width : 0 ≤ e.width
  height : 0 ≤ e.height

theorem Extent.Within.mono {lo hi lo' hi' : Rat} {e : Extent Rat} (h : e.Within lo hi) (hlo : lo' ≤ lo)
    (hhi : hi ≤ hi') : e.Within lo' hi' :=
  ⟨⟨hlo.trans h.left.1, h.left.2.trans hhi⟩, ⟨hlo.trans h.right.1, h.right.2.trans hhi⟩,
    ⟨hlo.trans h.top.1, h.top.2.trans hhi⟩, ⟨hlo.trans h.bottom.1, h.bottom.2.trans hhi⟩, h.width, h.height⟩

theorem Extent.Within.longer_mem {lo hi : Rat} {e : Extent Rat} (h : e.Within lo hi) :
    0 ≤ max e.width e.height ∧ max e.width e.height ≤ hi - lo :=
  ⟨le_max_of_le_left h.width, max_le (sub_le_sub h.right.2 h.left.1) (sub_le_sub h.bottom.2 h.top.1)⟩

theorem within_extent {lo hi : Rat} {ps : List (Point Rat)} (hne : ps ≠ [])
    (h : ∀ p ∈ ps, p.x ∈ Set.Icc lo hi ∧ p.y ∈ Set.Icc lo hi) : (extent ps).Within lo hi := by
  obtain ⟨⟨l, hl, hleft⟩, ⟨r, hr, hright⟩, ⟨t, ht, htop⟩, ⟨b, hb, hbottom⟩⟩ := exists_on_edges hne
  obtain ⟨hwidth, hheight⟩ := spans_extent hl
  exact ⟨hleft ▸ (h l hl).1, hright ▸ (h r hr).1, htop ▸ (h t ht).2, hbottom ▸ (h b hb).2,
    sub_nonneg.mpr (hwidth.1.trans hwidth.2), sub_nonneg.mpr (hheight.1.trans hheight.2)⟩

/-! ## Points of scalars -/

section

variable {α : Type} [Scalar α]

/-- The exact values of the edges of an extent. -/
structure Extent.Holds (e : Extent α) (q : Extent Rat) : Prop where
  left : Scalar.toRat? e.left = some q.left
  top : Scalar.toRat? e.top = some q.top
  right : Scalar.toRat? e.right = some q.right
  bottom : Scalar.toRat? e.bottom = some q.bottom

variable [NearlyExact α]

/-- **The extent of finite points** is that of their exact values. -/
theorem extent_holds {ps : List (Point α)} (h : ∀ p ∈ ps, p.IsFinite) :
    (extent ps).Holds (extent (ps.map Point.toRat)) := by
  cases ps with
  | nil => exact ⟨Scalar.toRat?_zero, Scalar.toRat?_zero, Scalar.toRat?_zero, Scalar.toRat?_zero⟩
  | cons p ps =>
    obtain ⟨hp, hps⟩ := List.forall_mem_cons.mp h
    have hxs : List.Forall₂ (fun x q => Scalar.toRat? x = some q) (ps.map Point.x)
        ((ps.map Point.toRat).map Point.x) :=
      List.forall₂_map_left_iff.mpr (List.forall₂_map_right_iff.mpr (List.forall₂_map_right_iff.mpr
        (List.forall₂_same.mpr fun q hq => Scalar.toRat?_of_isFinite (hps q hq).1)))
    have hys : List.Forall₂ (fun y q => Scalar.toRat? y = some q) (ps.map Point.y)
        ((ps.map Point.toRat).map Point.y) :=
      List.forall₂_map_left_iff.mpr (List.forall₂_map_right_iff.mpr (List.forall₂_map_right_iff.mpr
        (List.forall₂_same.mpr fun q hq => Scalar.toRat?_of_isFinite (hps q hq).2)))
    have hx := Scalar.toRat?_of_isFinite hp.1
    have hy := Scalar.toRat?_of_isFinite hp.2
    exact ⟨Scalar.toRat?_foldl Scalar.toRat?_lower hxs hx, Scalar.toRat?_foldl Scalar.toRat?_lower hys hy,
      Scalar.toRat?_foldl Scalar.toRat?_upper hxs hx, Scalar.toRat?_foldl Scalar.toRat?_upper hys hy⟩

/-! ## Sides -/

variable {x y : α} {p q : Rat}

/-- A side is off by a part of its length. -/
theorem side_near (hx : Scalar.toRat? x = some p) (hy : Scalar.toRat? y = some q) (h0 : 0 ≤ q - p)
    (h1 : q - p ≤ reach) : Scalar.IsNear (y - x) (q - p) ((q - p) * roundOff) := by
  have hsub := NearlyExact.sub_near hy hx ((abs_of_nonneg h0).trans_le h1)
  rwa [abs_of_nonneg h0] at hsub

theorem side_near_hair (hx : Scalar.toRat? x = some p) (hy : Scalar.toRat? y = some q) (h0 : 0 ≤ q - p)
    (h1 : q - p ≤ reach) : Scalar.IsNear (y - x) (q - p) hair :=
  (side_near hx hy h0 h1).mono (mul_roundOff_le_hair (by linarith))

/-- A side is computed to be none just if it is none. -/
theorem side_le_zero_iff (hx : Scalar.toRat? x = some p) (hy : Scalar.toRat? y = some q) (h0 : 0 ≤ q - p)
    (h1 : q - p ≤ reach) : y - x ≤ Scalar.zero ↔ q - p ≤ 0 := by
  obtain ⟨r, hr, hnear⟩ := side_near hx hy h0 h1
  have hnear := abs_sub_le_iff.mp hnear
  have hoff : roundOff < 1 := by norm_num [roundOff]
  rw [NearlyExact.le_iff hr Scalar.toRat?_zero]
  constructor <;> intro h <;> nlinarith

end

end Drawing
