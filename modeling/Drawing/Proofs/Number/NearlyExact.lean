import Drawing.Proofs.Number.Exact
import Drawing.Proofs.Number.Rounding
import Mathlib.Algebra.Order.Group.MinMax

/-!
# `Drawing/Proofs/Number/NearlyExact.lean` — numbers that are nearly exact

Much that is true of exact numbers is true of doubles as well, as long as it leaves some room. What it takes is said
here of any scalars: finite numbers are compared by their exact values, and on the scale of a canvas every operation
comes close to its exact result.

> **what is nearly exact** (`NearlyExact`) keeps within a unit of the sixteenth digit.
-/

namespace Drawing

/-- The numbers that are as large as anything on a canvas may get to be. -/
def reach : Rat := 2 ^ 16

/-- What an operation may be off by, as a share of its result. -/
def roundOff : Rat := 1 / 2 ^ 52

theorem roundOff_nonneg : 0 ≤ roundOff := by norm_num [roundOff]

/-- What a single operation may be off by. -/
def hair : Rat := 1 / 2 ^ 35

theorem mul_roundOff_le_hair {q : Rat} (h : q ≤ reach + 1) : q * roundOff ≤ hair :=
  (mul_le_mul_of_nonneg_right h roundOff_nonneg).trans (by norm_num [reach, roundOff, hair])

namespace Scalar

variable {α : Type} [Scalar α]

/-- A finite number that is close to an exact one. -/
def IsNear (x : α) (q err : Rat) : Prop := ∃ r, toRat? x = some r ∧ |r - q| ≤ err

variable {x : α} {p q d e : Rat}

theorem IsNear.of_eq (h : toRat? x = some q) : IsNear x q 0 := ⟨q, h, by rw [sub_self, abs_zero]⟩

theorem IsNear.nonneg (h : IsNear x q e) : 0 ≤ e := by
  obtain ⟨r, -, hr⟩ := h
  exact (abs_nonneg _).trans hr

theorem IsNear.mono (h : IsNear x q d) (hde : d ≤ e) : IsNear x q e := by
  obtain ⟨r, hx, hr⟩ := h
  exact ⟨r, hx, hr.trans hde⟩

/-- What is near a result that is off is off by both. -/
theorem IsNear.trans (h : IsNear x p d) (hpq : |p - q| ≤ e) : IsNear x q (d + e) := by
  obtain ⟨r, hx, hr⟩ := h
  exact ⟨r, hx, (abs_sub_le r p q).trans (add_le_add hr hpq)⟩

end Scalar

open Scalar in
/-- Scalars whose finite numbers are compared exactly, and whose operations are nearly exact. -/
class NearlyExact (α : Type) [Scalar α] : Prop where
  isNaN_of_toRat? {x : α} {q : Rat} (h : toRat? x = some q) : isNaN x = false
  lt_iff {x y : α} {p q : Rat} (hx : toRat? x = some p) (hy : toRat? y = some q) : x < y ↔ p < q
  le_iff {x y : α} {p q : Rat} (hx : toRat? x = some p) (hy : toRat? y = some q) : x ≤ y ↔ p ≤ q
  beq_iff {x y : α} {p q : Rat} (hx : toRat? x = some p) (hy : toRat? y = some q) : (x == y) = true ↔ p = q
  zero_mul {x : α} {q : Rat} (hx : toRat? x = some q) : toRat? (zero * x) = some 0
  ofRat_mem {q : Rat} {n : Nat} (h0 : 0 ≤ q) (hn : q ≤ n) (h : (n : Rat) ≤ reach) :
    ∃ r, toRat? (ofRat q : α) = some r ∧ 0 ≤ r ∧ r ≤ n
  ofRat_near {q : Rat} (h : |q| ≤ reach) : IsNear (ofRat q : α) q ((|q| + 1) * roundOff)
  add_near {x y : α} {p q : Rat} (hx : toRat? x = some p) (hy : toRat? y = some q) (h : |p + q| ≤ reach) :
    IsNear (x + y) (p + q) (|p + q| * roundOff)
  sub_near {x y : α} {p q : Rat} (hx : toRat? x = some p) (hy : toRat? y = some q) (h : |p - q| ≤ reach) :
    IsNear (x - y) (p - q) (|p - q| * roundOff)
  mul_near {x y : α} {p q : Rat} (hx : toRat? x = some p) (hy : toRat? y = some q) (h : |p * q| ≤ reach) :
    IsNear (x * y) (p * q) ((|p * q| + 1) * roundOff)
  div_near {x y : α} {p q : Rat} (hx : toRat? x = some p) (hy : toRat? y = some q) (hq : q ≠ 0)
    (h : |p / q| ≤ reach) : IsNear (x / y) (p / q) ((|p / q| + 1) * roundOff)
  /-- A quotient that is below one is not one of numbers far apart. -/
  le_reach_of_div_lt_one {x y : α} {p q : Rat} (hx : toRat? x = some p) (hy : toRat? y = some q) (hp : 0 < p)
    (hq : 0 < q) (h : x / y < one) : p / q ≤ reach
  ofRat_two : toRat? (ofRat 2 : α) = some 2

instance : NearlyExact Rat where
  isNaN_of_toRat? _ := rfl
  lt_iff hx hy := by rw [Option.some.inj hx, Option.some.inj hy]
  le_iff hx hy := by rw [Option.some.inj hx, Option.some.inj hy]
  beq_iff hx hy := by rw [Option.some.inj hx, Option.some.inj hy, beq_iff_eq]
  zero_mul _ := congrArg some (zero_mul _)
  ofRat_mem h0 hn _ := ⟨_, rfl, h0, hn⟩
  ofRat_near _ := (Scalar.IsNear.of_eq rfl).mono (mul_nonneg (by positivity) roundOff_nonneg)
  add_near hx hy _ := by
    obtain ⟨rfl, rfl⟩ := And.intro (Option.some.inj hx) (Option.some.inj hy)
    exact (Scalar.IsNear.of_eq rfl).mono (mul_nonneg (abs_nonneg _) roundOff_nonneg)
  sub_near hx hy _ := by
    obtain ⟨rfl, rfl⟩ := And.intro (Option.some.inj hx) (Option.some.inj hy)
    exact (Scalar.IsNear.of_eq rfl).mono (mul_nonneg (abs_nonneg _) roundOff_nonneg)
  mul_near hx hy _ := by
    obtain ⟨rfl, rfl⟩ := And.intro (Option.some.inj hx) (Option.some.inj hy)
    exact (Scalar.IsNear.of_eq rfl).mono (mul_nonneg (by positivity) roundOff_nonneg)
  div_near hx hy _ _ := by
    obtain ⟨rfl, rfl⟩ := And.intro (Option.some.inj hx) (Option.some.inj hy)
    exact (Scalar.IsNear.of_eq rfl).mono (mul_nonneg (by positivity) roundOff_nonneg)
  le_reach_of_div_lt_one hx hy _ _ h := by
    obtain ⟨rfl, rfl⟩ := And.intro (Option.some.inj hx) (Option.some.inj hy)
    exact h.le.trans (by norm_num [reach])
  ofRat_two := rfl

namespace Scalar

/-- The exact value of a finite number, zero for the others. -/
def toRat {α : Type} [Scalar α] (x : α) : Rat := (toRat? x).getD 0

theorem toRat_of {α : Type} [Scalar α] {x : α} {q : Rat} (h : toRat? x = some q) : toRat x = q := by
  rw [toRat, h, Option.getD_some]

theorem toRat?_of_isFinite {α : Type} [Scalar α] {x : α} (h : isFinite x = true) : toRat? x = some (toRat x) := by
  obtain ⟨q, hq⟩ := Option.isSome_iff_exists.mp h
  rw [toRat, hq, Option.getD_some]

theorem IsNear.abs_toRat_le {α : Type} [Scalar α] {x : α} {q e : Rat} (h : IsNear x q e) : |toRat x - q| ≤ e := by
  obtain ⟨r, hx, hr⟩ := h
  rwa [toRat_of hx]

theorem IsNear.isFinite {α : Type} [Scalar α] {x : α} {q e : Rat} (h : IsNear x q e) : Scalar.isFinite x = true := by
  obtain ⟨r, hx, -⟩ := h
  rw [Scalar.isFinite, hx]
  rfl

variable {α : Type} [Scalar α] [NearlyExact α] {x y : α} {p q : Rat}

theorem toRat?_zero : toRat? (zero : α) = some 0 := by
  obtain ⟨r, hr, h0, hr0⟩ :=
    NearlyExact.ofRat_mem (α := α) (q := 0) (n := 0) le_rfl Nat.cast_zero.ge (by norm_num [reach])
  rw [Nat.cast_zero] at hr0
  rw [← le_antisymm hr0 h0]
  exact hr

/-- What is not zero carries a minus sign just if it is below zero. -/
theorem isNegative_iff (hx : toRat? x = some q) (hq : q ≠ 0) : isNegative x = true ↔ q < 0 := by
  have hbeq : ¬ (x == zero) = true := fun h => hq ((NearlyExact.beq_iff hx toRat?_zero).mp h)
  unfold isNegative
  rw [Bool.eq_false_of_not_eq_true hbeq, Bool.false_and, Bool.or_false, decide_eq_true_iff]
  exact NearlyExact.lt_iff hx toRat?_zero

theorem toRat?_least (hx : toRat? x = some p) (hy : toRat? y = some q) : toRat? (least x y) = some (least p q) := by
  unfold least
  rw [apply_ite toRat?, hx, hy, apply_ite some]
  exact if_congr (NearlyExact.lt_iff hy hx) rfl rfl

theorem toRat?_greatest (hx : toRat? x = some p) (hy : toRat? y = some q) :
    toRat? (greatest x y) = some (greatest p q) := by
  unfold greatest
  rw [apply_ite toRat?, hx, hy, apply_ite some]
  exact if_congr (NearlyExact.lt_iff hx hy) rfl rfl

theorem toRat?_lower (hx : toRat? x = some p) (hy : toRat? y = some q) : toRat? (lower x y) = some (lower p q) := by
  unfold lower
  rw [NearlyExact.isNaN_of_toRat? hx, NearlyExact.isNaN_of_toRat? hy]
  exact toRat?_least hx hy

theorem toRat?_upper (hx : toRat? x = some p) (hy : toRat? y = some q) : toRat? (upper x y) = some (upper p q) := by
  unfold upper
  rw [NearlyExact.isNaN_of_toRat? hx, NearlyExact.isNaN_of_toRat? hy]
  exact toRat?_greatest hx hy

omit [NearlyExact α] in
theorem toRat?_foldl {f : α → α → α} {g : Rat → Rat → Rat}
    (hfg : ∀ {x y p q}, toRat? x = some p → toRat? y = some q → toRat? (f x y) = some (g p q)) {xs : List α}
    {ps : List Rat} (h : List.Forall₂ (fun x p => toRat? x = some p) xs ps) (hx : toRat? x = some p) :
    toRat? (xs.foldl f x) = some (ps.foldl g p) := by
  induction h generalizing x p with
  | nil => exact hx
  | cons hy _ ih => exact ih (hfg hx hy)

/-- A number that is rounded to one between zero and the length of a side is found there. -/
theorem toRat?_roundTo_of_rounded {n places : Nat} (hn : (n : Rat) ≤ reach) (hx : toRat? x = some q)
    (h : 0 ≤ roundRat places q ∧ roundRat places q ≤ n) :
    ∃ r, toRat? (roundTo places x) = some r ∧ 0 ≤ r ∧ r ≤ n := by
  unfold roundTo
  rw [hx]
  dsimp only
  split_ifs
  · exact ⟨0, NearlyExact.zero_mul hx, le_rfl, Nat.cast_nonneg n⟩
  · exact NearlyExact.ofRat_mem h.1 h.2 hn

/-- Rounding a number between zero and the length of a side keeps it there. -/
theorem toRat?_roundTo_mem {n : Nat} (hn : (n : Rat) ≤ reach) (places : Nat) (hx : toRat? x = some q) (h0 : 0 ≤ q)
    (hq : q ≤ n) : ∃ r, toRat? (roundTo places x) = some r ∧ 0 ≤ r ∧ r ≤ n :=
  toRat?_roundTo_of_rounded hn hx (roundRat_mem h0 hq)

/-! ## Computing with what is off -/

variable {d e a b : Rat}

theorem ofRat_near (h : |q| ≤ reach) : IsNear (ofRat q : α) q hair :=
  (NearlyExact.ofRat_near h).mono (mul_roundOff_le_hair (by linarith))

/-- Sums of numbers that are off by something are off by as much together, and by a hair. -/
theorem IsNear.add (hx : IsNear x p d) (hy : IsNear y q e) (h : |p + q| + (d + e) ≤ reach) :
    IsNear (x + y) (p + q) (hair + (d + e)) := by
  obtain ⟨r, hr, hrp⟩ := hx
  obtain ⟨s, hs, hsq⟩ := hy
  have hoff : |r + s - (p + q)| ≤ d + e := by
    rw [add_sub_add_comm]
    exact (abs_add_le _ _).trans (add_le_add hrp hsq)
  have hreach : |r + s| ≤ reach := by linarith [abs_sub_abs_le_abs_sub (r + s) (p + q)]
  exact ((NearlyExact.add_near hr hs hreach).mono (mul_roundOff_le_hair (by linarith))).trans hoff

theorem IsNear.sub (hx : IsNear x p d) (hy : IsNear y q e) (h : |p - q| + (d + e) ≤ reach) :
    IsNear (x - y) (p - q) (hair + (d + e)) := by
  obtain ⟨r, hr, hrp⟩ := hx
  obtain ⟨s, hs, hsq⟩ := hy
  have hoff : |r - s - (p - q)| ≤ d + e := by
    rw [sub_sub_sub_comm]
    exact (abs_sub _ _).trans (add_le_add hrp hsq)
  have hreach : |r - s| ≤ reach := by linarith [abs_sub_abs_le_abs_sub (r - s) (p - q)]
  exact ((NearlyExact.sub_near hr hs hreach).mono (mul_roundOff_le_hair (by linarith))).trans hoff

theorem IsNear.mul (hx : IsNear x p d) (hy : IsNear y q e) (hp : |p| ≤ a) (hq : |q| ≤ b)
    (h : (a + d) * (b + e) ≤ reach) : IsNear (x * y) (p * q) (hair + (d * (b + e) + a * e)) := by
  have hd := hx.nonneg
  have he := hy.nonneg
  obtain ⟨r, hr, hrp⟩ := hx
  obtain ⟨s, hs, hsq⟩ := hy
  have hr' : |r| ≤ a + d := by linarith [abs_sub_abs_le_abs_sub r p]
  have hs' : |s| ≤ b + e := by linarith [abs_sub_abs_le_abs_sub s q]
  have hoff : |r * s - p * q| ≤ d * (b + e) + a * e := by
    have hsplit : r * s - p * q = (r - p) * s + p * (s - q) := by ring
    rw [hsplit]
    refine (abs_add_le _ _).trans (add_le_add ?_ ?_) <;> rw [abs_mul]
    · exact mul_le_mul hrp hs' (abs_nonneg _) hd
    · exact mul_le_mul hp hsq (abs_nonneg _) ((abs_nonneg _).trans hp)
  have hreach : |r * s| ≤ reach := by
    rw [abs_mul]
    exact (mul_le_mul hr' hs' (abs_nonneg _) ((abs_nonneg _).trans hr')).trans h
  exact ((NearlyExact.mul_near hr hs hreach).mono (mul_roundOff_le_hair (by linarith))).trans hoff

theorem IsNear.half (hx : IsNear x p d) (h : |p| + d ≤ reach) : IsNear (x / ofRat 2) (p / 2) (hair + d / 2) := by
  obtain ⟨r, hr, hrp⟩ := hx
  have hoff : |r / 2 - p / 2| ≤ d / 2 := by
    rw [← sub_div, abs_div, abs_two]
    exact div_le_div_of_nonneg_right hrp zero_le_two
  have hreach : |r / 2| ≤ reach := by
    rw [abs_div, abs_two]
    linarith [abs_sub_abs_le_abs_sub r p, abs_nonneg r]
  have hdiv := NearlyExact.div_near hr NearlyExact.ofRat_two two_ne_zero hreach
  exact (hdiv.mono (mul_roundOff_le_hair (by linarith))).trans hoff

/-- The larger of two numbers is off by no more than they are. -/
theorem IsNear.greatest (hx : IsNear x p e) (hy : IsNear y q e) : IsNear (Scalar.greatest x y) (max p q) e := by
  obtain ⟨r, hr, hrp⟩ := hx
  obtain ⟨s, hs, hsq⟩ := hy
  refine ⟨_, toRat?_greatest hr hs, ?_⟩
  rw [greatest_exact]
  exact (abs_max_sub_max_le_max r s p q).trans (max_le hrp hsq)

end Scalar

end Drawing
