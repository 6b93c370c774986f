import Drawing.Number.Arithmetic
import Drawing.Number.Exact
import Mathlib.Algebra.Order.Ring.Rat

/-!
# `Drawing/Proofs/Number/Exact.lean` — arithmetic that comes through

A numeral fails to be a scalar, or two of them to have a quotient, if a number is too large or divided by zero. Exact
numbers are never too large, so only the zero is left. The smaller and the greater of two are what they are in any
order.
-/

namespace Drawing

theorem Numeral.toScalar_exact (n : Numeral Rat) : n.toScalar = .ok n.value := by cases n <;> rfl

/-- Exact numbers have a quotient unless the second is zero. -/
theorem Numeral.exists_quotient_exact (a : Numeral Rat) {b : Numeral Rat} (hb : b.value ≠ 0) :
    ∃ q, a.quotient b = .ok q := by
  have hzero : ¬ (b.value == Scalar.zero) = true := by simpa using hb
  cases a with
  | real x => cases b <;> exact ⟨_, if_neg hzero⟩
  | whole m =>
    cases b with
    | real y => exact ⟨_, if_neg hzero⟩
    | whole n =>
      have hn : n ≠ 0 := by
        rintro rfl
        exact hb rfl
      exact ⟨mkRat m 1 / mkRat n 1, if_neg hn⟩

theorem Numeral.quotient_exact {a b : Nat} (hb : 0 < b) :
    (Numeral.whole a).quotient (.whole b) = .ok ((a : Rat) / b) := by
  have hne : (b : Int) ≠ 0 := by omega
  unfold quotient
  dsimp only
  rw [if_neg hne]
  have hq : (mkRat (a : Int) 1 / mkRat (b : Int) 1 : Rat) = (a : Rat) / b := by
    rw [Rat.mkRat_one, Rat.mkRat_one]
    rfl
  rw [hq]
  rfl

theorem Numeral.isAtMost_exact (a b : Numeral Rat) : a.isAtMost b = true ↔ a.value ≤ b.value := by
  cases a <;> cases b <;> exact decide_eq_true_iff

theorem Numeral.isBelow_exact (a b : Numeral Rat) : a.isBelow b = true ↔ a.value < b.value := by
  cases a <;> cases b <;> exact decide_eq_true_iff

theorem Numeral.isWithin_exact (x lo hi : Numeral Rat) :
    x.isWithin lo hi = true ↔ lo.value ≤ x.value ∧ x.value ≤ hi.value := by
  rw [isWithin, Bool.and_eq_true, isAtMost_exact, isAtMost_exact]

theorem Numeral.exists_plus_exact (a b : Numeral Rat) : ∃ c, a.plus b = .ok c := by
  cases a <;> cases b <;> exact ⟨_, rfl⟩

theorem Numeral.minus_exact (a b : Numeral Rat) : ∃ c, a.minus b = .ok c ∧ c.value = a.value - b.value := by
  cases a with
  | real x => cases b <;> exact ⟨_, rfl, rfl⟩
  | whole m =>
    cases b with
    | real y => exact ⟨_, rfl, rfl⟩
    | whole n => exact ⟨_, rfl, Int.cast_sub m n⟩

namespace Scalar

theorem least_exact (p q : Rat) : least p q = min p q := by
  rw [min_comm, min_def_lt, least]

theorem greatest_exact (p q : Rat) : greatest p q = max p q := by
  rw [max_def_lt, greatest]

end Scalar

/-- Whole numbers as text; of others the nearest whole one. -/
@[reducible] def DecimalText.whole : DecimalText Rat :=
  ⟨fun q => .finite (decide (q < 0)) (nearestNat q.num.natAbs q.den) 0⟩

end Drawing
