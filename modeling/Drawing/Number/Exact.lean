import Drawing.Number.Rounding

/-!
# `Drawing/Number/Exact.lean` — rationals as scalars

The rationals are the scalars that laws are stated on: every value is finite and is its own nearest
rational, no value is not-a-number, and a minus sign means below zero. Here each question that can be
asked of a scalar is answered for the rationals, and the one fact every bound on a drawing goes back to
is proved:

> **clamping lands in the interval** — `lo ≤ clamp lo hi x ≤ hi` — and keeps what is there already.
-/

namespace Drawing

instance Scalar.exact : Scalar Rat where
  toAdd := Rat.instAdd
  toSub := Rat.instSub
  toMul := Rat.instMul
  toDiv := Rat.instDiv
  toNeg := Rat.instNeg
  toLT := Rat.instLT
  toLE := Rat.instLE
  toBEq := instBEqOfDecidableEq
  decLt := fun a b => inferInstanceAs (Decidable (a < b))
  decLe := fun a b => inferInstanceAs (Decidable (a ≤ b))
  ofRat q := q
  ofDecimal m e := if 0 ≤ e then (m * tenTo e.toNat : Nat) else mkRat m (tenTo (-e).toNat)
  toRat? := some
  isNaN _ := false

namespace Scalar

@[simp] theorem ofRat_exact (q : Rat) : (ofRat q : Rat) = q := rfl

@[simp] theorem toRat?_exact (q : Rat) : toRat? q = some q := rfl

@[simp] theorem isNaN_exact (q : Rat) : isNaN q = false := rfl

@[simp] theorem isFinite_exact (q : Rat) : isFinite q = true := rfl

@[simp] theorem zero_exact : (zero : Rat) = 0 := rfl

@[simp] theorem one_exact : (one : Rat) = 1 := rfl

/-- The reciprocal of zero is zero, so zero carries no minus sign. -/
@[simp] theorem isNegative_exact (q : Rat) : isNegative q = true ↔ q < 0 := by
  unfold isNegative
  rw [Bool.or_eq_true, Bool.and_eq_true, decide_eq_true_iff, decide_eq_true_iff, beq_iff_eq]
  constructor
  · rintro (h | ⟨rfl, h⟩)
    · exact h
    · exact absurd h (by rw [zero_exact, one_exact]; decide +kernel)
  · exact .inl

/-! ## Clamping -/

/-- On the rationals the not-a-number cases of clamping fall away. -/
theorem clamp_exact (lo hi x : Rat) : clamp lo hi x = least (greatest x lo) hi := rfl

theorem le_clamp {lo hi : Rat} (h : lo ≤ hi) (x : Rat) : lo ≤ clamp lo hi x := by
  rw [clamp_exact, least]
  split
  · exact h
  · rw [greatest]
    split
    · exact Rat.le_refl
    · next hx => exact Rat.not_lt.1 hx

theorem clamp_le (lo hi x : Rat) : clamp lo hi x ≤ hi := by
  rw [clamp_exact, least]
  split
  · exact Rat.le_refl
  · next hx => exact Rat.not_lt.1 hx

end Scalar

end Drawing
