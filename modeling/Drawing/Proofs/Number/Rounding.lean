import Drawing.Number.Exact
import Mathlib.Algebra.Order.Ring.Rat
import Mathlib.Data.Rat.Lemmas
import Mathlib.Tactic.FieldSimp
import Mathlib.Tactic.Linarith
import Mathlib.Tactic.Positivity
import Mathlib.Tactic.Ring

/-!
# `Drawing/Proofs/Number/Rounding.lean` — rounding keeps whole bounds

Rounding to decimals moves a number by half a unit of its last place at most, and whole numbers are multiples of
that unit. So a number between zero and a whole number is still between the two once it is rounded. Sums of rounded
numbers are multiples of the unit as well, so it takes a whole unit for one to come out on the wrong side.
-/

namespace Drawing

/-- A quotient that is at most a whole number is so after rounding. -/
theorem nearestNat_le {n d N : Nat} (hd : 0 < d) (h : n ≤ N * d) : nearestNat n d ≤ N := by
  simp only [nearestNat]
  have hq : n / d ≤ N := Nat.div_le_of_le_mul (by rwa [Nat.mul_comm])
  rcases Nat.lt_or_eq_of_le hq with hlt | heq
  · have hparity : n / d % 2 ≤ 1 := Nat.le_of_lt_succ (Nat.mod_lt _ (by decide))
    split_ifs <;> omega
  · -- nothing is left to be rounded up
    have hmod : n % d = 0 := by
      have hdm := Nat.div_add_mod n d
      rw [heq, Nat.mul_comm] at hdm
      omega
    rw [if_pos (by omega)]
    exact heq.le

/-- A quotient is rounded by a half at most. -/
theorem abs_nearestNat_sub_le {n d : Nat} (hd : 0 < d) : |(nearestNat n d : Rat) - n / d| ≤ 1 / 2 := by
  have hpos : (0 : Rat) < d := by exact_mod_cast hd
  have hnear : 2 * nearestNat n d * d ≤ 2 * n + d ∧ 2 * n ≤ 2 * nearestNat n d * d + d := by
    have hdm := Nat.div_add_mod n d
    have hlt := Nat.mod_lt n hd
    simp only [nearestNat]
    generalize n / d = q at hdm ⊢
    generalize n % d = r at hdm hlt ⊢
    have hdown : 2 * q * d = 2 * (d * q) := by ring
    have hup : 2 * (q + 1) * d = 2 * (d * q) + 2 * d := by ring
    split_ifs
    · rw [hdown]
      omega
    · rw [hup]
      omega
    · rcases Nat.mod_two_eq_zero_or_one q with heven | hodd
      · rw [heven, Nat.add_zero, hdown]
        omega
      · rw [hodd, hup]
        omega
  have hlow : 2 * (nearestNat n d : Rat) * d ≤ 2 * n + d := by exact_mod_cast hnear.1
  have hhigh : 2 * (n : Rat) ≤ 2 * nearestNat n d * d + d := by exact_mod_cast hnear.2
  rw [abs_sub_le_iff, sub_le_iff_le_add, sub_le_iff_le_add, div_le_iff₀ hpos, ← sub_le_iff_le_add', le_div_iff₀ hpos]
  constructor <;> linarith

/-- Of two whole numbers that are as near to a quotient it is rounded to the even one. -/
theorem even_nearestNat {n d : Nat} (hd : 0 < d) (htie : |(nearestNat n d : Rat) - n / d| = 1 / 2) :
    Even (nearestNat n d) := by
  have hpos : (0 : Rat) < d := by exact_mod_cast hd
  have hsplit : (n : Rat) / d = (n / d : Nat) + (n % d : Nat) / (d : Rat) := by
    rw [add_div_eq_mul_add_div _ _ hpos.ne', div_left_inj' hpos.ne', mul_comm]
    exact_mod_cast (Nat.div_add_mod n d).symm
  simp only [nearestNat] at htie ⊢
  rw [hsplit] at htie
  have hlt : ((n % d : Nat) : Rat) < d := by exact_mod_cast Nat.mod_lt n hd
  generalize n / d = q at htie ⊢
  generalize n % d = r at htie hlt ⊢
  split_ifs at htie ⊢ with hdown hup
  · -- it is nearer to the whole number below
    have hdown : (2 : Rat) * r < d := by exact_mod_cast hdown
    rw [sub_add_cancel_left, abs_neg, abs_of_nonneg (by positivity), div_eq_iff hpos.ne'] at htie
    linarith
  · -- it is nearer to the whole number above
    have hup : (d : Rat) < 2 * r := by exact_mod_cast hup
    have hrest : 0 ≤ 1 - (r : Rat) / d := sub_nonneg.mpr ((div_le_one hpos).mpr hlt.le)
    rw [Nat.cast_add, Nat.cast_one, add_sub_add_left_eq_sub, abs_of_nonneg hrest, sub_eq_iff_eq_add,
      ← sub_eq_iff_eq_add', eq_div_iff hpos.ne'] at htie
    linarith
  · rcases Nat.mod_two_eq_zero_or_one q with heven | hodd
    · rw [heven]
      exact Nat.even_iff.mpr heven
    · rw [hodd]
      exact Nat.even_iff.mpr (by omega)

/-- Numbers below zero are rounded as far as those above. -/
theorem abs_nearestInt_sub (q : Rat) :
    |(nearestInt q : Rat) - q| = |(nearestNat q.num.natAbs q.den : Rat) - (q.num.natAbs : Nat) / (q.den : Nat)| := by
  have habs : (q.num.natAbs : Rat) / q.den = |q| := by
    rw [Nat.cast_natAbs, Int.cast_abs]
    nth_rewrite 3 [← Rat.num_div_den q]
    rw [abs_div, Nat.abs_cast]
  rw [habs]
  unfold nearestInt
  dsimp only
  split_ifs with hneg
  · rw [abs_of_neg (Rat.num_neg.mp hneg), Int.cast_neg, Int.cast_natCast, ← abs_neg]
    congr 1
    ring
  · rw [abs_of_nonneg (Rat.num_nonneg.mp (not_lt.mp hneg))]
    rfl

/-- Rounding to a whole number moves a number by a half at most. -/
theorem abs_nearestInt_sub_le (q : Rat) : |(nearestInt q : Rat) - q| ≤ 1 / 2 :=
  (abs_nearestInt_sub q).trans_le (abs_nearestNat_sub_le q.den_pos)

/-- A number in the middle between two whole numbers is rounded to the even one. -/
theorem even_nearestInt {q : Rat} (htie : |(nearestInt q : Rat) - q| = 1 / 2) : Even (nearestInt q) := by
  have heven := (Int.even_coe_nat _).mpr (even_nearestNat q.den_pos ((abs_nearestInt_sub q).symm.trans htie))
  unfold nearestInt
  dsimp only
  split_ifs
  · exact heven.neg
  · exact heven

/-- No other whole number is nearer, and none is as near unless the chosen one is even. -/
theorem nearestInt_nearest (q : Rat) {m : Int} (hm : m ≠ nearestInt q) :
    |(nearestInt q : Rat) - q| < |m - q| ∨ |(nearestInt q : Rat) - q| = |m - q| ∧ Even (nearestInt q) := by
  have hnear := abs_nearestInt_sub_le q
  have hapart : (1 : Rat) ≤ |(nearestInt q : Rat) - m| := by
    exact_mod_cast Int.one_le_abs (sub_ne_zero.mpr hm.symm)
  have htriangle := abs_sub_le (nearestInt q : Rat) q m
  rw [abs_sub_comm q] at htriangle
  rcases lt_or_ge |(nearestInt q : Rat) - q| |m - q| with hlt | hge
  · exact .inl hlt
  -- two whole numbers are as near only to the middle between them
  · exact .inr ⟨by linarith, even_nearestInt (by linarith)⟩

/-- A quotient is rounded up from zero behind the half, which itself goes to zero. -/
theorem nearestNat_pos_iff {n d : Nat} (hd : 0 < d) : 0 < nearestNat n d ↔ d < 2 * n := by
  simp only [nearestNat]
  rcases Nat.lt_or_ge n d with hlt | hle
  · rw [Nat.div_eq_of_lt hlt, Nat.mod_eq_of_lt hlt]
    split_ifs <;> omega
  · have hone : 1 ≤ n / d := (Nat.one_le_div_iff hd).mpr hle
    split_ifs <;> omega

theorem nearestInt_pos_iff {q : Rat} : 0 < nearestInt q ↔ 1 / 2 < q := by
  unfold nearestInt
  split_ifs with hneg
  · have hq : q < 0 := Rat.num_neg.mp hneg
    constructor
    · intro h
      exact absurd h (not_lt.mpr (neg_nonpos.mpr (Int.natCast_nonneg _)))
    · intro h
      linarith
  · have hcast : ((q.num.natAbs : Int) : Rat) = q * q.den := by
      rw [Int.natAbs_of_nonneg (not_lt.mp hneg), Rat.mul_den_eq_num]
    have hden : (0 : Rat) < q.den := Nat.cast_pos.mpr q.den_pos
    rw [Int.natCast_pos, nearestNat_pos_iff q.den_pos, div_lt_iff₀ two_pos, ← mul_lt_mul_iff_of_pos_right hden,
      one_mul, mul_right_comm, ← hcast]
    norm_cast
    rw [Nat.mul_comm]

/-- Rounding a quotient does not depend on how it is written. -/
theorem nearestNat_mul {k : Nat} (hk : 0 < k) (n d : Nat) : nearestNat (k * n) (k * d) = nearestNat n d := by
  have hlt (a b : Nat) : k * a < k * b ↔ a < b := Nat.mul_lt_mul_left hk
  simp only [nearestNat, Nat.mul_div_mul_left _ _ hk, Nat.mul_mod_mul_left, Nat.mul_left_comm 2 k, hlt]

/-- A quotient in lowest terms is written with less of both by one factor. -/
theorem exists_factor (n : Int) {d : Nat} (hd : 0 < d) {q : Rat} (hq : (n : Rat) / d = q) :
    ∃ k, 0 < k ∧ n.natAbs = k * q.num.natAbs ∧ d = k * q.den := by
  obtain ⟨c, hn, hd'⟩ := Rat.exists_eq_mul_div_num_and_eq_mul_div_den n (d := d) (by omega)
  rw [Int.cast_natCast, hq] at hn hd'
  have hc : 0 < c := by
    by_contra hc
    have hle : (d : Int) ≤ 0 := hd' ▸ Int.mul_nonpos_of_nonpos_of_nonneg (not_lt.mp hc) (Int.natCast_nonneg _)
    omega
  obtain ⟨k, rfl⟩ := Int.eq_ofNat_of_zero_le hc.le
  exact ⟨k, by omega, by simpa [Int.natAbs_mul] using congrArg Int.natAbs hn, by exact_mod_cast hd'⟩

theorem nearestInt_mul (q : Rat) {t : Nat} (ht : 0 < t) :
    nearestInt (q * t) = if q.num < 0 then -(nearestNat (q.num.natAbs * t) q.den : Int) else
      nearestNat (q.num.natAbs * t) q.den := by
  have hq : ((q.num * t : Int) : Rat) / q.den = q * t := by
    push_cast
    rw [mul_div_right_comm, Rat.num_div_den]
  obtain ⟨k, hk, hn, hd⟩ := exists_factor (q.num * t) q.den_pos hq
  rw [Int.natAbs_mul, Int.natAbs_natCast] at hn
  have hsign : q.num < 0 ↔ (q * t).num < 0 := by
    have hpos : (0 : Rat) < t := Nat.cast_pos.mpr ht
    rw [Rat.num_neg, Rat.num_neg, mul_comm, ← mul_lt_mul_iff_of_pos_left hpos, mul_zero]
  unfold nearestInt
  rw [hn, hd, nearestNat_mul hk]
  simp only [hsign]

theorem tenTo_pos (places : Nat) : 0 < tenTo places := Nat.pow_pos (by decide)

section

variable {places : Nat}

theorem cast_tenTo_pos (places : Nat) : (0 : Rat) < (tenTo places : Nat) := Nat.cast_pos.mpr (tenTo_pos places)

theorem roundRat_eq_div (q : Rat) :
    roundRat places q = nearestInt (q * (tenTo places : Nat)) / ((tenTo places : Nat) : Rat) :=
  Rat.mkRat_eq_div _ _

theorem tenTo_two : ((tenTo 2 : Nat) : Rat) = 100 := by norm_num [tenTo]

/-- Rounding keeps the order. -/
theorem roundRat_le_roundRat {p q : Rat} (h : p ≤ q) : roundRat places p ≤ roundRat places q := by
  rcases h.eq_or_lt with rfl | h
  · exact le_rfl
  have hten := cast_tenTo_pos places
  have hp := abs_sub_le_iff.mp (abs_nearestInt_sub_le (p * (tenTo places : Nat)))
  have hq := abs_sub_le_iff.mp (abs_nearestInt_sub_le (q * (tenTo places : Nat)))
  have hlt : p * (tenTo places : Nat) < q * (tenTo places : Nat) := mul_lt_mul_of_pos_right h hten
  have hle : nearestInt (p * (tenTo places : Nat)) < nearestInt (q * (tenTo places : Nat)) + 1 := by
    have hcast : (nearestInt (p * (tenTo places : Nat)) : Rat) < (nearestInt (q * (tenTo places : Nat)) : Rat) + 1 := by
      linarith
    exact_mod_cast hcast
  rw [roundRat_eq_div, roundRat_eq_div]
  exact div_le_div_of_nonneg_right (by exact_mod_cast Int.lt_add_one_iff.mp hle) hten.le

/-- A rounded number is at most the sum of two rounded ones if it is below their sum by more than half a unit of the
last place. -/
theorem roundRat_le_add {p q r : Rat} (h : r * (tenTo places : Nat) + 1 / 2 < (p + q) * (tenTo places : Nat)) :
    roundRat places r ≤ roundRat places p + roundRat places q := by
  have hten := cast_tenTo_pos places
  have hp := abs_sub_le_iff.mp (abs_nearestInt_sub_le (p * (tenTo places : Nat)))
  have hq := abs_sub_le_iff.mp (abs_nearestInt_sub_le (q * (tenTo places : Nat)))
  have hr := abs_sub_le_iff.mp (abs_nearestInt_sub_le (r * (tenTo places : Nat)))
  rw [add_mul] at h
  have hle : nearestInt (r * (tenTo places : Nat)) <
      nearestInt (p * (tenTo places : Nat)) + nearestInt (q * (tenTo places : Nat)) + 1 := by
    have hcast : (nearestInt (r * (tenTo places : Nat)) : Rat) <
        nearestInt (p * (tenTo places : Nat)) + nearestInt (q * (tenTo places : Nat)) + 1 := by linarith
    exact_mod_cast hcast
  rw [roundRat_eq_div, roundRat_eq_div, roundRat_eq_div, ← add_div]
  exact div_le_div_of_nonneg_right (by exact_mod_cast Int.lt_add_one_iff.mp hle) hten.le

theorem roundRat_pos_iff {q : Rat} : 0 < roundRat places q ↔ 1 / 2 < q * (tenTo places : Nat) := by
  rw [roundRat_eq_div, div_pos_iff_of_pos_right (cast_tenTo_pos places), Int.cast_pos, nearestInt_pos_iff]

theorem nearestInt_intCast (n : Int) : nearestInt n = n := by
  have hnearest (m : Nat) : nearestNat m 1 = m := by simp [nearestNat, Nat.mod_one]
  unfold nearestInt
  rw [Rat.num_intCast, Rat.den_intCast, hnearest]
  dsimp only
  split_ifs <;> omega

/-- Whole numbers are left as they are. -/
theorem roundRat_intCast (n : Int) : roundRat places (n : Rat) = n := by
  have hwhole : (n : Rat) * (tenTo places : Nat) = ((n * tenTo places : Int) : Rat) := by push_cast; rfl
  rw [roundRat_eq_div, hwhole, nearestInt_intCast, ← hwhole]
  exact mul_div_cancel_right₀ _ (cast_tenTo_pos places).ne'

theorem roundRat_natCast (n : Nat) : roundRat places (n : Rat) = n := by
  exact_mod_cast roundRat_intCast n

theorem roundRat_mem {n : Nat} {q : Rat} (h0 : 0 ≤ q) (hn : q ≤ n) :
    0 ≤ roundRat places q ∧ roundRat places q ≤ n := by
  have hzero : roundRat places 0 = 0 := roundRat_natCast 0
  have hlow : roundRat places 0 ≤ roundRat places q := roundRat_le_roundRat h0
  have hhigh : roundRat places q ≤ roundRat places n := roundRat_le_roundRat hn
  rw [hzero] at hlow
  rw [roundRat_natCast] at hhigh
  exact ⟨hlow, hhigh⟩

end

namespace Scalar

theorem roundTo_exact (places : Nat) (q : Rat) : roundTo places q = roundRat places q := by
  unfold roundTo
  rw [toRat?_exact]
  simp only [ofRat_exact, zero_exact]
  split_ifs with h
  · rw [h]
    exact zero_mul q
  · rfl

end Scalar

end Drawing
