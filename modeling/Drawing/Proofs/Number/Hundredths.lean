import Drawing.Proofs.Number.NearlyExact
import Drawing.Proofs.Number.Printed

/-!
# `Drawing/Proofs/Number/Hundredths.lean` — hundredths read back

Two decimals are read as a quotient of whole numbers, and a rounded coordinate is a quotient in lowest terms. The
double that is nearest to a quotient is found by its numerator and its denominator, but does not depend on which of
them are taken.

> **a printed coordinate is read as the number nearest to it**, rounded to hundredths. It has a minus sign just if that
> is below zero.
-/

namespace Drawing

namespace Double

theorem exponentFor_eq {n d : Nat} {e : Int} (hn : n ≠ 0) (hd : 0 < d) (hleast : -1074 ≤ e)
    (hbelow : (n : Rat) < d * 2 ^ (e + 53)) (habove : e ≠ -1074 → (d : Rat) * 2 ^ (e + 52) ≤ n) :
    exponentFor n d = e := by
  obtain ⟨hleast', hbelow', habove'⟩ := exponentFor_bounds hn hd
  have hd' : (0 : Rat) < d := by exact_mod_cast hd
  have hlt {k k' : Int} (h : (d : Rat) * 2 ^ k ≤ n) (h' : (n : Rat) < d * 2 ^ k') : k < k' :=
    (zpow_lt_zpow_iff_right₀ (by norm_num)).mp (lt_of_mul_lt_mul_left (h.trans_lt h') hd'.le)
  rcases lt_trichotomy (exponentFor n d) e with hless | heq | hmore
  · have := hlt (habove (by omega)) hbelow'
    omega
  · exact heq
  · have := hlt (habove' (by omega)) hbelow
    omega

theorem exponentFor_mul {n d k : Nat} (hn : n ≠ 0) (hd : 0 < d) (hk : 0 < k) :
    exponentFor (k * n) (k * d) = exponentFor n d := by
  obtain ⟨hleast, hbelow, habove⟩ := exponentFor_bounds hn hd
  have hk' : (0 : Rat) < k := by exact_mod_cast hk
  refine exponentFor_eq (Nat.mul_ne_zero hk.ne' hn) (Nat.mul_pos hk hd) hleast ?_ fun hne => ?_
  · rw [Nat.cast_mul, Nat.cast_mul, mul_assoc]
    exact mul_lt_mul_of_pos_left hbelow hk'
  · rw [Nat.cast_mul, Nat.cast_mul, mul_assoc]
    exact mul_le_mul_of_nonneg_left (habove hne) hk'.le

/-- The double nearest to a quotient does not depend on how it is written. -/
theorem ofNatRatio_mul {n d k : Nat} (hd : 0 < d) (hk : 0 < k) : ofNatRatio (k * n) (k * d) = ofNatRatio n d := by
  by_cases hn : n = 0
  · simp [ofNatRatio, hn]
  unfold ofNatRatio
  rw [if_neg hn, if_neg (Nat.mul_ne_zero hk.ne' hn), exponentFor_mul hn hd hk]
  simp only [Nat.mul_assoc, nearestNat_mul hk]

theorem ofRat_mkRat (n : Nat) {d : Nat} (hd : 0 < d) : ofRat (mkRat n d) = ofNatRatio n d := by
  have hq : ((n : Int) : Rat) / d = mkRat n d := (Rat.mkRat_eq_div _ _).symm
  have hnonneg : 0 ≤ mkRat n d := by
    rw [← hq]
    positivity
  obtain ⟨k, hk, hn, hd'⟩ := exists_factor n hd hq
  rw [Int.natAbs_natCast] at hn
  unfold ofRat
  dsimp only
  rw [if_neg (not_lt.mpr (Rat.num_nonneg.mpr hnonneg)), ← ofNatRatio_mul (mkRat n d).den_pos hk, ← hn, ← hd']

theorem ofDecimal_hundredths (m : Nat) : ofDecimal m (-2) = ofRat (mkRat m (tenTo 2)) := by
  rw [ofRat_mkRat m (tenTo_pos 2)]
  by_cases hm : m = 0
  · simp [ofDecimal, ofNatRatio, hm]
  have hexponent : ¬ (0 : Int) ≤ -2 := by decide
  unfold ofDecimal
  dsimp only
  rw [if_neg hm, if_neg hexponent]
  split_ifs with hlarge hsmall
  · have hten : (tenTo 2).log2 = 6 := by decide
    exact (ofNatRatio_of_log2 (by omega)).symm
  · omega
  · rfl

theorem neg_ofRat {q : Rat} (h : 0 < q) : -ofRat q = ofRat (-q) := by
  unfold ofRat
  dsimp only
  rw [Rat.num_neg_eq_neg_num, Int.natAbs_neg, Rat.den_neg_eq_den, if_neg (not_lt.mpr (Rat.num_nonneg.mpr h.le)),
    if_pos (Int.neg_neg_of_pos (Rat.num_pos.mpr h))]

end Double

/-- Scalars for which two decimals are read as the number nearest to them, and a number below zero is nearest to what
its opposite is nearest to, with a minus sign. -/
class ReadsHundredths (α : Type) [Scalar α] : Prop extends ReadsWhole α where
  ofDecimal_hundredths (m : Nat) : (Scalar.ofDecimal m (-2) : α) = Scalar.ofRat (mkRat m (tenTo 2))
  neg_ofRat {q : Rat} (h : 0 < q) : -(Scalar.ofRat q : α) = Scalar.ofRat (-q)

instance : ReadsHundredths Float where
  ofDecimal_hundredths := Double.ofDecimal_hundredths
  neg_ofRat := Double.neg_ofRat

instance : ReadsHundredths Rat where
  ofDecimal_hundredths _ := rfl
  neg_ofRat _ := rfl

namespace Scalar

variable {α : Type} [Scalar α] {x : α} {q : Rat}

/-- A number rounded to hundredths, with its sign and its digits. -/
theorem roundRat_two (q : Rat) :
    roundRat 2 q = if q.num < 0 then -mkRat (nearestNat (q.num.natAbs * tenTo 2) q.den) (tenTo 2)
      else mkRat (nearestNat (q.num.natAbs * tenTo 2) q.den) (tenTo 2) := by
  unfold roundRat
  rw [nearestInt_mul _ (tenTo_pos 2)]
  split_ifs
  · exact (Rat.neg_mkRat _ _).symm
  · rfl

/-- Digits under a sign, when they are not zero under a minus. -/
theorem ofSigned_eq_ofRat [ReadsHundredths α] {n : Nat} {e : Int} {r : Rat} (hread : (ofDecimal n e : α) = ofRat r)
    (hr : 0 ≤ r) {negative : Bool} (hminus : negative = true → r ≠ 0) :
    (ofSigned negative n e : α) = ofRat (if negative = true then -r else r) := by
  unfold ofSigned
  rw [hread]
  cases negative with
  | false => rfl
  | true => exact ReadsHundredths.neg_ofRat (lt_of_le_of_ne hr (hminus rfl).symm)

/-- **What is read from the text of a coordinate** is the number nearest to it, rounded to hundredths. -/
theorem printed_of_toRat? [NearlyExact α] [ReadsHundredths α] (hx : toRat? x = some q) :
    printed x = ofRat (roundRat 2 q) := by
  unfold printed
  rw [hx]
  dsimp only
  split_ifs with hwhole hzero
  · obtain ⟨z, rfl⟩ : ∃ z : Int, (z : Rat) = q := ⟨q.num, Rat.coe_int_num_of_den_eq_one hwhole⟩
    rw [Rat.num_intCast, roundRat_intCast, ofSigned_eq_ofRat (ReadsWhole.ofDecimal_whole _) (Nat.cast_nonneg _)]
    · have hz : (if decide (z < 0) = true then -((z.natAbs : Nat) : Rat) else (z.natAbs : Nat)) = z := by
        rw [Nat.cast_natAbs, Int.cast_abs]
        split_ifs with hneg
        · rw [abs_of_neg (by exact_mod_cast of_decide_eq_true hneg), neg_neg]
        · rw [abs_of_nonneg (by exact_mod_cast not_lt.mp (mt decide_eq_true hneg))]
      rw [hz]
    · intro hneg habs
      have hneg := of_decide_eq_true hneg
      rw [Nat.cast_eq_zero] at habs
      omega
  · rw [hzero]
    exact ReadsWhole.ofDecimal_whole 0
  · have hq : q ≠ 0 := by
      rintro rfl
      exact hzero (roundRat_natCast 0)
    rw [roundRat_two] at hzero ⊢
    rw [ofSigned_eq_ofRat (ReadsHundredths.ofDecimal_hundredths _)]
    · simp only [isNegative_iff hx hq, Rat.num_neg]
    · rw [Rat.mkRat_eq_div]
      positivity
    · rintro - hr
      simp [hr] at hzero

/-- What is read from the text of an exact coordinate is the coordinate, rounded to hundredths. -/
theorem printed_exact (q : Rat) : printed q = roundRat 2 q := printed_of_toRat? (toRat?_exact q)

end Scalar

end Drawing
