import Drawing.Proofs.Number.Held
import Drawing.Proofs.Number.NearlyExact

/-!
# `Drawing/Proofs/Number/RoundOff.lean` — what doubles are off by

An operation on doubles makes a mantissa and an exponent of the exact result, cuts the mantissa off behind 53 digits,
and rounds. Whichever way it rounds, it stays within one unit of the last digit that is kept.

> **sums, differences, products and quotients of doubles** are off by one part in `2 ^ 52` of the exact result at most,
> as long as that is not too large — and, if they have to be scaled down to the least exponent, by one unit there.
-/

namespace Drawing

namespace Double

open Float.Model Float.Model.UnpackedFloat

/-! ## Cutting off digits -/

theorem mantissa_shiftRight (em : ExtendedMantissa) (k : Nat) : (em >>> k).mantissa = em.mantissa / 2 ^ k := by
  induction k with
  | zero => exact (Nat.div_one _).symm
  | succ k ih =>
    show (em >>> k).mantissa / 2 = _
    rw [ih, Nat.div_div_eq_div_mul, Nat.pow_succ]

theorem mantissa_ofMantissaAndAccuracy (m : Nat) (a : Accuracy) :
    (ExtendedMantissa.ofMantissaAndAccuracy m a).mantissa = m := by
  cases a with
  | exact => rfl
  | inexact o => cases o <;> rfl

/-- A mantissa is rounded down or up. -/
theorem roundedMantissa_mem (em : ExtendedMantissa) :
    em.mantissa ≤ em.roundedMantissa ∧ em.roundedMantissa ≤ em.mantissa + 1 := by
  have hparity : em.mantissa % 2 < 2 := Nat.mod_lt _ (by decide)
  obtain ⟨m, round, sticky⟩ := em
  cases round <;> cases sticky <;>
    simp only [ExtendedMantissa.roundedMantissa, ExtendedMantissa.accuracy, Accuracy.roundToNearestEven] at * <;> omega

/-- The exponent with which a mantissa has 53 digits, or the least one there is. -/
def exponentOf (m : Nat) (e : Int) : Int := max (m.log2 + 1 + e - 53) (-1074)

/-- A mantissa of at most 53 digits is kept, but for the one that has come to have 54 by being rounded. -/
theorem shift_rounded {n : Nat} {e : Int} (hn : n ≤ 2 ^ 53) (he : -1074 ≤ e) :
    ((shiftToTargetExponent .binary64 n e .exact).1.mantissa, (shiftToTargetExponent .binary64 n e .exact).2) =
      if n < 2 ^ 53 then (n, e) else (2 ^ 52, e + 1) := by
  have hshift : ((shiftToTargetExponent .binary64 n e .exact).1.mantissa,
      (shiftToTargetExponent .binary64 n e .exact).2) =
      (n / 2 ^ (exponentOf n e - e).toNat, e + (exponentOf n e - e).toNat) :=
    Prod.ext (mantissa_shiftRight _ _) rfl
  rw [hshift]
  split_ifs with hsmall
  · have hlog : n.log2 ≤ 52 := by
      rcases Nat.eq_zero_or_pos n with rfl | hpos
      · decide
      · have := (Nat.log2_lt hpos.ne').mpr hsmall
        omega
    have hkeep : (exponentOf n e - e).toNat = 0 := by
      unfold exponentOf
      omega
    rw [hkeep, Nat.pow_zero, Nat.div_one, Nat.cast_zero, add_zero]
  · obtain rfl : n = 2 ^ 53 := by omega
    have hone : (exponentOf (2 ^ 53) e - e).toNat = 1 := by
      unfold exponentOf
      rw [Nat.log2_two_pow]
      omega
    rw [hone]
    rfl

/-- The digits that are kept of a mantissa. -/
theorem kept_bounds {m : Nat} {e : Int} (he : e ≤ exponentOf m e) :
    m / 2 ^ (exponentOf m e - e).toNat < 2 ^ 53 ∧
      (exponentOf m e ≠ -1074 → 2 ^ 52 ≤ m / 2 ^ (exponentOf m e - e).toNat) := by
  have hlt : m < 2 ^ (m.log2 + 1) := Nat.lt_log2_self
  generalize hk : (exponentOf m e - e).toNat = k
  unfold exponentOf at he hk ⊢
  constructor
  · rw [Nat.div_lt_iff_lt_mul (Nat.two_pow_pos k), ← Nat.pow_add]
    exact hlt.trans_le (Nat.pow_le_pow_right (by decide) (by omega))
  · intro hnormal
    have hne : m ≠ 0 := by
      rintro rfl
      have hzero : (0 : Nat).log2 = 0 := by decide
      omega
    rw [Nat.le_div_iff_mul_le (Nat.two_pow_pos k), ← Nat.pow_add]
    exact (Nat.pow_le_pow_right (by decide) (by omega)).trans (Nat.log2_self_le hne)

/-- A mantissa of a double under a sign; none is zero. -/
def ofParts (s : Sign) (n : Nat) (e : Int) : UnpackedFloat :=
  if h : n = 0 then .zero s else .finite s n e (Nat.pos_of_ne_zero h)

theorem holds_ofParts (s : Sign) {n : Nat} {e : Int} (h : IsParts n e) (he : e ≤ 971) :
    Holds (ofParts s n e) (signed s (n * 2 ^ e)) := by
  by_cases hn : n = 0
  · have hzero : signed s ((n : Nat) * 2 ^ e) = 0 := by cases s <;> simp [signed, hn]
    rw [ofParts, dif_pos hn, hzero]
    exact .zero s
  · rw [ofParts, dif_neg hn]
    exact .finite s _ h he

/-- A mantissa that is rounded up to a power of two gets one digit less and the next exponent. -/
theorem carry_eq (e : Int) : ((2 ^ 53 : Nat) : Rat) * 2 ^ e = ((2 ^ 52 : Nat) : Rat) * 2 ^ (e + 1) := by
  rw [zpow_add_one₀ (by norm_num)]
  push_cast
  ring

/-- A rounded mantissa makes a double of the same value, whether it has got one digit more or not. -/
theorem holds_shifted (s : Sign) {n : Nat} {e : Int} (hn : n ≤ 2 ^ 53) (hleast : -1074 ≤ e) (he : e ≤ 970)
    (hnormal : e ≠ -1074 → 2 ^ 52 ≤ n) :
    Holds (ofParts s (shiftToTargetExponent .binary64 n e .exact).1.mantissa
      (shiftToTargetExponent .binary64 n e .exact).2) (signed s (n * 2 ^ e)) := by
  have hshift := shift_rounded hn hleast
  split_ifs at hshift with hlt
  · obtain ⟨hmantissa, hexponent⟩ := Prod.mk.inj hshift
    rw [hmantissa, hexponent]
    exact holds_ofParts s ⟨hlt, hleast, hnormal⟩ (by omega)
  · obtain ⟨hmantissa, hexponent⟩ := Prod.mk.inj hshift
    obtain rfl : n = 2 ^ 53 := by omega
    rw [hmantissa, hexponent, carry_eq]
    exact holds_ofParts s ⟨by decide, by omega, fun _ => Nat.le_refl _⟩ (by omega)

/-- Rounding comes to one of the two mantissas around the digits that are kept. -/
theorem exists_shifted {m : Nat} {e : Int} (a : Accuracy) (s : Sign) (he : e ≤ exponentOf m e) :
    ∃ n, roundWithAccuracy .binary64 s m e a =
      ofParts s (shiftToTargetExponent .binary64 n (exponentOf m e) .exact).1.mantissa
        (shiftToTargetExponent .binary64 n (exponentOf m e) .exact).2 ∧
      m / 2 ^ (exponentOf m e - e).toNat ≤ n ∧ n ≤ m / 2 ^ (exponentOf m e - e).toNat + 1 ∧
      (a = .exact → e = exponentOf m e → n = m) := by
  obtain ⟨em, hem⟩ : ∃ em, em = ExtendedMantissa.ofMantissaAndAccuracy m a >>> (exponentOf m e - e).toNat := ⟨_, rfl⟩
  have hmantissa : em.mantissa = m / 2 ^ (exponentOf m e - e).toNat := by
    rw [hem, mantissa_shiftRight, mantissa_ofMantissaAndAccuracy]
  have hexponent : e + ((exponentOf m e - e).toNat : Int) = exponentOf m e := by omega
  have hround : roundWithAccuracy .binary64 s m e a =
      ofParts s (shiftToTargetExponent .binary64 em.roundedMantissa (e + (exponentOf m e - e).toNat) .exact).1.mantissa
        (shiftToTargetExponent .binary64 em.roundedMantissa (e + (exponentOf m e - e).toNat) .exact).2 := by
    rw [hem]
    rfl
  rw [hexponent] at hround
  obtain ⟨hdown, hup⟩ := roundedMantissa_mem em
  refine ⟨em.roundedMantissa, hround, hmantissa ▸ hdown, hmantissa ▸ hup, ?_⟩
  rintro rfl hkeep
  have hnone : (exponentOf m e - e).toNat = 0 := by omega
  rw [hem, hnone]
  rfl

/-- **Rounding** comes to a mantissa within one unit of what is rounded, and changes nothing if there is nothing to be
cut off. -/
theorem exists_rounded {m : Nat} {e : Int} (a : Accuracy) {v : Rat} (s : Sign) (he : e ≤ exponentOf m e)
    (hsmall : exponentOf m e ≤ 970) (hlow : m * 2 ^ e ≤ v) (hhigh : v ≤ (m + 1) * 2 ^ e) :
    ∃ n : Nat, Holds (roundWithAccuracy .binary64 s m e a) (signed s (n * 2 ^ exponentOf m e)) ∧
      |n * 2 ^ exponentOf m e - v| ≤ 2 ^ exponentOf m e ∧ (a = .exact → e = exponentOf m e → n = m) := by
  have hleast : -1074 ≤ exponentOf m e := le_max_right _ _
  have hexponent : e + ((exponentOf m e - e).toNat : Int) = exponentOf m e := by omega
  obtain ⟨hkept, hnormal⟩ := kept_bounds he
  obtain ⟨n, hround, hdown, hup, hkeep⟩ := exists_shifted a s he
  refine ⟨n, ?_, ?_, hkeep⟩
  · rw [hround]
    exact holds_shifted s (by omega) hleast hsmall fun hne => (hnormal hne).trans hdown
  · clear hround hkeep hnormal
    generalize (exponentOf m e - e).toNat = k at *
    have hu := two_zpow_pos e
    have hpow : (0 : Rat) < 2 ^ k := by positivity
    have hfloor : m / 2 ^ k * 2 ^ k ≤ m := Nat.div_mul_le_self _ _
    have hceil : m + 1 ≤ (m / 2 ^ k + 1) * 2 ^ k := by
      rw [Nat.add_one_mul]
      exact Nat.lt_div_mul_add (Nat.two_pow_pos k)
    generalize m / 2 ^ k = kept at *
    have hlow : (kept : Rat) * (2 ^ k * 2 ^ e) ≤ v := by
      rw [← mul_assoc]
      exact (mul_le_mul_of_nonneg_right (by exact_mod_cast hfloor) hu.le).trans hlow
    have hhigh : v ≤ ((kept : Rat) + 1) * (2 ^ k * 2 ^ e) := by
      rw [← mul_assoc]
      exact hhigh.trans (mul_le_mul_of_nonneg_right (by exact_mod_cast hceil) hu.le)
    rw [← hexponent, two_zpow_add]
    have hunit := (mul_pos hpow hu).le
    have hdown := mul_le_mul_of_nonneg_right (show (kept : Rat) ≤ n by exact_mod_cast hdown) hunit
    have hup := mul_le_mul_of_nonneg_right (show (n : Rat) ≤ kept + 1 by exact_mod_cast hup) hunit
    rw [abs_sub_le_iff]
    constructor <;> linarith

/-- A unit of the last digit is one part in `2 ^ 52` at most, unless it is the least one. -/
theorem unit_le {m : Nat} {e : Int} (he : e ≤ exponentOf m e) (hnormal : exponentOf m e ≠ -1074) :
    2 ^ exponentOf m e ≤ m * 2 ^ e * roundOff := by
  have hT : exponentOf m e = e + m.log2 - 52 := by
    unfold exponentOf at hnormal ⊢
    omega
  have hne : m ≠ 0 := by
    rintro rfl
    have hzero : (0 : Nat).log2 = 0 := by decide
    omega
  have hdigits : (2 : Rat) ^ m.log2 ≤ m := by exact_mod_cast Nat.log2_self_le hne
  calc (2 : Rat) ^ exponentOf m e = 2 ^ m.log2 * 2 ^ e * roundOff := by
        rw [hT, zpow_sub₀ (by norm_num), two_zpow_add, roundOff, mul_one_div]
        rfl
    _ ≤ m * 2 ^ e * roundOff :=
        mul_le_mul_of_nonneg_right (mul_le_mul_of_nonneg_right hdigits (two_zpow_pos e).le) roundOff_nonneg

/-- What is not too large has no large exponent. -/
theorem exponentOf_le {m : Nat} {e : Int} (he : e ≤ exponentOf m e) (hreach : m * 2 ^ e ≤ reach) :
    exponentOf m e ≤ 970 := by
  by_contra hlarge
  have hunit := unit_le he (by omega)
  have hpow : (2 : Rat) ^ (0 : Int) ≤ 2 ^ exponentOf m e := zpow_le_zpow_right₀ (by norm_num) (by omega)
  have hsmall : m * 2 ^ e * roundOff ≤ reach * roundOff := mul_le_mul_of_nonneg_right hreach roundOff_nonneg
  have hone : reach * roundOff < 1 := by norm_num [reach, roundOff]
  linarith [zpow_zero (2 : Rat)]

theorem log2_mul_two_pow {m : Nat} (hm : 0 < m) (k : Nat) : (m * 2 ^ k).log2 = m.log2 + k := by
  have hk := Nat.two_pow_pos k
  refine (Nat.log2_eq_iff (Nat.mul_pos hm hk).ne').mpr ⟨?_, ?_⟩
  · rw [Nat.pow_add]
    exact Nat.mul_le_mul_right _ (Nat.log2_self_le hm.ne')
  · rw [Nat.add_right_comm, Nat.pow_add]
    exact Nat.mul_lt_mul_of_pos_right Nat.lt_log2_self hk

/-! ## Whole multiples of a power of two -/

/-- Rounding is off by a part of the result if the exponent is not below the least one. -/
theorem round_near {m : Nat} {e : Int} (s : Sign) (hm : 0 < m) (he : -1074 ≤ e) (hreach : m * 2 ^ e ≤ reach) :
    ∃ r, Holds (round .binary64 s m e) (signed s r) ∧ |r - m * 2 ^ e| ≤ m * 2 ^ e * roundOff := by
  -- the exponent is lowered first if need be, which changes neither the value nor the exponent it is to have
  obtain ⟨k, hk⟩ : ∃ k, k = (e - exponentOf m e).toNat := ⟨_, rfl⟩
  have hround : round .binary64 s m e = roundWithAccuracy .binary64 s (m * 2 ^ k) (e - k) .exact := by
    rw [hk, ← Nat.shiftLeft_eq]
    rfl
  have htarget : exponentOf (m * 2 ^ k) (e - k) = exponentOf m e := by
    unfold exponentOf
    rw [log2_mul_two_pow hm]
    push_cast
    congr 1
    ring
  have hlowered : e - k ≤ exponentOf (m * 2 ^ k) (e - k) := by
    rw [htarget]
    omega
  have hvalue : ((m * 2 ^ k : Nat) : Rat) * 2 ^ (e - k) = m * 2 ^ e := by
    rw [zpow_sub₀ (by norm_num), zpow_natCast]
    push_cast
    field_simp
  obtain ⟨n, hholds, hnear, hkeep⟩ := exists_rounded .exact s hlowered
    (exponentOf_le hlowered (hvalue.trans_le hreach)) hvalue.le
    (hvalue.symm.trans_le (mul_le_mul_of_nonneg_right (by linarith) (two_zpow_pos _).le))
  refine ⟨_, hround ▸ hholds, ?_⟩
  by_cases hnormal : exponentOf (m * 2 ^ k) (e - k) = -1074
  · have hsame : e - k = exponentOf (m * 2 ^ k) (e - k) := by
      rw [htarget] at hnormal ⊢
      omega
    rw [hkeep rfl hsame, ← hsame, hvalue, sub_self, abs_zero]
    exact mul_nonneg (mul_nonneg (Nat.cast_nonneg m) (two_zpow_pos e).le) roundOff_nonneg
  · exact hnear.trans ((unit_le hlowered hnormal).trans_eq (by rw [hvalue]))

theorem normalize_near (s : Sign) {z e : Int} (he : -1074 ≤ e) (hreach : |(z : Rat) * 2 ^ e| ≤ reach) :
    ∃ r, Holds (UnpackedFloat.normalize .binary64 z e s) r ∧ |r - z * 2 ^ e| ≤ |(z : Rat) * 2 ^ e| * roundOff := by
  have hu := two_zpow_pos e
  unfold UnpackedFloat.normalize
  rcases lt_trichotomy z 0 with hneg | rfl | hpos
  · rw [compare_lt_iff_lt.mpr hneg]
    dsimp only
    have hcast : (((-z).toNat : Nat) : Rat) = -z := by
      have hint : (((-z).toNat : Nat) : Int) = -z := Int.toNat_of_nonneg (by omega)
      exact_mod_cast congrArg (Int.cast : Int → Rat) hint
    have hz : (z : Rat) < 0 := by exact_mod_cast hneg
    rw [abs_of_neg (mul_neg_of_neg_of_pos hz hu), ← neg_mul, ← hcast] at hreach ⊢
    obtain ⟨r, hholds, hnear⟩ := round_near .negative (by omega) he hreach
    have herror : -r - z * 2 ^ e = -(r - (-z).toNat * 2 ^ e) := by
      rw [hcast]
      ring
    refine ⟨-r, hholds, ?_⟩
    rw [herror, abs_neg]
    exact hnear
  · rw [compare_eq_iff_eq.mpr rfl]
    refine ⟨0, .zero s, ?_⟩
    simp
  · rw [compare_gt_iff_gt.mpr hpos]
    dsimp only
    have hcast : ((z.toNat : Nat) : Rat) = z := by
      have hint : ((z.toNat : Nat) : Int) = z := Int.toNat_of_nonneg hpos.le
      exact_mod_cast congrArg (Int.cast : Int → Rat) hint
    have hz : (0 : Rat) < z := by exact_mod_cast hpos
    rw [abs_of_pos (mul_pos hz hu), ← hcast] at hreach ⊢
    exact round_near .positive (by omega) he hreach

/-! ## Operations -/

theorem signed_eq (s : Sign) (m : Nat) (e : Int) : signed s (m * 2 ^ e) = (s.apply m : Int) * 2 ^ e := by
  cases s
  · simp [signed, Sign.apply]
  · simp [signed, Sign.apply]

/-- A number written with a lower exponent. -/
theorem signed_decreaseExponent (s : Sign) {m : Nat} {e k : Int} (hk : k ≤ e) :
    ((s.apply (decreaseExponent m e k).1 : Int) : Rat) * 2 ^ k = signed s (m * 2 ^ e) := by
  have hvalue : (((decreaseExponent m e k).1 : Nat) : Rat) * 2 ^ k = m * 2 ^ e := by
    have hshift : (decreaseExponent m e k).1 = m * 2 ^ (e - k).toNat := Nat.shiftLeft_eq _ _
    rw [hshift, Nat.cast_mul, mul_assoc, Nat.cast_pow, Nat.cast_ofNat, ← two_zpow_add]
    congr 2
    omega
  rw [← signed_eq, hvalue]

/-- **A sum** is off by one part in `2 ^ 52` at most. -/
theorem add_near {u v : UnpackedFloat} {p q : Rat} (hu : Holds u p) (hv : Holds v q) (hreach : |p + q| ≤ reach) :
    ∃ r, Holds (UnpackedFloat.add .binary64 u v) r ∧ |r - (p + q)| ≤ |p + q| * roundOff := by
  have hexact {w : UnpackedFloat} {r : Rat} (hw : Holds w r) (hr : r = p + q) :
      ∃ r, Holds w r ∧ |r - (p + q)| ≤ |p + q| * roundOff := by
    refine ⟨r, hw, ?_⟩
    rw [hr, sub_self, abs_zero]
    exact mul_nonneg (abs_nonneg _) roundOff_nonneg
  cases hu with
  | zero s =>
    cases hv with
    | zero s' =>
      have hzero : ∃ s'', UnpackedFloat.add .binary64 (.zero s) (.zero s') = .zero s'' := by
        cases s <;> cases s' <;> exact ⟨_, rfl⟩
      obtain ⟨s'', hadd⟩ := hzero
      exact hexact (hadd ▸ .zero s'') (add_zero 0).symm
    | finite s' hm' h' he' => exact hexact (.finite s' hm' h' he') (zero_add _).symm
  | @finite s m e hm h he =>
    cases hv with
    | zero s' => exact hexact (.finite s hm h he) (add_zero _).symm
    | @finite s' m' e' hm' h' he' =>
      have hge := h.ge
      have hge' := h'.ge
      have hsum : ((s.apply (decreaseExponent m e (min e e')).1 +
          s'.apply (decreaseExponent m' e' (min e e')).1 : Int) : Rat) * 2 ^ min e e' = signed s (m * 2 ^ e) + signed s' (m' * 2 ^ e') := by
        rw [Int.cast_add, add_mul, signed_decreaseExponent s (min_le_left e e'),
          signed_decreaseExponent s' (min_le_right e e')]
      rw [← hsum] at hreach ⊢
      exact normalize_near .positive (by omega) hreach

theorem sub_eq_add (u v : UnpackedFloat) :
    UnpackedFloat.sub .binary64 u v = UnpackedFloat.add .binary64 u v.neg := by
  cases u with
  | notANumber => cases v <;> rfl
  | infinity s => cases v <;> rfl
  | zero s => cases v <;> rfl
  | finite s m e hm =>
    cases v with
    | notANumber | infinity | zero => rfl
    | finite s' m' e' hm' =>
      have happly (k k' : Int) : s.apply k - s'.apply k' = s.apply k + (-s').apply k' := by
        cases s'
        · exact sub_neg_eq_add _ _
        · exact sub_eq_add_neg _ _
      exact congrArg (UnpackedFloat.normalize .binary64 · (min e e') .positive) (happly _ _)

theorem Holds.neg {u : UnpackedFloat} {q : Rat} (h : Holds u q) : Holds u.neg (-q) := by
  cases h with
  | zero s => exact neg_zero (G := Rat) ▸ Holds.zero (-s)
  | @finite s m e hm h he =>
    have hneg : -signed s (m * 2 ^ e) = signed (-s) (m * 2 ^ e) := by
      cases s
      · exact neg_neg _
      · rfl
    exact hneg ▸ .finite (-s) hm h he

theorem sub_near {u v : UnpackedFloat} {p q : Rat} (hu : Holds u p) (hv : Holds v q) (hreach : |p - q| ≤ reach) :
    ∃ r, Holds (UnpackedFloat.sub .binary64 u v) r ∧ |r - (p - q)| ≤ |p - q| * roundOff := by
  rw [sub_eq_add]
  rw [sub_eq_add_neg] at hreach ⊢
  exact add_near hu hv.neg hreach

theorem least_le_roundOff : (2 : Rat) ^ (-1074 : Int) ≤ roundOff := by
  have hpow : roundOff = 2 ^ (-52 : Int) := by norm_num [roundOff]
  rw [hpow]
  exact zpow_le_zpow_right₀ (by norm_num) (by decide)

/-- Rounding is off by a part of the result, or by a unit of the least exponent, which is far less. -/
theorem rounded_near {m : Nat} {e : Int} (a : Accuracy) {v : Rat} (s : Sign) (he : e ≤ exponentOf m e)
    (hlow : m * 2 ^ e ≤ v) (hhigh : v ≤ (m + 1) * 2 ^ e) (hreach : v ≤ reach) :
    ∃ r, 0 ≤ r ∧ Holds (roundWithAccuracy .binary64 s m e a) (signed s r) ∧ |r - v| ≤ (v + 1) * roundOff := by
  obtain ⟨n, hholds, hnear, -⟩ := exists_rounded a s he (exponentOf_le he (hlow.trans hreach)) hlow hhigh
  refine ⟨_, mul_nonneg (Nat.cast_nonneg n) (two_zpow_pos _).le, hholds, hnear.trans ?_⟩
  have hoff := roundOff_nonneg
  have hv : 0 ≤ v := (mul_nonneg (Nat.cast_nonneg m) (two_zpow_pos e).le).trans hlow
  by_cases hnormal : exponentOf m e = -1074
  · rw [hnormal]
    linarith [mul_nonneg hv hoff, least_le_roundOff]
  · linarith [unit_le he hnormal, mul_le_mul_of_nonneg_right hlow hoff]

theorem signed_mul (s s' : Sign) (p q : Rat) : signed s p * signed s' q = signed (s * s') (p * q) := by
  cases s <;> cases s'
  · exact neg_mul_neg p q
  · exact neg_mul p q
  · exact mul_neg p q
  · rfl

theorem signed_div (s s' : Sign) (p q : Rat) : signed s p / signed s' q = signed (s / s') (p / q) := by
  cases s <;> cases s'
  · exact neg_div_neg_eq p q
  · exact neg_div q p
  · exact div_neg p
  · rfl

theorem IsParts.le_log2 {m : Nat} {e : Int} (h : IsParts m e) (he : e ≠ -1074) : 52 ≤ m.log2 := by
  have hdigits := h.normal he
  exact (Nat.le_log2 (by omega)).mpr hdigits

/-- **A product** is off by one part in `2 ^ 52` and the least double at most. -/
theorem mul_near {u v : UnpackedFloat} {p q : Rat} (hu : Holds u p) (hv : Holds v q) (hreach : |p * q| ≤ reach) :
    ∃ r, Holds (UnpackedFloat.mul .binary64 u v) r ∧ |r - p * q| ≤ (|p * q| + 1) * roundOff := by
  have hzero {w : UnpackedFloat} (hw : Holds w 0) (hpq : p * q = 0) :
      ∃ r, Holds w r ∧ |r - p * q| ≤ (|p * q| + 1) * roundOff := by
    refine ⟨0, hw, ?_⟩
    rw [hpq]
    norm_num [roundOff]
  cases hu with
  | zero s =>
    cases hv with
    | zero s' => exact hzero (.zero (s * s')) (zero_mul _)
    | finite s' hm' h' he' => exact hzero (.zero (s * s')) (zero_mul _)
  | @finite s m e hm h he =>
    cases hv with
    | zero s' => exact hzero (.zero (s * s')) (mul_zero _)
    | @finite s' m' e' hm' h' he' =>
      have hge := h.ge
      have hge' := h'.ge
      have hvalue : ((m * m' : Nat) : Rat) * 2 ^ (e + e') = m * 2 ^ e * (m' * 2 ^ e') := by
        rw [zpow_add₀ (by norm_num)]
        push_cast
        ring
      have hnonneg : (0 : Rat) ≤ (m * m' : Nat) * 2 ^ (e + e') := mul_nonneg (Nat.cast_nonneg _) (two_zpow_pos _).le
      -- at least one of the mantissas has all its digits, unless both exponents are the least
      have hexponent : e + e' ≤ exponentOf (m * m') (e + e') := by
        have hlog : m.log2 + m'.log2 ≤ (m * m').log2 := by
          refine (Nat.le_log2 (Nat.mul_pos hm hm').ne').mpr ?_
          rw [Nat.pow_add]
          exact Nat.mul_le_mul (Nat.log2_self_le hm.ne') (Nat.log2_self_le hm'.ne')
        have hfull := h.le_log2
        have hfull' := h'.le_log2
        unfold exponentOf
        omega
      rw [signed_mul, abs_signed, ← hvalue, abs_of_nonneg hnonneg] at hreach ⊢
      obtain ⟨r, -, hholds, hnear⟩ := rounded_near .exact (s * s') hexponent le_rfl
        (mul_le_mul_of_nonneg_right (by linarith) (two_zpow_pos _).le) hreach
      refine ⟨_, hholds, ?_⟩
      rw [signed_sub, abs_signed]
      exact hnear

/-- A mantissa that is shifted far enough has 53 digits left after it was divided. -/
theorem le_quotient {m m' c : Nat} (hm : 0 < m) (hm' : 0 < m') (hc : m'.log2 + 53 ≤ m.log2 + c) :
    2 ^ 52 ≤ m * 2 ^ c / m' := by
  rw [Nat.le_div_iff_mul_le hm']
  calc 2 ^ 52 * m' ≤ 2 ^ 52 * 2 ^ (m'.log2 + 1) := Nat.mul_le_mul_left _ Nat.lt_log2_self.le
    _ = 2 ^ (m'.log2 + 53) := by rw [← Nat.pow_add]; congr 1; omega
    _ ≤ 2 ^ (m.log2 + c) := Nat.pow_le_pow_right (by decide) hc
    _ = 2 ^ m.log2 * 2 ^ c := Nat.pow_add _ _ _
    _ ≤ m * 2 ^ c := Nat.mul_le_mul_right _ (Nat.log2_self_le hm.ne')

/-- The quotient of two mantissas without its fraction. -/
theorem quotient_bounds (m : Nat) {m' c : Nat} (hm' : 0 < m') {e e' k : Int} (hc : c + k + e' = e) :
    ((m * 2 ^ c / m' : Nat) : Rat) * 2 ^ k ≤ m * 2 ^ e / (m' * 2 ^ e') ∧
      (m : Rat) * 2 ^ e / (m' * 2 ^ e') ≤ ((m * 2 ^ c / m' : Nat) + 1) * 2 ^ k := by
  have hpos : (0 : Rat) < m' := by exact_mod_cast hm'
  have hquotient : (m : Rat) * 2 ^ e / (m' * 2 ^ e') = ((m * 2 ^ c : Nat) : Rat) / m' * 2 ^ k := by
    have hsplit : (2 : Rat) ^ e = 2 ^ c * 2 ^ k * 2 ^ e' := by
      rw [← hc, zpow_add₀ (by norm_num), zpow_add₀ (by norm_num), zpow_natCast]
    have hne := (two_zpow_pos e').ne'
    rw [hsplit]
    push_cast
    field_simp
  have hu := (two_zpow_pos k).le
  rw [hquotient]
  constructor
  · refine mul_le_mul_of_nonneg_right ?_ hu
    rw [le_div_iff₀ hpos]
    exact_mod_cast Nat.div_mul_le_self _ _
  · refine mul_le_mul_of_nonneg_right ?_ hu
    rw [div_le_iff₀ hpos]
    have hceil : m * 2 ^ c ≤ (m * 2 ^ c / m' + 1) * m' := by
      rw [Nat.add_one_mul]
      exact (Nat.lt_div_mul_add hm').le
    exact_mod_cast hceil

/-- Division makes of two mantissas the quotient without its fraction, with an exponent that is low enough, and
rounds that. -/
theorem exists_quotient {m m' : Nat} (hm : 0 < m) (hm' : 0 < m') (e e' : Int) :
    ∃ n k a, (∀ s s', UnpackedFloat.div .binary64 (.finite s m e hm) (.finite s' m' e' hm') =
        roundWithAccuracy .binary64 (s / s') n k a) ∧ k ≤ exponentOf n k ∧
      n * 2 ^ k ≤ (m : Rat) * 2 ^ e / (m' * 2 ^ e') ∧ (m : Rat) * 2 ^ e / (m' * 2 ^ e') ≤ (n + 1) * 2 ^ k := by
  obtain ⟨k, hk⟩ : ∃ k, k = min (e - e') (max (m.log2 + 1 + e - (m'.log2 + 1 + e') - 53) (-1074)) := ⟨_, rfl⟩
  obtain ⟨c, hc⟩ : ∃ c, c = (e - e' - k).toNat := ⟨_, rfl⟩
  have hcore : divCore .binary64 m e m' e' =
      (m * 2 ^ c / m', k, accuracyOfFraction (m * 2 ^ c % m') m') := by
    rw [hc, hk, ← Nat.shiftLeft_eq]
    rfl
  refine ⟨m * 2 ^ c / m', k, accuracyOfFraction (m * 2 ^ c % m') m', fun s s' => ?_, ?_,
    quotient_bounds m hm' (by omega)⟩
  · show roundWithAccuracy .binary64 (s / s') (divCore .binary64 m e m' e').1 (divCore .binary64 m e m' e').2.1
      (divCore .binary64 m e m' e').2.2 = _
    rw [hcore]
  · unfold exponentOf
    by_cases hleast : k ≤ -1074
    · omega
    · have hdigits := le_quotient hm hm' (c := c) (by omega)
      have hlog := (Nat.le_log2 (Nat.lt_of_lt_of_le (by decide) hdigits).ne').mpr hdigits
      omega

/-- **A quotient** is off by one part in `2 ^ 52` and the least double at most. -/
theorem div_near {u v : UnpackedFloat} {p q : Rat} (hu : Holds u p) (hv : Holds v q) (hq : q ≠ 0)
    (hreach : |p / q| ≤ reach) :
    ∃ r, Holds (UnpackedFloat.div .binary64 u v) r ∧ |r - p / q| ≤ (|p / q| + 1) * roundOff := by
  cases hv with
  | zero s' => exact absurd rfl hq
  | @finite s' m' e' hm' h' he' =>
    cases hu with
    | zero s =>
      refine ⟨0, .zero (s / s'), ?_⟩
      norm_num [roundOff]
    | @finite s m e hm h he =>
      obtain ⟨n, k, a, hdiv, hexponent, hlow, hhigh⟩ := exists_quotient hm hm' e e'
      have hnonneg : (0 : Rat) ≤ m * 2 ^ e / (m' * 2 ^ e') :=
        div_nonneg (mul_nonneg (Nat.cast_nonneg m) (two_zpow_pos e).le)
          (mul_nonneg (Nat.cast_nonneg m') (two_zpow_pos e').le)
      rw [signed_div, abs_signed, abs_of_nonneg hnonneg] at hreach ⊢
      obtain ⟨r, -, hholds, hnear⟩ := rounded_near a (s / s') hexponent hlow hhigh hreach
      refine ⟨_, hdiv s s' ▸ hholds, ?_⟩
      rw [signed_sub, abs_signed]
      exact hnear

theorem toRat?_zero_mul {x : Float} {q : Rat} (hx : toRat? x = some q) : toRat? (Scalar.zero * x) = some 0 := by
  have hzero : (Scalar.zero : Float).toModel.unpack = .zero .positive := rfl
  have hmul : ∃ s, UnpackedFloat.mul .binary64 (Scalar.zero : Float).toModel.unpack x.toModel.unpack = .zero s := by
    have hv := toRat?_eq_some_iff.mp hx
    rw [hzero]
    generalize x.toModel.unpack = v at hv
    cases hv <;> exact ⟨_, rfl⟩
  obtain ⟨s, hmul⟩ := hmul
  exact (Holds.zero s).toRat?_eq (congrArg Float.Model.pack hmul)

/-! ## Quotients that are too large -/

/-- Rounding comes to a mantissa of 53 digits unless the exponent is the least one. -/
theorem exists_digits {m : Nat} {e : Int} (a : Accuracy) (s : Sign) (he : e ≤ exponentOf m e)
    (hne : exponentOf m e ≠ -1074) :
    ∃ n k, roundWithAccuracy .binary64 s m e a = ofParts s n k ∧ exponentOf m e ≤ k ∧ n < 2 ^ 53 ∧ 2 ^ 52 ≤ n := by
  have hleast : -1074 ≤ exponentOf m e := le_max_right _ _
  obtain ⟨hkept, hnormal⟩ := kept_bounds he
  obtain ⟨n, hround, hdown, hup, -⟩ := exists_shifted a s he
  have hdigits := hnormal hne
  refine ⟨_, _, hround, ?_⟩
  have hshift := shift_rounded (show n ≤ 2 ^ 53 by omega) hleast
  split_ifs at hshift with hlt
  · obtain ⟨hmantissa, hexponent⟩ := Prod.mk.inj hshift
    rw [hmantissa, hexponent]
    exact ⟨le_rfl, hlt, by omega⟩
  · obtain ⟨hmantissa, hexponent⟩ := Prod.mk.inj hshift
    rw [hmantissa, hexponent]
    exact ⟨by omega, by decide, by decide⟩

theorem unpack_pack_of_large {n : Nat} {e : Int} (hn : 0 < n) (he : 972 ≤ e) :
    UnpackedFloat.unpack .binary64 (UnpackedFloat.pack .binary64 (ofParts .positive n e)) = .infinity .positive := by
  rw [ofParts, dif_neg hn.ne', pack_finite, if_pos (show 2 ^ 11 ≤ (e + 1075).toNat + 1 by omega)]
  rfl

/-- A double of one or more is not below one, and neither is infinity. -/
theorem not_lt_one {x : Float} (h : (∃ r, toRat? x = some r ∧ 1 ≤ r) ∨ x.toModel.unpack = .infinity .positive) :
    ¬ x < Scalar.one := by
  intro hlt
  rcases h with ⟨r, hx, hr⟩ | hx
  · have hone : toRat? Scalar.one = some 1 := by decide +kernel
    exact absurd ((lt_iff hx hone).mp hlt) (not_lt.mpr hr)
  · have hone : x.toModel.unpack.lt (Scalar.one : Float).toModel.unpack = true := of_decide_eq_true hlt
    rw [hx] at hone
    exact absurd hone (by decide +kernel)

/-- What is rounded to something below one is not large. -/
theorem le_reach_of_rounded {x : Float} {m : Nat} {e : Int} {a : Accuracy} {v : Rat} (he : e ≤ exponentOf m e)
    (hx : x.toModel = Float.Model.pack (roundWithAccuracy .binary64 .positive m e a)) (hlow : m * 2 ^ e ≤ v)
    (hhigh : v ≤ (m + 1) * 2 ^ e) (h : x < Scalar.one) : v ≤ reach := by
  by_contra hlarge
  refine not_lt_one ?_ h
  have hv : reach < v := not_le.mp hlarge
  by_cases hsmall : exponentOf m e ≤ 970
  · obtain ⟨n, hholds, hnear, -⟩ := exists_rounded a .positive he hsmall hlow hhigh
    refine .inl ⟨_, hholds.toRat?_eq hx, ?_⟩
    have hunit : (2 : Rat) ^ exponentOf m e ≤ v * roundOff := by
      by_cases hleast : exponentOf m e = -1074
      · have hone : 1 ≤ v := le_trans (by norm_num [reach]) hv.le
        rw [hleast]
        exact least_le_roundOff.trans (le_mul_of_one_le_left roundOff_nonneg hone)
      · exact (unit_le he hleast).trans (mul_le_mul_of_nonneg_right hlow roundOff_nonneg)
    show 1 ≤ (n : Rat) * 2 ^ exponentOf m e
    have hkept : reach * (1 - roundOff) ≤ v * (1 - roundOff) :=
      mul_le_mul_of_nonneg_right hv.le (by norm_num [roundOff])
    have hone : 1 ≤ reach * (1 - roundOff) := by norm_num [reach, roundOff]
    linarith [(abs_sub_le_iff.mp hnear).2]
  · -- the exponent is too large for anything below one
    obtain ⟨n, k, hround, hk, hlt, hdigits⟩ := exists_digits a .positive he (by omega)
    rw [hround] at hx
    by_cases hlast : k ≤ 971
    · refine .inl ⟨_, (holds_ofParts .positive ⟨hlt, by omega, fun _ => hdigits⟩ hlast).toRat?_eq hx, ?_⟩
      have hn : (1 : Rat) ≤ n := by exact_mod_cast le_trans (by decide) hdigits
      exact one_le_mul_of_one_le_of_one_le hn (one_le_zpow₀ (by norm_num) (by omega))
    · refine .inr ?_
      rw [hx]
      exact unpack_pack_of_large (by omega) (by omega)

theorem eq_finite_positive {u : UnpackedFloat} {q : Rat} (h : Holds u q) (hq : 0 < q) :
    ∃ m e hm, u = .finite .positive m e hm ∧ q = m * 2 ^ e := by
  cases h with
  | zero s => exact absurd hq (lt_irrefl 0)
  | @finite s m e hm h he =>
    cases s with
    | positive => exact ⟨m, e, hm, rfl, rfl⟩
    | negative =>
      exact absurd hq (not_lt.mpr (neg_nonpos.mpr (mul_nonneg (Nat.cast_nonneg m) (two_zpow_pos e).le)))

/-- If the quotient of positive doubles is below one, the exact one is not large. -/
theorem quotient_le_reach {x y : Float} {p q : Rat} (hx : toRat? x = some p) (hy : toRat? y = some q) (hp : 0 < p)
    (hq : 0 < q) (h : x / y < Scalar.one) : p / q ≤ reach := by
  obtain ⟨m, e, hm, hu, rfl⟩ := eq_finite_positive (toRat?_eq_some_iff.mp hx) hp
  obtain ⟨m', e', hm', hv, rfl⟩ := eq_finite_positive (toRat?_eq_some_iff.mp hy) hq
  obtain ⟨n, k, a, hround, hexponent, hlow, hhigh⟩ := exists_quotient hm hm' e e'
  have hdiv : (x / y).toModel =
      Float.Model.pack (UnpackedFloat.div .binary64 x.toModel.unpack y.toModel.unpack) := rfl
  rw [hu, hv, hround] at hdiv
  exact le_reach_of_rounded hexponent hdiv hlow hhigh h

/-! ## Rationals -/

theorem toRat?_neg {x : Float} {q : Rat} (h : toRat? x = some q) : toRat? (-x) = some (-q) :=
  (toRat?_eq_some_iff.mp h).neg.toRat?_eq rfl

/-- The number of a pattern of bits, in which the mantissa may carry over into the exponent. -/
theorem toRat?_ofBits {m : Nat} {e : Int} (hm : m ≤ 2 ^ 53) (hleast : -1074 ≤ e) (he : e ≤ 970)
    (hnormal : e ≠ -1074 → 2 ^ 52 ≤ m) :
    toRat? (Float.ofBits (UInt64.ofNat ((e + 1074).toNat * 2 ^ 52 + m))) = some ((m : Rat) * 2 ^ e) := by
  have hsmall : (e + 1074).toNat * 2 ^ 52 + m < infinityBits := by
    unfold infinityBits
    omega
  have hbits := toBits_ofBits hsmall
  have htwo : twoTo 52 = 2 ^ 52 ∧ twoTo 11 = 2 ^ 11 ∧ twoTo 63 = 2 ^ 63 := ⟨rfl, rfl, rfl⟩
  have hsign : signBit (Float.ofBits (UInt64.ofNat ((e + 1074).toNat * 2 ^ 52 + m))) = false := by
    unfold signBit infinityBits at *
    rw [hbits, decide_eq_false_iff_not]
    omega
  have hparts : parts (Float.ofBits (UInt64.ofNat ((e + 1074).toNat * 2 ^ 52 + m))) =
      if m < 2 ^ 53 then (m, e) else (2 ^ 52, e + 1) := by
    unfold parts infinityBits at *
    rw [hbits, htwo.1, htwo.2.1]
    dsimp only
    split_ifs <;> refine Prod.ext ?_ ?_ <;> dsimp only <;> omega
  rw [toRat?_of_isFinite (isFinite_ofBits hsmall), hsign, hparts, if_neg Bool.false_ne_true]
  split_ifs with hlt
  · rfl
  · obtain rfl : m = 2 ^ 53 := by omega
    exact congrArg some (carry_eq e).symm

namespace RatioParts

variable {n d m : Nat} {e : Int}

/-- A quotient is rounded by half a unit at most. -/
theorem scaled_near (h : RatioParts n d m e) : |(m : Rat) * 2 ^ e - n / d| ≤ 1 / 2 * 2 ^ e := by
  have hu := two_zpow_pos e
  have hfactor : (m : Rat) * 2 ^ e - n / d = (m - n / d / 2 ^ e) * 2 ^ e := by
    rw [sub_mul, div_mul_cancel₀ _ hu.ne']
  rw [hfactor, abs_mul, abs_of_pos hu]
  exact mul_le_mul_of_nonneg_right h.near hu.le

/-- A unit is one part in `2 ^ 52` of the quotient, or that of the least double. -/
theorem unit_le_roundOff (h : RatioParts n d m e) : (2 : Rat) ^ e ≤ (n / d + 1) * roundOff := by
  have hv : (0 : Rat) ≤ n / d := by positivity
  by_cases he : e = -1074
  · rw [he]
    exact least_le_roundOff.trans (le_mul_of_one_le_left roundOff_nonneg (by linarith))
  · have hpart : (2 : Rat) ^ e ≤ n / d * roundOff := by
      have hlow := h.above he
      rw [show (52 : Int) = (52 : Nat) from rfl, two_zpow_add] at hlow
      rw [roundOff, mul_one_div, le_div_iff₀' (by norm_num)]
      exact hlow
    exact hpart.trans (mul_le_mul_of_nonneg_right (by linarith) roundOff_nonneg)

/-- A quotient that is not large has binary places. -/
theorem exponent_neg (h : RatioParts n d m e) (hreach : (n : Rat) / d ≤ reach) : e < 0 := by
  by_contra hlarge
  have hpow : (2 : Rat) ^ (e + 52) ≤ 2 ^ (16 : Int) := (h.above (by omega)).trans hreach
  have := (zpow_le_zpow_iff_right₀ (by norm_num)).mp hpow
  omega

/-- Rounding to binary places does not lead past a whole number. -/
theorem scaled_le (h : RatioParts n d m e) (he : e < 0) {N : Nat} (hN : (n : Rat) / d ≤ N) :
    (m : Rat) * 2 ^ e ≤ N := by
  have hone : (2 : Rat) ^ (-e).toNat * 2 ^ e = 1 := by
    rw [← zpow_natCast, Int.toNat_of_nonneg (by omega), ← zpow_add₀ (by norm_num), neg_add_cancel, zpow_zero]
  have hplaces : ((N * 2 ^ (-e).toNat : Nat) : Rat) * 2 ^ e = N := by
    push_cast
    rw [mul_assoc, hone, mul_one]
  have hm : (m : Rat) ≤ (N * 2 ^ (-e).toNat : Nat) := by
    exact_mod_cast h.whole _ (hN.trans_eq hplaces.symm)
  exact (mul_le_mul_of_nonneg_right hm (two_zpow_pos e).le).trans_eq hplaces

end RatioParts

/-- **The double of a quotient** is near it, and not beyond any whole number that the quotient is not beyond. -/
theorem ofNatRatio_near {n d : Nat} (hd : 0 < d) (hreach : (n : Rat) / d ≤ reach) :
    ∃ r, toRat? (ofNatRatio n d) = some r ∧ 0 ≤ r ∧ |r - n / d| ≤ (n / d + 1) * roundOff ∧
      ∀ N : Nat, (n : Rat) / d ≤ N → r ≤ N := by
  by_cases hn : n = 0
  · refine ⟨0, ?_, le_rfl, ?_, fun N _ => Nat.cast_nonneg N⟩
    · rw [hn]
      unfold ofNatRatio
      rw [if_pos rfl]
      decide +kernel
    · rw [hn]
      norm_num [roundOff]
  obtain ⟨m, e, h, hbits⟩ := exists_ratioParts hn hd
  have he := h.exponent_neg hreach
  have hleast := h.least
  have hm := h.le_two_pow
  have hpattern : (e + 1074).toNat * 2 ^ 52 + m ≤ infinityBits := by
    unfold infinityBits
    omega
  refine ⟨(m : Rat) * 2 ^ e, ?_, mul_nonneg (Nat.cast_nonneg m) (two_zpow_pos e).le, h.scaled_near.trans ?_,
    fun N hN => h.scaled_le he hN⟩
  · rw [hbits, Nat.min_eq_left hpattern]
    exact toRat?_ofBits hm hleast (by omega) h.normal
  · linarith [h.unit_le_roundOff, two_zpow_pos e]

/-- The double of a rational that is not below zero. -/
theorem ofRat_mem {q : Rat} (h0 : 0 ≤ q) (hreach : q ≤ reach) :
    ∃ r, toRat? (ofRat q) = some r ∧ 0 ≤ r ∧ |r - q| ≤ (q + 1) * roundOff ∧ ∀ N : Nat, q ≤ N → r ≤ N := by
  have hq : ((q.num.natAbs : Nat) : Rat) / q.den = q := by
    rw [Nat.cast_natAbs, abs_of_nonneg (Rat.num_nonneg.mpr h0), Rat.num_div_den]
  have hnear := ofNatRatio_near (n := q.num.natAbs) q.den_pos (hq.trans_le hreach)
  rw [hq] at hnear
  unfold ofRat
  rw [if_neg (not_lt.mpr (Rat.num_nonneg.mpr h0))]
  exact hnear

theorem ofRat_near {q : Rat} (hreach : |q| ≤ reach) :
    ∃ r, toRat? (ofRat q) = some r ∧ |r - q| ≤ (|q| + 1) * roundOff := by
  rcases le_or_gt 0 q with h0 | hneg
  · obtain ⟨r, hr, -, hnear, -⟩ := ofRat_mem h0 ((le_abs_self q).trans hreach)
    exact ⟨r, hr, hnear.trans_eq (by rw [abs_of_nonneg h0])⟩
  · obtain ⟨r, hr, -, hnear, -⟩ := ofRat_mem (neg_nonneg.mpr hneg.le) ((neg_le_abs q).trans hreach)
    refine ⟨-r, ?_, ?_⟩
    · have hflip : ofRat q = -ofRat (-q) := by
        unfold ofRat
        rw [if_pos (Rat.num_neg.mpr hneg), if_neg (not_lt.mpr (Rat.num_nonneg.mpr (neg_nonneg.mpr hneg.le))),
          Rat.num_neg_eq_neg_num, Int.natAbs_neg, Rat.den_neg_eq_den]
      rw [hflip]
      exact toRat?_neg hr
    · have herror : -r - q = -(r - -q) := by ring
      rw [herror, abs_neg, abs_of_neg hneg]
      exact hnear

end Double

/-! ## Doubles are nearly exact -/

open Double in
instance : NearlyExact Float where
  isNaN_of_toRat? h := isNaN_of_isFinite (abs_le_largest h).1
  lt_iff := lt_iff
  le_iff := le_iff
  beq_iff := beq_iff
  zero_mul hx := toRat?_zero_mul hx
  ofRat_mem {q n} h0 hn h := by
    obtain ⟨r, hr, hr0, -, hwhole⟩ := ofRat_mem h0 (hn.trans h)
    exact ⟨r, hr, hr0, hwhole n hn⟩
  ofRat_near := ofRat_near
  add_near hx hy h := by
    obtain ⟨r, hr, hnear⟩ := add_near (toRat?_eq_some_iff.mp hx) (toRat?_eq_some_iff.mp hy) h
    exact ⟨r, hr.toRat?_eq rfl, hnear⟩
  sub_near hx hy h := by
    obtain ⟨r, hr, hnear⟩ := sub_near (toRat?_eq_some_iff.mp hx) (toRat?_eq_some_iff.mp hy) h
    exact ⟨r, hr.toRat?_eq rfl, hnear⟩
  mul_near hx hy h := by
    obtain ⟨r, hr, hnear⟩ := mul_near (toRat?_eq_some_iff.mp hx) (toRat?_eq_some_iff.mp hy) h
    exact ⟨r, hr.toRat?_eq rfl, hnear⟩
  div_near hx hy hq h := by
    obtain ⟨r, hr, hnear⟩ := div_near (toRat?_eq_some_iff.mp hx) (toRat?_eq_some_iff.mp hy) hq h
    exact ⟨r, hr.toRat?_eq rfl, hnear⟩
  le_reach_of_div_lt_one := quotient_le_reach
  ofRat_two := by decide +kernel

end Drawing
