import Drawing.Number.Double
import Drawing.Proofs.Number.Rounding
import Drawing.Validation.Sanitize

/-!
# `Drawing/Proofs/Number/Finite.lean` — cleaning keeps numbers finite
-/

namespace Drawing

namespace Double

open Float.Model Float.Model.UnpackedFloat

/-! ## Finite doubles -/

/-- A number that is not beyond the greatest exponent of a double. -/
def InRange : UnpackedFloat → Prop
  | .zero _ => True
  | .finite _ _ e _ => e ≤ 971
  | _ => False

/-- What a pattern of bits is unpacked to: all ones in the exponent stand for what is not finite. -/
theorem unpack_cases (b : BitVec Format.binary64.numBits) :
    (unpackExponent b = -1#_ ∧ (UnpackedFloat.unpack .binary64 b).isFinite = false) ∨
      unpackExponent b ≠ -1#_ ∧ (UnpackedFloat.unpack .binary64 b).isFinite = true ∧
        ((unpackExponent b).toNat < 2047 → InRange (UnpackedFloat.unpack .binary64 b)) := by
  have hbias : (Format.binary64.exponentBias : Int) = 1023 := rfl
  unfold UnpackedFloat.unpack
  dsimp only
  by_cases hones : unpackExponent b = -1#_
  · refine .inl ⟨hones, ?_⟩
    rw [if_pos hones]
    by_cases hmantissa : unpackMantissa b = 0#_
    · rw [if_pos hmantissa]
      rfl
    · rw [if_neg hmantissa]
      rfl
  · refine .inr ⟨hones, ?_⟩
    rw [if_neg hones]
    by_cases hzeros : unpackExponent b = 0#_
    · rw [if_pos hzeros]
      by_cases hmantissa : unpackMantissa b = 0#_
      · rw [dif_pos hmantissa]
        exact ⟨rfl, fun _ => trivial⟩
      -- all zeros stand for the exponent above that of nothing
      · rw [dif_neg hmantissa]
        have hleast : (unpackExponent b).toNat = 0 := congrArg BitVec.toNat hzeros
        refine ⟨rfl, fun _ => ?_⟩
        show ((unpackExponent b).toNat : Int) - (Format.binary64.exponentBias + 52) + 1 ≤ 971
        omega
    · rw [if_neg hzeros]
      refine ⟨rfl, fun hexp => ?_⟩
      show ((unpackExponent b).toNat : Int) - (Format.binary64.exponentBias + 52) ≤ 971
      omega

theorem isFinite_unpack_iff (b : BitVec Format.binary64.numBits) :
    (UnpackedFloat.unpack .binary64 b).isFinite = true ↔ unpackExponent b ≠ -1#_ := by
  rcases unpack_cases b with ⟨hones, hfinite⟩ | ⟨hones, hfinite, -⟩
  · rw [hfinite]
    exact iff_of_false Bool.false_ne_true fun hne => hne hones
  · exact iff_of_true hfinite hones

theorem toNat_unpackExponent (b : BitVec Format.binary64.numBits) :
    (unpackExponent b).toNat = b.toNat / 2 ^ 52 % 2 ^ 11 := by
  simp only [unpackExponent, BitVec.toNat_cast, BitVec.extractLsb_toNat, Nat.shiftRight_eq_div_pow]

theorem toNat_unpackExponent_lt {b : BitVec Format.binary64.numBits}
    (h : (UnpackedFloat.unpack .binary64 b).isFinite = true) : (unpackExponent b).toNat < 2047 := by
  have hlt : (unpackExponent b).toNat < 2048 := (unpackExponent b).isLt
  have hne : (unpackExponent b).toNat ≠ 2047 := fun heq =>
    (isFinite_unpack_iff b).mp h (BitVec.eq_of_toNat_eq heq)
  omega

theorem inRange_unpack {b : BitVec Format.binary64.numBits}
    (h : (UnpackedFloat.unpack .binary64 b).isFinite = true) :
    InRange (UnpackedFloat.unpack .binary64 b) := by
  rcases unpack_cases b with ⟨-, hfinite⟩ | ⟨-, -, hrange⟩
  · exact absurd h (by simp [hfinite])
  · exact hrange (toNat_unpackExponent_lt h)

/-- How a number is packed: an exponent that is too large makes an infinity, a mantissa of 53 digits is written without
the first of them, and any shorter one goes with an exponent of zeros. -/
theorem pack_finite (s : Sign) {m : Nat} (e : Int) (hm : 0 < m) :
    UnpackedFloat.pack .binary64 (.finite s m e hm) =
      if 2 ^ 11 ≤ (e + 1075).toNat + 1 then packedInfinity .binary64 s
      else if m.log2 + 1 = 53 then
        packComponents .binary64 s (BitVec.ofNat 11 (e + 1075).toNat) (BitVec.ofNat 52 m)
      else packComponents .binary64 s 0#11 (BitVec.ofNat 52 m) := by
  have hbiased : (e + Format.binary64.exponentBias + (52 : Nat) : Int).toNat = (e + 1075).toNat := by
    have hbias : (Format.binary64.exponentBias : Int) = 1023 := rfl
    omega
  delta UnpackedFloat.pack
  dsimp only
  rw [hbiased]
  rfl

theorem ofNat_ne_ones {k : Nat} (hk : k < 2047) : BitVec.ofNat 11 k ≠ -1#11 := by
  intro heq
  have hnat : k % 2 ^ 11 = 2047 := congrArg BitVec.toNat heq
  omega

theorem isFinite_pack {u : UnpackedFloat} (h : InRange u) :
    (UnpackedFloat.unpack .binary64 (UnpackedFloat.pack .binary64 u)).isFinite = true := by
  rw [isFinite_unpack_iff]
  cases u with
  | infinity s => exact h.elim
  | notANumber => exact h.elim
  | zero s =>
    unfold UnpackedFloat.pack packedZero
    dsimp only
    rw [unpackExponent_packComponents]
    decide
  | finite s m e hm =>
    have he : e ≤ 971 := h
    rw [pack_finite, if_neg (show ¬ 2 ^ 11 ≤ (e + 1075).toNat + 1 by omega)]
    split_ifs
    · rw [unpackExponent_packComponents]
      exact ofNat_ne_ones (by omega)
    · rw [unpackExponent_packComponents]
      decide

theorem inRange_toModel {x : Float} (h : x.isFinite = true) : InRange x.toModel.unpack := inRange_unpack h

theorem isNaN_of_isFinite {x : Float} (h : x.isFinite = true) : x.isNaN = false := by
  have hfinite : x.toModel.unpack.isFinite = true := h
  show x.toModel.unpack.isNaN = false
  cases hu : x.toModel.unpack with
  | notANumber =>
    rw [hu] at hfinite
    exact nomatch hfinite
  | infinity | zero | finite => rfl

theorem isFinite_neg {x : Float} (h : x.isFinite = true) : (-x).isFinite = true := by
  refine isFinite_pack ?_
  have hx := inRange_toModel h
  cases hu : x.toModel.unpack with
  | infinity s => rw [hu] at hx; exact hx.elim
  | notANumber => rw [hu] at hx; exact hx.elim
  | zero s => exact trivial
  | finite s m e hm => rw [hu] at hx; exact hx

theorem isFinite_zero_mul {x : Float} (h : x.isFinite = true) : (ofRat 0 * x).isFinite = true := by
  refine isFinite_pack ?_
  have hx := inRange_toModel h
  have hzero : (ofRat 0).toModel.unpack = .zero .positive := rfl
  rw [hzero]
  cases hu : x.toModel.unpack with
  | infinity s => rw [hu] at hx; exact hx.elim
  | notANumber => rw [hu] at hx; exact hx.elim
  | zero s => exact trivial
  | finite s m e hm => exact trivial

/-- A pattern below that of infinity is finite. -/
theorem isFinite_ofBits {bits : Nat} (h : bits < infinityBits) :
    (Float.ofBits (UInt64.ofNat bits)).isFinite = true := by
  refine isFinite_pack (inRange_unpack ?_)
  rw [isFinite_unpack_iff]
  intro heq
  have hnat := congrArg BitVec.toNat heq
  rw [toNat_unpackExponent, UInt64.toNat_toBitVec, UInt64.toNat_ofNat'] at hnat
  have hexp : bits % 2 ^ 64 / 2 ^ 52 % 2 ^ 11 = 2047 := hnat
  unfold infinityBits at h
  omega

/-! ## The range of doubles -/

/-- The greatest finite double. -/
def largest : Nat := (2 ^ 53 - 1) * 2 ^ 971

theorem largest_eq : ((largest : Nat) : Rat) = ((2 ^ 53 - 1 : Nat) : Rat) * 2 ^ (971 : Int) := by
  unfold largest
  rw [Nat.cast_mul, Nat.cast_pow]
  exact congrArg _ (zpow_natCast _ 971).symm

theorem two_zpow_toNat {k : Int} (h : 0 ≤ k) : (2 : Rat) ^ k = (twoTo k.toNat : Nat) := by
  unfold twoTo
  rw [Nat.pow_eq, Nat.cast_pow, ← zpow_natCast, Int.toNat_of_nonneg h]
  rfl

theorem two_zpow_neg_toNat {k : Int} (h : k < 0) : (2 : Rat) ^ k = ((twoTo (-k).toNat : Nat) : Rat)⁻¹ := by
  rw [← two_zpow_toNat (by omega : 0 ≤ -k), zpow_neg, inv_inv]

theorem twoTo_pos (k : Nat) : 0 < twoTo k := Nat.pow_pos (by decide)

theorem two_zpow_pos (e : Int) : (0 : Rat) < 2 ^ e := zpow_pos (by norm_num) e

theorem two_zpow_add (k : Int) (c : Nat) : (2 : Rat) ^ (k + c) = 2 ^ c * 2 ^ k := by
  rw [zpow_add₀ (by norm_num), zpow_natCast, mul_comm]

/-- The comparison of a quotient with a power of two, made without leaving the natural numbers. -/
theorem isBelow_iff {n d : Nat} {k : Int} :
    (if 0 ≤ k then decide (n < d * twoTo k.toNat) else decide (n * twoTo (-k).toNat < d)) = true ↔
      (n : Rat) < d * 2 ^ k := by
  split_ifs with hk
  · rw [decide_eq_true_iff, two_zpow_toNat hk]
    exact_mod_cast Iff.rfl
  · rw [decide_eq_true_iff, two_zpow_neg_toNat (by omega), ← div_eq_mul_inv,
      lt_div_iff₀ (by exact_mod_cast twoTo_pos _)]
    exact_mod_cast Iff.rfl

theorem mantissa_le {n d N : Nat} {e : Int} (hd : 0 < d) (h : (n : Rat) ≤ N * (d * 2 ^ e)) :
    (if 0 ≤ e then nearestNat n (d * twoTo e.toNat) else nearestNat (n * twoTo (-e).toNat) d) ≤ N := by
  split_ifs with he
  · refine nearestNat_le (Nat.mul_pos hd (twoTo_pos _)) ?_
    rw [two_zpow_toNat he] at h
    exact_mod_cast h
  · refine nearestNat_le hd ?_
    rw [two_zpow_neg_toNat (by omega), ← mul_assoc, ← div_eq_mul_inv,
      le_div_iff₀ (by exact_mod_cast twoTo_pos _)] at h
    exact_mod_cast h

/-- The mantissa of a quotient is within a half of it. -/
theorem mantissa_near {n d : Nat} (hd : 0 < d) (e : Int) :
    |((if 0 ≤ e then nearestNat n (d * twoTo e.toNat) else nearestNat (n * twoTo (-e).toNat) d : Nat) : Rat) -
      n / d / 2 ^ e| ≤ 1 / 2 := by
  split_ifs with he
  · have hquotient : (n : Rat) / d / 2 ^ e = n / ((d * twoTo e.toNat : Nat) : Rat) := by
      rw [Nat.cast_mul, two_zpow_toNat he, div_div]
    rw [hquotient]
    exact abs_nearestNat_sub_le (Nat.mul_pos hd (twoTo_pos _))
  · have hquotient : (n : Rat) / d / 2 ^ e = ((n * twoTo (-e).toNat : Nat) : Rat) / d := by
      rw [Nat.cast_mul, two_zpow_neg_toNat (by omega), div_inv_eq_mul, mul_div_right_comm]
    rw [hquotient]
    exact abs_nearestNat_sub_le hd

/-! A quotient lies strictly between two powers of two that are two apart. -/

theorem lt_two_zpow_log2 {n d : Nat} (hd : 0 < d) : (n : Rat) < d * 2 ^ ((n.log2 : Int) - d.log2 + 1) := by
  have h1 : (n : Rat) < 2 ^ ((n.log2 : Int) + 1) := by exact_mod_cast Nat.lt_log2_self
  have h2 : (2 : Rat) ^ (d.log2 : Int) ≤ d := by exact_mod_cast Nat.log2_self_le hd.ne'
  calc (n : Rat) < 2 ^ ((n.log2 : Int) + 1) := h1
    _ = 2 ^ (d.log2 : Int) * 2 ^ ((n.log2 : Int) - d.log2 + 1) := by
      rw [← zpow_add₀ (by norm_num)]; congr 1; omega
    _ ≤ _ := mul_le_mul_of_nonneg_right h2 (zpow_pos (by norm_num) _).le

theorem two_zpow_log2_lt {n d : Nat} (hn : n ≠ 0) : (d : Rat) * 2 ^ ((n.log2 : Int) - d.log2 - 1) < n := by
  have h1 : (2 : Rat) ^ (n.log2 : Int) ≤ n := by exact_mod_cast Nat.log2_self_le hn
  have h2 : (d : Rat) < 2 ^ ((d.log2 : Int) + 1) := by exact_mod_cast Nat.lt_log2_self
  calc (d : Rat) * 2 ^ ((n.log2 : Int) - d.log2 - 1)
      < 2 ^ ((d.log2 : Int) + 1) * 2 ^ ((n.log2 : Int) - d.log2 - 1) :=
        mul_lt_mul_of_pos_right h2 (zpow_pos (by norm_num) _)
    _ = 2 ^ (n.log2 : Int) := by rw [← zpow_add₀ (by norm_num)]; congr 1; omega
    _ ≤ n := h1

/-- The exponent of a quotient is the least with which 53 digits suffice, and no less than that of the least double. -/
theorem exponentFor_bounds {n d : Nat} (hn : n ≠ 0) (hd : 0 < d) :
    -1074 ≤ exponentFor n d ∧ (n : Rat) < d * 2 ^ (exponentFor n d + 53) ∧
      (exponentFor n d ≠ -1074 → (d : Rat) * 2 ^ (exponentFor n d + 52) ≤ n) := by
  have hgrow {k k' : Int} (hk : (n : Rat) < d * 2 ^ k) (hle : k ≤ k') : (n : Rat) < d * 2 ^ k' :=
    hk.trans_le (mul_le_mul_of_nonneg_left (zpow_le_zpow_right₀ (by norm_num) hle) (Nat.cast_nonneg d))
  have hfits := isBelow_iff (n := n) (d := d) (k := (n.log2 : Int) - d.log2 - 53 + 53)
  unfold exponentFor
  dsimp only
  -- the first guess is too small by one at most
  by_cases hb : (n : Rat) < d * 2 ^ ((n.log2 : Int) - d.log2 - 53 + 53)
  · rw [if_pos (hfits.mpr hb)]
    refine ⟨by omega, hgrow hb (by omega), fun hne => ?_⟩
    have hexp : max (-1074) ((n.log2 : Int) - d.log2 - 53) + 52 = (n.log2 : Int) - d.log2 - 1 := by omega
    rw [hexp]
    exact (two_zpow_log2_lt hn).le
  · rw [if_neg fun h => hb (hfits.mp h)]
    refine ⟨by omega, hgrow (lt_two_zpow_log2 hd) (by omega), fun hne => ?_⟩
    have hexp : max (-1074) ((n.log2 : Int) - d.log2 - 53 + 1) + 52 = (n.log2 : Int) - d.log2 - 53 + 53 := by omega
    rw [hexp]
    exact not_lt.mp hb

/-- The mantissa and the exponent that stand for a quotient of whole numbers. The exponent is the least with which 53
digits suffice, and no less than that of the least double; the mantissa is the quotient rounded to units of it. -/
structure RatioParts (n d m : Nat) (e : Int) : Prop where
  least : -1074 ≤ e
  below : (n : Rat) / d < 2 ^ (e + 53)
  above : e ≠ -1074 → (2 : Rat) ^ (e + 52) ≤ n / d
  near : |(m : Rat) - n / d / 2 ^ e| ≤ 1 / 2
  whole (N : Nat) : (n : Rat) / d ≤ N * 2 ^ e → m ≤ N

/-- **The double nearest to a quotient** is packed from these parts, where a mantissa that was rounded up to a power of
two carries over into the exponent, and cut off at infinity. -/
theorem exists_ratioParts {n d : Nat} (hn : n ≠ 0) (hd : 0 < d) :
    ∃ m e, RatioParts n d m e ∧
      ofNatRatio n d = Float.ofBits (UInt64.ofNat (min ((e + 1074).toNat * 2 ^ 52 + m) infinityBits)) := by
  have hd' : (0 : Rat) < d := by exact_mod_cast hd
  obtain ⟨hleast, hbelow, habove⟩ := exponentFor_bounds hn hd
  refine ⟨_, exponentFor n d, ⟨hleast, (div_lt_iff₀' hd').mpr hbelow, fun hne => (le_div_iff₀' hd').mpr (habove hne),
    mantissa_near hd _, fun N hN => mantissa_le hd ?_⟩, if_neg hn⟩
  rwa [div_le_iff₀' hd', mul_left_comm] at hN

namespace RatioParts

variable {n d m : Nat} {e : Int}

theorem lt_exponent (h : RatioParts n d m e) {k : Int} (hk : (2 : Rat) ^ k ≤ n / d) : k < e + 53 :=
  (zpow_lt_zpow_iff_right₀ (by norm_num)).mp (hk.trans_lt h.below)

theorem le_two_pow (h : RatioParts n d m e) : m ≤ 2 ^ 53 := by
  refine h.whole _ (h.below.le.trans_eq ?_)
  rw [Nat.cast_pow]
  exact two_zpow_add e 53

/-- A mantissa behind which nothing was left to shift has 53 digits. -/
theorem normal (h : RatioParts n d m e) (he : e ≠ -1074) : 2 ^ 52 ≤ m := by
  have hlow := h.above he
  rw [show (52 : Int) = (52 : Nat) from rfl, two_zpow_add, ← le_div_iff₀ (two_zpow_pos e)] at hlow
  have hclose := (abs_sub_le_iff.mp h.near).2
  have hcast : (2 : Rat) ^ 52 < m + 1 := by linarith
  exact Nat.le_of_lt_succ (by exact_mod_cast hcast)

/-- In the range of doubles, the exponent is no larger than that of the greatest one. -/
theorem exponent_le (h : RatioParts n d m e) (hle : (n : Rat) / d ≤ (largest : Nat)) : e ≤ 971 := by
  by_contra hlarge
  have hlt : ((largest : Nat) : Rat) < 2 ^ (1024 : Int) := by
    have hnat : largest < 2 ^ 1024 := by decide +kernel
    exact_mod_cast hnat
  have := (zpow_lt_zpow_iff_right₀ (by norm_num)).mp (((h.above (by omega)).trans hle).trans_lt hlt)
  omega

end RatioParts

theorem isFinite_ofNatRatio {n d : Nat} (hd : 0 < d) (h : n ≤ d * largest) :
    (ofNatRatio n d).isFinite = true := by
  by_cases hn : n = 0
  · rw [hn, ofNatRatio, if_pos rfl]
    decide +kernel
  have hle : (n : Rat) / d ≤ (largest : Nat) := by
    rw [div_le_iff₀' (by exact_mod_cast hd)]
    exact_mod_cast h
  obtain ⟨m, e, hparts, hbits⟩ := exists_ratioParts hn hd
  have hpattern : (e + 1074).toNat * 2 ^ 52 + m < infinityBits := by
    have hm := hparts.le_two_pow
    unfold infinityBits
    rcases Int.lt_or_eq_of_le (hparts.exponent_le hle) with hlt | rfl
    · omega
    · -- the mantissa of the greatest exponent has no room to be rounded up
      have hm' := hparts.whole (2 ^ 53 - 1) (hle.trans_eq largest_eq)
      omega
  rw [hbits, Nat.min_eq_left hpattern.le]
  exact isFinite_ofBits hpattern

theorem natAbs_num_le {q : Rat} {N : Nat} (h : |q| ≤ N) : q.num.natAbs ≤ q.den * N := by
  have hden : (0 : Rat) < q.den := by exact_mod_cast q.den_pos
  have habs : |q| = (q.num.natAbs : Rat) / q.den := by
    conv_lhs => rw [← Rat.num_div_den q]
    rw [abs_div, abs_of_pos hden, ← Int.cast_abs, Int.abs_eq_natAbs, Int.cast_natCast]
  rw [habs, div_le_iff₀ hden, mul_comm] at h
  exact_mod_cast h

theorem isFinite_ofRat {q : Rat} (h : |q| ≤ largest) : (ofRat q).isFinite = true := by
  have hfinite := isFinite_ofNatRatio q.den_pos (natAbs_num_le h)
  unfold ofRat
  dsimp only
  split_ifs
  · exact isFinite_neg hfinite
  · exact hfinite

theorem parts_le {x : Float} (h : x.isFinite = true) :
    (parts x).1 ≤ 2 ^ 53 - 1 ∧ (parts x).2 ≤ 971 := by
  have hfield : x.toBits.toNat / 2 ^ 52 % 2 ^ 11 < 2047 := by
    have hlt := toNat_unpackExponent_lt (b := x.toBits.toBitVec) h
    rwa [toNat_unpackExponent] at hlt
  have htwo : twoTo 52 = 2 ^ 52 ∧ twoTo 11 = 2 ^ 11 := ⟨rfl, rfl⟩
  unfold parts
  dsimp only
  rw [htwo.1, htwo.2]
  split_ifs <;> constructor <;> dsimp only <;> omega

/-- The number of a mantissa and an exponent, made without fractions of powers. -/
theorem scaled_eq (m : Nat) (e : Int) :
    (if 0 ≤ e then ((m * twoTo e.toNat : Nat) : Rat) else mkRat m (twoTo (-e).toNat)) = m * 2 ^ e := by
  split_ifs with he
  · rw [two_zpow_toNat he, Nat.cast_mul]
  · rw [two_zpow_neg_toNat (by omega), Rat.mkRat_eq_div, div_eq_mul_inv]
    rfl

/-- A finite double is no larger than the greatest one. -/
theorem abs_le_largest {x : Float} {q : Rat} (h : toRat? x = some q) :
    x.isFinite = true ∧ |q| ≤ largest := by
  unfold toRat? at h
  have hx : x.isFinite = true := by
    by_contra hx
    rw [if_neg hx] at h
    exact nomatch h
  rw [if_pos hx] at h
  refine ⟨hx, ?_⟩
  obtain ⟨hm, he⟩ := parts_le hx
  generalize parts x = p at h hm he
  obtain ⟨m, e⟩ := p
  have hbound : (m : Rat) * 2 ^ e ≤ (largest : Nat) := by
    rw [largest_eq]
    have hmantissa : (m : Rat) ≤ ((2 ^ 53 - 1 : Nat) : Rat) := by exact_mod_cast hm
    exact mul_le_mul hmantissa (zpow_le_zpow_right₀ (by norm_num) he)
      (zpow_pos (by norm_num) _).le (Nat.cast_nonneg _)
  have hnonneg : (0 : Rat) ≤ m * 2 ^ e := mul_nonneg (Nat.cast_nonneg _) (zpow_pos (by norm_num) _).le
  dsimp only at h
  rw [scaled_eq] at h
  obtain rfl := Option.some.inj h
  split_ifs
  · rw [abs_neg, abs_of_nonneg hnonneg]
    exact hbound
  · rw [abs_of_nonneg hnonneg]
    exact hbound

theorem isFinite_iff (x : Float) : Scalar.isFinite x = true ↔ x.isFinite = true := by
  show (toRat? x).isSome = true ↔ _
  unfold toRat?
  by_cases h : x.isFinite = true
  · simp [h]
  · simp [h]

end Double

/-! ## Scalars -/

theorem abs_roundRat_le {places N : Nat} {q : Rat} (h : |q| ≤ N) : |roundRat places q| ≤ N := by
  have hten : (0 : Rat) < (tenTo places : Nat) := Nat.cast_pos.mpr (tenTo_pos places)
  have hscaled : |q * (tenTo places : Nat)| ≤ ((N * tenTo places : Nat) : Rat) := by
    rw [abs_mul, abs_of_pos hten, Nat.cast_mul]
    exact mul_le_mul_of_nonneg_right h hten.le
  have hnearest : |nearestInt (q * (tenTo places : Nat))| ≤ (N * tenTo places : Nat) := by
    have hnat := nearestNat_le (q * (tenTo places : Nat)).den_pos
      ((Double.natAbs_num_le hscaled).trans_eq (Nat.mul_comm _ _))
    unfold nearestInt
    dsimp only
    split_ifs
    · rw [abs_neg, Nat.abs_cast]
      exact_mod_cast hnat
    · rw [Nat.abs_cast]
      exact_mod_cast hnat
  unfold roundRat
  rw [Rat.mkRat_eq_div, abs_div, abs_of_pos hten, div_le_iff₀ hten, ← Int.cast_abs]
  exact_mod_cast hnearest

/-- Scalars that stay finite when they are cleaned: rounded, or replaced by a side of the canvas that they are
beyond. -/
class StaysFinite (α : Type) [Scalar α] : Prop where
  isFinite_zero : Scalar.isFinite (Scalar.zero : α) = true
  isFinite_roundTo (places : Nat) {x : α} (h : Scalar.isFinite x = true) :
    Scalar.isFinite (Scalar.roundTo places x) = true
  isFinite_ofNat {n : Nat} {x : α} (h : Scalar.isFinite x = true)
    (hn : (Numeral.whole n).isBelow (.real x) = true) : Scalar.isFinite (Scalar.ofNat n : α) = true

instance : StaysFinite Rat where
  isFinite_zero := rfl
  isFinite_roundTo _ _ _ := rfl
  isFinite_ofNat _ _ := rfl

instance : StaysFinite Float where
  isFinite_zero := by decide +kernel
  isFinite_roundTo places {x} h := by
    cases hq : Scalar.toRat? x with
    | none => simp [Scalar.isFinite, hq] at h
    | some q =>
      obtain ⟨hx, hbound⟩ := Double.abs_le_largest hq
      unfold Scalar.roundTo
      rw [hq]
      dsimp only
      rw [Double.isFinite_iff]
      split_ifs
      · exact Double.isFinite_zero_mul hx
      · exact Double.isFinite_ofRat (abs_roundRat_le hbound)
  isFinite_ofNat {n x} h hn := by
    cases hq : Scalar.toRat? x with
    | none => simp [Scalar.isFinite, hq] at h
    | some q =>
      obtain ⟨-, hbound⟩ := Double.abs_le_largest hq
      have hlt : (n : Rat) < q := by
        simpa [Numeral.isBelow, Numeral.isOrdered, Numeral.toRat?, hq] using hn
      rw [Double.isFinite_iff]
      refine Double.isFinite_ofRat ?_
      rw [abs_of_nonneg (Nat.cast_nonneg n)]
      exact (hlt.le.trans (le_abs_self q)).trans hbound

end Drawing
