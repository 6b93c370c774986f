import Drawing.Proofs.Number.Printed
import Drawing.Proofs.Number.Shortest

/-!
# `Drawing/Proofs/Number/Nearest.lean` — doubles read back from their digits

A decimal is read as the double nearest to it. The exponent of that double is found first, then its mantissa as a
rounded quotient, and the two are put together as a pattern of bits, in which a mantissa that was rounded up to a power
of two carries over into the exponent. Whatever rounds to a double is read as it, and so are its shortest digits.

> **what stands for the same number as the shortest digits of a double is read as the double**, under its sign.
-/

namespace Drawing

/-- The number nearest to a quotient is the one at most half a unit away, and less than that if it is odd. -/
theorem nearestNat_eq {n d m : Nat} (hd : 0 < d) (hlow : 2 * m * d ≤ 2 * n + d) (hhigh : 2 * n ≤ (2 * m + 1) * d)
    (hinside : m % 2 = 1 → 2 * m * d < 2 * n + d ∧ 2 * n < (2 * m + 1) * d) : nearestNat n d = m := by
  have hn := Nat.div_add_mod n d
  have hr := Nat.mod_lt n hd
  unfold nearestNat
  dsimp only
  generalize n / d = q at hn ⊢
  generalize n % d = r at hn hr ⊢
  obtain rfl := hn
  have hdown : m ≤ q + 1 := by
    by_contra hgt
    have := Nat.mul_le_mul_right d (show 2 * q + 4 ≤ 2 * m by omega)
    rw [Nat.add_mul, Nat.mul_assoc, Nat.mul_comm q] at this
    omega
  have hup : q ≤ m := by
    by_contra hlt
    have := Nat.mul_le_mul_right d (show 2 * m + 2 ≤ 2 * q by omega)
    rw [Nat.mul_assoc 2 q, Nat.mul_comm q, Nat.add_mul] at this
    rw [Nat.add_mul] at hhigh
    omega
  rcases Nat.lt_or_eq_of_le hup with hlt | rfl
  · obtain rfl : m = q + 1 := by omega
    have hscaled : 2 * (q + 1) * d = 2 * (d * q) + 2 * d := by ring
    rw [hscaled] at hlow hinside
    split_ifs <;> omega
  · have hscaled : (2 * q + 1) * d = 2 * (d * q) + d := by ring
    rw [hscaled] at hhigh hinside
    split_ifs <;> omega

namespace Double

open Float.Model Float.Model.UnpackedFloat

/-! ## Rounded quotients -/

/-- The mantissa of a quotient, made without leaving the natural numbers. -/
theorem mantissa_eq {n d m : Nat} {e : Int} (hd : 0 < d) (hlow : ((m : Rat) - 1 / 2) * 2 ^ e ≤ n / d)
    (hhigh : (n : Rat) / d ≤ (m + 1 / 2) * 2 ^ e)
    (hinside : m % 2 = 1 → ((m : Rat) - 1 / 2) * 2 ^ e < n / d ∧ (n : Rat) / d < (m + 1 / 2) * 2 ^ e) :
    (if 0 ≤ e then nearestNat n (d * twoTo e.toNat) else nearestNat (n * twoTo (-e).toNat) d) = m := by
  have hnear {N D : Nat} (hD : 0 < D) (hND : (N : Rat) / D = n / d / 2 ^ e) : nearestNat N D = m := by
    have hu := two_zpow_pos e
    have hD' : (0 : Rat) < D := by exact_mod_cast hD
    have hle (a : Rat) : a * 2 ^ e ≤ n / d ↔ a * D ≤ N := by
      rw [← le_div_iff₀ hu, ← hND, le_div_iff₀ hD']
    have hle' (a : Rat) : (n : Rat) / d ≤ a * 2 ^ e ↔ N ≤ a * D := by
      rw [← div_le_iff₀ hu, ← hND, div_le_iff₀ hD']
    have hlt (a : Rat) : a * 2 ^ e < n / d ↔ a * D < N := by
      rw [← lt_div_iff₀ hu, ← hND, lt_div_iff₀ hD']
    have hlt' (a : Rat) : (n : Rat) / d < a * 2 ^ e ↔ N < a * D := by
      rw [← div_lt_iff₀ hu, ← hND, div_lt_iff₀ hD']
    rw [hle] at hlow
    rw [hle'] at hhigh
    rw [hlt, hlt'] at hinside
    have hlow : (2 : Rat) * m * D ≤ 2 * N + D := by linarith
    have hhigh : (2 : Rat) * N ≤ (2 * m + 1) * D := by linarith
    have hinside (hodd : m % 2 = 1) : (2 : Rat) * m * D < 2 * N + D ∧ (2 : Rat) * N < (2 * m + 1) * D := by
      obtain ⟨h1, h2⟩ := hinside hodd
      exact ⟨by linarith, by linarith⟩
    exact nearestNat_eq hD (by exact_mod_cast hlow) (by exact_mod_cast hhigh) (by exact_mod_cast hinside)
  split_ifs with he
  · refine hnear (Nat.mul_pos hd (twoTo_pos _)) ?_
    rw [Nat.cast_mul, two_zpow_toNat he, div_div]
  · refine hnear hd ?_
    rw [Nat.cast_mul, two_zpow_neg_toNat (by omega), div_inv_eq_mul, mul_div_right_comm]

theorem lt_of_two_zpow_lt {k k' : Int} (h : (2 : Rat) ^ k < 2 ^ k') : k < k' :=
  (zpow_lt_zpow_iff_right₀ (by norm_num)).mp h

theorem le_lowEnd_half (m : Nat) (e : Int) : ((m : Rat) - 1 / 2) * 2 ^ e ≤ lowEnd m e := by
  refine mul_le_mul_of_nonneg_right ?_ (two_zpow_pos e).le
  split_ifs <;> linarith

theorem highEnd_lt {m : Nat} {e : Int} (h : IsParts m e) : highEnd m e < 2 ^ (e + 53) := by
  have hlt : (m : Rat) + 1 ≤ 2 ^ 53 := by exact_mod_cast Nat.succ_le_of_lt h.lt
  calc (m + 1 / 2) * 2 ^ e < (2 : Rat) ^ 53 * 2 ^ e := mul_lt_mul_of_pos_right (by linarith) (two_zpow_pos e)
    _ = 2 ^ (e + 53) := (two_zpow_add e 53).symm

/-- The exponent of a quotient is that of the double that it rounds to, or one less if it is rounded up to a power of
two. -/
theorem exponentFor_of_roundsTo {n d m : Nat} {e : Int} (hn : n ≠ 0) (hd : 0 < d) (h : IsParts m e)
    (hq : RoundsTo m e (n / d)) :
    exponentFor n d = e ∨ exponentFor n d = e - 1 ∧ m = 2 ^ 52 ∧ e ≠ -1074 ∧ (n : Rat) / d < 2 ^ 52 * 2 ^ e := by
  have hu := two_zpow_pos e
  have hd' : (0 : Rat) < d := by exact_mod_cast hd
  have hge := h.ge
  obtain ⟨hleast, hbelow, habove⟩ := exponentFor_bounds hn hd
  rw [← div_lt_iff₀' hd'] at hbelow
  rw [← le_div_iff₀' hd'] at habove
  generalize exponentFor n d = E at hleast hbelow habove ⊢
  have hle : E ≤ e := by
    by_contra hgt
    have := lt_of_two_zpow_lt ((habove (by omega)).trans_lt (hq.high.trans_lt (highEnd_lt h)))
    omega
  rcases Int.lt_or_eq_of_le hle with hless | rfl
  · have he : e ≠ -1074 := by omega
    have hnormal := h.normal he
    have hnext : E = e - 1 := by
      have := lt_of_two_zpow_lt <| calc (2 : Rat) ^ (e + 51) = 2 ^ 51 * 2 ^ e := two_zpow_add e 51
        _ ≤ (2 ^ 52 - 1 / 4) * 2 ^ e := mul_le_mul_of_nonneg_right (by norm_num) hu.le
        _ ≤ lowEnd m e := le_lowEnd hnormal he
        _ ≤ n / d := hq.low
        _ < 2 ^ (E + 53) := hbelow
      omega
    rw [hnext, show e - 1 + 53 = e + 52 by omega, show (52 : Int) = (52 : Nat) from rfl, two_zpow_add] at hbelow
    refine .inr ⟨hnext, ?_, he, hbelow⟩
    by_contra hne
    have hmore : (2 ^ 52 + 1 : Rat) ≤ m := by exact_mod_cast show 2 ^ 52 + 1 ≤ m by omega
    have := calc (2 : Rat) ^ 52 * 2 ^ e ≤ (m - 1 / 2) * 2 ^ e := mul_le_mul_of_nonneg_right (by linarith) hu.le
      _ ≤ lowEnd m e := le_lowEnd_half m e
      _ ≤ n / d := hq.low
    linarith
  · exact .inl rfl

/-- **The double nearest to a quotient is the one that it rounds to.** -/
theorem ofNatRatio_of_roundsTo {n d m : Nat} {e : Int} (hd : 0 < d) (h : IsParts m e) (hm : 0 < m) (he : e ≤ 971)
    (hq : RoundsTo m e (n / d)) :
    ofNatRatio n d = Float.ofBits (UInt64.ofNat ((e + 1074).toNat * 2 ^ 52 + m)) := by
  have hn : n ≠ 0 := by
    rintro rfl
    have := hq.pos hm
    simp at this
  have hlt := h.lt
  have hge := h.ge
  have hpattern : (exponentFor n d + 1074).toNat * 2 ^ 52 +
      (if 0 ≤ exponentFor n d then nearestNat n (d * twoTo (exponentFor n d).toNat)
        else nearestNat (n * twoTo (-exponentFor n d).toNat) d) = (e + 1074).toNat * 2 ^ 52 + m := by
    rcases exponentFor_of_roundsTo hn hd h hq with hE | ⟨hE, hpower, he', hbelow⟩
    · have hlow := le_lowEnd_half m e
      rw [hE, mantissa_eq hd (hlow.trans hq.low) hq.high fun hodd =>
        ⟨hlow.trans_lt (hq.inside hodd).1, (hq.inside hodd).2⟩]
    · -- one exponent less is made up for by a mantissa of one digit more
      have hhalf : (2 : Rat) ^ e = 2 * 2 ^ (e - 1) := by
        rw [mul_comm, ← zpow_add_one₀ (by norm_num), sub_add_cancel]
      have hlow := (le_lowEnd (h.normal he') he').trans hq.low
      have hu := two_zpow_pos (e - 1)
      rw [hhalf] at hlow hbelow
      rw [hE, mantissa_eq (m := 2 ^ 53) hd (by push_cast; linarith) (by push_cast; linarith) fun hodd => by omega]
      omega
  have hsmall : (e + 1074).toNat * 2 ^ 52 + m ≤ infinityBits := by
    unfold infinityBits
    omega
  unfold ofNatRatio
  rw [if_neg hn]
  dsimp only
  rw [show twoTo 52 = 2 ^ 52 from rfl, hpattern, Nat.min_eq_left hsmall]

/-! ## Patterns of bits -/

theorem toNat_packComponents (s : Sign) (e : BitVec 11) (m : BitVec 52) :
    (packComponents .binary64 s e m).toNat = s.toBitVec.toNat * 2 ^ 63 + e.toNat * 2 ^ 52 + m.toNat := by
  have he : e.toNat < 2 ^ 11 := e.isLt
  have hm : m.toNat < 2 ^ 52 := m.isLt
  unfold packComponents
  rw [BitVec.toNat_append, BitVec.toNat_append, ← Nat.shiftLeft_add_eq_or_of_lt hm, ← Nat.shiftLeft_add_eq_or_of_lt he,
    Nat.shiftLeft_eq, Nat.shiftLeft_eq]
  omega

/-- A number with another sign. -/
def withSign (s : Sign) : UnpackedFloat → UnpackedFloat
  | .infinity _ => .infinity s
  | .notANumber => .notANumber
  | .zero _ => .zero s
  | .finite _ m e hm => .finite s m e hm

/-- All zeros in the exponent stand for the one above it, and the mantissa is written as it is. -/
theorem pack_withSign_zeros {b : BitVec Format.binary64.numBits} (h : unpackExponent b = 0#_) (s : Sign) :
    UnpackedFloat.pack .binary64 (withSign s (UnpackedFloat.unpack .binary64 b)) =
      packComponents .binary64 s (unpackExponent b) (unpackMantissa b) := by
  have hmantissa : (unpackMantissa b).toNat < 2 ^ 52 := (unpackMantissa b).isLt
  have hzero : (unpackExponent b).toNat = 0 := congrArg BitVec.toNat h
  have hones : unpackExponent b ≠ -1#_ := fun heq => absurd (h.symm.trans heq) (by decide)
  unfold UnpackedFloat.unpack
  dsimp only
  rw [if_neg hones, if_pos h]
  by_cases hm : unpackMantissa b = 0#_
  · rw [dif_pos hm, h, hm]
    rfl
  · rw [dif_neg hm]
    have hpos : (unpackMantissa b).toNat ≠ 0 := fun heq => hm (BitVec.eq_of_toNat_eq heq)
    have hlog : (unpackMantissa b).toNat.log2 + 1 ≠ Format.binary64.mantissaBits := by
      have hlt := (Nat.log2_lt hpos).mpr hmantissa
      show _ ≠ 53
      omega
    have hbiased : ((unpackExponent b).toNat - (Format.binary64.exponentBias + (52 : Nat)) + 1 +
        Format.binary64.exponentBias + (52 : Nat) : Int).toNat = 1 := by
      omega
    unfold withSign UnpackedFloat.pack
    dsimp only
    rw [hbiased, if_neg (by decide), if_neg hlog, h, BitVec.ofNat_toNat, BitVec.setWidth_eq]

/-- Any other mantissa is written without its first digit. -/
theorem pack_withSign_digits {b : BitVec Format.binary64.numBits} (hones : unpackExponent b ≠ -1#_)
    (hzeros : unpackExponent b ≠ 0#_) (s : Sign) :
    UnpackedFloat.pack .binary64 (withSign s (UnpackedFloat.unpack .binary64 b)) =
      packComponents .binary64 s (unpackExponent b) (unpackMantissa b) := by
  have hexp : (unpackExponent b).toNat < 2 ^ 11 := (unpackExponent b).isLt
  have hmantissa : (unpackMantissa b).toNat < 2 ^ 52 := (unpackMantissa b).isLt
  have hne : (unpackExponent b).toNat ≠ 2047 := fun heq => hones (BitVec.eq_of_toNat_eq heq)
  have hfirst : (1#1 ++ unpackMantissa b).toNat = 2 ^ 52 + (unpackMantissa b).toNat := by
    rw [BitVec.toNat_append, ← Nat.shiftLeft_add_eq_or_of_lt hmantissa]
    rfl
  have hpos : 2 ^ 52 + (unpackMantissa b).toNat ≠ 0 := by omega
  have hlog : (2 ^ 52 + (unpackMantissa b).toNat).log2 = 52 := by
    have hlt := (Nat.log2_lt hpos).mpr (show 2 ^ 52 + (unpackMantissa b).toNat < 2 ^ 53 by omega)
    have hle := (Nat.le_log2 hpos).mpr (Nat.le_add_right (2 ^ 52) (unpackMantissa b).toNat)
    omega
  have hbiased : ((unpackExponent b).toNat - (Format.binary64.exponentBias + (52 : Nat)) +
      Format.binary64.exponentBias + (52 : Nat) : Int).toNat = (unpackExponent b).toNat := by
    omega
  have hdigits : BitVec.ofNat 52 (2 ^ 52 + (unpackMantissa b).toNat) = unpackMantissa b :=
    BitVec.eq_of_toNat_eq (by rw [BitVec.toNat_ofNat]; omega)
  unfold UnpackedFloat.unpack
  dsimp only
  rw [if_neg hones, if_neg hzeros]
  unfold withSign UnpackedFloat.pack
  dsimp only
  rw [hbiased, if_neg (show ¬ 2 ^ 11 ≤ (unpackExponent b).toNat + 1 by omega), hfirst, hlog, if_pos (by decide),
    BitVec.ofNat_toNat, BitVec.setWidth_eq, hdigits]

/-- To pack what was unpacked of a finite number changes no bit but that of the sign. -/
theorem pack_withSign {b : BitVec Format.binary64.numBits} (h : unpackExponent b ≠ -1#_) (s : Sign) :
    UnpackedFloat.pack .binary64 (withSign s (UnpackedFloat.unpack .binary64 b)) =
      packComponents .binary64 s (unpackExponent b) (unpackMantissa b) := by
  by_cases hzeros : unpackExponent b = 0#_
  · exact pack_withSign_zeros hzeros s
  · exact pack_withSign_digits h hzeros s

theorem withSign_unpack (b : BitVec Format.binary64.numBits) :
    withSign (.ofBitVec (unpackSign b)) (UnpackedFloat.unpack .binary64 b) = UnpackedFloat.unpack .binary64 b := by
  unfold UnpackedFloat.unpack
  dsimp only
  by_cases hones : unpackExponent b = -1#_
  · rw [if_pos hones]
    by_cases hm : unpackMantissa b = 0#_
    · rw [if_pos hm]
      rfl
    · rw [if_neg hm]
      rfl
  · rw [if_neg hones]
    by_cases hzeros : unpackExponent b = 0#_
    · rw [if_pos hzeros]
      by_cases hm : unpackMantissa b = 0#_
      · rw [dif_pos hm]
        rfl
      · rw [dif_neg hm]
        rfl
    · rw [if_neg hzeros]
      rfl

theorem neg_withSign (s : Sign) (u : UnpackedFloat) :
    UnpackedFloat.neg (withSign s u) = withSign (-s) u := by
  cases u <;> rfl

/-- A pattern below that of infinity is the pattern of a double. -/
theorem toBits_ofBits {bits : Nat} (h : bits < infinityBits) :
    (Float.ofBits (UInt64.ofNat bits)).toBits.toNat = bits := by
  unfold infinityBits at h
  have hbits : (UInt64.ofNat bits).toBitVec.toNat = bits := by
    rw [UInt64.toNat_toBitVec, UInt64.toNat_ofNat']
    omega
  have hexponent := toNat_unpackExponent (UInt64.ofNat bits).toBitVec
  have hmantissa := toNat_unpackMantissa (UInt64.ofNat bits).toBitVec
  have hones : @unpackExponent .binary64 (UInt64.ofNat bits).toBitVec ≠ -1#_ := by
    intro heq
    have hall : (-1#11).toNat = 2047 := rfl
    have hnat := congrArg BitVec.toNat heq
    rw [hexponent, hbits] at hnat
    exact absurd (hnat.trans hall) (by omega)
  have hsign : Sign.ofBitVec (@unpackSign .binary64 (UInt64.ofNat bits).toBitVec) = .positive := by
    have hnat := toNat_unpackSign (UInt64.ofNat bits).toBitVec
    have hzero : @unpackSign .binary64 (UInt64.ofNat bits).toBitVec = 0#1 :=
      BitVec.eq_of_toNat_eq (by rw [hnat, hbits]; show _ = 0; omega)
    exact if_pos hzero
  show (UnpackedFloat.pack .binary64 (UnpackedFloat.unpack .binary64 (UInt64.ofNat bits).toBitVec)).toNat = bits
  rw [← withSign_unpack, hsign, pack_withSign hones, toNat_packComponents, hexponent, hmantissa, hbits]
  show 0 * 2 ^ 63 + _ + _ = bits
  omega

/-- A minus sign in front of a finite double without one sets the bit of the sign. -/
theorem toBits_neg {x : Float} (hx : x.isFinite = true) (hsign : signBit x = false) :
    (-x).toBits.toNat = 2 ^ 63 + x.toBits.toNat := by
  have hones := (isFinite_unpack_iff x.toBits.toBitVec).mp hx
  have hexponent := toNat_unpackExponent x.toBits.toBitVec
  have hmantissa := toNat_unpackMantissa x.toBits.toBitVec
  have hpositive := sign_ofBitVec x
  rw [hsign, if_neg Bool.false_ne_true] at hpositive
  have hclear : x.toBits.toNat < 2 ^ 63 := not_le.mp (of_decide_eq_false hsign)
  rw [UInt64.toNat_toBitVec] at hexponent hmantissa
  show (UnpackedFloat.pack .binary64 (UnpackedFloat.neg (UnpackedFloat.unpack .binary64 x.toBits.toBitVec))).toNat = _
  rw [← withSign_unpack, neg_withSign, hpositive, pack_withSign hones, toNat_packComponents, hexponent, hmantissa]
  show 1 * 2 ^ 63 + _ + _ = _
  omega

/-- The bits of a finite double. -/
theorem toBits_of_parts {x : Float} (hx : x.isFinite = true) :
    x.toBits.toNat = (if signBit x then 2 ^ 63 else 0) + (((parts x).2 + 1074).toNat * 2 ^ 52 + (parts x).1) := by
  have hlt : x.toBits.toNat < 2 ^ 64 := x.toBits.toNat_lt
  have hfield := toNat_unpackExponent_lt (b := x.toBits.toBitVec) hx
  rw [toNat_unpackExponent, UInt64.toNat_toBitVec] at hfield
  have htwo : twoTo 52 = 2 ^ 52 ∧ twoTo 11 = 2 ^ 11 ∧ twoTo 63 = 2 ^ 63 := ⟨rfl, rfl, rfl⟩
  unfold signBit parts
  dsimp only
  rw [htwo.1, htwo.2.1, htwo.2.2]
  split_ifs with hsign <;> rw [decide_eq_true_eq] at hsign <;> dsimp only <;> omega

/-! ## Digits -/

theorem twoTo_le_twoTo {k k' : Nat} (h : k ≤ k') : twoTo k ≤ twoTo k' := Nat.pow_le_pow_right (by decide) h

theorem lt_of_tenTo_lt {k k' : Nat} (h : tenTo k < tenTo k') : k < k' :=
  (Nat.pow_lt_pow_iff_right (by decide)).mp h

/-- Dropping zeros raises the exponent. -/
theorem le_trimZeros (fuel c : Nat) (k : Int) : k ≤ (trimZeros fuel c k).2 := by
  induction fuel generalizing c k with
  | zero => exact Int.le_refl k
  | succ fuel ih =>
    unfold trimZeros
    split_ifs
    · exact (Int.le_add_one (Int.le_refl k)).trans (ih (c / 10) (k + 1))
    · exact Int.le_refl k

theorem neg_digitCount_le_leadingExponent {n d : Nat} (hn : 0 < n) : -(digitCount d : Int) ≤ leadingExponent n d := by
  have hpos := digitCount_pos hn
  unfold leadingExponent
  dsimp only
  generalize (if 0 ≤ (digitCount n : Int) - digitCount d then
      decide (d * tenTo ((digitCount n : Int) - digitCount d).toNat ≤ n)
    else decide (d ≤ n * tenTo (-((digitCount n : Int) - digitCount d)).toNat)) = reaches
  cases reaches with
  | true => rw [if_pos rfl]; omega
  | false => rw [if_neg Bool.false_ne_true]; omega

theorem digitCount_scale_le {m : Nat} {e : Int} (h : IsParts m e) : digitCount (intervalOf m e).scale ≤ 325 := by
  have hscale : (intervalOf m e).scale ≤ 4 * twoTo 1074 := by
    unfold intervalOf
    dsimp only
    split_ifs
    · exact Nat.le_mul_of_pos_right 4 (twoTo_pos _)
    · have hge := h.ge
      exact Nat.mul_le_mul_left 4 (twoTo_le_twoTo (by omega))
  have hpos := (scale_intervalOf m e).1
  have hlt : tenTo (digitCount (intervalOf m e).scale - 1) < tenTo 325 :=
    ((tenTo_digitCount hpos).1.trans hscale).trans_lt (by decide +kernel)
  have := lt_of_tenTo_lt hlt
  omega

/-- The last of the shortest digits stands no further behind the point than the seventeenth of the least double. -/
theorem le_exponent_of_shortest {x : Float} {negative : Bool} {digits : Nat} {exponent : Int}
    (h : shortest x = .finite negative digits exponent) : -341 ≤ exponent := by
  unfold shortest at h
  split_ifs at h with hnan hfinite
  dsimp only at h
  split_ifs at h with hzero
  · obtain ⟨-, -, rfl⟩ := Shortest.finite.inj h
    decide
  · obtain ⟨-, -, rfl⟩ := Shortest.finite.inj h
    have hparts := isParts_parts x
    have hpos := Nat.pos_of_ne_zero hzero
    obtain ⟨n, hn, c, -, heq⟩ := shortestParts_eq hparts hpos
    have hmid : 0 < (intervalOf (parts x).1 (parts x).2).mid := mid_intervalOf_pos hpos _
    have htop := neg_digitCount_le_leadingExponent (d := (intervalOf (parts x).1 (parts x).2).scale) hmid
    have hscale := digitCount_scale_le hparts
    have htrim := le_trimZeros 17 c
      (leadingExponent (intervalOf (parts x).1 (parts x).2).mid (intervalOf (parts x).1 (parts x).2).scale - n)
    rw [heq]
    omega

theorem ofDecimal_eq_ofNatRatio {m : Nat} {e : Int} (hm : m ≠ 0) (he : -341 ≤ e) (hq : (m : Rat) * 10 ^ e < 2 ^ 1024) :
    ∃ n d : Nat, 0 < d ∧ (n : Rat) / d = m * 10 ^ e ∧ ofDecimal m e = ofNatRatio n d := by
  have htop : e + ((m.log2 * 302 / 1000 : Nat) : Int) ≤ 400 := by
    have hlog : (2 : Rat) ^ (m.log2 : Int) ≤ m := by exact_mod_cast Nat.log2_self_le hm
    have hbits {k : Int} (hk : (2 : Rat) ^ k ≤ 10 ^ e) : (m.log2 : Int) + k < 1024 := by
      refine lt_of_two_zpow_lt (lt_of_le_of_lt ?_ hq)
      rw [zpow_add₀ (by norm_num)]
      exact mul_le_mul hlog hk (two_zpow_pos k).le (Nat.cast_nonneg m)
    -- ten lies between the third and the fourth power of two
    rcases Int.le_total 0 e with hpos | hneg
    · have := hbits (k := 3 * e) (by
        rw [zpow_mul]
        exact zpow_le_zpow_left₀ hpos (by norm_num) (by norm_num))
      omega
    · have := hbits (k := 4 * e) (by
        rw [zpow_mul, ← neg_neg e, zpow_neg, zpow_neg (10 : Rat)]
        exact inv_anti₀ (ten_zpow_pos _) (zpow_le_zpow_left₀ (by omega) (by norm_num) (by norm_num)))
      omega
  unfold ofDecimal
  dsimp only
  rw [if_neg hm, if_neg (by omega), if_neg (by omega)]
  split_ifs with hexp
  · refine ⟨_, 1, Nat.one_pos, ?_, rfl⟩
    rw [Nat.cast_one, div_one, Nat.cast_mul, cast_tenTo, Int.toNat_of_nonneg hexp]
  · refine ⟨_, _, tenTo_pos _, ?_, rfl⟩
    rw [cast_tenTo, Int.toNat_of_nonneg (by omega), zpow_neg, div_inv_eq_mul]

/-- What rounds to a double and is not too small to be looked at is read as the double without its sign. -/
theorem ofDecimal_of_roundsTo {x : Float} (hx : x.isFinite = true) (hpos : 0 < (parts x).1) {m : Nat} {e : Int}
    (he : m ≠ 0 → -341 ≤ e) (hq : RoundsTo (parts x).1 (parts x).2 (m * 10 ^ e)) :
    ofDecimal m e = Float.ofBits (UInt64.ofNat (((parts x).2 + 1074).toNat * 2 ^ 52 + (parts x).1)) := by
  have hparts := isParts_parts x
  obtain ⟨-, hexp⟩ := parts_le hx
  have hm : m ≠ 0 := by
    rintro rfl
    have := hq.pos hpos
    simp at this
  have hbound : (m : Rat) * 10 ^ e < 2 ^ 1024 := by
    rw [← zpow_natCast]
    exact hq.high.trans_lt <| (highEnd_lt hparts).trans_le (zpow_le_zpow_right₀ (by norm_num) (by omega))
  obtain ⟨n, d, hd, hnd, hread⟩ := ofDecimal_eq_ofNatRatio hm (he hm) hbound
  rw [hread]
  exact ofNatRatio_of_roundsTo hd hparts hpos hexp (hnd ▸ hq)

/-- **What stands for the same number as the shortest digits of a double is read as the double**, under its sign. -/
theorem ofSigned_of_shortest {x : Float} {negative : Bool} {digits : Nat} {exponent : Int}
    (h : shortest x = .finite negative digits exponent) {m : Nat} {e : Int}
    (hq : (m : Rat) * 10 ^ e = digits * 10 ^ exponent) (he : m ≠ 0 → -341 ≤ e) :
    Scalar.ofSigned negative m e = x := by
  have hx := isFinite_of_shortest h
  have hparts := isParts_parts x
  have hbits := toBits_of_parts hx
  obtain ⟨hmantissa, hexp⟩ := parts_le hx
  obtain ⟨d, k, hd, hcase⟩ := shortest_of_isFinite hx
  obtain ⟨rfl, rfl, rfl⟩ := Shortest.finite.inj (hd.symm.trans h)
  have hread : ofDecimal m e = Float.ofBits (UInt64.ofNat (((parts x).2 + 1074).toNat * 2 ^ 52 + (parts x).1)) := by
    rcases hcase with ⟨hzero, hdigits⟩ | ⟨hpos, hround⟩
    · have hm : m = 0 := by
        rw [← hq] at hdigits
        exact_mod_cast (mul_eq_zero.mp hdigits).resolve_right (ten_zpow_pos e).ne'
      have hleast : (parts x).2 = -1074 := by
        by_contra hne
        have := hparts.normal hne
        omega
      rw [hm, hzero, hleast]
      rfl
    · exact ofDecimal_of_roundsTo hx hpos he (hq ▸ hround)
  generalize hpattern : ((parts x).2 + 1074).toNat * 2 ^ 52 + (parts x).1 = pattern at hbits hread
  have hlt : pattern < infinityBits := by
    unfold infinityBits
    omega
  have hback := toBits_ofBits hlt
  have hsigned : (Scalar.ofSigned (signBit x) m e : Float) = if signBit x then -ofDecimal m e else ofDecimal m e := rfl
  refine eq_of_toBits ?_
  rw [hsigned, hread, hbits]
  cases signBit x with
  | false => rw [if_neg Bool.false_ne_true, if_neg Bool.false_ne_true, hback, Nat.zero_add]
  | true =>
    have hclear : signBit (Float.ofBits (UInt64.ofNat pattern)) = false := by
      unfold signBit infinityBits at *
      rw [hback, decide_eq_false_iff_not, show twoTo 63 = 2 ^ 63 from rfl]
      omega
    rw [if_pos rfl, if_pos rfl, toBits_neg (isFinite_ofBits hlt) hclear, hback]

end Double

/-- Scalars that are read from whatever stands for the same number as their shortest digits and ends with the same
digit, or right behind the point. -/
class ReadsDigits (α : Type) [Scalar α] [DecimalText α] : Prop where
  ofSigned_of_shortest {x : α} {negative : Bool} {digits : Nat} {exponent : Int}
    (h : DecimalText.shortest x = .finite negative digits exponent) {m : Nat} {e : Int}
    (hq : (m : Rat) * 10 ^ e = digits * 10 ^ exponent) (he : digits ≠ 0 → e = exponent ∨ e = -1) :
    Scalar.ofSigned negative m e = x

instance : ReadsDigits Float where
  ofSigned_of_shortest {x negative digits exponent} h m e hq he := by
    refine Double.ofSigned_of_shortest h hq fun hm => ?_
    have hdigits : digits ≠ 0 := by
      rintro rfl
      rw [Nat.cast_zero, zero_mul] at hq
      have := (mul_eq_zero.mp hq).resolve_right (Double.ten_zpow_pos e).ne'
      exact hm (by exact_mod_cast this)
    have hleast := Double.le_exponent_of_shortest h
    rcases he hdigits with rfl | rfl <;> omega

end Drawing
