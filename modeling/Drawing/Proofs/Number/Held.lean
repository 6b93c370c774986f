import Drawing.Proofs.Number.Nearest

/-!
# `Drawing/Proofs/Number/Held.lean` — the numbers that doubles hold

What a finite double is unpacked to has a form of its own: a zero, or a sign with a mantissa and the least exponent that
the mantissa allows. In this form doubles are compared by their exponents first, and it comes back unchanged from being
packed into bits.

> **finite doubles are compared by the numbers that they hold** (`compare_of_holds`).
-/

namespace Drawing.Double

open Float.Model Float.Model.UnpackedFloat

/-- A number under a sign. -/
def signed : Sign → Rat → Rat
  | .negative, q => -q
  | .positive, q => q

theorem abs_signed (s : Sign) (q : Rat) : |signed s q| = |q| := by
  cases s
  · exact abs_neg q
  · rfl

theorem signed_sub (s : Sign) (p q : Rat) : signed s p - signed s q = signed s (p - q) := by
  cases s
  · exact (neg_sub' p q).symm
  · rfl

/-- What a finite double is unpacked to, and the number that it holds. -/
inductive Holds : UnpackedFloat → Rat → Prop
  | zero (s : Sign) : Holds (.zero s) 0
  | finite (s : Sign) {m : Nat} {e : Int} (hm : 0 < m) (h : IsParts m e) (he : e ≤ 971) :
    Holds (.finite s m e hm) (signed s (m * 2 ^ e))

theorem Holds.unique {u : UnpackedFloat} {p q : Rat} (h : Holds u p) (h' : Holds u q) : p = q := by
  cases h <;> cases h' <;> rfl

theorem Holds.isFinite {u : UnpackedFloat} {q : Rat} (h : Holds u q) : u.isFinite = true := by
  cases h <;> rfl

/-! ## Bits -/

theorem ofBitVec_unpackSign (s : Sign) (e : BitVec 11) (m : BitVec 52) :
    Sign.ofBitVec (@unpackSign .binary64 (packComponents .binary64 s e m)) = s := by
  have hbits := toNat_unpackSign (packComponents .binary64 s e m)
  have he : e.toNat < 2 ^ 11 := e.isLt
  have hm : m.toNat < 2 ^ 52 := m.isLt
  have hsign : s.toBitVec.toNat < 2 := s.toBitVec.isLt
  rw [toNat_packComponents] at hbits
  have hsame : @unpackSign .binary64 (packComponents .binary64 s e m) = s.toBitVec :=
    BitVec.eq_of_toNat_eq (by omega)
  rw [hsame]
  cases s <;> rfl

section

variable {b : BitVec Format.binary64.numBits} {k : Nat} {i : Int}

/-- An exponent that is neither all zeros nor all ones goes with a mantissa whose first digit is not written. -/
theorem unpack_digits (hones : unpackExponent b ≠ -1#11) (hzeros : unpackExponent b ≠ 0#11) (hk : 0 < k)
    (hm : k = 2 ^ 52 + (unpackMantissa b).toNat) (he : i = (unpackExponent b).toNat - 1075) :
    UnpackedFloat.unpack .binary64 b = .finite (.ofBitVec (unpackSign b)) k i hk := by
  have hbias : (Format.binary64.exponentBias : Int) = 1023 := rfl
  have hdigits : (1#1 ++ unpackMantissa b).toNat = k := by
    rw [BitVec.toNat_append, ← Nat.shiftLeft_add_eq_or_of_lt (unpackMantissa b).isLt, hm]
    rfl
  have hexp : ((unpackExponent b).toNat : Int) - (Format.binary64.exponentBias + (52 : Nat)) = i := by omega
  subst hdigits hexp
  unfold UnpackedFloat.unpack
  dsimp only
  rw [if_neg hones, if_neg hzeros]

/-- All zeros in the exponent stand for the least one. -/
theorem unpack_zeros (hzeros : unpackExponent b = 0#11) (hk : 0 < k) (hm : (unpackMantissa b).toNat = k) :
    UnpackedFloat.unpack .binary64 b = .finite (.ofBitVec (unpackSign b)) k (-1074) hk := by
  have hbias : (Format.binary64.exponentBias : Int) = 1023 := rfl
  have hones : unpackExponent b ≠ -1#11 := fun heq => absurd (hzeros.symm.trans heq) (by decide)
  have hne : unpackMantissa b ≠ 0#52 := fun heq => by
    have hnone : (unpackMantissa b).toNat = 0 := congrArg BitVec.toNat heq
    omega
  have hexp : ((unpackExponent b).toNat : Int) - (Format.binary64.exponentBias + (52 : Nat)) + 1 = -1074 := by
    have hnone : (unpackExponent b).toNat = 0 := congrArg BitVec.toNat hzeros
    omega
  subst hm
  unfold UnpackedFloat.unpack
  dsimp only
  rw [if_neg hones, if_pos hzeros, dif_neg hne]
  exact congrArg (UnpackedFloat.finite _ _ · hk) hexp

theorem unpack_zero (hzeros : unpackExponent b = 0#11) (hm : unpackMantissa b = 0#52) :
    UnpackedFloat.unpack .binary64 b = .zero (.ofBitVec (unpackSign b)) := by
  have hones : unpackExponent b ≠ -1#11 := fun heq => absurd (hzeros.symm.trans heq) (by decide)
  unfold UnpackedFloat.unpack
  dsimp only
  rw [if_neg hones, if_pos hzeros, dif_pos hm]

/-- Bits without all ones in the exponent hold a number. -/
theorem holds_bits (hones : unpackExponent b ≠ -1#11)
    (hparts : (k, i) = if (unpackExponent b).toNat = 0 then ((unpackMantissa b).toNat, -1074)
      else ((unpackMantissa b).toNat + 2 ^ 52, ((unpackExponent b).toNat : Int) - 1075))
    (h : IsParts k i) (hi : i ≤ 971) :
    Holds (UnpackedFloat.unpack .binary64 b) (signed (.ofBitVec (unpackSign b)) (k * 2 ^ i)) := by
  by_cases hzeros : unpackExponent b = 0#11
  · have hleast : (unpackExponent b).toNat = 0 := congrArg BitVec.toNat hzeros
    rw [if_pos hleast] at hparts
    obtain ⟨rfl, rfl⟩ := Prod.mk.inj hparts
    by_cases hm : unpackMantissa b = 0#52
    · have hnone : (unpackMantissa b).toNat = 0 := congrArg BitVec.toNat hm
      rw [unpack_zero hzeros hm, hnone, Nat.cast_zero, zero_mul]
      generalize Sign.ofBitVec (unpackSign b) = s
      have hzero : signed s 0 = 0 := by cases s <;> simp [signed]
      rw [hzero]
      exact .zero s
    · have hpos : 0 < (unpackMantissa b).toNat := Nat.pos_of_ne_zero fun hnone => hm (BitVec.eq_of_toNat_eq hnone)
      rw [unpack_zeros hzeros hpos rfl]
      exact .finite _ hpos h hi
  · have hne : (unpackExponent b).toNat ≠ 0 := fun h => hzeros (BitVec.eq_of_toNat_eq h)
    rw [if_neg hne] at hparts
    obtain ⟨rfl, rfl⟩ := Prod.mk.inj hparts
    rw [unpack_digits hones hzeros (Nat.lt_of_lt_of_le (by decide) (Nat.le_add_left (2 ^ 52) _)) (Nat.add_comm _ _) rfl]
    exact .finite _ _ h hi

end

/-- The parts of a finite double are its mantissa and exponent. -/
theorem holds_unpack {x : Float} (hx : x.isFinite = true) :
    Holds x.toModel.unpack (signed (if signBit x then .negative else .positive) ((parts x).1 * 2 ^ (parts x).2)) := by
  have hones := (isFinite_unpack_iff x.toBits.toBitVec).mp hx
  have hexponent := toNat_unpackExponent x.toBits.toBitVec
  have hmantissa := toNat_unpackMantissa x.toBits.toBitVec
  have hp : parts x = if x.toBits.toNat / 2 ^ 52 % 2 ^ 11 = 0 then (x.toBits.toNat % 2 ^ 52, (-1074 : Int))
    else (x.toBits.toNat % 2 ^ 52 + 2 ^ 52, ((x.toBits.toNat / 2 ^ 52 % 2 ^ 11 : Nat) : Int) - 1075) := rfl
  rw [UInt64.toNat_toBitVec] at hexponent hmantissa
  rw [← hexponent, ← hmantissa] at hp
  rw [← sign_ofBitVec x]
  exact holds_bits hones hp (isParts_parts x) (parts_le hx).2

theorem toRat?_of_isFinite {x : Float} (hx : x.isFinite = true) :
    toRat? x = some (signed (if signBit x then .negative else .positive) ((parts x).1 * 2 ^ (parts x).2)) := by
  unfold toRat?
  rw [if_pos hx]
  dsimp only
  rw [scaled_eq]
  cases signBit x <;> rfl

/-- **The number of a double** is the one that it holds when it is unpacked. -/
theorem toRat?_eq_some_iff {x : Float} {q : Rat} : toRat? x = some q ↔ Holds x.toModel.unpack q := by
  constructor
  · intro h
    obtain ⟨hx, -⟩ := abs_le_largest h
    obtain rfl := Option.some.inj ((toRat?_of_isFinite hx).symm.trans h)
    exact holds_unpack hx
  · intro h
    have hx : x.isFinite = true := by
      show x.toModel.unpack.isFinite = true
      exact h.isFinite
    rw [toRat?_of_isFinite hx, (holds_unpack hx).unique h]

theorem unpack_pack_digits (s : Sign) {m : Nat} {e : Int} (hm : 0 < m) (hlow : 2 ^ 52 ≤ m) (hlt : m < 2 ^ 53)
    (hleast : -1074 ≤ e) (he : e ≤ 971) :
    UnpackedFloat.unpack .binary64 (UnpackedFloat.pack .binary64 (.finite s m e hm)) = .finite s m e hm := by
  have hlog : m.log2 = 52 := (Nat.log2_eq_iff hm.ne').mpr ⟨hlow, hlt⟩
  have hfield : (BitVec.ofNat 11 (e + 1075).toNat).toNat = (e + 1075).toNat := by
    rw [BitVec.toNat_ofNat]
    omega
  have hfraction : (BitVec.ofNat 52 m).toNat = m - 2 ^ 52 := by
    rw [BitVec.toNat_ofNat]
    omega
  rw [pack_finite, if_neg (show ¬ 2 ^ 11 ≤ (e + 1075).toNat + 1 by omega), if_pos (by rw [hlog]),
    unpack_digits (i := e) ?_ ?_ hm ?_ ?_, ofBitVec_unpackSign]
  · rw [unpackExponent_packComponents]
    exact ofNat_ne_ones (by omega)
  · rw [unpackExponent_packComponents]
    intro heq
    have hnone : (BitVec.ofNat 11 (e + 1075).toNat).toNat = 0 := congrArg BitVec.toNat heq
    omega
  · rw [unpackMantissa_packComponents]
    omega
  · rw [unpackExponent_packComponents]
    omega

/-- A mantissa with fewer digits goes with the least exponent. -/
theorem unpack_pack_zeros (s : Sign) {m : Nat} (hm : 0 < m) (hsmall : m < 2 ^ 52) :
    UnpackedFloat.unpack .binary64 (UnpackedFloat.pack .binary64 (.finite s m (-1074) hm)) = .finite s m (-1074) hm := by
  have hlog := (Nat.log2_lt hm.ne').mpr hsmall
  rw [pack_finite, if_neg (by decide), if_neg (show m.log2 + 1 ≠ 53 by omega),
    unpack_zeros unpackExponent_packComponents hm ?_, ofBitVec_unpackSign]
  rw [unpackMantissa_packComponents, BitVec.toNat_ofNat]
  exact Nat.mod_eq_of_lt hsmall

/-- What holds a number comes back from being packed. -/
theorem Holds.unpack_pack {u : UnpackedFloat} {q : Rat} (h : Holds u q) :
    UnpackedFloat.unpack .binary64 (UnpackedFloat.pack .binary64 u) = u := by
  cases h with
  | zero s => cases s <;> rfl
  | @finite s m e hm h he =>
    by_cases hdigits : 2 ^ 52 ≤ m
    · exact unpack_pack_digits s hm hdigits h.lt h.ge he
    · obtain rfl : e = -1074 := by
        by_contra hne
        exact hdigits (h.normal hne)
      exact unpack_pack_zeros s hm (not_le.mp hdigits)

/-- The double that something is packed to holds the same number. -/
theorem Holds.toRat?_eq {x : Float} {u : UnpackedFloat} {q : Rat} (h : Holds u q)
    (hx : x.toModel = Float.Model.pack u) : toRat? x = some q := by
  refine toRat?_eq_some_iff.mpr ?_
  have hunpack : x.toModel.unpack = u := by
    rw [hx]
    exact h.unpack_pack
  rw [hunpack]
  exact h

/-! ## Order -/

/-- A smaller exponent makes a smaller double, if both are positive. -/
theorem IsParts.lt_of_exponent {m m' : Nat} {e e' : Int} (h : IsParts m e) (h' : IsParts m' e') (hlt : e < e') :
    (m : Rat) * 2 ^ e < m' * 2 ^ e' := by
  have hge := h.ge
  have hm : (m : Rat) < 2 ^ 53 := by exact_mod_cast h.lt
  have hm' : (2 : Rat) ^ 52 ≤ m' := by exact_mod_cast h'.normal (by omega)
  calc (m : Rat) * 2 ^ e < 2 ^ 53 * 2 ^ e := mul_lt_mul_of_pos_right hm (two_zpow_pos e)
    _ = 2 ^ 52 * 2 ^ (e + 1) := by
      rw [zpow_add_one₀ (by norm_num)]
      ring
    _ ≤ 2 ^ 52 * 2 ^ e' := mul_le_mul_of_nonneg_left (zpow_le_zpow_right₀ (by norm_num) (by omega)) (by norm_num)
    _ ≤ m' * 2 ^ e' := mul_le_mul_of_nonneg_right hm' (two_zpow_pos e').le

/-- Exponents are compared first, then mantissas. -/
theorem IsParts.compare_eq {m m' : Nat} {e e' : Int} (h : IsParts m e) (h' : IsParts m' e') :
    (compare e e').then (compare m m') = compare ((m : Rat) * 2 ^ e) (m' * 2 ^ e') := by
  rcases lt_trichotomy e e' with hlt | rfl | hgt
  · rw [compare_lt_iff_lt.mpr hlt, compare_lt_iff_lt.mpr (h.lt_of_exponent h' hlt)]
    rfl
  · have hu := two_zpow_pos e
    rw [compare_eq_iff_eq.mpr rfl, Ordering.eq_then]
    rcases lt_trichotomy m m' with hlt | rfl | hgt
    · have hlt' : (m : Rat) < m' := by exact_mod_cast hlt
      rw [compare_lt_iff_lt.mpr hlt, compare_lt_iff_lt.mpr (mul_lt_mul_of_pos_right hlt' hu)]
    · rw [compare_eq_iff_eq.mpr rfl, compare_eq_iff_eq.mpr rfl]
    · have hgt' : (m' : Rat) < m := by exact_mod_cast hgt
      rw [compare_gt_iff_gt.mpr hgt, compare_gt_iff_gt.mpr (mul_lt_mul_of_pos_right hgt' hu)]
  · rw [compare_gt_iff_gt.mpr hgt, compare_gt_iff_gt.mpr (h'.lt_of_exponent h hgt)]
    rfl

theorem compare_neg_neg (p q : Rat) : compare (-p) (-q) = (compare p q).swap := by
  rcases lt_trichotomy p q with hlt | rfl | hgt
  · rw [compare_lt_iff_lt.mpr hlt, compare_gt_iff_gt.mpr (neg_lt_neg hlt)]
    rfl
  · rw [compare_eq_iff_eq.mpr rfl, compare_eq_iff_eq.mpr rfl]
    rfl
  · rw [compare_gt_iff_gt.mpr hgt, compare_lt_iff_lt.mpr (neg_lt_neg hgt)]
    rfl

/-- **Finite doubles are compared by the numbers that they hold.** -/
theorem compare_of_holds {u v : UnpackedFloat} {p q : Rat} (hu : Holds u p) (hv : Holds v q) :
    u.compare v = some (compare p q) := by
  have hpos {m : Nat} (e : Int) (hm : 0 < m) : (0 : Rat) < m * 2 ^ e :=
    mul_pos (by exact_mod_cast hm) (two_zpow_pos e)
  have hneg {m : Nat} (e : Int) (hm : 0 < m) : -((m : Rat) * 2 ^ e) < 0 := neg_neg_of_pos (hpos e hm)
  cases hu with
  | zero s =>
    cases hv with
    | zero s' => exact congrArg some (compare_eq_iff_eq.mpr rfl).symm
    | @finite s' m' e' hm' h' he' =>
      cases s' with
      | negative => exact congrArg some (compare_gt_iff_gt.mpr (hneg e' hm')).symm
      | positive => exact congrArg some (compare_lt_iff_lt.mpr (hpos e' hm')).symm
  | @finite s m e hm h he =>
    cases hv with
    | zero s' =>
      cases s with
      | negative => exact congrArg some (compare_lt_iff_lt.mpr (hneg e hm)).symm
      | positive => exact congrArg some (compare_gt_iff_gt.mpr (hpos e hm)).symm
    | @finite s' m' e' hm' h' he' =>
      cases s <;> cases s'
      case negative.negative =>
        exact congrArg some ((congrArg Ordering.swap (h.compare_eq h')).trans (compare_neg_neg _ _).symm)
      case negative.positive =>
        exact congrArg some (compare_lt_iff_lt.mpr ((hneg e hm).trans (hpos e' hm'))).symm
      case positive.negative =>
        exact congrArg some (compare_gt_iff_gt.mpr ((hneg e' hm').trans (hpos e hm))).symm
      case positive.positive => exact congrArg some (h.compare_eq h')

theorem lt_iff {x y : Float} {p q : Rat} (hx : toRat? x = some p) (hy : toRat? y = some q) : x < y ↔ p < q := by
  have hcompare := compare_of_holds (toRat?_eq_some_iff.mp hx) (toRat?_eq_some_iff.mp hy)
  have hlt : x < y ↔ (x.toModel.unpack.compare y.toModel.unpack == some .lt) = true :=
    ⟨fun h => of_decide_eq_true h, fun h => decide_eq_true h⟩
  rw [hlt, hcompare, beq_iff_eq, Option.some_inj, compare_lt_iff_lt]

theorem le_iff {x y : Float} {p q : Rat} (hx : toRat? x = some p) (hy : toRat? y = some q) : x ≤ y ↔ p ≤ q := by
  have hcompare := compare_of_holds (toRat?_eq_some_iff.mp hx) (toRat?_eq_some_iff.mp hy)
  have hle : x ≤ y ↔ (x.toModel.unpack.compare y.toModel.unpack).any (·.isLE) = true :=
    ⟨fun h => of_decide_eq_true h, fun h => decide_eq_true h⟩
  rw [hle, hcompare, Option.any_some, ← Ordering.ne_gt_iff_isLE]
  exact compare_le_iff_le

theorem beq_iff {x y : Float} {p q : Rat} (hx : toRat? x = some p) (hy : toRat? y = some q) :
    (x == y) = true ↔ p = q := by
  have hcompare := compare_of_holds (toRat?_eq_some_iff.mp hx) (toRat?_eq_some_iff.mp hy)
  have hbeq : (x == y) = (x.toModel.unpack.compare y.toModel.unpack == some .eq) := rfl
  rw [hbeq, hcompare, beq_iff_eq, Option.some_inj, compare_eq_iff_eq]

/-- Doubles are equal if they are the same number, finite or not, or if both are zero. -/
theorem compare_eq_iff {u v : UnpackedFloat} :
    u.compare v = some .eq ↔ (u = v ∧ u ≠ .notANumber) ∨ ∃ s t, u = .zero s ∧ v = .zero t := by
  have hlex {e e' : Int} {m m' : Nat} : (compare e e').then (compare m m') = .eq ↔ m = m' ∧ e = e' := by
    rw [Ordering.then_eq_eq, compare_eq_iff_eq, compare_eq_iff_eq, and_comm]
  constructor
  · intro h
    cases u with
    | notANumber => exact absurd h (of_decide_eq_false (by cases v <;> rfl))
    | infinity s =>
      cases s <;> rcases v with (_ | _) | _ | _ | ⟨_ | _, _, _, _⟩ <;>
        first | exact .inl ⟨rfl, nofun⟩ | exact absurd h (of_decide_eq_false rfl)
    | zero s =>
      rcases v with (_ | _) | _ | _ | ⟨_ | _, _, _, _⟩ <;>
        first | exact .inr ⟨_, _, rfl, rfl⟩ | exact absurd h (of_decide_eq_false rfl)
    | finite s m e hm =>
      cases s <;> rcases v with (_ | _) | _ | _ | ⟨_ | _, _, _, _⟩
      case negative.finite.negative =>
        obtain ⟨rfl, rfl⟩ := hlex.mp (Ordering.swap_eq_eq.mp (Option.some.inj h))
        exact .inl ⟨rfl, nofun⟩
      case positive.finite.positive =>
        obtain ⟨rfl, rfl⟩ := hlex.mp (Option.some.inj h)
        exact .inl ⟨rfl, nofun⟩
      all_goals exact absurd h (of_decide_eq_false rfl)
  · rintro (⟨rfl, hne⟩ | ⟨s, t, rfl, rfl⟩)
    · cases u with
      | notANumber => exact absurd rfl hne
      | infinity s => cases s <;> rfl
      | zero s => rfl
      | finite s m e hm =>
        cases s with
        | negative => exact congrArg some (Ordering.swap_eq_eq.mpr (hlex.mpr ⟨rfl, rfl⟩))
        | positive => exact congrArg some (hlex.mpr ⟨rfl, rfl⟩)
    · rfl

/-- What is equal as doubles is so in any order and any chain, though not-a-number is not equal to itself. -/
instance partialEquivBEq : PartialEquivBEq Float := by
  have hbeq (x y : Float) : (x == y) = true ↔ x.toModel.unpack.compare y.toModel.unpack = some .eq := by
    have hcompare : (x == y) = (x.toModel.unpack.compare y.toModel.unpack == some .eq) := rfl
    rw [hcompare, beq_iff_eq]
  constructor
  · intro x y h
    rw [hbeq, compare_eq_iff] at h ⊢
    rcases h with ⟨h, hx⟩ | ⟨s, t, hs, ht⟩
    · exact .inl ⟨h.symm, h ▸ hx⟩
    · exact .inr ⟨t, s, ht, hs⟩
  · intro x y z h h'
    rw [hbeq, compare_eq_iff] at h h' ⊢
    rcases h with ⟨h, hx⟩ | ⟨s, t, hs, ht⟩
    · rwa [h]
    · rcases h' with ⟨h', -⟩ | ⟨t', r, -, hr⟩
      · exact .inr ⟨s, t, hs, h' ▸ ht⟩
      · exact .inr ⟨s, r, hs, hr⟩

end Drawing.Double
