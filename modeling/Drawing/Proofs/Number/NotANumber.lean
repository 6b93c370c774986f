import Drawing.Proofs.Number.Finite

/-!
# `Drawing/Proofs/Number/NotANumber.lean` — where doubles stop being numbers

Rounding never makes a not-a-number, so one can only come out of an operation that has no result, such as the sum of two
opposite infinities. To clamp a double to a finite interval makes it finite just if it is a number.
-/

namespace Drawing

namespace Double

open Float.Model Float.Model.UnpackedFloat

/-- Packing and unpacking takes numbers to numbers, if need be to an infinity. -/
theorem isNaN_pack (u : UnpackedFloat) :
    (UnpackedFloat.unpack .binary64 (UnpackedFloat.pack .binary64 u)).isNaN = u.isNaN := by
  have hfinite {b : BitVec Format.binary64.numBits} (h : unpackExponent b ≠ -1#_) :
      (UnpackedFloat.unpack .binary64 b).isNaN = false := by
    have hb := (isFinite_unpack_iff b).mpr h
    cases hu : UnpackedFloat.unpack .binary64 b with
    | notANumber =>
      rw [hu] at hb
      exact nomatch hb
    | infinity | zero | finite => rfl
  have hinfinity (s : Sign) : (UnpackedFloat.unpack .binary64 (packedInfinity .binary64 s)).isNaN = false := by
    cases s <;> decide +kernel
  cases u with
  | notANumber => decide +kernel
  | infinity s => exact hinfinity s
  | zero s => cases s <;> decide +kernel
  | finite s m e hm =>
    show (UnpackedFloat.unpack .binary64 (UnpackedFloat.pack .binary64 (.finite s m e hm))).isNaN = false
    rw [pack_finite]
    split_ifs
    · exact hinfinity s
    · refine hfinite ?_
      rw [unpackExponent_packComponents]
      exact ofNat_ne_ones (by omega)
    · refine hfinite ?_
      rw [unpackExponent_packComponents]
      decide

theorem isNaN_normalize (mantissa exponent : Int) (s : Sign) :
    (UnpackedFloat.normalize .binary64 mantissa exponent s).isNaN = false := by
  have hround (s : Sign) (m : Nat) (e : Int) : (UnpackedFloat.round .binary64 s m e).isNaN = false := by
    have hzero {c : Prop} [Decidable c] {f : ¬c → UnpackedFloat} (hf : ∀ h, (f h).isNaN = false) :
        (if h : c then .zero s else f h).isNaN = false := by
      by_cases h : c
      · rw [dif_pos h]
        rfl
      · rw [dif_neg h]
        exact hf h
    exact hzero fun _ => rfl
  unfold UnpackedFloat.normalize
  split
  · exact hround _ _ _
  · rfl
  · exact hround _ _ _

/-- A finite double can be added to any number. -/
theorem isNaN_add {x y : Float} (hx : x.isFinite = true) (hy : y.isNaN = false) : (x + y).isNaN = false := by
  have hadd : (UnpackedFloat.add .binary64 x.toModel.unpack y.toModel.unpack).isNaN = false := by
    have hx : x.toModel.unpack.isFinite = true := hx
    have hy : y.toModel.unpack.isNaN = false := hy
    generalize x.toModel.unpack = u at hx
    generalize y.toModel.unpack = v at hy
    cases u with
    | infinity | notANumber => exact nomatch hx
    | zero s =>
      cases v with
      | notANumber => exact nomatch hy
      | infinity | finite => rfl
      | zero s' => cases s <;> cases s' <;> rfl
    | finite s m e hm =>
      cases v with
      | notANumber => exact nomatch hy
      | infinity | zero => rfl
      | finite s' m' e' hm' => exact isNaN_normalize _ _ _
  exact (isNaN_pack _).trans hadd

/-- A number that is neither below zero nor above a finite one is finite. -/
theorem isFinite_of_between {side x : Float} (hside : side.isFinite = true) (hx : x.isNaN = false)
    (hzero : ¬ x < Scalar.zero) (hle : ¬ side < x) : x.isFinite = true := by
  have hside : side.toModel.unpack.isFinite = true := hside
  have hx : x.toModel.unpack.isNaN = false := hx
  have hzero : (x.toModel.unpack.lt (.zero .positive)) = false := by
    have hunpack : (Scalar.zero : Float).toModel.unpack = .zero .positive := rfl
    rw [← hunpack]
    exact Bool.eq_false_iff.mpr fun h => hzero (decide_eq_true h)
  have hle : side.toModel.unpack.lt x.toModel.unpack = false :=
    Bool.eq_false_iff.mpr fun h => hle (decide_eq_true h)
  show x.toModel.unpack.isFinite = true
  generalize side.toModel.unpack = v at hside hle
  generalize x.toModel.unpack = u at hx hzero hle
  cases u with
  | zero | finite => rfl
  | notANumber => exact nomatch hx
  | infinity s =>
    cases s with
    | negative => exact nomatch hzero
    | positive =>
      cases v with
      | infinity | notANumber => exact nomatch hside
      | zero | finite => exact nomatch hle

/-- A number from zero to one is finite. -/
theorem isFinite_of_unit {x : Float} (h0 : Scalar.zero ≤ x) (h1 : x ≤ Scalar.one) : x.isFinite = true := by
  have hzero : (Scalar.zero : Float).toModel.unpack.le x.toModel.unpack = true := of_decide_eq_true h0
  have hone : x.toModel.unpack.le (Scalar.one : Float).toModel.unpack = true := of_decide_eq_true h1
  show x.toModel.unpack.isFinite = true
  have hside : (Scalar.one : Float).toModel.unpack.isFinite = true := by decide +kernel
  rw [show (Scalar.zero : Float).toModel.unpack = .zero .positive from rfl] at hzero
  generalize (Scalar.one : Float).toModel.unpack = v at hone hside
  generalize x.toModel.unpack = u at hzero hone
  cases u with
  | zero | finite => rfl
  | notANumber => exact nomatch hzero
  | infinity s =>
    cases s with
    | negative => exact nomatch hzero
    | positive =>
      cases v with
      | infinity | notANumber => exact nomatch hside
      | zero | finite => exact nomatch hone

/-- **Clamping makes numbers finite** and nothing else. -/
theorem isFinite_clamp_iff {side x : Float} (hside : side.isFinite = true) :
    Scalar.isFinite (Scalar.clamp Scalar.zero side x) = true ↔ Scalar.isNaN x = false := by
  have hzero : (Scalar.zero : Float).isFinite = true := by decide +kernel
  have hnan {y : Float} (hy : y.isFinite = true) : Scalar.isNaN y = false := isNaN_of_isFinite hy
  rw [isFinite_iff]
  cases hx : Scalar.isNaN x with
  | true =>
    unfold Scalar.clamp Scalar.upper Scalar.lower
    rw [if_pos hx, if_pos hx]
    refine iff_of_false (fun hfinite => ?_) nofun
    exact nomatch hx.symm.trans (hnan hfinite)
  | false =>
    refine iff_of_true ?_ rfl
    have hupper : Scalar.upper x Scalar.zero = Scalar.greatest x Scalar.zero := by
      unfold Scalar.upper
      rw [hx, if_neg Bool.false_ne_true, if_neg (Bool.eq_false_iff.mp (hnan hzero))]
    have hlower {y : Float} (hy : Scalar.isNaN y = false) : Scalar.lower y side = Scalar.least y side := by
      unfold Scalar.lower
      rw [hy, if_neg Bool.false_ne_true, if_neg (Bool.eq_false_iff.mp (hnan hside))]
    unfold Scalar.clamp
    rw [hupper]
    unfold Scalar.greatest
    split_ifs with hbelow
    · rw [hlower (hnan hzero)]
      unfold Scalar.least
      split_ifs
      · exact hside
      · exact hzero
    · rw [hlower hx]
      unfold Scalar.least
      split_ifs with habove
      · exact hside
      · exact isFinite_of_between hside hx hbelow habove

end Double

end Drawing
