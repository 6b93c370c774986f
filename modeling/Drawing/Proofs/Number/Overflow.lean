import Drawing.Number.Arithmetic
import Drawing.Proofs.Number.RoundOff

/-!
# `Drawing/Proofs/Number/Overflow.lean` — the quotient of two sizes

A whole number of `2 ^ 1024` or more has no double, and every other one of at least one has a double that is not
zero. So two numbers above zero that can be converted can also be divided: whole ones because dividing by two or
more leads back into the range, any other ones because nothing is divided by zero.
-/

namespace Drawing

namespace Double

/-- The pattern of a quotient, before it is cut off at infinity. -/
theorem exists_pattern {n d : Nat} (hd : 0 < d) (hone : d ≤ n) :
    ∃ bits, ofNatRatio n d = Float.ofBits (UInt64.ofNat (min bits infinityBits)) ∧ bits ≠ 0 ∧
      ((2 : Rat) ^ (1024 : Int) ≤ n / d → infinityBits ≤ bits) := by
  obtain ⟨m, e, h, hbits⟩ := exists_ratioParts (hd.trans_le hone).ne' hd
  have hone' : (2 : Rat) ^ (0 : Int) ≤ n / d := (one_le_div (by exact_mod_cast hd)).mpr (by exact_mod_cast hone)
  have hsmall := h.lt_exponent hone'
  have hnormal := h.normal (by omega)
  refine ⟨_, hbits, by omega, fun hlarge => ?_⟩
  have := h.lt_exponent hlarge
  unfold infinityBits
  omega

theorem lt_of_isFinite_ofNatRatio {n d : Nat} (hd : 0 < d) (hone : d ≤ n) (h : (ofNatRatio n d).isFinite = true) :
    (n : Rat) / d < 2 ^ (1024 : Int) := by
  by_contra hlarge
  obtain ⟨bits, hbits, -, hover⟩ := exists_pattern hd hone
  rw [hbits, Nat.min_eq_right (hover (not_lt.mp hlarge))] at h
  exact absurd h (by decide +kernel)

theorem toRat?_ofNatRatio_ne_zero {n d : Nat} (hd : 0 < d) (hone : d ≤ n) : toRat? (ofNatRatio n d) ≠ some 0 := by
  obtain ⟨bits, hbits, hne, -⟩ := exists_pattern hd hone
  rw [hbits]
  rcases Nat.lt_or_ge bits infinityBits with hlt | hge
  · rw [Nat.min_eq_left hlt.le, toRat?_of_isFinite (isFinite_ofBits hlt)]
    have hmantissa : (parts (Float.ofBits (UInt64.ofNat bits))).1 ≠ 0 := by
      unfold parts infinityBits at *
      rw [toBits_ofBits hlt, show twoTo 52 = 2 ^ 52 from rfl, show twoTo 11 = 2 ^ 11 from rfl]
      dsimp only
      split_ifs <;> dsimp only <;> omega
    intro hzero
    have habs := congrArg abs (Option.some.inj hzero)
    rw [abs_signed, abs_zero, abs_eq_zero, mul_eq_zero, Nat.cast_eq_zero] at habs
    exact habs.elim hmantissa (two_zpow_pos _).ne'
  · rw [Nat.min_eq_right hge]
    decide +kernel

/-- The double of a whole number of at least one. -/
theorem ofRat_whole {n : Nat} (hn : 0 < n) :
    toRat? (ofRat n) ≠ some 0 ∧ ((ofRat n).isFinite = true → (n : Rat) < 2 ^ (1024 : Int)) := by
  have hratio : ofRat n = ofNatRatio n 1 := by
    unfold ofRat
    rw [if_neg (by simp)]
    simp
  rw [hratio]
  refine ⟨toRat?_ofNatRatio_ne_zero one_pos hn, fun h => ?_⟩
  have hlt := lt_of_isFinite_ofNatRatio one_pos hn h
  rwa [Nat.cast_one, div_one] at hlt

/-- A whole number that can be converted is converted still if it is divided by another. -/
theorem isFinite_ofRat_div {m n : Nat} (hm : 0 < m) (hn : 0 < n) (h : (ofRat m).isFinite = true) :
    (ofRat ((m : Rat) / n)).isFinite = true := by
  rcases Nat.lt_or_eq_of_le (Nat.succ_le_of_lt hn) with htwo | hone
  · refine isFinite_ofRat ?_
    have hrange : (2 : Rat) ^ (1024 : Int) ≤ 2 * (largest : Nat) := by
      rw [largest_eq, show (1024 : Int) = 971 + 53 from rfl, zpow_add₀ (by norm_num)]
      have hunit := two_zpow_pos 971
      generalize (2 : Rat) ^ (971 : Int) = unit at *
      norm_num
      linarith
    have hn' : (2 : Rat) ≤ n := by exact_mod_cast htwo
    have hm' := ((ofRat_whole hm).2 h).le.trans hrange
    rw [abs_of_nonneg (by positivity), div_le_iff₀ (by linarith), mul_comm]
    exact hm'.trans (mul_le_mul_of_nonneg_right hn' (Nat.cast_nonneg _))
  · rw [← hone, Nat.cast_one, div_one]
    exact h

end Double

/-! ## Numerals -/

namespace Numeral

theorem exists_nat_of_pos {α : Type} [Scalar α] {n : Int} (h : (whole n : Numeral α).atMostZero = false) :
    ∃ k : Nat, n = k ∧ 0 < k := by
  have hpos : ¬ n ≤ 0 := of_decide_eq_false h
  exact ⟨n.toNat, by omega, by omega⟩

theorem isFinite_of_toScalar {n : Int} {x : Float} (h : (whole n : Numeral Float).toScalar = .ok x) :
    x = Double.ofRat n ∧ x.isFinite = true := by
  unfold toScalar value? Scalar.ofRat? at h
  dsimp only at h
  split_ifs at h with hfinite
  · obtain rfl := Except.ok.inj h
    exact ⟨rfl, (Double.isFinite_iff _).mp hfinite⟩

/-- What is above zero is not rounded to zero. -/
theorem toRat?_ne_zero {h : Numeral Float} {y : Float} (hy : h.toScalar = .ok y) (hpos : h.atMostZero = false) :
    Scalar.toRat? y ≠ some 0 := by
  cases h with
  | whole n =>
    obtain ⟨k, rfl, hk⟩ := exists_nat_of_pos hpos
    obtain ⟨rfl, -⟩ := isFinite_of_toScalar hy
    exact (Double.ofRat_whole hk).1
  | real x =>
    obtain rfl := Except.ok.inj hy
    intro hzero
    exact of_decide_eq_false hpos ((Double.le_iff hzero (by decide +kernel)).mpr le_rfl)

/-- **Two sizes above zero have a quotient**, if they can be converted at all. -/
theorem exists_quotient {w h : Numeral Float} {x y : Float} (hx : w.toScalar = .ok x) (hy : h.toScalar = .ok y)
    (hfinite : Scalar.isFinite y = true) (hwpos : w.atMostZero = false) (hhpos : h.atMostZero = false) :
    ∃ q, w.quotient h = .ok q := by
  have hzero : ¬ (y == Scalar.zero) = true := by
    obtain ⟨r, hr⟩ := Option.isSome_iff_exists.mp hfinite
    intro heq
    have := (Double.beq_iff hr (by decide +kernel : Double.toRat? (Scalar.zero : Float) = some 0)).mp heq
    exact toRat?_ne_zero hy hhpos (this ▸ hr)
  have hscalars : ∃ q : Float, (do
      let x ← w.toScalar
      let y ← h.toScalar
      if y == Scalar.zero then .error (.number (.divisionByZero false)) else return x / y) =
        (.ok q : Except (Fault Float) Float) := by
    rw [hx, hy]
    exact ⟨x / y, if_neg hzero⟩
  cases w with
  | real => exact hscalars
  | whole m =>
    cases h with
    | real => exact hscalars
    | whole n =>
      obtain ⟨m, rfl, hm⟩ := exists_nat_of_pos hwpos
      obtain ⟨n, rfl, hn⟩ := exists_nat_of_pos hhpos
      obtain ⟨rfl, hfits⟩ := isFinite_of_toScalar hx
      have hrats : mkRat (m : Int) 1 / mkRat (n : Int) 1 = (m : Rat) / n := by
        rw [Rat.mkRat_one, Rat.mkRat_one, Int.cast_natCast, Int.cast_natCast]
      have hquotient : Scalar.ofRat? (mkRat (m : Int) 1 / mkRat (n : Int) 1) = some (Double.ofRat ((m : Rat) / n)) := by
        rw [hrats]
        exact if_pos ((Double.isFinite_iff _).mpr (Double.isFinite_ofRat_div hm hn hfits))
      refine ⟨Double.ofRat ((m : Rat) / n), ?_⟩
      unfold quotient
      dsimp only
      rw [if_neg (by omega), hquotient]

end Numeral

end Drawing
