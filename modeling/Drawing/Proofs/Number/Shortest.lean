import Drawing.Number.Shortest
import Drawing.Proofs.Number.Finite
import Mathlib.Tactic.FieldSimp
import Mathlib.Tactic.Ring

/-!
# `Drawing/Proofs/Number/Shortest.lean` — the shortest digits tell a double from all others

The shortest digits of a double are looked for on grids of decimals, from a coarse one to one of seventeen digits, and
the first that has a point among the reals that round to the double is taken. Two things make the digits tell which
double they were made of: the finest grid always has such a point, so the search ends with one, and no real rounds to
two doubles.

> **doubles are equal if their shortest digits stand for the same number and their signs agree.**
-/

namespace Drawing.Double

open Float.Model Float.Model.UnpackedFloat

/-! ## Mantissa and exponent -/

/-- Mantissa and exponent of a double: the exponent is as small as the mantissa allows. -/
structure IsParts (m : Nat) (e : Int) : Prop where
  lt : m < 2 ^ 53
  ge : -1074 ≤ e
  normal : e ≠ -1074 → 2 ^ 52 ≤ m

theorem isParts_parts (x : Float) : IsParts (parts x).1 (parts x).2 := by
  have htwo : twoTo 52 = 2 ^ 52 ∧ twoTo 11 = 2 ^ 11 := ⟨rfl, rfl⟩
  unfold parts
  dsimp only
  rw [htwo.1, htwo.2]
  split_ifs
  · constructor <;> dsimp only <;> omega
  · constructor <;> dsimp only <;> omega

theorem eq_of_toBits {x y : Float} (h : x.toBits.toNat = y.toBits.toNat) : x = y := by
  obtain ⟨⟨bits, hbits⟩⟩ := x
  obtain ⟨⟨bits', hbits'⟩⟩ := y
  obtain rfl : bits = bits' := UInt64.toNat_inj.mp h
  rfl

/-- Sign, mantissa and exponent are all there is to a double. -/
theorem eq_of_parts {x y : Float} (hparts : parts x = parts y) (hsign : signBit x = signBit y) : x = y := by
  have hx : x.toBits.toNat < 2 ^ 64 := x.toBits.toNat_lt
  have hy : y.toBits.toNat < 2 ^ 64 := y.toBits.toNat_lt
  have htwo : twoTo 52 = 2 ^ 52 ∧ twoTo 11 = 2 ^ 11 ∧ twoTo 63 = 2 ^ 63 := ⟨rfl, rfl, rfl⟩
  refine eq_of_toBits ?_
  unfold signBit at hsign
  unfold parts at hparts
  dsimp only at hparts
  rw [htwo.2.2, decide_eq_decide] at hsign
  rw [htwo.1, htwo.2.1] at hparts
  split_ifs at hparts <;> rw [Prod.mk.injEq] at hparts <;> omega

/-! ## The reals that round to a double -/

/-- The lower end of the reals that round to a double. Below a power of two the neighbour is only half as far away. -/
def lowEnd (m : Nat) (e : Int) : Rat := (m - if m = 2 ^ 52 ∧ e ≠ -1074 then 1 / 4 else 1 / 2) * 2 ^ e

/-- The upper end of the reals that round to a double. -/
def highEnd (m : Nat) (e : Int) : Rat := (m + 1 / 2) * 2 ^ e

/-- A real that rounds to the double `m · 2 ^ e`. The ends do if the mantissa is even. -/
structure RoundsTo (m : Nat) (e : Int) (q : Rat) : Prop where
  low : lowEnd m e ≤ q
  high : q ≤ highEnd m e
  inside : m % 2 = 1 → lowEnd m e < q ∧ q < highEnd m e

theorem RoundsTo.of_lt {m : Nat} {e : Int} {q : Rat} (hlow : lowEnd m e < q) (hhigh : q < highEnd m e) :
    RoundsTo m e q :=
  ⟨hlow.le, hhigh.le, fun _ => ⟨hlow, hhigh⟩⟩

theorem RoundsTo.pos {m : Nat} {e : Int} {q : Rat} (hm : 0 < m) (h : RoundsTo m e q) : 0 < q := by
  have hone : (1 : Rat) ≤ m := by exact_mod_cast hm
  refine lt_of_lt_of_le (mul_pos ?_ (two_zpow_pos e)) h.low
  split_ifs <;> linarith

/-- The reals that round to a normal double begin a quarter of a unit below the least mantissa or further up. -/
theorem le_lowEnd {m : Nat} {e : Int} (hm : 2 ^ 52 ≤ m) (he : e ≠ -1074) :
    (2 ^ 52 - 1 / 4) * (2 : Rat) ^ e ≤ lowEnd m e := by
  refine mul_le_mul_of_nonneg_right ?_ (two_zpow_pos e).le
  split_ifs with hedge
  · rw [hedge.1]
    norm_num
  · have hgt : 2 ^ 52 + 1 ≤ m := by
      have hne : m ≠ 2 ^ 52 := fun heq => hedge ⟨heq, he⟩
      omega
    have hle : (2 ^ 52 + 1 : Rat) ≤ m := by exact_mod_cast hgt
    linarith

/-- The reals that round to a double end before those of every greater exponent, or where those begin if its mantissa
is the greatest, which is odd. -/
theorem highEnd_le_of_exponent_lt {m m' : Nat} {e e' : Int} (h : IsParts m e) (h' : IsParts m' e') (hlt : e < e') :
    highEnd m e ≤ lowEnd m' e' ∧ (highEnd m e = lowEnd m' e' → m % 2 = 1) := by
  have hu := two_zpow_pos e
  have hge := h.ge
  have he' : e' ≠ -1074 := by omega
  have hunit : 2 * (2 : Rat) ^ e ≤ 2 ^ e' := by
    rw [mul_comm, ← zpow_add_one₀ (by norm_num)]
    exact zpow_le_zpow_right₀ (by norm_num) hlt
  have hlow : (2 ^ 53 - 1 / 2) * (2 : Rat) ^ e ≤ lowEnd m' e' :=
    calc (2 ^ 53 - 1 / 2) * (2 : Rat) ^ e = (2 ^ 52 - 1 / 4) * (2 * 2 ^ e) := by ring
      _ ≤ (2 ^ 52 - 1 / 4) * 2 ^ e' := mul_le_mul_of_nonneg_left hunit (by norm_num)
      _ ≤ lowEnd m' e' := le_lowEnd (h'.normal he') he'
  have hhigh : highEnd m e ≤ (2 ^ 53 - 1 / 2) * 2 ^ e := by
    have hle : (m : Rat) + 1 ≤ 2 ^ 53 := by exact_mod_cast Nat.succ_le_of_lt h.lt
    exact mul_le_mul_of_nonneg_right (by linarith) hu.le
  refine ⟨hhigh.trans hlow, fun heq => ?_⟩
  -- where the ends meet, both bounds are reached, and the first only by the greatest mantissa
  have hle : (2 ^ 53 - 1 / 2 : Rat) ≤ m + 1 / 2 := le_of_mul_le_mul_right (hlow.trans_eq heq.symm) hu
  have hlast : (2 ^ 53 : Rat) ≤ m + 1 := by linarith
  have hlast : 2 ^ 53 ≤ m + 1 := by exact_mod_cast hlast
  have := h.lt
  omega

/-- The reals that round to a double end before those of every greater mantissa, or where those of the next one begin,
and one of the two is odd. -/
theorem highEnd_le_of_mantissa_lt {m m' : Nat} {e : Int} (h : IsParts m e) (hlt : m < m') :
    highEnd m e ≤ lowEnd m' e ∧ (highEnd m e = lowEnd m' e → m % 2 = 1 ∨ m' % 2 = 1) := by
  have hu := two_zpow_pos e
  have hedge : ¬ (m' = 2 ^ 52 ∧ e ≠ -1074) := fun hedge => by
    have := h.normal hedge.2
    omega
  unfold highEnd lowEnd
  rw [if_neg hedge]
  have hle : (m : Rat) + 1 ≤ m' := by exact_mod_cast hlt
  refine ⟨mul_le_mul_of_nonneg_right (by linarith) hu.le, fun heq => ?_⟩
  have hmeet : (m : Rat) + 1 / 2 = m' - 1 / 2 := mul_right_cancel₀ hu.ne' heq
  have hnext : ((m + 1 : Nat) : Rat) = m' := by push_cast; linarith
  have : m + 1 = m' := by exact_mod_cast hnext
  omega

theorem highEnd_le_lowEnd {m m' : Nat} {e e' : Int} (h : IsParts m e) (h' : IsParts m' e')
    (hlt : e < e' ∨ e = e' ∧ m < m') :
    highEnd m e ≤ lowEnd m' e' ∧ (highEnd m e = lowEnd m' e' → m % 2 = 1 ∨ m' % 2 = 1) := by
  rcases hlt with hlt | ⟨rfl, hlt⟩
  · exact (highEnd_le_of_exponent_lt h h' hlt).imp_right fun hodd heq => .inl (hodd heq)
  · exact highEnd_le_of_mantissa_lt h hlt

/-- **No real rounds to two doubles.** -/
theorem RoundsTo.unique {m m' : Nat} {e e' : Int} {q : Rat} (h : IsParts m e) (h' : IsParts m' e')
    (hq : RoundsTo m e q) (hq' : RoundsTo m' e' q) : m = m' ∧ e = e' := by
  have hsmaller {m m' : Nat} {e e' : Int} (h : IsParts m e) (h' : IsParts m' e') (hq : RoundsTo m e q)
      (hq' : RoundsTo m' e' q) (hlt : e < e' ∨ e = e' ∧ m < m') : False := by
    obtain ⟨hends, hodd⟩ := highEnd_le_lowEnd h h' hlt
    have heq : highEnd m e = lowEnd m' e' := le_antisymm hends (hq'.low.trans hq.high)
    rcases hodd heq with hm | hm
    · exact absurd (hq.inside hm).2 (not_lt.mpr (heq.trans_le hq'.low))
    · exact absurd (hq'.inside hm).1 (not_lt.mpr (hq.high.trans_eq heq))
  rcases lt_trichotomy e e' with hlt | rfl | hlt
  · exact (hsmaller h h' hq hq' (.inl hlt)).elim
  · rcases Nat.lt_trichotomy m m' with hlt | rfl | hlt
    · exact (hsmaller h h' hq hq' (.inr ⟨rfl, hlt⟩)).elim
    · exact ⟨rfl, rfl⟩
    · exact (hsmaller h' h hq' hq (.inr ⟨rfl, hlt⟩)).elim
  · exact (hsmaller h' h hq' hq (.inl hlt)).elim

/-! ## Points of a grid -/

theorem ten_zpow_pos (k : Int) : (0 : Rat) < 10 ^ k := zpow_pos (by norm_num) k

theorem cast_tenTo (n : Nat) : ((tenTo n : Nat) : Rat) = 10 ^ (n : Int) := by
  unfold tenTo
  rw [Nat.pow_eq, Nat.cast_pow, zpow_natCast]
  rfl

/-- The scale of an interval, as a number. -/
theorem scale_intervalOf (m : Nat) (e : Int) :
    0 < (intervalOf m e).scale ∧
      ((if 0 ≤ e then twoTo e.toNat else 1 : Nat) : Rat) * 4 = 2 ^ e * (intervalOf m e).scale := by
  unfold intervalOf
  dsimp only
  split_ifs with he
  · refine ⟨by decide, ?_⟩
    rw [two_zpow_toNat he]
    push_cast
    ring
  · have hpos := twoTo_pos (-e).toNat
    refine ⟨Nat.mul_pos (by decide) hpos, ?_⟩
    have hne : ((twoTo (-e).toNat : Nat) : Rat) ≠ 0 := by exact_mod_cast hpos.ne'
    rw [two_zpow_neg_toNat (by omega)]
    push_cast
    field_simp

theorem mid_intervalOf (m : Nat) (e : Int) :
    ((intervalOf m e).mid : Rat) = m * 2 ^ e * (intervalOf m e).scale := by
  have hscale := (scale_intervalOf m e).2
  rw [mul_assoc, ← hscale]
  show ((4 * m * _ : Nat) : Rat) = _
  rw [Nat.cast_mul, Nat.cast_mul]
  push_cast
  ring

theorem mid_intervalOf_pos {m : Nat} (hm : 0 < m) (e : Int) : 0 < (intervalOf m e).mid := by
  have hpos : (0 : Rat) < (intervalOf m e).mid := by
    rw [mid_intervalOf]
    exact mul_pos (mul_pos (by exact_mod_cast hm) (two_zpow_pos e)) (by exact_mod_cast (scale_intervalOf m e).1)
  exact_mod_cast hpos

theorem hi_intervalOf (m : Nat) (e : Int) :
    ((intervalOf m e).hi : Rat) = highEnd m e * (intervalOf m e).scale := by
  have hscale := (scale_intervalOf m e).2
  unfold highEnd
  rw [mul_assoc, ← hscale]
  show (((4 * m + 2) * _ : Nat) : Rat) = _
  rw [Nat.cast_mul, Nat.cast_add, Nat.cast_mul]
  push_cast
  ring

theorem lo_intervalOf {m : Nat} (hm : 0 < m) (e : Int) :
    ((intervalOf m e).lo : Rat) = lowEnd m e * (intervalOf m e).scale := by
  have hscale := (scale_intervalOf m e).2
  have hbelow : (if m = twoTo 52 ∧ e ≠ -1074 then 1 else 2) ≤ 4 * m := by split_ifs <;> omega
  unfold lowEnd
  rw [mul_assoc, ← hscale]
  show (((4 * m - (if m = twoTo 52 ∧ e ≠ -1074 then 1 else 2)) * _ : Nat) : Rat) = _
  rw [Nat.cast_mul, Nat.cast_sub hbelow, show twoTo 52 = 2 ^ 52 from rfl]
  split_ifs <;> push_cast <;> ring

/-- Lying in the interval is rounding to the double, whatever both are taken times. -/
theorem holds_intervalOf {m : Nat} {e : Int} (hm : 0 < m) {step c : Nat} (hstep : 0 < step) {q : Rat}
    (hq : (c : Rat) = q * ((intervalOf m e).scale * step)) :
    (intervalOf m e).holds step c = true ↔ RoundsTo m e q := by
  have hpos : (0 : Rat) < (intervalOf m e).scale * step := by
    exact_mod_cast Nat.mul_pos (scale_intervalOf m e).1 hstep
  have hlo : (((intervalOf m e).lo * step : Nat) : Rat) = lowEnd m e * ((intervalOf m e).scale * step) := by
    rw [Nat.cast_mul, lo_intervalOf hm, mul_assoc]
  have hhi : (((intervalOf m e).hi * step : Nat) : Rat) = highEnd m e * ((intervalOf m e).scale * step) := by
    rw [Nat.cast_mul, hi_intervalOf, mul_assoc]
  have hle : (intervalOf m e).lo * step ≤ c ↔ lowEnd m e ≤ q := by
    rw [← Nat.cast_le (α := Rat), hlo, hq, mul_le_mul_iff_left₀ hpos]
  have hlt : (intervalOf m e).lo * step < c ↔ lowEnd m e < q := by
    rw [← Nat.cast_lt (α := Rat), hlo, hq, mul_lt_mul_iff_left₀ hpos]
  have hle' : c ≤ (intervalOf m e).hi * step ↔ q ≤ highEnd m e := by
    rw [← Nat.cast_le (α := Rat), hhi, hq, mul_le_mul_iff_left₀ hpos]
  have hlt' : c < (intervalOf m e).hi * step ↔ q < highEnd m e := by
    rw [← Nat.cast_lt (α := Rat), hhi, hq, mul_lt_mul_iff_left₀ hpos]
  have hclosed : (intervalOf m e).closed = (m % 2 == 0) := rfl
  unfold Interval.holds
  rw [hclosed]
  by_cases heven : m % 2 = 0
  · simp only [heven, beq_self_eq_true, if_true, Bool.and_eq_true, decide_eq_true_iff, hle, hle']
    exact ⟨fun h => ⟨h.1, h.2, fun hodd => by omega⟩, fun h => ⟨h.low, h.high⟩⟩
  · simp only [beq_eq_false_iff_ne.mpr heven, Bool.false_eq_true, if_false, Bool.and_eq_true,
      decide_eq_true_iff, hlt, hlt']
    exact ⟨fun h => .of_lt h.1 h.2, fun h => h.inside (by omega)⟩

namespace Interval

/-- What numbers are taken times to compare them with the points of the grid of multiples of `10 ^ k`. -/
def stepOf (k : Int) : Nat := if 0 ≤ k then 1 else tenTo (-k).toNat

/-- The distance of the points of that grid, taken times as much. -/
def gridOf (v : Interval) (k : Int) : Nat := if 0 ≤ k then v.scale * tenTo k.toNat else v.scale

/-- The point of that grid next to the middle and not above it. -/
def pointBelow (v : Interval) (k : Int) : Nat := v.mid * stepOf k / v.gridOf k

theorem stepOf_pos (k : Int) : 0 < stepOf k := by
  unfold stepOf
  split_ifs
  · exact Nat.one_pos
  · exact tenTo_pos _

theorem cast_gridOf (v : Interval) (k : Int) : (v.gridOf k : Rat) = v.scale * stepOf k * 10 ^ k := by
  unfold gridOf stepOf
  split_ifs with hk
  · rw [Nat.cast_mul, cast_tenTo, Int.toNat_of_nonneg hk, Nat.cast_one, mul_one]
  · rw [cast_tenTo, Int.toNat_of_nonneg (by omega), mul_assoc, ← zpow_add₀ (by norm_num), neg_add_cancel, zpow_zero,
      mul_one]

theorem onGrid_eq (v : Interval) (k : Int) : ∃ isNearer : Bool, v.onGrid k =
    if v.holds (stepOf k) (v.pointBelow k * v.gridOf k) &&
        (!v.holds (stepOf k) ((v.pointBelow k + 1) * v.gridOf k) || isNearer) then some (v.pointBelow k)
      else if v.holds (stepOf k) ((v.pointBelow k + 1) * v.gridOf k) then some (v.pointBelow k + 1) else none :=
  ⟨_, rfl⟩

theorem holds_of_onGrid {v : Interval} {k : Int} {c : Nat} (h : v.onGrid k = some c) :
    v.holds (stepOf k) (c * v.gridOf k) = true := by
  obtain ⟨isNearer, hgrid⟩ := v.onGrid_eq k
  rw [hgrid] at h
  split_ifs at h with hlow hhigh
  · obtain rfl := Option.some.inj h
    exact (Bool.and_eq_true_iff.mp hlow).1
  · obtain rfl := Option.some.inj h
    exact hhigh

/-- If a point next to the middle lies in the interval, one is found. -/
theorem exists_onGrid_of_holds {v : Interval} {k : Int}
    (h : v.holds (stepOf k) (v.pointBelow k * v.gridOf k) = true ∨
      v.holds (stepOf k) ((v.pointBelow k + 1) * v.gridOf k) = true) :
    ∃ c, v.onGrid k = some c := by
  obtain ⟨isNearer, hgrid⟩ := v.onGrid_eq k
  rw [hgrid]
  split_ifs with hlow hhigh
  · exact ⟨_, rfl⟩
  · exact ⟨_, rfl⟩
  · rcases h with h | h
    · exact absurd (by simp [h, hhigh]) hlow
    · exact absurd h hhigh

/-- The middle lies between the points next to it. -/
theorem mid_near_pointBelow {v : Interval} (hscale : 0 < v.scale) (k : Int) :
    v.pointBelow k * 10 ^ k * v.scale ≤ (v.mid : Rat) ∧ v.mid < (v.pointBelow k + 1) * (10 : Rat) ^ k * v.scale := by
  have hstep : (0 : Rat) < stepOf k := by exact_mod_cast stepOf_pos k
  have hgrid : 0 < v.gridOf k := by
    have hpos : (0 : Rat) < v.gridOf k := by
      rw [cast_gridOf]
      exact mul_pos (mul_pos (by exact_mod_cast hscale) hstep) (ten_zpow_pos k)
    exact_mod_cast hpos
  have hle : v.pointBelow k * v.gridOf k ≤ v.mid * stepOf k := Nat.div_mul_le_self _ _
  have hlt : v.mid * stepOf k < (v.pointBelow k + 1) * v.gridOf k := by
    rw [Nat.add_mul, Nat.one_mul]
    exact Nat.lt_div_mul_add hgrid
  have hle : (v.pointBelow k : Rat) * v.gridOf k ≤ v.mid * stepOf k := by exact_mod_cast hle
  have hlt : (v.mid : Rat) * stepOf k < (v.pointBelow k + 1) * v.gridOf k := by exact_mod_cast hlt
  rw [cast_gridOf] at hle hlt
  constructor
  · refine le_of_mul_le_mul_right ?_ hstep
    linarith
  · refine lt_of_mul_lt_mul_right ?_ hstep.le
    linarith

end Interval

theorem holds_gridOf {m : Nat} {e : Int} (hm : 0 < m) (k : Int) (c : Nat) :
    (intervalOf m e).holds (Interval.stepOf k) (c * (intervalOf m e).gridOf k) = true ↔ RoundsTo m e (c * 10 ^ k) := by
  refine holds_intervalOf hm (Interval.stepOf_pos k) ?_
  rw [Nat.cast_mul, Interval.cast_gridOf]
  ring

/-- If a grid is so fine that the point nearest to a double rounds to it, a point is found on it. -/
theorem exists_onGrid_of_fine {m : Nat} {e : Int} (hm : 0 < m) {k : Int}
    (hlow : 10 ^ k / 2 < m * 2 ^ e - lowEnd m e) (hhigh : 10 ^ k / 2 < highEnd m e - m * 2 ^ e) :
    ∃ c, (intervalOf m e).onGrid k = some c := by
  have hten := ten_zpow_pos k
  have hscale := (scale_intervalOf m e).1
  have hscale' : (0 : Rat) < (intervalOf m e).scale := by exact_mod_cast hscale
  obtain ⟨hbelow, habove⟩ := Interval.mid_near_pointBelow hscale k
  rw [mid_intervalOf] at hbelow habove
  have hbelow := le_of_mul_le_mul_right hbelow hscale'
  have habove := lt_of_mul_lt_mul_right habove hscale'.le
  refine Interval.exists_onGrid_of_holds ?_
  rw [holds_gridOf hm, holds_gridOf hm]
  by_cases hnear : (m : Rat) * 2 ^ e - (intervalOf m e).pointBelow k * 10 ^ k ≤ 10 ^ k / 2
  · exact .inl (.of_lt (by linarith) (by linarith))
  · refine .inr ?_
    push_cast
    exact .of_lt (by linarith) (by linarith)

/-! ## The search -/

theorem tenTo_digitCount {n : Nat} (hn : 0 < n) : tenTo (digitCount n - 1) ≤ n ∧ n < tenTo (digitCount n) := by
  have hpow (k : Nat) : tenTo k = 10 ^ k := rfl
  unfold digitCount
  rw [if_neg hn.ne', hpow, hpow]
  have hlength : 0 < (Nat.toDigits 10 n).length := Nat.length_toDigits_pos
  refine ⟨?_, (Nat.length_toDigits_le_iff (by decide) hlength).mp (Nat.le_refl _)⟩
  by_cases hone : (Nat.toDigits 10 n).length = 1
  · simpa [hone] using Nat.succ_le_of_lt hn
  · have hshorter := Nat.length_toDigits_le_iff (b := 10) (n := n) (k := (Nat.toDigits 10 n).length - 1)
      (by decide) (by omega)
    omega

theorem digitCount_pos {n : Nat} (hn : 0 < n) : 0 < digitCount n := by
  unfold digitCount
  rw [if_neg hn.ne']
  exact Nat.length_toDigits_pos

/-- A number lies between the powers of ten that its digits say. -/
theorem between_ten_zpow {n : Nat} (hn : 0 < n) :
    (10 : Rat) ^ ((digitCount n : Int) - 1) ≤ n ∧ (n : Rat) < 10 ^ (digitCount n : Int) := by
  obtain ⟨hle, hlt⟩ := tenTo_digitCount hn
  have hpos := digitCount_pos hn
  have hle : ((tenTo (digitCount n - 1) : Nat) : Rat) ≤ n := Nat.cast_le.mpr hle
  have hlt : (n : Rat) < (tenTo (digitCount n) : Nat) := Nat.cast_lt.mpr hlt
  rw [cast_tenTo, Int.natCast_sub hpos] at hle
  rw [cast_tenTo] at hlt
  exact ⟨hle, hlt⟩

/-- The power of ten of the leading digit is no larger than the quotient. -/
theorem leadingExponent_le {n d : Nat} (hn : 0 < n) (hd : 0 < d) : (d : Rat) * 10 ^ leadingExponent n d ≤ n := by
  unfold leadingExponent
  dsimp only
  generalize hguess : (digitCount n : Int) - digitCount d = guess
  have hreaches : (if 0 ≤ guess then decide (d * tenTo guess.toNat ≤ n) else decide (d ≤ n * tenTo (-guess).toNat)) =
      true ↔ (d : Rat) * 10 ^ guess ≤ n := by
    split_ifs with h
    · rw [decide_eq_true_iff, ← Nat.cast_le (α := Rat), Nat.cast_mul, cast_tenTo, Int.toNat_of_nonneg h]
    · rw [decide_eq_true_iff, ← Nat.cast_le (α := Rat), Nat.cast_mul, cast_tenTo, Int.toNat_of_nonneg (by omega),
        zpow_neg, ← div_eq_mul_inv, le_div_iff₀ (ten_zpow_pos guess)]
  generalize (if 0 ≤ guess then decide (d * tenTo guess.toNat ≤ n) else decide (d ≤ n * tenTo (-guess).toNat)) =
    reaches at hreaches ⊢
  split_ifs with hb
  · exact hreaches.mp hb
  · -- the first guess is too large by one at most
    calc (d : Rat) * 10 ^ (guess - 1) ≤ 10 ^ (digitCount d : Int) * 10 ^ (guess - 1) :=
          mul_le_mul_of_nonneg_right (between_ten_zpow hd).2.le (ten_zpow_pos _).le
      _ = 10 ^ ((digitCount n : Int) - 1) := by
        rw [← zpow_add₀ (by norm_num)]
        congr 1
        omega
      _ ≤ n := (between_ten_zpow hn).1

/-- Dropping trailing zeros leaves the number as it is. -/
theorem trimZeros_value (fuel c : Nat) (k : Int) :
    ((trimZeros fuel c k).1 : Rat) * 10 ^ (trimZeros fuel c k).2 = c * 10 ^ k := by
  induction fuel generalizing c k with
  | zero => rfl
  | succ fuel ih =>
    unfold trimZeros
    split_ifs with h
    · have hc : ((c / 10 : Nat) : Rat) * 10 = c := by exact_mod_cast Nat.div_mul_cancel (Nat.dvd_of_mod_eq_zero h.2)
      rw [ih, zpow_add_one₀ (by norm_num), mul_comm ((10 : Rat) ^ k), ← mul_assoc, hc]
    · rfl

/-- The grid of seventeen digits is fine enough for every double. -/
theorem exists_onGrid {m : Nat} {e : Int} (h : IsParts m e) (hm : 0 < m) :
    ∃ c, (intervalOf m e).onGrid (leadingExponent (intervalOf m e).mid (intervalOf m e).scale - 16) = some c := by
  have hscale := (scale_intervalOf m e).1
  have hscale' : (0 : Rat) < (intervalOf m e).scale := by exact_mod_cast hscale
  have hmid := mid_intervalOf m e
  have hu := two_zpow_pos e
  have hmidpos := mid_intervalOf_pos hm e
  -- The grid is sixteen places finer than the leading digit, and so than the double, which is less than 2 ^ 53 units.
  have htop : (10 : Rat) ^ leadingExponent (intervalOf m e).mid (intervalOf m e).scale ≤ m * 2 ^ e := by
    have hle := leadingExponent_le hmidpos hscale
    rw [hmid, mul_comm] at hle
    exact le_of_mul_le_mul_right hle hscale'
  generalize leadingExponent (intervalOf m e).mid (intervalOf m e).scale = top at htop ⊢
  have hstep : (10 : Rat) ^ (top - 16) * 10 ^ 16 ≤ m * 2 ^ e := by
    rwa [← zpow_natCast (10 : Rat) 16, ← zpow_add₀ (by norm_num), Nat.cast_ofNat, sub_add_cancel]
  have hfine := exists_onGrid_of_fine hm (k := top - 16) (e := e)
  generalize (10 : Rat) ^ (top - 16) = step at hstep hfine
  have hle (bound : Rat) (hbound : (m : Rat) ≤ bound) : step * 10 ^ 16 ≤ bound * 2 ^ e :=
    hstep.trans (mul_le_mul_of_nonneg_right hbound hu.le)
  have hlt : (m : Rat) ≤ 2 ^ 53 := by exact_mod_cast h.lt.le
  have hbound := hle _ hlt
  refine hfine ?_ ?_
  · unfold lowEnd
    split_ifs with hedge
    · have hpower := hle (2 ^ 52) (by rw [hedge.1]; norm_num)
      linarith
    · linarith
  · unfold highEnd
    linarith

/-- The search for the shortest digits ends on one of seventeen grids. -/
theorem shortestParts_eq {m : Nat} {e : Int} (h : IsParts m e) (hm : 0 < m) :
    ∃ n < 17, ∃ c, (intervalOf m e).onGrid (leadingExponent (intervalOf m e).mid (intervalOf m e).scale - (n : Nat)) =
      some c ∧ shortestParts m e =
        trimZeros 17 c (leadingExponent (intervalOf m e).mid (intervalOf m e).scale - (n : Nat)) := by
  unfold shortestParts
  dsimp only
  split
  · next c k hfound =>
    obtain ⟨n, hn, hpoint⟩ := List.exists_of_findSome?_eq_some hfound
    obtain ⟨d, hd, hpair⟩ := Option.map_eq_some_iff.mp hpoint
    obtain ⟨rfl, rfl⟩ := Prod.mk.inj hpair
    exact ⟨n, List.mem_range.mp hn, d, hd, rfl⟩
  · next hnone =>
    obtain ⟨c, hc⟩ := exists_onGrid h hm
    have hlast := List.findSome?_eq_none_iff.mp hnone 16 (by decide)
    rw [Option.map_eq_none_iff] at hlast
    exact nomatch hlast.symm.trans hc

/-- **The shortest digits of a double round to it.** -/
theorem roundsTo_shortestParts {m : Nat} {e : Int} (h : IsParts m e) (hm : 0 < m) :
    RoundsTo m e ((shortestParts m e).1 * 10 ^ (shortestParts m e).2) := by
  obtain ⟨n, -, c, hc, heq⟩ := shortestParts_eq h hm
  rw [heq, trimZeros_value]
  exact (holds_gridOf hm _ c).mp (Interval.holds_of_onGrid hc)

/-! ## Doubles -/

/-- What the shortest form of a finite double says of it: its sign, and a number that rounds to it, unless it is
zero. -/
theorem shortest_of_isFinite {x : Float} (h : x.isFinite = true) :
    ∃ digits exponent, shortest x = .finite (signBit x) digits exponent ∧
      ((parts x).1 = 0 ∧ (digits : Rat) * 10 ^ exponent = 0 ∨
        0 < (parts x).1 ∧ RoundsTo (parts x).1 (parts x).2 (digits * 10 ^ exponent)) := by
  unfold shortest
  rw [isNaN_of_isFinite h, h]
  dsimp only [Bool.false_eq_true, if_false]
  rw [if_neg Bool.false_ne_true, if_pos rfl]
  split_ifs with hzero
  · exact ⟨0, 0, rfl, .inl ⟨hzero, by norm_num⟩⟩
  · have hpos := Nat.pos_of_ne_zero hzero
    exact ⟨_, _, rfl, .inr ⟨hpos, roundsTo_shortestParts (isParts_parts x) hpos⟩⟩

theorem isFinite_of_shortest {x : Float} {negative : Bool} {digits : Nat} {exponent : Int}
    (h : shortest x = .finite negative digits exponent) : x.isFinite = true := by
  unfold shortest at h
  split_ifs at h with hnan hfinite
  exact hfinite

/-- **The shortest digits of a double, with its sign, tell it from all others.** -/
theorem eq_of_shortest {x y : Float} {negative : Bool} {digits digits' : Nat} {exponent exponent' : Int}
    (hx : shortest x = .finite negative digits exponent) (hy : shortest y = .finite negative digits' exponent')
    (h : (digits : Rat) * 10 ^ exponent = digits' * 10 ^ exponent') : x = y := by
  obtain ⟨d, k, hd, hcase⟩ := shortest_of_isFinite (isFinite_of_shortest hx)
  obtain ⟨d', k', hd', hcase'⟩ := shortest_of_isFinite (isFinite_of_shortest hy)
  obtain ⟨hsign, rfl, rfl⟩ := Shortest.finite.inj (hd.symm.trans hx)
  obtain ⟨hsign', rfl, rfl⟩ := Shortest.finite.inj (hd'.symm.trans hy)
  have hx := isParts_parts x
  have hy := isParts_parts y
  refine eq_of_parts ?_ (hsign.trans hsign'.symm)
  rcases hcase with ⟨hm, hzero⟩ | ⟨hm, hround⟩
  · rcases hcase' with ⟨hm', -⟩ | ⟨hm', hround'⟩
    · -- a mantissa of zero is not normal, so the exponent is the least one
      have he : (parts x).2 = -1074 := by
        by_contra hne
        have := hx.normal hne
        omega
      have he' : (parts y).2 = -1074 := by
        by_contra hne
        have := hy.normal hne
        omega
      exact Prod.ext (hm.trans hm'.symm) (he.trans he'.symm)
    · exact absurd (hzero.symm.trans h) (hround'.pos hm').ne
  · rcases hcase' with ⟨-, hzero'⟩ | ⟨-, hround'⟩
    · exact absurd (h.trans hzero') (hround.pos hm).ne'
    · obtain ⟨hm, he⟩ := hround.unique hx hy (h ▸ hround')
      exact Prod.ext hm he

/-! ## Infinity -/

theorem toNat_unpackMantissa (b : BitVec Format.binary64.numBits) :
    (unpackMantissa b).toNat = b.toNat % 2 ^ 52 := by
  simp only [unpackMantissa, BitVec.toNat_cast, BitVec.extractLsb_toNat, Nat.shiftRight_zero]

theorem toNat_unpackSign (b : BitVec Format.binary64.numBits) :
    (unpackSign b).toNat = b.toNat / 2 ^ 63 % 2 := by
  have htop : unpackSign b = b.extractLsb' 63 1 := rfl
  rw [htop, BitVec.extractLsb'_toNat, Nat.shiftRight_eq_div_pow]

theorem sign_ofBitVec (x : Float) :
    Sign.ofBitVec (@unpackSign .binary64 x.toBits.toBitVec) =
      if signBit x then .negative else .positive := by
  have hlt : x.toBits.toNat < 2 ^ 64 := x.toBits.toNat_lt
  have hsign := toNat_unpackSign x.toBits.toBitVec
  have htwo : twoTo 63 = 2 ^ 63 := rfl
  unfold Sign.ofBitVec signBit
  rw [htwo, UInt64.toNat_toBitVec] at *
  by_cases hbit : 2 ^ 63 ≤ x.toBits.toNat
  · have hne : @unpackSign .binary64 x.toBits.toBitVec ≠ 0#1 := by
      intro heq
      rw [heq] at hsign
      have : (0#1).toNat = 0 := rfl
      omega
    rw [if_neg hne, if_pos (decide_eq_true hbit)]
  · have heq : @unpackSign .binary64 x.toBits.toBitVec = 0#1 := by
      refine BitVec.eq_of_toNat_eq ?_
      rw [hsign]
      have : (0#1).toNat = 0 := rfl
      omega
    rw [if_pos heq, if_neg (by simpa using hbit)]

/-- What is not finite is the one not-a-number there is, or infinity with a sign. -/
theorem unpack_of_not_finite {x : Float} (hx : x.isFinite = false) :
    x.toModel.unpack = .notANumber ∧ x.toBits.toBitVec = packedNaN .binary64 ∨
      x.toModel.unpack = .infinity (if signBit x then .negative else .positive) ∧
        x.toBits.toNat % 2 ^ 63 = infinityBits := by
  have hfinite : ¬ (UnpackedFloat.unpack .binary64 x.toBits.toBitVec).isFinite = true := by
    show ¬ x.isFinite = true
    simp [hx]
  have hones : @unpackExponent .binary64 x.toBits.toBitVec = -1#_ := by
    by_contra hne
    exact hfinite ((isFinite_unpack_iff _).mpr hne)
  have hsign := sign_ofBitVec x
  show UnpackedFloat.unpack .binary64 x.toBits.toBitVec = _ ∧ _ ∨
    UnpackedFloat.unpack .binary64 x.toBits.toBitVec = _ ∧ _
  unfold UnpackedFloat.unpack
  dsimp only
  rw [if_pos hones, hsign]
  by_cases hmantissa : @unpackMantissa .binary64 x.toBits.toBitVec = 0#_
  · rw [if_pos hmantissa]
    refine .inr ⟨rfl, ?_⟩
    have he := congrArg BitVec.toNat hones
    have hm := congrArg BitVec.toNat hmantissa
    rw [toNat_unpackExponent, UInt64.toNat_toBitVec] at he
    rw [toNat_unpackMantissa, UInt64.toNat_toBitVec] at hm
    have he' : x.toBits.toNat / 2 ^ 52 % 2 ^ 11 = 2047 := he
    have hm' : x.toBits.toNat % 2 ^ 52 = 0 := hm
    unfold infinityBits
    omega
  · rw [if_neg hmantissa]
    exact .inl ⟨rfl, x.toModel.valid.eq_packedNaN hones hmantissa⟩

theorem isNaN_eq (x : Float) : x.isNaN = x.toModel.unpack.isNaN := rfl

/-- The word for what is not finite tells it from all others. -/
theorem eq_of_word {x y : Float} (hx : x.isFinite = false) (h : shortest x = shortest y) : x = y := by
  have hy : y.isFinite = false := by
    by_contra hy
    obtain ⟨digits, exponent, hy, -⟩ := shortest_of_isFinite (Bool.not_eq_false _ ▸ hy)
    exact absurd (isFinite_of_shortest (h.trans hy)) (by simp [hx])
  have hword {z : Float} (hz : z.isFinite = false) :
      shortest z = if z.toModel.unpack.isNaN then .notANumber else .infinite (signBit z) := by
    unfold shortest
    rw [isNaN_eq, hz]
    rfl
  rw [hword hx, hword hy] at h
  rcases unpack_of_not_finite hx with ⟨hu, hbits⟩ | ⟨hu, hbits⟩ <;>
    rcases unpack_of_not_finite hy with ⟨hu', hbits'⟩ | ⟨hu', hbits'⟩ <;> rw [hu, hu'] at h
  · exact eq_of_toBits (congrArg BitVec.toNat (hbits.trans hbits'.symm))
  · exact nomatch h
  · exact nomatch h
  · have hsign : signBit x = signBit y := Shortest.infinite.inj h
    have hlt : x.toBits.toNat < 2 ^ 64 := x.toBits.toNat_lt
    have hlt' : y.toBits.toNat < 2 ^ 64 := y.toBits.toNat_lt
    refine eq_of_toBits ?_
    unfold signBit at hsign
    rw [show twoTo 63 = 2 ^ 63 from rfl, decide_eq_decide] at hsign
    omega

/-- What is above zero and not finite is infinity without a minus sign. -/
theorem shortest_of_unbounded {x : Float} (hx : x.isFinite = false) (h0 : ofRat 0 < x) :
    shortest x = .infinite false := by
  have hcompare : ((ofRat 0).toModel.unpack.compare x.toModel.unpack == some .lt) = true := of_decide_eq_true h0
  rw [show (ofRat 0).toModel.unpack = .zero .positive from rfl] at hcompare
  unfold shortest
  rw [isNaN_eq, hx]
  rcases unpack_of_not_finite hx with ⟨hu, -⟩ | ⟨hu, -⟩
  · rw [hu] at hcompare
    exact nomatch hcompare
  · rw [hu] at hcompare ⊢
    cases hsign : signBit x with
    | false => rfl
    | true => rw [hsign] at hcompare; exact nomatch hcompare

end Drawing.Double

namespace Drawing

/-- Scalars that are told apart by their shortest form: by their digits if they are finite, and by the word for them
if they are not. -/
class ToldByDigits (α : Type) [Scalar α] [DecimalText α] : Prop where
  isFinite_iff {x : α} : Scalar.isFinite x = true ↔
    ∃ negative digits exponent, DecimalText.shortest x = .finite negative digits exponent
  eq_of_digits {x y : α} {negative : Bool} {digits digits' : Nat} {exponent exponent' : Int}
    (hx : DecimalText.shortest x = .finite negative digits exponent)
    (hy : DecimalText.shortest y = .finite negative digits' exponent')
    (h : (digits : Rat) * 10 ^ exponent = digits' * 10 ^ exponent') : x = y
  eq_of_word {x y : α} (hx : Scalar.isFinite x = false)
    (h : DecimalText.shortest x = DecimalText.shortest y) : x = y
  shortest_of_unbounded {x : α} (hx : Scalar.isFinite x = false) (h0 : Scalar.zero < x) :
    DecimalText.shortest x = .infinite false

instance : ToldByDigits Float where
  isFinite_iff {x} := by
    rw [Double.isFinite_iff]
    constructor
    · intro h
      obtain ⟨digits, exponent, hx, -⟩ := Double.shortest_of_isFinite h
      exact ⟨_, digits, exponent, hx⟩
    · rintro ⟨negative, digits, exponent, hx⟩
      exact Double.isFinite_of_shortest hx
  eq_of_digits := Double.eq_of_shortest
  eq_of_word {x y} hx h := by
    rw [← Bool.not_eq_true, Double.isFinite_iff, Bool.not_eq_true] at hx
    exact Double.eq_of_word hx h
  shortest_of_unbounded {x} hx h0 := by
    rw [← Bool.not_eq_true, Double.isFinite_iff, Bool.not_eq_true] at hx
    exact Double.shortest_of_unbounded hx h0

end Drawing
