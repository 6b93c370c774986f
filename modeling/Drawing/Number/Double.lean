import Drawing.Number.Rounding

/-!
# `Drawing/Number/Double.lean` — binary floating point as a scalar

A finite double is `± m · 2 ^ e` with `m < 2 ^ 53` and `-1074 ≤ e`, and its bit pattern without the
sign is exactly `(e + 1074) · 2 ^ 52 + m` once `m` is normalised. That one formula covers subnormal
numbers and the carry of a mantissa that rounds up to `2 ^ 53`, so the nearest double of a rational is
a single rounded quotient (`Double.ofNatRatio`).
-/

namespace Drawing

namespace Double

/-- The pattern of positive infinity; larger patterns overflow to it. -/
def infinityBits : Nat := 0x7FF0000000000000

/-- The least exponent that keeps `n / d / 2 ^ e` below `2 ^ 53`, and no less than `-1074`. -/
def exponentFor (n d : Nat) : Int :=
  let e : Int := (n.log2 : Int) - (d.log2 : Int) - 53
  -- The lengths of numerator and denominator give the exponent up to one.
  let fits : Bool :=
    if 0 ≤ e + 53 then n < d * twoTo (e + 53).toNat else n * twoTo (-(e + 53)).toNat < d
  max (-1074) (if fits then e else e + 1)

/-- The double nearest to `n / d`, infinity when that is too large. -/
def ofNatRatio (n d : Nat) : Float :=
  if n = 0 then Float.ofBits 0 else
    let e := exponentFor n d
    let m := if 0 ≤ e then nearestNat n (d * twoTo e.toNat) else nearestNat (n * twoTo (-e).toNat) d
    -- The leading bit of a normal mantissa counts into the exponent field, that of a subnormal one is missing,
    -- and a mantissa rounded up to the next power of two carries over: the sum is right in all three cases.
    let bits := (e + 1074).toNat * twoTo 52 + m
    Float.ofBits (UInt64.ofNat (min bits infinityBits))

/-- The double nearest to a rational. -/
def ofRat (q : Rat) : Float :=
  let x := ofNatRatio q.num.natAbs q.den
  if q.num < 0 then -x else x

/-- The double nearest to `m · 10 ^ e`. Beyond these decimal exponents the answer is zero or infinity,
whatever the digits are. -/
def ofDecimal (m : Nat) (e : Int) : Float :=
  -- About the exponent of the leading digit: the logarithm of two is a little below 302 / 1000.
  let top : Int := e + ((m.log2 * 302 / 1000 : Nat) : Int)
  if m = 0 then Float.ofBits 0
  else if 400 < top then Float.ofBits (UInt64.ofNat infinityBits)
  else if top < -400 then Float.ofBits 0
  else if 0 ≤ e then ofNatRatio (m * tenTo e.toNat) 1
  else ofNatRatio m (tenTo (-e).toNat)

/-- The mantissa and binary exponent of a finite double, without its sign. -/
def parts (x : Float) : Nat × Int :=
  let bits : Nat := x.toBits.toNat
  let field : Nat := bits / twoTo 52 % twoTo 11
  let fraction : Nat := bits % twoTo 52
  if field = 0 then (fraction, -1074) else (fraction + twoTo 52, (field : Int) - 1075)

def signBit (x : Float) : Bool := twoTo 63 ≤ x.toBits.toNat

/-- The exact value of a finite double. -/
def toRat? (x : Float) : Option Rat :=
  if x.isFinite then
    let (m, e) := parts x
    let q : Rat := if 0 ≤ e then ((m * twoTo e.toNat : Nat) : Rat) else mkRat m (twoTo (-e).toNat)
    some (if signBit x then -q else q)
  else none

end Double

instance : Scalar Float where
  decLt := inferInstance
  decLe := inferInstance
  ofRat := Double.ofRat
  ofDecimal := Double.ofDecimal
  toRat? := Double.toRat?
  isNaN := Float.isNaN

instance : Trig Float where
  pi := 3.141592653589793
  sin := Float.sin
  cos := Float.cos
  tan := Float.tan
  arccos := Float.acos
  sqrt := Float.sqrt

end Drawing
