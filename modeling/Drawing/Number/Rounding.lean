import Drawing.Number.Scalar

/-!
# `Drawing/Number/Rounding.lean` — rounding an exact quotient

All rounding in the library, to a number of decimals or to the nearest representable number, is one
operation: the integer nearest to an exact quotient, a half going to the even neighbour. It is stated
on naturals first (`nearestNat`) and carried to signed rationals by symmetry.
-/

namespace Drawing

/-- The power of two with an exponent. -/
def twoTo (n : Nat) : Nat := Nat.pow 2 n

/-- The power of ten with an exponent. -/
def tenTo (n : Nat) : Nat := Nat.pow 10 n

/-- The natural number nearest to `n / d`; a half goes to the even neighbour. -/
def nearestNat (n d : Nat) : Nat :=
  let q := n / d
  let twice := 2 * (n % d)
  if twice < d then q else if d < twice then q + 1 else q + q % 2

/-- The integer nearest to a rational; a half goes to the even neighbour. -/
def nearestInt (q : Rat) : Int :=
  let n := nearestNat q.num.natAbs q.den
  if q.num < 0 then -(n : Int) else n

/-- A rational rounded to `places` decimals; a half goes to the even neighbour. -/
def roundRat (places : Nat) (q : Rat) : Rat :=
  mkRat (nearestInt (q * (tenTo places : Nat))) (tenTo places)

namespace Scalar

variable {α : Type} [Scalar α]

/-- The number nearest to `x` rounded to `places` decimals. A value that is not finite is kept, and
a result of zero keeps the sign of `x`. -/
def roundTo (places : Nat) (x : α) : α :=
  match toRat? x with
  | none => x
  | some q =>
    let r := roundRat places q
    if r = 0 then zero * x else ofRat r

/-- The whole part of a number, towards zero; zero for a value that is not finite. -/
def truncate (x : α) : Int :=
  match toRat? x with
  | none => 0
  | some q => q.num.tdiv q.den

/-- The integer nearest to a number, a half going to the even one; zero for a value that is not
finite. -/
def nearest (x : α) : Int :=
  match toRat? x with
  | none => 0
  | some q => nearestInt q

end Scalar

end Drawing
