import Drawing.Number.Double

/-!
# `Drawing/Number/Shortest.lean` — the fewest digits that read back

A double stands for every real that rounds to it, an interval around its exact value. Its shortest
decimal is a point of the coarsest decimal grid that has one in that interval: of two such points the
nearer one, and the even one if neither is nearer. On any grid only the two neighbours of the exact
value need looking at, for if some grid point lies in the interval then one of those two does.
-/

namespace Drawing

/-- A number as the fewest decimal digits that identify it: `± digits · 10 ^ exponent`. -/
inductive Shortest where
  | notANumber
  | infinite (negative : Bool)
  | finite (negative : Bool) (digits : Nat) (exponent : Int)
  deriving Repr, DecidableEq

/-- Number types whose values have a shortest decimal form. -/
class DecimalText (α : Type) where
  /-- The shortest decimal form of a number. -/
  shortest : α → Shortest

namespace Double

/-- The positive reals `lo / scale` to `hi / scale` that round to one double, and its own `mid / scale`.
The ends belong to the interval exactly if `closed`. -/
structure Interval where
  lo : Nat
  mid : Nat
  hi : Nat
  scale : Nat
  closed : Bool

/-- The reals that round to the double `m · 2 ^ e`. Below a power of two the neighbour is only half as
far away. -/
def intervalOf (m : Nat) (e : Int) : Interval :=
  let below : Nat := if m = twoTo 52 ∧ e ≠ -1074 then 1 else 2
  let up : Nat := if 0 ≤ e then twoTo e.toNat else 1
  let scale : Nat := if 0 ≤ e then 4 else 4 * twoTo (-e).toNat
  -- All is taken times four, so that the halves and quarters of a step are whole.
  { lo := (4 * m - below) * up, mid := 4 * m * up, hi := (4 * m + 2) * up, scale,
    closed := m % 2 == 0 }

namespace Interval

/-- Whether `c / (scale · step)` lies in the interval, all of it taken times `step`. -/
def holds (v : Interval) (step c : Nat) : Bool :=
  if v.closed then v.lo * step ≤ c && c ≤ v.hi * step else v.lo * step < c && c < v.hi * step

/-- The point of the grid of multiples of `10 ^ k` that lies in the interval nearest to its middle; of
two that are equally near, the even one. -/
def onGrid (v : Interval) (k : Int) : Option Nat :=
  let grid : Nat := if 0 ≤ k then v.scale * tenTo k.toNat else v.scale
  let step : Nat := if 0 ≤ k then 1 else tenTo (-k).toNat
  let c := v.mid * step / grid
  let below := v.holds step (c * grid)
  let above := v.holds step ((c + 1) * grid)
  let twice := 2 * (v.mid * step - c * grid)
  let isNearer : Bool := twice < grid || (twice == grid && c % 2 == 0)
  if below && (!above || isNearer) then some c else if above then some (c + 1) else none

end Interval

/-- The number of decimal digits of a natural number, none for zero. -/
def digitCount (n : Nat) : Nat := if n = 0 then 0 else (Nat.toDigits 10 n).length

/-- The exponent of the leading digit of `n / d`. -/
def leadingExponent (n d : Nat) : Int :=
  let guess : Int := (digitCount n : Int) - (digitCount d : Int)
  let reaches : Bool :=
    if 0 ≤ guess then d * tenTo guess.toNat ≤ n else d ≤ n * tenTo (-guess).toNat
  if reaches then guess else guess - 1

/-- The digits without trailing zeros, each zero dropped raising the exponent. -/
def trimZeros : (fuel : Nat) → (digits : Nat) → (exponent : Int) → Nat × Int
  | 0, c, k => (c, k)
  | fuel + 1, c, k => if c ≠ 0 ∧ c % 10 = 0 then trimZeros fuel (c / 10) (k + 1) else (c, k)

/-- The shortest digits of the positive double `m · 2 ^ e`: the coarsest of seventeen grids that has a
point in its interval. -/
def shortestParts (m : Nat) (e : Int) : Nat × Int :=
  let v := intervalOf m e
  let top := leadingExponent v.mid v.scale
  let found := (List.range 17).findSome? fun (n : Nat) =>
    let k : Int := top - n
    (v.onGrid k).map fun c => (c, k)
  match found with
  | some (c, k) => trimZeros 17 c k
  | none => (m, e)

/-- The shortest decimal form of a double. -/
def shortest (x : Float) : Shortest :=
  if x.isNaN then .notANumber
  else if x.isFinite then
    let (m, e) := parts x
    if m = 0 then .finite (signBit x) 0 0
    else
      let (digits, exponent) := shortestParts m e
      .finite (signBit x) digits exponent
  else .infinite (signBit x)

end Double

instance : DecimalText Float where
  shortest := Double.shortest

end Drawing
