/-!
# `Drawing/Number/Scalar.lean` — the numbers a drawing is made of

Every coordinate, size and fraction in this library is an element of a `Scalar` type. Two such
types matter. Drawings are *run* on binary floating point, where a number has not-a-number,
infinities and a nearest neighbour for each rational; they are *reasoned about* on the rationals
themselves, where every number is finite and exact. A definition written over `Scalar` is both
programs at once, so a law about exact coordinates is a law about the very code that runs.

`Trig` is kept apart from the arithmetic, so that a theorem can take sine and cosine to be arbitrary
functions simply by taking an arbitrary `Trig` instance.
-/

namespace Drawing

/-- Numbers with arithmetic, decidable comparison, and a way to and from the rationals. -/
class Scalar (α : Type) extends Add α, Sub α, Mul α, Div α, Neg α, LT α, LE α, BEq α where
  /-- Strict comparison is decidable, false against not-a-number. -/
  decLt : DecidableLT α
  /-- Weak comparison is decidable, false against not-a-number. -/
  decLe : DecidableLE α
  /-- The number nearest to a rational. -/
  ofRat : Rat → α
  /-- The number nearest to `m · 10 ^ e`. -/
  ofDecimal : (m : Nat) → (e : Int) → α
  /-- The exact value of a finite number; `none` for the others. -/
  toRat? : α → Option Rat
  /-- Whether the value is not-a-number. -/
  isNaN : α → Bool

/-- The transcendental functions that repetition, templates and arcs call for. -/
class Trig (α : Type) where
  /-- The ratio of a circle's circumference to its diameter. -/
  pi : α
  sin : α → α
  cos : α → α
  tan : α → α
  arccos : α → α
  sqrt : α → α

instance Scalar.decidableLT {α : Type} [Scalar α] : DecidableLT α := Scalar.decLt
instance Scalar.decidableLE {α : Type} [Scalar α] : DecidableLE α := Scalar.decLe

namespace Scalar

variable {α : Type} [Scalar α]

/-- The number nearest to an integer. -/
def ofInt (n : Int) : α := ofRat n

/-- The number nearest to a natural number. -/
def ofNat (n : Nat) : α := ofRat n

/-- The additive unit. -/
def zero : α := ofRat 0

/-- The multiplicative unit. -/
def one : α := ofRat 1

/-- Whether the number has an exact rational value. -/
def isFinite (x : α) : Bool := (toRat? x).isSome

/-- Whether the number is beyond every rational. -/
def isInfinite (x : α) : Bool := !isFinite x && !isNaN x

/-- The number nearest to a rational, `none` when that is not finite. -/
def ofRat? (q : Rat) : Option α :=
  let x : α := ofRat q
  if isFinite x then some x else none

def isWhole (x : α) : Bool :=
  match toRat? x with
  | some q => q.den == 1
  | none => false

/-- Whether the number carries a minus sign; a zero does when its reciprocal is below zero. -/
def isNegative (x : α) : Bool :=
  x < zero || (x == zero && one / x < zero)

/-- The distance from zero. -/
def abs (x : α) : α := if isNegative x then -x else x

/-! ## Choosing between two numbers

`least` and `greatest` keep their first argument unless the second is strictly better, so a
not-a-number in first place stays and one in second place is passed over. `lower` and `upper`
instead let a not-a-number win from either side. -/

/-- The first number unless the second is strictly below it. -/
def least (a b : α) : α := if b < a then b else a

/-- The first number unless the second is strictly above it. -/
def greatest (a b : α) : α := if a < b then b else a

/-- The smaller of two numbers, not-a-number if either is. -/
def lower (a b : α) : α := if isNaN a then a else if isNaN b then b else least a b

/-- The larger of two numbers, not-a-number if either is. -/
def upper (a b : α) : α := if isNaN a then a else if isNaN b then b else greatest a b

/-- The nearest number of `[lo, hi]`; a not-a-number stays one. -/
def clamp (lo hi x : α) : α := lower (upper x lo) hi

end Scalar

end Drawing
