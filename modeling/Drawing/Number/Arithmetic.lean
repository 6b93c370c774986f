import Drawing.Fault

/-!
# `Drawing/Number/Arithmetic.lean` — arithmetic of numerals

Numbers as they were written are compared, added, multiplied and divided here. Whole numbers stay exact for
as long as they can: they are compared exactly, also with a scalar that cannot tell them from their
neighbours, their sum and product are whole, and their quotient is rounded once. Where a result is beyond
every scalar there is none.
-/

namespace Drawing

variable {α : Type} [Scalar α]

def Numeral.atMostZero : Numeral α → Bool
  | .whole n => n ≤ 0
  | .real x => x ≤ Scalar.zero

/-- A numeral as a scalar, or the fault that it is too large. -/
def Numeral.toScalar (n : Numeral α) : Except (Fault α) α :=
  match n.value? with
  | some x => .ok x
  | none => .error (.number .wholeTooLarge)

/-- The quotient of two numerals. That of two whole numbers is rounded once; it may be finite even if
they are too large to be scalars. -/
def Numeral.quotient : Numeral α → Numeral α → Except (Fault α) α
  | .whole a, .whole b =>
    if b = 0 then .error (.number (.divisionByZero true))
    else match Scalar.ofRat? (mkRat a 1 / mkRat b 1) with
      | some x => .ok x
      | none => .error (.number .quotientTooLarge)
  | a, b => do
    let x ← a.toScalar
    let y ← b.toScalar
    if y == Scalar.zero then .error (.number (.divisionByZero false)) else return x / y

/-- Whether one numeral is below another, strictly or not, by the exact values of both. Every whole number is
on the same side of an infinite one as zero is. -/
def Numeral.isOrdered (strict : Bool) (a b : Numeral α) : Bool :=
  let scalars (x y : α) : Bool := if strict then x < y else x ≤ y
  match a, b with
  | .real x, .real y => scalars x y
  | _, _ =>
    match a.toRat?, b.toRat? with
    | some p, some q => if strict then p < q else p ≤ q
    | some _, none => scalars Scalar.zero b.value
    | none, _ => scalars a.value Scalar.zero

/-- Whether a numeral is strictly below another. -/
def Numeral.isBelow (a b : Numeral α) : Bool := a.isOrdered true b

def Numeral.isAtMost (a b : Numeral α) : Bool := a.isOrdered false b

/-- Whether a numeral is neither below one nor above another. -/
def Numeral.isWithin (x lo hi : Numeral α) : Bool := lo.isAtMost x && x.isAtMost hi

/-- The sum of two numerals; that of two whole ones is whole. -/
def Numeral.plus : Numeral α → Numeral α → Except (Fault α) (Numeral α)
  | .whole a, .whole b => .ok (.whole (a + b))
  | a, b => do return .real ((← a.toScalar) + (← b.toScalar))

/-- The difference of two numerals; that of two whole ones is whole. -/
def Numeral.minus : Numeral α → Numeral α → Except (Fault α) (Numeral α)
  | .whole a, .whole b => .ok (.whole (a - b))
  | a, b => do return .real ((← a.toScalar) - (← b.toScalar))

/-- The product of two numerals; that of two whole ones is whole. -/
def Numeral.times : Numeral α → Numeral α → Except (Fault α) (Numeral α)
  | .whole a, .whole b => .ok (.whole (a * b))
  | a, b => do return .real ((← a.toScalar) * (← b.toScalar))

/-- How often a numeral asks for something to be done; only a whole one does. -/
def Numeral.toCount : Numeral α → Except (Fault α) Int
  | .whole n => .ok n
  | .real _ => .error (.kind (.notCountable "float"))

def Numeral.isPositive : Numeral α → Bool
  | .whole n => 0 < n
  | .real x => Scalar.zero < x

end Drawing
