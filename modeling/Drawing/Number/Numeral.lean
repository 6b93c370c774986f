import Drawing.Number.Text

/-!
# `Drawing/Number/Numeral.lean` — numbers as they were written

A number that a caller writes without a point is a whole number of any size; every other one is a
scalar. The difference shows in text (`20` against `20.0`) and in what a schema accepts, and nowhere
else: `Numeral.value` forgets it.
-/

namespace Drawing

/-- A number as written: whole, or with a fraction or exponent. -/
inductive Numeral (α : Type) where
  | whole (n : Int)
  | real (x : α)
  deriving Repr, BEq, DecidableEq

namespace Numeral

variable {α : Type} [Scalar α]

/-- The number nearest to a numeral. -/
def value : Numeral α → α
  | whole n => Scalar.ofInt n
  | real x => x

/-- The number nearest to a numeral, `none` for a whole number beyond every finite one. -/
def value? : Numeral α → Option α
  | whole n => Scalar.ofRat? n
  | real x => some x

def isFinite : Numeral α → Bool
  | whole _ => true
  | real x => Scalar.isFinite x

/-- The exact value of a finite numeral. -/
def toRat? : Numeral α → Option Rat
  | whole n => some n
  | real x => Scalar.toRat? x

/-- The text of a numeral in messages. -/
def text [DecimalText α] : Numeral α → String
  | whole n => toString n
  | real x => (DecimalText.shortest x).text .message

end Numeral

/-- The text of a number in messages. -/
def numberText {α : Type} [DecimalText α] (x : α) : String :=
  (DecimalText.shortest x).text .message

end Drawing
