import Drawing.Number.Shortest

/-!
# `Drawing/Number/Text.lean` — numbers as text

Three ways of writing a number. *Shortest* text writes the fewest digits that read back, laid out by a
`Layout` record; *fixed* text writes a set number of decimals of the exact value; *general* text writes
a set number of significant digits and drops trailing zeros. The last two round a half to the even
digit.
-/

namespace Drawing

/-- How shortest digits are laid out: which exponents are written positionally, and what the others and
the values that are not finite look like. -/
structure NumberLayout where
  /-- The least exponent of the leading digit that is written positionally. -/
  least : Int
  /-- The greatest exponent of the leading digit that is written positionally. -/
  greatest : Int
  /-- The least number of digits of a written exponent. -/
  exponentWidth : Nat
  notANumber : String
  infinity : String
  negativeInfinity : String

namespace NumberLayout

/-- The layout of numbers in messages: positional from `1e-4` below `1e16`, exponents of two digits. -/
def message : NumberLayout where
  least := -4
  greatest := 15
  exponentWidth := 2
  notANumber := "nan"
  infinity := "inf"
  negativeInfinity := "-inf"

/-- The layout of numbers in documents: positional from `1e-5` below `1e16`, exponents as short as can
be; values that are not finite have no number form there. -/
def document : NumberLayout where
  least := -5
  greatest := 15
  exponentWidth := 1
  notANumber := "null"
  infinity := "null"
  negativeInfinity := "null"

end NumberLayout

/-- The digits of a natural number, most significant first. -/
def decimalDigits (n : Nat) : List Char := Nat.toDigits 10 n

/-- A text of digits padded with leading zeros to a width. -/
def padZeros (width : Nat) (cs : List Char) : List Char :=
  List.replicate (width - cs.length) '0' ++ cs

/-- A signed exponent, its sign always written. -/
def exponentText (width : Nat) (e : Int) : List Char :=
  (if e < 0 then '-' else '+') :: padZeros width (decimalDigits e.natAbs)

/-- The digits `ds`, whose first stands for `10 ^ top`, written with a point. At least one decimal
follows the point. -/
def positional (ds : List Char) (top : Int) : List Char :=
  if top < 0 then '0' :: '.' :: (List.replicate (-top - 1).toNat '0' ++ ds)
  else
    let whole := ds.take (top.toNat + 1)
    let rest := ds.drop (top.toNat + 1)
    whole ++ List.replicate (top.toNat + 1 - whole.length) '0' ++ '.' ::
      (if rest.isEmpty then ['0'] else rest)

/-- The digits `ds` with a point after the first, if more follow. -/
def mantissaText : List Char → List Char
  | [] => []
  | [d] => [d]
  | d :: ds => d :: '.' :: ds

/-- The text of a shortest form in a layout. -/
def Shortest.text (layout : NumberLayout) : Shortest → String
  | .notANumber => layout.notANumber
  | .infinite negative => if negative then layout.negativeInfinity else layout.infinity
  | .finite negative digits exponent =>
    let ds := decimalDigits digits
    let top : Int := if digits = 0 then 0 else exponent + (ds.length - 1 : Nat)
    let body :=
      if layout.least ≤ top ∧ top ≤ layout.greatest then positional ds top
      else
        mantissaText ds ++ 'e' :: exponentText layout.exponentWidth top
    String.ofList (if negative then '-' :: body else body)

/-- A rational written with `places` decimals, without its sign. -/
def fixedDigits (places : Nat) (q : Rat) : List Char :=
  let n := nearestNat (q.num.natAbs * tenTo places) q.den
  let ds := padZeros (places + 1) (decimalDigits n)
  let cut := ds.length - places
  if places = 0 then ds else ds.take cut ++ '.' :: ds.drop cut

namespace Scalar

variable {α : Type} [Scalar α]

/-- The text of a value that is not finite. -/
def unboundedText (x : α) : String :=
  if isNaN x then "nan" else if isNegative x then "-inf" else "inf"

/-- A number with a set number of decimals. -/
def fixedText (places : Nat) (x : α) : String :=
  match toRat? x with
  | none => unboundedText x
  | some q =>
    let ds := fixedDigits places q
    String.ofList (if isNegative x then '-' :: ds else ds)

/-- A share as a whole percentage. -/
def percentText (x : α) : String := fixedText 0 (x * ofRat 100) ++ "%"

end Scalar

/-- A text of digits without its trailing zeros. -/
def dropTrailingZeros (cs : List Char) : List Char := (cs.reverse.dropWhile (· == '0')).reverse

/-- The exponent of the leading digit of a positive rational. -/
def leadingExponentOf (q : Rat) : Int := Double.leadingExponent q.num.natAbs q.den

/-- The digits of a positive rational rounded to `significant` digits, and the exponent of the first. -/
def significantDigits (significant : Nat) (q : Rat) : List Char × Int :=
  let top := leadingExponentOf q
  let shift : Int := (significant : Int) - 1 - top
  let n :=
    if 0 ≤ shift then nearestNat (q.num.natAbs * tenTo shift.toNat) q.den
    else nearestNat q.num.natAbs (q.den * tenTo (-shift).toNat)
  let ds := decimalDigits n
  -- Rounding up may give one digit more: a one with zeros behind it.
  (ds.take significant, if significant < ds.length then top + 1 else top)

/-- A positive rational with at most `significant` digits: positional while the leading exponent is at
least `-4` and below `significant`, else with an exponent. -/
def generalDigits (significant : Nat) (q : Rat) : List Char :=
  let (ds, top) := significantDigits significant q
  if -4 ≤ top ∧ top < significant then
    let cs := dropTrailingZeros (positional ds top)
    if cs.getLast? = some '.' then cs.dropLast else cs
  else mantissaText (match dropTrailingZeros ds with | [] => ['0'] | ds => ds)
    ++ 'e' :: exponentText 2 top

/-- A number in general text, six significant digits at most. -/
def Scalar.generalText {α : Type} [Scalar α] (x : α) : String :=
  match toRat? x with
  | none => unboundedText x
  | some q =>
    let ds := if q = 0 then ['0'] else generalDigits 6 q
    String.ofList (if isNegative x then '-' :: ds else ds)

end Drawing
