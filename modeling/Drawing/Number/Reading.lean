import Drawing.Number.Scalar
import Drawing.Text.Casing
import Drawing.Text.Character

/-!
# `Drawing/Number/Reading.lean` — numbers in free text

The grammar of a number in text, read strictly from end to end: an optional sign, then one of the words
`inf`, `infinity` and `nan` in any case, or digits with an optional point and exponent. White space at the
ends is ignored. Two readers differ in the digits and in where an underscore may stand
(`NumberGrammar`): free text has digits of every script and underscores between two of them, a field of a
record has ASCII digits and underscores anywhere between two characters, if nothing else is ignored.
-/

namespace Drawing

/-- Where an underscore may stand in a number's text. -/
inductive UnderscoreRule where
  /-- Between two digits. -/
  | betweenDigits
  /-- Alone between any two characters of a text with no white space at its ends. -/
  | betweenCharacters
  deriving Repr, DecidableEq

/-- What a number's text may consist of. -/
structure NumberGrammar where
  /-- The value of a digit. -/
  digit? : Char → Option Nat
  underscores : UnderscoreRule

namespace NumberGrammar

/-- Digits of every script, underscores between them. -/
def anyScript : NumberGrammar := ⟨digitValue?, .betweenDigits⟩

/-- ASCII digits only, underscores between any two characters. -/
def asciiDigits : NumberGrammar :=
  ⟨fun c => if c.isDigit then some (c.toNat - 0x30) else none, .betweenCharacters⟩

end NumberGrammar

/-- A text without its underscores, of which there must be some, none of them first, last or beside
another one. -/
def withoutLoneUnderscores (cs : List Char) : Option (List Char) :=
  if cs.contains '_' && cs.head? != some '_' && cs.getLast? != some '_' &&
      !(cs.zip cs.tail).contains ('_', '_') then
    some (cs.filter (· != '_'))
  else none

/-- A decimal magnitude as written: its digits as one number and the exponent of the last. -/
structure Magnitude where
  mantissa : Nat
  exponent : Int

/-- What a text reads as. -/
inductive NumberWord where
  | notANumber
  | infinite
  | finite (m : Magnitude)

namespace NumberGrammar

/-- Drops each underscore that stands between two digits; `none` if another one is left. -/
def dropUnderscores (g : NumberGrammar) (afterDigit : Bool) : List Char → Option (List Char)
  | [] => some []
  | '_' :: cs =>
    match cs with
    | c :: _ =>
      if afterDigit && (g.digit? c).isSome then dropUnderscores g false cs else none
    | [] => none
  | c :: cs => (dropUnderscores g (g.digit? c).isSome cs).map (c :: ·)

/-- The leading digits of a text as one number, how many there are, and the rest. -/
def leadingDigits (g : NumberGrammar) (value count : Nat) : List Char → Nat × Nat × List Char
  | [] => (value, count, [])
  | c :: cs =>
    match g.digit? c with
    | some d => leadingDigits g (value * 10 + d) (count + 1) cs
    | none => (value, count, c :: cs)

/-- A written exponent, from its letter to the end of the text. -/
def exponentPart (g : NumberGrammar) : List Char → Option Int
  | [] => some 0
  | e :: cs =>
    if e = 'e' ∨ e = 'E' then
      let (negative, ds) := match cs with
        | '-' :: r => (true, r)
        | '+' :: r => (false, r)
        | r => (false, r)
      match leadingDigits g 0 0 ds with
      | (n, count, []) =>
        if count = 0 then none else some (if negative then -(n : Int) else n)
      | _ => none
    else none

/-- Digits with an optional point and exponent, at least one digit before the exponent. -/
def magnitude (g : NumberGrammar) (cs : List Char) : Option Magnitude :=
  let (whole, n, rest) := leadingDigits g 0 0 cs
  let (mantissa, places, rest) := match rest with
    | '.' :: r => leadingDigits g whole 0 r
    | r => (whole, 0, r)
  if n + places = 0 then none
  else (exponentPart g rest).map fun e => ⟨mantissa, e - places⟩

/-- An unsigned number. -/
def word (g : NumberGrammar) (cs : List Char) : Option NumberWord :=
  let lower := cs.map Char.toLower
  if lower = "nan".toList then some .notANumber
  else if lower = "inf".toList ∨ lower = "infinity".toList then some .infinite
  else (magnitude g cs).map .finite

/-- A number with an optional sign. -/
def signed? {α : Type} [Scalar α] (g : NumberGrammar) (cs : List Char) : Option α :=
  let (negative, cs) := match cs with
    | '-' :: r => (true, r)
    | '+' :: r => (false, r)
    | r => (false, r)
  let unsigned : Option α := (word g cs).map fun
    | .notANumber => Scalar.zero / Scalar.zero
    | .infinite => Scalar.one / Scalar.zero
    | .finite m => Scalar.ofDecimal m.mantissa m.exponent
  unsigned.map fun x => if negative then -x else x

/-- Reads a whole text as a number. -/
def read? {α : Type} [Scalar α] (g : NumberGrammar) (s : String) : Option α :=
  let cs := s.toList
  let trimmed := trimChars isSpaceChar cs
  match g.underscores with
  | .betweenDigits => (dropUnderscores g false trimmed).bind g.signed?
  | .betweenCharacters => g.signed? trimmed <|> (withoutLoneUnderscores cs).bind g.signed?

end NumberGrammar

end Drawing
