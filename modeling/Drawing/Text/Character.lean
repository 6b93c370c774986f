/-!
# `Drawing/Text/Character.lean` — kinds of characters

The larger Unicode properties have modules of their own; here is what they share, and the kinds of characters that take
no large table.
-/

namespace Drawing

/-! ## Sets of characters

A Unicode property is data: a table of code point ranges, both ends included, in ascending order. This
module holds what all such tables share.
-/

/-- A set of code points as ascending, disjoint, closed ranges. -/
abbrev CharRanges := Array (Nat × Nat)

/-- Whether a character lies in one of the ranges. -/
def CharRanges.holds (ranges : CharRanges) (c : Char) : Bool :=
  ranges.any fun (lo, hi) => lo ≤ c.toNat && c.toNat ≤ hi

/-! ## White space

Two sets of blank characters are in use. *Blank* is what separates words and is stripped from the ends
of a text; it has the four information separators of ASCII among its members. *Space* is the Unicode
property `White_Space`, which does not; the fields of a schema strip that one before they read a number.
-/

/-- Whether a character has the Unicode property `White_Space`. -/
def isSpaceChar (c : Char) : Bool :=
  let n := c.toNat
  (9 ≤ n && n ≤ 13) || n == 0x20 || n == 0x85 || n == 0xA0 || n == 0x1680 ||
    (0x2000 ≤ n && n ≤ 0x200A) || n == 0x2028 || n == 0x2029 || n == 0x202F || n == 0x205F ||
    n == 0x3000

/-- Whether a character is blank: white space or an information separator. -/
def isBlank (c : Char) : Bool := isSpaceChar c || (0x1C ≤ c.toNat && c.toNat ≤ 0x1F)

/-- A text without the characters of a class at its ends. -/
def trimChars (p : Char → Bool) (cs : List Char) : List Char :=
  ((cs.dropWhile p).reverse.dropWhile p).reverse

/-- A text without the blanks at its ends. -/
def stripBlank (s : String) : String := String.ofList (trimChars isBlank s.toList)

/-- Cuts a text at every run of characters of a class; `word` is the reversed piece read so far. -/
def splitRuns (p : Char → Bool) (word : List Char) : List Char → List (List Char)
  | [] => if word.isEmpty then [] else [word.reverse]
  | c :: cs =>
    if p c then (if word.isEmpty then splitRuns p [] cs else word.reverse :: splitRuns p [] cs)
    else splitRuns p (c :: word) cs

/-- The words of a text, cut at blanks. -/
def blankWords (cs : List Char) : List (List Char) := splitRuns isBlank [] cs

/-! ## Decimal digits

Each script's decimal digits are ten consecutive code points from zero to nine, so a table of the
zeros is the whole property (Unicode 14).
-/

/-- The code point of each script's zero. -/
def digitZeros : Array Nat := #[
  0x30, 0x660, 0x6F0, 0x7C0, 0x966, 0x9E6, 0xA66, 0xAE6, 0xB66, 0xBE6,
  0xC66, 0xCE6, 0xD66, 0xDE6, 0xE50, 0xED0, 0xF20, 0x1040, 0x1090, 0x17E0,
  0x1810, 0x1946, 0x19D0, 0x1A80, 0x1A90, 0x1B50, 0x1BB0, 0x1C40, 0x1C50, 0xA620,
  0xA8D0, 0xA900, 0xA9D0, 0xA9F0, 0xAA50, 0xABF0, 0xFF10, 0x104A0, 0x10D30, 0x11066,
  0x110F0, 0x11136, 0x111D0, 0x112F0, 0x11450, 0x114D0, 0x11650, 0x116C0, 0x11730, 0x118E0,
  0x11950, 0x11C50, 0x11D50, 0x11DA0, 0x16A60, 0x16AC0, 0x16B50, 0x1D7CE, 0x1D7D8, 0x1D7E2,
  0x1D7EC, 0x1D7F6, 0x1E140, 0x1E2F0, 0x1E950, 0x1FBF0]

/-- The value of a decimal digit of any script. -/
def digitValue? (c : Char) : Option Nat :=
  if c.toNat < 0x80 then
    if c.isDigit then some (c.toNat - 0x30) else none
  else
    (digitZeros.find? fun z => z ≤ c.toNat && c.toNat < z + 10).map (c.toNat - ·)

/-- Whether a character is a decimal digit of some script. -/
def isAnyDigit (c : Char) : Bool := (digitValue? c).isSome

/-! ## Surrogates

Raw data can name half of a surrogate pair by its number. Such a half is no character, yet a text that
names one is read and written again. Inside, it is stood for by a code point of a plane where no character
is assigned: the half with number `n` by the one whose last four hexadecimal digits are those of `n`.
-/

/-- Whether a code unit opens a surrogate pair. -/
def isHighSurrogate (n : Nat) : Bool := 0xD800 ≤ n && n < 0xDC00

/-- Whether a code unit closes a surrogate pair. -/
def isLowSurrogate (n : Nat) : Bool := 0xDC00 ≤ n && n < 0xE000

/-- The character of a surrogate pair. -/
def surrogatePair (high low : Nat) : Char :=
  Char.ofNat (0x10000 + (high - 0xD800) * 0x400 + (low - 0xDC00))

/-- How far the stand-in of half of a pair is from its number. -/
def standInPlane : Nat := 0xD0000

/-- The character of a code unit on its own, a stand-in for half of a surrogate pair. -/
def codeUnit (n : Nat) : Char :=
  if isHighSurrogate n || isLowSurrogate n then Char.ofNat (standInPlane + n) else Char.ofNat n

/-- The number of the half of a pair that a character stands for. -/
def surrogate? (c : Char) : Option Nat :=
  let n := c.toNat - standInPlane
  if isHighSurrogate n || isLowSurrogate n then some n else none

/-- Whether a text holds nothing but characters. -/
def isWellFormed (s : String) : Bool := s.toList.all fun c => (surrogate? c).isNone

end Drawing
