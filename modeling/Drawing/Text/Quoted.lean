import Drawing.Text.Character
import Drawing.Text.Printable

/-!
# `Drawing/Text/Quoted.lean` — texts as they are quoted in messages

A text in a message stands between quotation marks: single ones, unless it holds a single mark and no
double one. Inside, the mark in use and the backslash are escaped, and characters that cannot be shown
are written by number in the shortest of three widths.
-/

namespace Drawing

/-- A lower-case hexadecimal number padded to a width. -/
def hexText (width n : Nat) : List Char :=
  let ds := Nat.toDigits 16 n
  List.replicate (width - ds.length) '0' ++ ds

/-- The mark that a text is quoted with. -/
def quotationMark (cs : List Char) : Char := if cs.contains '\x27' && !cs.contains '"' then '"' else '\x27'

/-- One character of a quoted text. -/
def quoteChar (mark c : Char) : List Char :=
  if c = mark ∨ c = '\\' then ['\\', c]
  else if c = '\n' then ['\\', 'n']
  else if c = '\r' then ['\\', 'r']
  else if c = '\t' then ['\\', 't']
  else if isPrintable c then [c]
  else if c.toNat < 0x100 then '\\' :: 'x' :: hexText 2 c.toNat
  else if c.toNat < 0x10000 then '\\' :: 'u' :: hexText 4 c.toNat
  -- Half of a surrogate pair goes by its own number, not by that of its stand-in.
  else match surrogate? c with
    | some n => '\\' :: 'u' :: hexText 4 n
    | none => '\\' :: 'U' :: hexText 8 c.toNat

/-- A text between quotation marks. -/
def quoted (s : String) : String :=
  let cs := s.toList
  let mark := quotationMark cs
  String.ofList (mark :: cs.flatMap (quoteChar mark) ++ [mark])

end Drawing
