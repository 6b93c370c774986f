import Drawing.Json.Printer
import Drawing.Path.Command

/-!
# `Drawing/Markup/Attribute.lean` — attributes and what is written in them

Attributes are written with values of many kinds. Whatever a value holds, it ends at its own quotation mark.
-/

namespace Drawing

/-! ## Commands as path data

Path data of our own is strict: absolute commands only, each its letter and its coordinates, all set
off by single blanks. A coordinate is written without decimals if it is whole and with two otherwise, and
never as a negative zero.
-/

section

variable {α : Type} [Scalar α]

def coordinateText (x : α) : String :=
  match Scalar.toRat? x with
  | none => Scalar.unboundedText x
  | some q =>
    if q.den = 1 then toString q.num
    -- A small negative coordinate would otherwise be written as a negative zero.
    else if roundRat 2 q = 0 then "0"
    else Scalar.fixedText 2 x

def Command.text (c : Command α) : String :=
  " ".intercalate (c.letter.text :: c.coords.map coordinateText)

def pathData (commands : List (Command α)) : String := " ".intercalate (commands.map Command.text)

def viewBoxText (values : List α) : String := " ".intercalate (values.map coordinateText)

end

/-! ## Text inside markup

The characters that markup gives a meaning to are written as entities: the ampersand and the two angle
brackets everywhere, and both quotation marks inside attribute values. So escaped text never holds an
angle bracket, and an escaped value never holds the quotation mark that would end it.
-/

/-- The entity of a character of running text. -/
def escapeTextChar (c : Char) : List Char :=
  if c = '&' then "&amp;".toList
  else if c = '<' then "&lt;".toList
  else if c = '>' then "&gt;".toList
  else [c]

/-- The entity of a character of an attribute value. -/
def escapeValueChar (c : Char) : List Char :=
  if c = '"' then "&quot;".toList
  else if c = '\x27' then "&#x27;".toList
  else escapeTextChar c

/-- Running text with its special characters as entities. -/
def escapeText (cs : List Char) : List Char := cs.flatMap escapeTextChar

/-- An attribute value with its special characters as entities. -/
def escapeValue (cs : List Char) : List Char := cs.flatMap escapeValueChar

/-! ## Attributes

An attribute is a name and a raw value. A value that is `null` leaves the attribute out; a scalar is
written like a coordinate and everything else like itself. Values are escaped, so whatever they hold,
they end at their own quotation mark.
-/

section

/-- An attribute: its name and its raw value. -/
abbrev Attribute (α : Type) := String × Json α

variable {α : Type} [Scalar α] [DecimalText α]

/-- The text of an attribute's value, `none` for one that is left out. -/
def attributeValue? : Json α → Option String
  | .null => none
  | .num (.real x) => some (coordinateText x)
  | .str s => some s
  | v => some v.shown

/-- An attribute with an escaped value. -/
def attributeText? (a : Attribute α) : Option String :=
  (attributeValue? a.2).map fun v =>
    a.1 ++ "=\"" ++ String.ofList (escapeValue v.toList) ++ "\""

/-- Attributes in order, those without a value left out. -/
def attributesText (attributes : List (Attribute α)) : String :=
  " ".intercalate (attributes.filterMap attributeText?)

/-- The name space of the markup. -/
def svgNamespace : String := "http://www.w3.org/2000/svg"

/-- The opening tag of a page. -/
def openTag (viewBox : Json α) (width height : α) : String :=
  "<svg " ++ attributesText [("xmlns", .str svgNamespace), ("viewBox", viewBox),
    ("width", .ofReal width), ("height", .ofReal height)] ++ ">"

end

end Drawing
