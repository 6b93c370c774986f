import Drawing.Json.Basic
import Drawing.Text.Quoted

/-!
# `Drawing/Json/Printer.lean` — raw data as text

Two texts of one tree. `Json.text` is the compact text that documents are stored in: no blanks, every
character but quotation mark, backslash and controls as it is, halves of surrogate pairs by number. `Json.shown` is how a value appears
inside a message: quoted as `Drawing/Text/Quoted.lean` says, with a blank behind each comma and colon.
-/

namespace Drawing.Json

/-- One character of a stored string. -/
def textChar (c : Char) : List Char :=
  if c = '"' then ['\\', '"']
  else if c = '\\' then ['\\', '\\']
  else if c = '\n' then ['\\', 'n']
  else if c = '\r' then ['\\', 'r']
  else if c = '\t' then ['\\', 't']
  else if c = '\x08' then ['\\', 'b']
  else if c = '\x0c' then ['\\', 'f']
  else if c.toNat < 0x20 then '\\' :: 'u' :: hexText 4 c.toNat
  else match surrogate? c with
    | some n => '\\' :: 'u' :: hexText 4 n
    | none => [c]

/-- A stored string between its marks. -/
def stringText (s : String) : String := String.ofList ('"' :: s.toList.flatMap textChar ++ ['"'])

section

variable {α : Type} [DecimalText α]

def numeralText (layout : NumberLayout) : Numeral α → String
  | .whole n => toString n
  | .real x => (DecimalText.shortest x).text layout

mutual

/-- The compact text of raw data, its scalars in a layout. -/
def textIn (layout : NumberLayout) : Json α → String
  | .null => "null"
  | .bool b => if b then "true" else "false"
  | .num n => numeralText layout n
  | .str s => stringText s
  | .arr items => "[" ++ ",".intercalate (itemTexts layout items) ++ "]"
  | .obj fields => "\x7b" ++ ",".intercalate (fieldTexts layout fields) ++ "\x7d"

def itemTexts (layout : NumberLayout) : List (Json α) → List String
  | [] => []
  | v :: rest => textIn layout v :: itemTexts layout rest

/-- The texts of the fields of an object. -/
def fieldTexts (layout : NumberLayout) : List (String × Json α) → List String
  | [] => []
  | (name, v) :: rest => (stringText name ++ ":" ++ textIn layout v) :: fieldTexts layout rest

end

/-- The compact text of raw data as documents are stored. -/
def text (v : Json α) : String := textIn .document v

mutual

/-- The text of raw data inside a message. -/
def shown : Json α → String
  | .null => "None"
  | .bool b => if b then "True" else "False"
  | .num n => n.text
  | .str s => quoted s
  | .arr items => "[" ++ ", ".intercalate (shownItems items) ++ "]"
  | .obj fields => "\x7b" ++ ", ".intercalate (shownFields fields) ++ "\x7d"

/-- The message texts of the items of a list. -/
def shownItems : List (Json α) → List String
  | [] => []
  | v :: rest => shown v :: shownItems rest

/-- The message texts of the fields of an object. -/
def shownFields : List (String × Json α) → List String
  | [] => []
  | (name, v) :: rest => (quoted name ++ ": " ++ shown v) :: shownFields rest

end

end

end Drawing.Json
