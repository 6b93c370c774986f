import Drawing.Number.Numeral
import Drawing.Table

/-!
# `Drawing/Json/Basic.lean` — raw data

The tree a design document is written as before anything is known about it. An object is a list of
named fields: its order is the order of the text, and no two of its fields share a name, because
`Table.put` replaces where it finds one. Whole numbers and scalars stay apart (`Numeral`), since a schema
tells them apart.
-/

namespace Drawing

/-- Raw data. -/
inductive Json (α : Type) where
  | null
  | bool (b : Bool)
  | num (n : Numeral α)
  | str (s : String)
  | arr (items : List (Json α))
  | obj (fields : List (String × Json α))
  deriving Repr, BEq

/-- The fields of an object. -/
abbrev Fields (α : Type) := Table (Json α)

namespace Json

variable {α : Type}

/-- A whole number. -/
def ofInt (n : Int) : Json α := .num (.whole n)

def ofReal (x : α) : Json α := .num (.real x)

/-- The value or `null`. -/
def ofOption : Option (Json α) → Json α
  | some v => v
  | none => .null

/-- A number as it was written; a truth value counts as one or zero. -/
def numeral? : Json α → Option (Numeral α)
  | .num n => some n
  | .bool b => some (.whole (if b then 1 else 0))
  | _ => none

/-- Whether raw data counts as present and not empty: `null`, `false`, zero, and the empty text, list
and object do not. -/
def isTruthy [Scalar α] : Json α → Bool
  | .null => false
  | .bool b => b
  | .num (.whole n) => n != 0
  | .num (.real x) => !(x == Scalar.zero)
  | .str s => s != ""
  | .arr items => !items.isEmpty
  | .obj fields => !fields.isEmpty

/-! ## Limits

Two things are not read however well they are written: a whole number of very many digits, and lists and
objects that stand inside one another very many times. Neither is a fault of the grammar, so neither has a
line and a column.
-/

/-- How many digits a whole number may have. -/
def digitLimit : Nat := 4300

/-- How many lists and objects may stand inside one another. -/
def depthLimit : Nat := 990

/-- Raw data beyond what is read. -/
inductive LimitFault where
  /-- A whole number of too many digits. -/
  | digits (count : Nat)
  /-- A list inside too many lists and objects. -/
  | nestedList
  /-- An object inside too many lists and objects. -/
  | nestedObject
  deriving Repr, DecidableEq

/-- The wording of going beyond a limit. -/
def LimitFault.message : LimitFault → String
  | digits count =>
    s!"Exceeds the limit ({digitLimit} digits) for integer string conversion: " ++
      s!"value has {count} digits; use sys.set_int_max_str_digits() to increase the limit"
  | nestedList => "maximum recursion depth exceeded while decoding a JSON array from a unicode string"
  | nestedObject => "maximum recursion depth exceeded while decoding a JSON object from a unicode string"

end Json

/-- The number that a field holds, as it was written. -/
def Fields.numeral? {α : Type} (fields : Fields α) (name : String) : Option (Numeral α) :=
  (Table.get? fields name).bind Json.numeral?

end Drawing
