import Drawing.Fault
import Drawing.Json.Basic
import Drawing.Number.Reading

/-!
# `Drawing/Json/Number.lean` — raw data taken for a number

Outside of schemas a number is taken from raw data with fewer questions: truth values count as one and
zero, and a text counts as the number it reads as, in digits of any script. What is left are texts that
read as nothing, lists, objects and `null`, and whole numbers too large to be scalars.
-/

namespace Drawing.Json

/-- The name of the kind of raw data, as messages give it. -/
def kindName {α : Type} : Json α → String
  | .null => "NoneType"
  | .bool _ => "bool"
  | .num (.whole _) => "int"
  | .num (.real _) => "float"
  | .str _ => "str"
  | .arr _ => "list"
  | .obj _ => "dict"

/-- Raw data as a number, or why it is none. -/
def toNumber {α : Type} [Scalar α] : Json α → Except NumberFault α
  | .bool b => .ok (if b then Scalar.one else Scalar.zero)
  | .num n =>
    match n.value? with
    | some x => .ok x
    | none => .error .wholeTooLarge
  | .str s =>
    match NumberGrammar.anyScript.read? s with
    | some x => .ok x
    | none => .error (.unreadable s)
  | v => .error (.notNumeric v.kindName)

/-- The numbers of some values, nothing if one of them is none. Of the reasons for that, only a whole number
that is too large is a fault; the values behind the first that is no number are not looked at. -/
def numbers? {α : Type} [Scalar α] : List (Json α) → Except NumberFault (Option (List α))
  | [] => .ok (some [])
  | v :: rest =>
    match v.toNumber with
    | .ok x => do return (← numbers? rest).map (x :: ·)
    | .error .wholeTooLarge => .error .wholeTooLarge
    | .error _ => .ok none

end Drawing.Json
