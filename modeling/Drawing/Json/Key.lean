import Drawing.Json.Number
import Drawing.Json.Printer

/-!
# `Drawing/Json/Key.lean` — raw data as names

Raw data of most kinds can name something, and two questions have an answer before anything else is known
about it: whether it can be looked up at all, and whether two of them name the same thing. Numbers and truth
values name the same thing if they are equal as numbers, so `1`, `1.0` and `true` do; lists and objects name
nothing.
-/

namespace Drawing

variable {α : Type}

/-- Whether raw data is a given text. -/
def isText (s : String) : Json α → Bool
  | .str t => s == t
  | _ => false

/-- The fault of looking up raw data by name, if it names nothing. -/
def nameFault? : Json α → Option KindFault
  | v@(.arr _) => some (.notComparable v.kindName)
  | v@(.obj _) => some (.notComparable v.kindName)
  | _ => none

/-- Looks up raw data by name. -/
def lookUp {β : Type} (v : Json α) (found : β) : Except (Fault α) β :=
  match nameFault? v with
  | some fault => .error (.kind fault)
  | none => .ok found

variable [Scalar α]

/-- Whether two numerals are the same number. Not-a-number is the same as itself. -/
def Numeral.same (a b : Numeral α) : Bool :=
  match a.toRat?, b.toRat? with
  | some p, some q => decide (p = q)
  | none, none =>
    let x := a.value
    let y := b.value
    (Scalar.isNaN x && Scalar.isNaN y) || x == y
  | _, _ => false

/-- Whether two raw values name the same thing. -/
def sameName (a b : Json α) : Bool :=
  match a, b with
  | .null, .null => true
  | .str s, .str t => s == t
  | a, b =>
    match a.numeral?, b.numeral? with
    | some m, some n => m.same n
    | _, _ => false

/-- The text of raw data as a key, which is the same for values that name the same thing. -/
def keyText [DecimalText α] (v : Json α) : String :=
  match v.numeral? with
  | some n =>
    match n.toRat? with
    | some q => s!"{q.num}/{q.den}"
    | none => n.text
  | none => v.shown

end Drawing
