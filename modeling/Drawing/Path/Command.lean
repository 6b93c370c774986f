import Drawing.Canvas.Box
import Drawing.Fault
import Drawing.Json.Number

/-!
# `Drawing/Path/Command.lean` — path commands

A path is drawn by commands of five kinds, each with its own number of points. The kind fixes the
number in the type, so a command with too few or too many coordinates cannot be written down; it can
only be met while reading, where `Command.check` refuses it.
-/

namespace Drawing

/-- The letters that commands are written with. -/
inductive Letter where
  | move
  | line
  | cubic
  | quadratic
  | close
  deriving Repr, DecidableEq, BEq

namespace Letter

/-- All letters, in the order in which they are listed. -/
def all : List Letter := [move, line, cubic, quadratic, close]

def char : Letter → Char
  | move => 'M'
  | line => 'L'
  | cubic => 'C'
  | quadratic => 'Q'
  | close => 'Z'

def text (l : Letter) : String := String.singleton l.char

def ofText? (s : String) : Option Letter := all.find? fun l => l.text == s

def ofChar? (c : Char) : Option Letter := all.find? fun l => l.char == c

/-- How many points a letter takes. -/
def pointCount : Letter → Nat
  | move => 1
  | line => 1
  | cubic => 3
  | quadratic => 2
  | close => 0

/-- How many coordinates a letter takes. -/
def arity (l : Letter) : Nat := 2 * l.pointCount

end Letter

/-- A command of a path, all its points absolute. -/
inductive Command (α : Type) where
  /-- Puts the pen down at a point. -/
  | move (target : Point α)
  /-- Draws a straight line to a point. -/
  | line (target : Point α)
  /-- Draws a cubic curve with two control points. -/
  | cubic (control₁ control₂ target : Point α)
  /-- Draws a quadratic curve with one control point. -/
  | quadratic (control target : Point α)
  /-- Draws a line back to where the pen was put down. -/
  | close
  deriving Repr, BEq, DecidableEq

/-- The points of a flat list of coordinates. A coordinate left over is dropped. -/
def pairUp {α : Type} : List α → List (Point α)
  | x :: y :: rest => ⟨x, y⟩ :: pairUp rest
  | _ => []

namespace Command

variable {α : Type}

def letter : Command α → Letter
  | move _ => .move
  | line _ => .line
  | cubic .. => .cubic
  | quadratic .. => .quadratic
  | close => .close

/-- The points of a command, control points included, in the order they are written. -/
def points : Command α → List (Point α)
  | move p => [p]
  | line p => [p]
  | cubic a b p => [a, b, p]
  | quadratic a p => [a, p]
  | close => []

def coords (c : Command α) : List α := c.points.flatMap fun p => [p.x, p.y]

/-- The command of a letter with some points, if there are as many as the letter takes. -/
def ofPoints? : Letter → List (Point α) → Option (Command α)
  | .move, [p] => some (move p)
  | .line, [p] => some (line p)
  | .cubic, [a, b, p] => some (cubic a b p)
  | .quadratic, [a, p] => some (quadratic a p)
  | .close, [] => some close
  | _, _ => none

/-- The reason why a letter does not go with a number of coordinates. -/
def arityReason (l : Letter) (given : Nat) : String :=
  l.text ++ s!" expects {l.arity} coordinates, got {given}"

/-- The command of a letter with a flat list of coordinates. -/
def ofCoords (l : Letter) (coords : List α) : Checked (Command α) :=
  match if coords.length = l.arity then ofPoints? l (pairUp coords) else none with
  | some c => .valid c
  | none => .refuse (.refused (arityReason l coords.length))

section

variable [Scalar α]

/-- Accepts finite coordinates only, complaining about each of the others. -/
def finiteCoords (coords : List α) : Checked (List α) :=
  (Checked.items (fun x => if Scalar.isFinite x then .valid x else .refuse .notFinite) 0 coords).within
    (.field "coords")

/-- The command of a letter with finite coordinates, as many as the letter takes. -/
def check (l : Letter) (coords : List α) : Checked (Command α) :=
  (finiteCoords coords).refine (ofCoords l)

def readLetter : Json α → Checked Letter := Schema.oneOf (Letter.all.map Letter.text) Letter.ofText?

def readFields (fields : Fields α) : Checked (Command α) :=
  ((fun l cs => (l, cs)) <$> Schema.required (.same "cmd") readLetter fields <*>
    Schema.optional (.same "coords") [] (Schema.list Schema.finite) fields).refine
    fun (l, cs) => ofCoords l cs

def read : Json α → Checked (Command α) := Schema.record "PathCommand" readFields

end

/-- A checked command, or the fault that its values do not make one. -/
def ofChecked {β : Type} : Checked β → Except (Fault α) β
  | .valid c => .ok c
  | .invalid cs => .error (.record "PathCommand" cs)

/-- The command of a raw letter with raw coordinates, whatever of them reads as numbers. -/
def ofRaw [Scalar α] (letter : Json α) (coords : List (Json α)) : Except (Fault α) (Command α) := do
  let numbers ← coords.mapM fun v => v.toNumber.mapError Fault.number
  ofChecked (read (.obj [("cmd", letter), ("coords", .arr (numbers.map .ofReal))]))

def json (sp : Schema.Spelling) (c : Command α) : Json α :=
  Schema.write sp [
    (.same "cmd", .str c.letter.text),
    (.same "coords", .arr (c.coords.map .ofReal))]

end Command

end Drawing
