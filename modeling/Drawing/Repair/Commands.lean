import Drawing.Path.Foreign
import Drawing.Path.Points
import Drawing.Repair.Action

/-!
# `Drawing/Repair/Commands.lean` — repairing the commands of a path

Commands are read like foreign path data that was cut into items: letters of either case, horizontal and
vertical lines, several groups of numbers behind one letter. A pen follows them, so that relative numbers
become absolute ones. What cannot be read is dropped, numbers that do not fill a group are cut off, and a
path that does not begin with a move is made to.
-/

namespace Drawing

section

variable {α : Type} [Scalar α]

/-! ## Items -/

/-- A command as written: its letter and its numbers. -/
structure WrittenCommand (α : Type) where
  letter : Char
  numbers : List α
  deriving Repr

/-- The letter of an item, under either of two names. -/
def itemLetter? (fields : Fields α) : Option Char :=
  let written := match Table.get? fields "cmd" with
    | some v => some v
    | none => Table.get? fields "command"
  match written with
  | some (.str s) =>
    match s.toList with
    | [c] => some c
    | _ => none
  | _ => none

/-- The numbers of an item, none if they are left out. -/
def itemNumbers? (fields : Fields α) : Except (Fault α) (Option (List α)) :=
  match Table.get? fields "coords" with
  | none => .ok (some [])
  | some (.arr items) => do
    let numbers ← (Json.numbers? items).mapError Fault.number
    return numbers.filter fun xs => xs.all Scalar.isFinite
  | some _ => .ok none

/-- The command that an item writes, if it does. -/
def writtenCommand? (item : Json α) : Except (Fault α) (Option (WrittenCommand α)) :=
  match item with
  | .obj fields =>
    match itemLetter? fields with
    | none => .ok none
    | some letter => do return (← itemNumbers? fields).map fun numbers => ⟨letter, numbers⟩
  | _ => .ok none

/-! ## Following the pen -/

/-- The points of horizontal lines to some numbers. -/
def horizontalStops (relative : Bool) (pos : Point α) : List α → List (Point α)
  | [] => []
  | v :: rest =>
    let p : Point α := ⟨if relative then pos.x + v else v, pos.y⟩
    p :: horizontalStops relative p rest

/-- The points of vertical lines to some numbers. -/
def verticalStops (relative : Bool) (pos : Point α) : List α → List (Point α)
  | [] => []
  | v :: rest =>
    let p : Point α := ⟨pos.x, if relative then pos.y + v else v⟩
    p :: verticalStops relative p rest

/-- Lines through some points, and the pen behind them. -/
def Pen.lines (pen : Pen α) (stops : List (Point α)) : List (Command α) × Pen α :=
  (stops.map .line, { pen with pos := stops.getLast?.getD pen.pos })

/-- The complete groups of a number of points. -/
def pointGroups (size : Nat) (points : List (Point α)) : List (List (Point α)) :=
  (List.range (points.length / size)).map fun i => (points.drop (i * size)).take size

/-- The commands of a letter with some groups of points, and the pen behind them. Behind the first group a
move goes on as a line. -/
def Pen.draw (pen : Pen α) (letter : Letter) (relative : Bool) :
    List (List (Point α)) → List (Command α) × Pen α
  | [] => ([], pen)
  | group :: rest =>
    let points := if relative then group.map fun p => p.shift pen.pos.x pen.pos.y else group
    match Command.ofPoints? letter points, points.getLast? with
    | some c, some p =>
      let (pen, next) : Pen α × Letter :=
        if letter = .move then (⟨p, p⟩, .line) else ({ pen with pos := p }, letter)
      let (drawn, pen) := pen.draw next relative rest
      (c :: drawn, pen)
    | _, _ => ([], pen)

/-- The commands of a letter with some numbers, what was done to them, and the pen behind them. -/
def Pen.drawLetter (pen : Pen α) (path : String) (letter : Letter) (w : WrittenCommand α) :
    List (Command α) × List (RepairAction α) × Pen α :=
  let relative := w.letter.isLower
  let given := w.numbers.length
  let groups := pointGroups letter.pointCount (pairUp w.numbers)
  if groups.isEmpty then ([], [.droppedShort w.letter given path], pen)
  else
    let (drawn, after) := pen.draw letter relative groups
    (drawn,
      -- Numbers left over are told of as a split, too.
      (if groups.length = 1 ∧ given = letter.arity then [] else [.split w.letter path]) ++
        (if relative then [.madeAbsolute w.letter path] else []),
      after)

/-- The commands that a written one stands for, what was done to it, and the pen behind them. -/
def Pen.carryOut (pen : Pen α) (path : String) (w : WrittenCommand α) :
    List (Command α) × List (RepairAction α) × Pen α :=
  let relative := w.letter.isLower
  let straight (stops : List (Point α)) : List (Command α) × List (RepairAction α) × Pen α :=
    let (drawn, after) := pen.lines stops
    (drawn, [.straightened w.letter path], after)
  match w.letter.toUpper with
  | 'H' => straight (horizontalStops relative pen.pos w.numbers)
  | 'V' => straight (verticalStops relative pen.pos w.numbers)
  | c =>
    match Letter.ofChar? c with
    | none => ([], [.droppedLetter w.letter path], pen)
    | some .close => ([.close], [], { pen with pos := pen.opened })
    | some letter => pen.drawLetter path letter w

/-- The commands that items stand for. -/
def followItems (path : String) (pen : Pen α) : List (Json α) →
    Except (Fault α) (Repaired α (List (Command α)))
  | [] => .ok (.same [])
  | item :: rest => do
    match ← writtenCommand? item with
    | none => return (← followItems path pen rest).after [.droppedCommand path]
    | some w =>
      let (drawn, actions, pen) := pen.carryOut path w
      return ((← followItems path pen rest).map (drawn ++ ·)).after actions

/-! ## Beginning with a move -/

def Command.isClose : Command α → Bool
  | .close => true
  | _ => false

/-- Commands that begin with a move: leading closes are dropped, a leading line is made a move, and in front
of anything else its first point is moved to. -/
def openWithMove (path : String) (commands : List (Command α)) : Repaired α (List (Command α)) :=
  match commands.dropWhile Command.isClose with
  | .move p :: rest => .same (.move p :: rest)
  | .line p :: rest => ⟨.move p :: rest, [.startedWithMove path]⟩
  | .cubic a b p :: rest => ⟨.move a :: .cubic a b p :: rest, [.startedWithMove path]⟩
  | .quadratic a p :: rest => ⟨.move a :: .quadratic a p :: rest, [.startedWithMove path]⟩
  | rest => .same rest

/-! ## The commands of a path -/

/-- The items of a path's list of commands; if it has none, those of its path data. -/
def commandItems [Trig α] (path : String) (fields : Fields α) : Repaired α (List (Json α)) :=
  let written := (Table.get? fields "commands").getD .null
  -- Path data counts only where the list of commands is left out, empty or of no account.
  match written.isTruthy, Table.get? fields "d", written with
  | false, some (.str d), _ =>
    match (Foreign.commands d : Except PathFault (List (Command α))) with
    | .ok commands => ⟨commands.map (Command.json .stored), [.convertedData path]⟩
    | .error _ => .same []
  | _, _, .arr items => .same items
  | _, _, _ => .same []

def repairCommands [Trig α] (path : String) (fields : Fields α) :
    Except (Fault α) (Repaired α (List (Command α))) := do
  let followed ← (commandItems path fields).andThen (followItems path Pen.start)
  followed.andThen fun commands => .ok (openWithMove path commands)

end

end Drawing
