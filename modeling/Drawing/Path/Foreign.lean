import Drawing.Path.Arc
import Drawing.Path.Lexeme
import Drawing.Text.Quoted

/-!
# `Drawing/Path/Foreign.lean` — path data of any origin

Path data as other programs write it: relative commands, shorthand lines and curves, arcs, commands
implied by further numbers. It is read in two steps. `Foreign.segments` follows the pen and yields the
strokes; `commandsOf` writes strokes as absolute commands. Characters between numbers that are neither
are skipped.

A subpath that was never opened can be closed all the same. The pen is then nowhere until a command puts
it somewhere, and nothing is drawn in the end; what stands behind is read for its faults only.

A stroke that begins where the last one ended needs no move. So strokes are cut into pieces where they
do not join; a piece begins with a move unless it begins where the last piece ended, and one that ends
where it began is closed.
-/

namespace Drawing

/-- What a command asks of the pen. -/
inductive PenUse where
  | abscissa
  | ordinate
  /-- A point given relative to the pen. -/
  | offset
  /-- A move given relative to the pen. -/
  | relativeMove
  /-- The point opposite a control point. -/
  | reflection
  /-- The distance from the pen to the end of an arc. -/
  | distance
  deriving Repr, DecidableEq

/-- Why path data cannot be read. -/
inductive PathFault where
  /-- Numbers where no command is active, at a place counted in words. -/
  | impliedNothing (text : String) (place : Int)
  /-- A command with too few numbers behind it. -/
  | tooFew (letter : Char) (needed left : Nat) (text : String)
  /-- A letter where a number should be. -/
  | notANumber (letter : Char)
  /-- An arc that ends where it begins. -/
  | emptyArc
  /-- An arc without a centre. -/
  | noCentre (fault : ArcFault)
  /-- A command that needs the pen while it is nowhere. -/
  | penNowhere (use : PenUse)
  /-- Nothing that is drawn, or a close before anything is opened. -/
  | noStroke
  deriving Repr

/-- The wording for a use of the pen while it is nowhere. -/
def PenUse.message : PenUse → String
  | abscissa => "'NoneType' object has no attribute 'real'"
  | ordinate => "'NoneType' object has no attribute 'imag'"
  | offset => "unsupported operand type(s) for +=: 'complex' and 'NoneType'"
  | relativeMove => "unsupported operand type(s) for +=: 'NoneType' and 'complex'"
  | reflection => "unsupported operand type(s) for -: 'complex' and 'NoneType'"
  | distance => "unsupported operand type(s) for -: 'NoneType' and 'complex'"

def PathFault.message : PathFault → String
  | impliedNothing text place => s!"Unallowed implicit command in {text}, position {place}"
  | tooFew letter needed left text =>
    "Invalid path string: command '" ++ String.singleton letter ++
      s!"' expects {needed} values but only {left} remain in " ++ quoted text
  | notANumber letter => "could not convert string to float: " ++ quoted (String.singleton letter)
  | emptyArc => ""
  | noCentre .vanishes => "float division by zero"
  | noCentre .imaginary => "math domain error"
  | penNowhere use => use.message
  | noStroke => PenUse.abscissa.message

namespace Foreign

/-- A piece of path data: a command letter or a number. -/
inductive Token (α : Type) where
  | letter (c : Char)
  | number (x : α)
  deriving Repr

/-- The upper-case letters of foreign commands. -/
def letters : List Char := ['M', 'Z', 'L', 'H', 'V', 'C', 'S', 'Q', 'T', 'A']

/-- Whether a character is the letter of a foreign command. -/
def isLetter (c : Char) : Bool := letters.contains c.toUpper

/-- How many numbers a foreign command takes. -/
def arity (letter : Char) : Nat :=
  if letter = 'M' ∨ letter = 'L' ∨ letter = 'T' then 2
  else if letter = 'H' ∨ letter = 'V' then 1
  else if letter = 'C' then 6
  else if letter = 'S' ∨ letter = 'Q' then 4
  else if letter = 'A' then 7
  else 0

section Tokens

variable {α : Type} [Scalar α]

/-- The numbers in a text, anything else skipped. -/
def numbers (fuel : Nat) (cs : List Char) : List (Token α) :=
  match fuel, cs with
  | 0, _ => []
  | _, [] => []
  | fuel + 1, c :: rest =>
    match LexemeGrammar.foreign.number? (c :: rest) with
    | some (text, rest) => .number (lexemeValue text) :: numbers fuel rest
    | none => numbers fuel rest

/-- Whether the number at an index behind an arc's letter is a flag, which is one character long. -/
def isFlagPlace (index : Nat) : Bool := index % 7 == 3 || index % 7 == 4

/-- The numbers behind an arc's letter, up to the first text that is none. -/
def arcNumbers (fuel index : Nat) (cs : List Char) : List (Token α) :=
  match fuel with
  | 0 => []
  | fuel + 1 =>
    let cs := cs.dropWhile fun c => isBlank c || c == ','
    -- Flags need nothing between them: `01` is two of them.
    let flag : Option (Token α × List Char) :=
      match isFlagPlace index, cs with
      | true, '0' :: rest => some (.number Scalar.zero, rest)
      | true, '1' :: rest => some (.number Scalar.one, rest)
      | _, _ => none
    match flag with
    | some (token, rest) => token :: arcNumbers fuel (index + 1) rest
    | none =>
      match LexemeGrammar.foreign.number? cs with
      | some (text, rest) => .number (lexemeValue text) :: arcNumbers fuel (index + 1) rest
      | none => []

/-- The tokens of a text between two letters, the first of them given. -/
def stretch (letter : Option Char) (cs : List Char) : List (Token α) :=
  if letter.any fun c => c.toUpper == 'A' then arcNumbers (cs.length + 1) 0 cs
  else numbers (cs.length + 1) cs

/-- The tokens of path data. `letter` is the last command letter, `read` the text behind it in reverse. -/
def tokensFrom (letter : Option Char) (read : List Char) : List Char → List (Token α)
  | [] => stretch letter read.reverse
  | c :: rest =>
    if isLetter c then stretch letter read.reverse ++ .letter c :: tokensFrom (some c) [] rest
    else tokensFrom letter (c :: read) rest

/-- The tokens of path data. -/
def tokens (cs : List Char) : List (Token α) := tokensFrom none [] cs

end Tokens

/-! ## Following the pen -/

/-- The control point of the last curve. -/
inductive Control (α : Type) where
  /-- The last stroke was no curve. -/
  | absent
  /-- The last curve began nowhere, and so did its control point. -/
  | nowhere
  | at (p : Point α)

/-- Where reading stands: the pen unless it is nowhere, the opening of the subpath if there is one, the
command in force and the one before it, and whether something unopened was closed. -/
structure State (α : Type) where
  pen : Option (Point α)
  opened : Option (Point α)
  command : Option Char
  before : Option Char
  relative : Bool
  control : Control α
  strayed : Bool

section Reading

variable {α : Type} [Scalar α]

/-- Reading starts at the origin with no command in force. -/
def State.start : State α :=
  ⟨some ⟨Scalar.zero, Scalar.zero⟩, none, none, none, false, .absent, false⟩

/-- The pen, if it is somewhere. -/
def State.pen? (s : State α) (use : PenUse) : Except PathFault (Point α) :=
  match s.pen with
  | some p => .ok p
  | none => .error (.penNowhere use)

/-- A point as written, relative to the pen or not. -/
def State.locate (s : State α) (use : PenUse) (x y : α) : Except PathFault (Point α) :=
  let p := Point.ofParts x y
  if s.relative then (s.pen? use).map p.plus else .ok p

/-- Draws a stroke from the pen to a point. A stroke from nowhere leaves no mark. -/
def State.draw (s : State α) (control : Control α) (stop : Point α) (stroke : Point α → Segment α) :
    Except PathFault (List (Segment α) × State α) :=
  .ok (s.pen.toList.map stroke, { s with pen := some stop, control })

/-- The control point of a shorthand curve: the reflection of the last one if the command before is of its
kind, and the pen otherwise. -/
def State.reflected (s : State α) (kinds : List Char) : Except PathFault (Control α) :=
  let pen := match s.pen with
    | some p => .at p
    | none => .nowhere
  if s.before.any kinds.contains then
    match s.control, s.pen with
    | .at c, some p => .ok (.at ((p.plus p).minus c))
    | .nowhere, some _ => .error (.penNowhere .reflection)
    | _, _ => .ok pen
  else .ok pen

def State.drawLine (s : State α) (stop : Point α) : Except PathFault (List (Segment α) × State α) :=
  s.draw .absent stop fun p => .line p stop

/-- Draws a quadratic curve, its control point where a shorthand puts it. -/
def State.drawQuadratic (s : State α) (control : Control α) (stop : Point α) :
    Except PathFault (List (Segment α) × State α) :=
  s.draw control stop fun p =>
    match control with
    | .at c => .quadratic p c stop
    | _ => .quadratic p p stop

/-- Draws a cubic curve, its first control point where a shorthand puts it. -/
def State.drawCubic (s : State α) (first : Control α) (second stop : Point α) :
    Except PathFault (List (Segment α) × State α) :=
  s.draw (.at second) stop fun p =>
    match first with
    | .at c => .cubic p c second stop
    | _ => .cubic p p second stop

/-- Draws an arc; one without a radius is a line. -/
def State.drawArc [Trig α] (s : State α) (radius : Point α) (rotation large sweep : α) (stop : Point α) :
    Except PathFault (List (Segment α) × State α) :=
  if radius.x == Scalar.zero || radius.y == Scalar.zero then s.drawLine stop
  else do
    let start ← s.pen? .distance
    let arc : Arc α := {
      start, radiusX := Scalar.abs radius.x, radiusY := Scalar.abs radius.y, rotation,
      large := !(large == Scalar.zero), sweep := !(sweep == Scalar.zero), stop }
    if start == stop then throw .emptyArc
    match arc.centred with
    | .ok _ => s.draw .absent stop fun _ => .arc arc
    | .error f => throw (.noCentre f)

/-- Closes the subpath with a line, unless the pen is at its opening already. -/
def State.close (s : State α) : Except PathFault (List (Segment α) × State α) :=
  let closed := { s with command := none }
  match s.pen, s.opened with
  | some pen, some p =>
    if pen == p then .ok ([], { closed with pen := some p }) else closed.drawLine p
  | _, some p => closed.drawLine p
  | _, none => .ok ([], { closed with pen := none, control := .absent, strayed := true })

/-- Carries out the command in force with its numbers. -/
def State.run [Trig α] (s : State α) (letter : Char) (args : List α) :
    Except PathFault (List (Segment α) × State α) :=
  match letter, args with
  | 'M', [x, y] => do
    let p ← s.locate .relativeMove x y
    -- Further pairs behind a move are lines.
    return ([], { s with pen := some p, opened := some p, command := some 'L' })
  | 'L', [x, y] => do s.drawLine (← s.locate .offset x y)
  | 'H', [x] => do
    let pen ← s.pen? .ordinate
    let p := Point.ofParts x pen.y
    s.drawLine (if s.relative then p.plus (.ofReal pen.x) else p)
  | 'V', [y] => do
    let pen ← s.pen? .abscissa
    let p := Point.ofParts pen.x y
    s.drawLine (if s.relative then p.plus (.ofParts Scalar.zero pen.y) else p)
  | 'C', [a, b, c, d, x, y] => do
    s.drawCubic (.at (← s.locate .offset a b)) (← s.locate .offset c d) (← s.locate .offset x y)
  | 'S', [c, d, x, y] => do
    s.drawCubic (← s.reflected ['C', 'S']) (← s.locate .offset c d) (← s.locate .offset x y)
  | 'Q', [a, b, x, y] => do s.drawQuadratic (.at (← s.locate .offset a b)) (← s.locate .offset x y)
  | 'T', [x, y] => do s.drawQuadratic (← s.reflected ['Q', 'T']) (← s.locate .offset x y)
  | 'A', [rx, ry, rotation, large, sweep, x, y] => do
    s.drawArc (.ofParts rx ry) rotation large sweep (← s.locate .offset x y)
  | _, _ => s.close

/-- Whether the state allows a command at all: what a command asks for before it reads its numbers. -/
def State.ready (s : State α) (letter : Char) : Except PathFault Unit :=
  if letter = 'V' then (s.pen? .abscissa).map fun _ => ()
  else if letter = 'T' then (s.reflected ['Q', 'T']).map fun _ => ()
  else .ok ()

/-- The numbers of some tokens, or the first letter among them. -/
def arguments : List (Token α) → Except PathFault (List α)
  | [] => .ok []
  | .letter c :: _ => .error (.notANumber c)
  | .number x :: rest => (arguments rest).map (x :: ·)

/-- Puts the letter at the front of the tokens in force, or keeps the implied command. -/
def State.command? (s : State α) (text : String) (tokens : List (Token α)) :
    Except PathFault (Char × State α × List (Token α)) :=
  match tokens, s.command with
  | .letter c :: rest, before =>
    let letter := c.toUpper
    .ok (letter, { s with command := some letter, before, relative := c.isLower }, rest)
  | _, some letter => .ok (letter, { s with before := some letter }, tokens)
  | _, none =>
    .error (.impliedNothing text ((blankWords text.toList).length - tokens.length))

/-- The strokes of some tokens. Each round uses up at least one, so their number is fuel enough. -/
def strokesOf [Trig α] (text : String) (fuel : Nat) (s : State α) (tokens : List (Token α)) :
    Except PathFault (List (Segment α)) :=
  match fuel, tokens with
  | fuel + 1, _ :: _ => do
    let (letter, s, rest) ← s.command? text tokens
    let n := arity letter
    let taken := rest.take n
    if taken.length < n then .error (.tooFew letter n taken.length text)
    s.ready letter
    let (drawn, s) ← s.run letter (← arguments taken)
    return drawn ++ (← strokesOf text fuel s (rest.drop n))
  -- That something unopened was closed is told only at the end, so an earlier fault goes first.
  | _, _ => if s.strayed then .error .noStroke else .ok []

/-- The strokes of path data. -/
def segments [Trig α] (text : String) : Except PathFault (List (Segment α)) :=
  let ts : List (Token α) := tokens text.toList
  strokesOf text ts.length State.start ts

end Reading

end Foreign

/-! ## Strokes as commands -/

section

variable {α : Type} [Scalar α]

/-- Cuts strokes into pieces in which each stroke begins where the last one ended. -/
def pieces : List (Segment α) → List (List (Segment α))
  | [] => []
  | s :: rest =>
    match pieces rest with
    | (t :: ts) :: more => if t.start == s.stop then (s :: t :: ts) :: more else [s] :: (t :: ts) :: more
    | _ => [[s]]

/-- The command that draws a stroke from where it begins. -/
def Segment.command [Trig α] : Segment α → Command α
  | line _ p => .line p
  | quadratic _ c p => .quadratic c p
  | cubic _ c d p => .cubic c d p
  | arc a => a.command

/-- The commands of pieces, where the last one ended at a given point. -/
def pieceCommands [Trig α] (last : Option (Point α)) : List (List (Segment α)) → List (Command α)
  | [] => []
  | piece :: rest =>
    match piece.head?, piece.getLast? with
    | some first, some final =>
      let opening := if last == some first.start then [] else [Command.move first.start]
      let closing := if first.start == final.stop then [Command.close] else []
      opening ++ piece.map Segment.command ++ closing ++ pieceCommands (some final.stop) rest
    | _, _ => pieceCommands last rest

/-- The absolute commands that draw some strokes. -/
def commandsOf [Trig α] (strokes : List (Segment α)) : List (Command α) :=
  pieceCommands none (pieces strokes)

/-- The absolute commands of path data. -/
def Foreign.commands [Trig α] (text : String) : Except PathFault (List (Command α)) := do
  let strokes ← Foreign.segments text
  if strokes.isEmpty then .error .noStroke else return commandsOf strokes

end

end Drawing
