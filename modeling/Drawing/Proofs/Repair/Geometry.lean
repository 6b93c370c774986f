import Drawing.Number.Exact
import Drawing.Proofs.Document.Bounds
import Drawing.Proofs.Repair.Frame
import Drawing.Proofs.Repair.Written

/-!
# `Drawing/Proofs/Repair/Geometry.lean` — repaired commands draw what was written

Path data say how a pen moves. Small letters count from where the pen is, capital letters from the origin; a letter
may have several groups of numbers behind it, and each further group is a further command of the same letter, but
behind a move it is a line; a close takes the pen back to where the subpath was opened. What is seen of all this are
marks (`Pen.follow`): where subpaths are opened, the strokes with their ends and control points, and the closes.
Commands that are absolute already are written with one group each (`Command.written`), so they are drawn by the
same rules.

Repair turns written commands into absolute ones of the strict grammar, with a pen of its own that it moves as it goes.
That pen and the one of the rules for written commands are kept in step: behind every written command both stand at
the same point, in a subpath opened at the same point, and so far have made the same marks. So over whole paths of
well-formed commands

> **what is repaired opens, draws and closes just what was written** — every subpath, every end and control point.

All of this is exact arithmetic. The ids of paths only show in what is told about a repair.
-/

namespace Drawing

/-! ## What written commands draw -/

section

variable {α : Type}

/-- What is seen of a pen at work. -/
inductive PenMark (α : Type) where
  /-- A subpath is opened at a point. -/
  | opened (point : Point α)
  /-- A stroke is drawn. -/
  | stroke (s : Segment α)
  /-- The subpath is closed with a line back to where it was opened. -/
  | closed (start stop : Point α)
  deriving Repr, BEq, DecidableEq

/-- How many numbers make a group behind each capital letter that takes any. -/
def groupSizes : List (Char × Nat) := [('M', 2), ('L', 2), ('H', 1), ('V', 1), ('Q', 4), ('C', 6)]

/-- A written command of a known letter: a close, or one or more full groups of numbers. -/
def WrittenCommand.IsComplete (w : WrittenCommand α) : Prop :=
  w.letter.toUpper = 'Z' ∨
    ∃ group ∈ groupSizes, group.1 = w.letter.toUpper ∧ w.numbers ≠ [] ∧ group.2 ∣ w.numbers.length

instance (w : WrittenCommand α) : Decidable w.IsComplete :=
  inferInstanceAs (Decidable (_ ∨ ∃ group ∈ groupSizes, _))

/-- A mark in front of what else is drawn. -/
def PenMark.before (m : PenMark α) (drawn : List (PenMark α) × Pen α) : List (PenMark α) × Pen α :=
  (m :: drawn.1, drawn.2)

section

variable [Add α]

/-- A number counted from another one, or as it stands. -/
def countedFrom (relative : Bool) (base x : α) : α := if relative then base + x else x

/-- The point that two numbers stand for, counted from the pen or from the origin. -/
def Pen.target (pen : Pen α) (relative : Bool) (x y : α) : Point α :=
  ⟨countedFrom relative pen.pos.x x, countedFrom relative pen.pos.y y⟩

/-- The marks of a capital letter with the numbers behind it, and the pen after them. -/
def Pen.marks (relative : Bool) : Char → Pen α → List α → List (PenMark α) × Pen α
  | 'M', pen, x :: y :: rest =>
    let p := pen.target relative x y
    (PenMark.opened p).before (marks relative 'L' ⟨p, p⟩ rest)
  | 'L', pen, x :: y :: rest =>
    let p := pen.target relative x y
    (PenMark.stroke (.line pen.pos p)).before (marks relative 'L' { pen with pos := p } rest)
  | 'H', pen, x :: rest =>
    let p : Point α := ⟨countedFrom relative pen.pos.x x, pen.pos.y⟩
    (PenMark.stroke (.line pen.pos p)).before (marks relative 'H' { pen with pos := p } rest)
  | 'V', pen, y :: rest =>
    let p : Point α := ⟨pen.pos.x, countedFrom relative pen.pos.y y⟩
    (PenMark.stroke (.line pen.pos p)).before (marks relative 'V' { pen with pos := p } rest)
  | 'Q', pen, a :: b :: x :: y :: rest =>
    let p := pen.target relative x y
    (PenMark.stroke (.quadratic pen.pos (pen.target relative a b) p)).before
      (marks relative 'Q' { pen with pos := p } rest)
  | 'C', pen, a :: b :: c :: d :: x :: y :: rest =>
    let p := pen.target relative x y
    (PenMark.stroke (.cubic pen.pos (pen.target relative a b) (pen.target relative c d) p)).before
      (marks relative 'C' { pen with pos := p } rest)
  | 'Z', pen, _ => ([.closed pen.pos pen.opened], { pen with pos := pen.opened })
  | _, pen, _ => ([], pen)

theorem Pen.marks_close (relative : Bool) (pen : Pen α) (xs : List α) :
    Pen.marks relative 'Z' pen xs = ([.closed pen.pos pen.opened], { pen with pos := pen.opened }) := by
  cases xs <;> rfl

/-- The marks of a written command, and the pen after them. -/
def Pen.carry (pen : Pen α) (w : WrittenCommand α) : List (PenMark α) × Pen α :=
  Pen.marks w.letter.isLower w.letter.toUpper pen w.numbers

/-- The marks of some written commands one after another, and the pen after them. -/
def Pen.follow (pen : Pen α) : List (WrittenCommand α) → List (PenMark α) × Pen α
  | [] => ([], pen)
  | w :: rest =>
    let others := (pen.carry w).2.follow rest
    ((pen.carry w).1 ++ others.1, others.2)

end

example : (Pen.start : Pen Rat).follow [⟨'m', [10, 10]⟩, ⟨'h', [20]⟩, ⟨'l', [0, 10, -10, 0]⟩, ⟨'z', []⟩] =
    ([.opened ⟨10, 10⟩, .stroke (.line ⟨10, 10⟩ ⟨30, 10⟩), .stroke (.line ⟨30, 10⟩ ⟨30, 20⟩),
      .stroke (.line ⟨30, 20⟩ ⟨20, 20⟩), .closed ⟨20, 20⟩ ⟨10, 10⟩], ⟨⟨10, 10⟩, ⟨10, 10⟩⟩) := by
  decide +kernel

/-! ## One after another -/

section

variable [Add α]

theorem Pen.follow_append (pen : Pen α) (ws ws' : List (WrittenCommand α)) :
    pen.follow (ws ++ ws') =
      ((pen.follow ws).1 ++ ((pen.follow ws).2.follow ws').1, ((pen.follow ws).2.follow ws').2) := by
  induction ws generalizing pen with
  | nil => rfl
  | cons w ws ih => simp only [List.cons_append, follow, ih, List.append_assoc]

theorem Pen.follow_cons (pen : Pen α) (w : WrittenCommand α) (ws : List (WrittenCommand α)) :
    pen.follow (w :: ws) =
      ((pen.carry w).1 ++ ((pen.carry w).2.follow ws).1, ((pen.carry w).2.follow ws).2) := rfl

/-- The marks of an absolute command. -/
theorem Pen.carry_move (pen : Pen α) (p : Point α) : pen.carry (Command.move p).written = ([.opened p], ⟨p, p⟩) := rfl

theorem Pen.carry_line (pen : Pen α) (p : Point α) :
    pen.carry (Command.line p).written = ([.stroke (.line pen.pos p)], { pen with pos := p }) := rfl

theorem Pen.carry_quadratic (pen : Pen α) (c p : Point α) :
    pen.carry (Command.quadratic c p).written = ([.stroke (.quadratic pen.pos c p)], { pen with pos := p }) := rfl

theorem Pen.carry_cubic (pen : Pen α) (c d p : Point α) :
    pen.carry (Command.cubic c d p).written = ([.stroke (.cubic pen.pos c d p)], { pen with pos := p }) := rfl

end

end

/-! ## Following the pen -/

/-- Points counted from the pen are moved by where it is. -/
theorem placed_eq (pen : Pen Rat) (relative : Bool) (g : List (Point Rat)) :
    (if relative then g.map fun p => p.shift pen.pos.x pen.pos.y else g) =
      g.map fun p => pen.target relative p.x p.y := by
  cases relative with
  | false => exact (List.map_id g).symm
  | true =>
    refine List.map_congr_left fun p _ => ?_
    exact congrArg₂ Point.mk (Rat.add_comm _ _) (Rat.add_comm _ _)

theorem Pen.follow_cons_of_carry {pen after : Pen Rat} {c : Command Rat} {m : PenMark Rat}
    {drawn : List (Command Rat) × Pen Rat} {others : List (PenMark Rat) × Pen Rat}
    (hc : pen.carry c.written = ([m], after))
    (hothers : after.follow (drawn.1.map Command.written) = others ∧ drawn.2 = others.2) :
    pen.follow ((c :: drawn.1).map Command.written) = m.before others ∧ drawn.2 = (m.before others).2 := by
  rw [List.map_cons, follow_cons, hc, hothers.1]
  exact ⟨rfl, hothers.2⟩

/-- What is drawn of groups of points are the marks of their coordinates. -/
theorem Pen.follow_draw (pen : Pen Rat) {l : Letter} (hl : l ≠ .close) (relative : Bool)
    {gs : List (List (Point Rat))} (hgs : ∀ g ∈ gs, g.length = l.pointCount) :
    pen.follow ((pen.draw l relative gs).1.map Command.written) =
        Pen.marks relative l.char pen (coordinatesOf gs.flatten) ∧
      (pen.draw l relative gs).2 = (Pen.marks relative l.char pen (coordinatesOf gs.flatten)).2 := by
  induction gs generalizing pen l with
  | nil => cases l <;> first | exact ⟨rfl, rfl⟩ | exact absurd rfl hl
  | cons g gs ih =>
    obtain ⟨hg, hrest⟩ := List.forall_mem_cons.mp hgs
    rw [Pen.draw, placed_eq]
    cases l with
    | move =>
      obtain ⟨p, rfl⟩ := List.length_eq_one_iff.mp hg
      exact follow_cons_of_carry (carry_move pen _) (ih _ (l := .line) nofun hrest)
    | line =>
      obtain ⟨p, rfl⟩ := List.length_eq_one_iff.mp hg
      exact follow_cons_of_carry (carry_line pen _) (ih _ (l := .line) nofun hrest)
    | cubic =>
      obtain ⟨a, b, p, rfl⟩ := List.length_eq_three.mp hg
      exact follow_cons_of_carry (carry_cubic pen _ _ _) (ih _ (l := .cubic) nofun hrest)
    | quadratic =>
      obtain ⟨a, p, rfl⟩ := List.length_eq_two.mp hg
      exact follow_cons_of_carry (carry_quadratic pen _ _) (ih _ (l := .quadratic) nofun hrest)
    | close => exact absurd rfl hl

theorem Pen.lines_cons {α : Type} (pen : Pen α) (p : Point α) (stops : List (Point α)) :
    pen.lines (p :: stops) =
      (.line p :: (Pen.lines { pen with pos := p } stops).1, (Pen.lines { pen with pos := p } stops).2) := by
  simp only [lines, List.map_cons, List.getLast?_cons, Option.getD_some]

/-- The lines to horizontal stops are the marks of the numbers. -/
theorem Pen.follow_horizontal (pen : Pen Rat) (relative : Bool) (xs : List Rat) :
    pen.follow ((pen.lines (horizontalStops relative pen.pos xs)).1.map Command.written) =
        Pen.marks relative 'H' pen xs ∧
      (pen.lines (horizontalStops relative pen.pos xs)).2 = (Pen.marks relative 'H' pen xs).2 := by
  induction xs generalizing pen with
  | nil => exact ⟨rfl, rfl⟩
  | cons x xs ih =>
    rw [horizontalStops, lines_cons]
    exact follow_cons_of_carry (carry_line pen _) (ih _)

/-- The lines to vertical stops are the marks of the numbers. -/
theorem Pen.follow_vertical (pen : Pen Rat) (relative : Bool) (ys : List Rat) :
    pen.follow ((pen.lines (verticalStops relative pen.pos ys)).1.map Command.written) =
        Pen.marks relative 'V' pen ys ∧
      (pen.lines (verticalStops relative pen.pos ys)).2 = (Pen.marks relative 'V' pen ys).2 := by
  induction ys generalizing pen with
  | nil => exact ⟨rfl, rfl⟩
  | cons y ys ih =>
    rw [verticalStops, lines_cons]
    exact follow_cons_of_carry (carry_line pen _) (ih _)

theorem Pen.follow_drawLetter (pen : Pen Rat) (path : String) {l : Letter} (hl : l ≠ .close)
    {w : WrittenCommand Rat} (hne : w.numbers ≠ []) (hfull : l.arity ∣ w.numbers.length) :
    pen.follow ((pen.drawLetter path l w).1.map Command.written) =
        Pen.marks w.letter.isLower l.char pen w.numbers ∧
      (pen.drawLetter path l w).2.2 = (Pen.marks w.letter.isLower l.char pen w.numbers).2 := by
  obtain ⟨n, hn⟩ := hfull
  obtain ⟨gs, hgs, hxs⟩ := exists_groups n hn
  have hgroups : pointGroups l.pointCount (pairUp w.numbers) = gs := by
    rw [hxs, coordinatesOf, pairUp_flatMap, pointGroups_flatten (Letter.pointCount_pos hl) hgs]
  have hsome : gs.isEmpty = false := by
    refine Bool.eq_false_iff.mpr fun hempty => hne ?_
    rw [hxs, List.isEmpty_iff.mp hempty]
    rfl
  unfold drawLetter
  dsimp only
  rw [hgroups, hsome, if_neg Bool.false_ne_true, hxs]
  exact pen.follow_draw hl w.letter.isLower hgs

/-- **What stands for a written command draws just what that command does.** -/
theorem Pen.follow_carryOut (pen : Pen Rat) (path : String) {w : WrittenCommand Rat} (h : w.IsComplete) :
    pen.follow ((pen.carryOut path w).1.map Command.written) = pen.carry w ∧
      (pen.carryOut path w).2.2 = (pen.carry w).2 := by
  unfold carryOut carry
  rcases h with hclose | ⟨group, hgroup, hletter, hne, hfull⟩
  · rw [hclose, marks_close]
    exact ⟨rfl, rfl⟩
  · simp only [groupSizes, List.mem_cons, List.not_mem_nil, or_false] at hgroup
    rw [← hletter]
    rcases hgroup with rfl | rfl | rfl | rfl | rfl | rfl
    · exact pen.follow_drawLetter path (l := .move) nofun hne hfull
    · exact pen.follow_drawLetter path (l := .line) nofun hne hfull
    · exact pen.follow_horizontal w.letter.isLower w.numbers
    · exact pen.follow_vertical w.letter.isLower w.numbers
    · exact pen.follow_drawLetter path (l := .quadratic) nofun hne hfull
    · exact pen.follow_drawLetter path (l := .cubic) nofun hne hfull


/-! ## Items -/

/-- From where the pen is, the commands that items stand for draw what is written in them. -/
theorem follow_followItems (path : String) {items : List (Json Rat)} {ws : List (WrittenCommand Rat)}
    (hwrites : List.Forall₂ Writes items ws) (hcomplete : ∀ w ∈ ws, w.IsComplete) (pen : Pen Rat) :
    ∃ r, followItems path pen items = .ok r ∧ pen.follow (r.value.map Command.written) = pen.follow ws := by
  induction hwrites generalizing pen with
  | nil => exact ⟨_, rfl, rfl⟩
  | @cons item w items ws hw _ ih =>
    obtain ⟨hfirst, hrest⟩ := List.forall_mem_cons.mp hcomplete
    obtain ⟨hmarks, hafter⟩ := pen.follow_carryOut path hfirst
    obtain ⟨r, hr, hfollow⟩ := ih hrest (pen.carry w).2
    rcases hcarry : pen.carryOut path w with ⟨drawn, actions, after⟩
    rw [hcarry] at hmarks hafter
    obtain rfl := hafter
    refine ⟨(r.map (drawn ++ ·)).after actions, ?_, ?_⟩
    · rw [followItems, writtenCommand?_eq_some_iff.mpr hw]
      dsimp only [bind, Except.bind]
      rw [hcarry]
      dsimp only
      rw [hr]
      rfl
    · rw [Repaired.value_after, Repaired.value_map, List.map_append, Pen.follow_append, hmarks, hfollow]
      rfl

/-! ## Whole paths -/

/-- A move with full groups of numbers opens a subpath. -/
theorem Pen.carry_opens (pen : Pen Rat) {w : WrittenCommand Rat} (h : w.IsComplete) (hmove : w.letter.toUpper = 'M') :
    ∃ p marks, (pen.carry w).1 = .opened p :: marks := by
  unfold carry
  rw [WrittenCommand.IsComplete, hmove] at h
  rcases h with hclose | ⟨group, hgroup, hletter, hne, hfull⟩
  · exact absurd hclose (by decide)
  · have hpair : ∀ group ∈ groupSizes, group.1 = 'M' → group.2 = 2 := by decide
    rw [hpair group hgroup hletter] at hfull
    rw [hmove]
    match w.numbers, hne, hfull with
    | [x], _, hfull => exact absurd hfull (by simp)
    | x :: y :: rest, _, _ => exact ⟨_, _, rfl⟩

/-- Commands that open a subpath first begin with a move. -/
theorem exists_move_of_follow {pen : Pen Rat} {commands : List (Command Rat)} {p : Point Rat}
    {marks : List (PenMark Rat)} (h : (pen.follow (commands.map Command.written)).1 = .opened p :: marks) :
    ∃ q rest, commands = .move q :: rest := by
  cases commands with
  | nil => exact nomatch h
  | cons c rest =>
    rw [List.map_cons, Pen.follow_cons] at h
    cases c with
    | move q => exact ⟨q, rest, rfl⟩
    | line q => exact nomatch (List.cons.inj h).1
    | cubic a b q => exact nomatch (List.cons.inj h).1
    | quadratic a q => exact nomatch (List.cons.inj h).1
    | close => exact nomatch (List.cons.inj h).1

section

variable [Trig Rat]

/-- **Repair keeps the geometry**: of well-formed commands that begin with a move, repair makes commands that open and
close the same subpaths and draw the same strokes between. -/
theorem follow_repairCommands {path : String} {fields : Fields Rat} {items : List (Json Rat)}
    {first : WrittenCommand Rat} {ws : List (WrittenCommand Rat)}
    (hitems : Table.get? fields "commands" = some (.arr items)) (hwrites : List.Forall₂ Writes items (first :: ws))
    (hcomplete : ∀ w ∈ first :: ws, w.IsComplete) (hmove : first.letter.toUpper = 'M') :
    ∃ r, repairCommands path fields = .ok r ∧
      Pen.start.follow (r.value.map Command.written) = Pen.start.follow (first :: ws) := by
  have hne : items ≠ [] := by
    rintro rfl
    exact nomatch hwrites
  obtain ⟨followed, hfollowed, hmarks⟩ := follow_followItems path hwrites hcomplete Pen.start
  -- what is drawn first opens a subpath, so no move has to be put in front
  obtain ⟨p, marks, hopens⟩ := Pen.start.carry_opens (hcomplete first List.mem_cons_self) hmove
  have hfirst : (Pen.start.follow (followed.value.map Command.written)).1 =
      .opened p :: (marks ++ ((Pen.start.carry first).2.follow ws).1) := by
    rw [hmarks, Pen.follow_cons, hopens]
    rfl
  obtain ⟨q, rest, hvalue⟩ := exists_move_of_follow hfirst
  unfold repairCommands
  rw [commandItems_of_list path hitems hne]
  obtain ⟨t, ht, htv⟩ := Repaired.andThen_ok (r := Repaired.same items) hfollowed
  obtain ⟨s, hs, hsv⟩ := Repaired.andThen_ok (r := t) (f := fun cs => .ok (openWithMove path cs)) rfl
  refine ⟨s, bind_eq_ok_iff.mpr ⟨t, ht, hs⟩, ?_⟩
  rw [hvalue] at hmarks
  rw [hsv, htv, hvalue]
  exact hmarks

end

/-- An item of a letter and whole numbers. -/
def itemOf (letter : String) (numbers : List Int) : Json Rat :=
  .obj [("cmd", .str letter), ("coords", .arr (numbers.map .ofInt))]

/-- Subpaths one behind the other: opened from where the last one was closed, drawn on from a close, with several groups
behind most letters, a letter under its other name, and a number as a text. -/
def looseItems : List (Json Rat) := [
  itemOf "m" [10, 10, 5, 0, 0, 5], itemOf "h" [20, -4], itemOf "V" [3, 8],
  itemOf "q" [1, 1, 2, 0, 1, -1, 2, 0], .obj [("cmd", .str "z")], itemOf "l" [7, 7],
  .obj [("command", .str "c"), ("coords", .arr ([0, 1, 2, 3, 4, 4].map .ofInt ++ ([0, 1, 2, 3].map .ofInt ++
    [.str "4.5", .num (.real (1 / 3))])))],
  itemOf "Z" [], itemOf "m" [1, 1], itemOf "C" [0, 0, 9, 9, 30, 30], itemOf "H" [0]]

/-- What is written in them. -/
def looseCommands : List (WrittenCommand Rat) := [
  ⟨'h', [20, -4]⟩, ⟨'V', [3, 8]⟩, ⟨'q', [1, 1, 2, 0, 1, -1, 2, 0]⟩, ⟨'z', []⟩, ⟨'l', [7, 7]⟩,
  ⟨'c', [0, 1, 2, 3, 4, 4, 0, 1, 2, 3, 9 / 2, 1 / 3]⟩, ⟨'Z', []⟩, ⟨'m', [1, 1]⟩, ⟨'C', [0, 0, 9, 9, 30, 30]⟩,
  ⟨'H', [0]⟩]

theorem follow_repairCommands_loose :
    letI := Trig.flat
    ∃ r, repairCommands "stroke" [("commands", .arr looseItems)] = .ok r ∧
      Pen.start.follow (r.value.map Command.written) =
        Pen.start.follow (⟨'m', [10, 10, 5, 0, 0, 5]⟩ :: looseCommands) := by
  let _ := Trig.flat
  refine follow_repairCommands rfl ?_ ?_ rfl
  · have hread : (looseItems.mapM writtenCommand?).toOption =
        some ((⟨'m', [10, 10, 5, 0, 0, 5]⟩ :: looseCommands).map some) := by decide +kernel
    exact (List.forall₂_map_right_iff.mp (mapM_eq_ok_iff.mp (eq_ok_of_toOption hread))).imp
      fun _ _ => writtenCommand?_eq_some_iff.mp
  · decide +kernel

end Drawing
