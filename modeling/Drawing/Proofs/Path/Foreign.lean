import Drawing.Proofs.Document.Bounds
import Drawing.Proofs.Path.Reading
import Drawing.Proofs.Path.Strokes

/-!
# `Drawing/Proofs/Path/Foreign.lean` — our own path data read as foreign

Foreign path data is cut at its letters, and what stands between two of them is searched for numbers; then the pen is
followed from number to number, and its strokes are written down again as commands. Commands come back in another form:
a close is a line, or nothing at all if there is nothing left to close, a move is lost unless a stroke begins there, and
pieces that end where they began are closed. What is on the paper is the same:

> **path data of our own, read as foreign, draws what it was written of**, with every coordinate rounded to hundredths.
-/

namespace Drawing

/-! ## Text -/

/-- Texts behind another one, each with a blank in front of it. -/
def behind (ws : List String) : List Char := ws.flatMap fun w => ' ' :: w.toList

theorem toList_intercalate_cons (w : String) (ws : List String) :
    (" ".intercalate (w :: ws)).toList = w.toList ++ behind ws := by
  induction ws generalizing w with
  | nil => simp [behind]
  | cons v ws ih =>
    rw [String.intercalate_cons_cons, String.toList_append, String.toList_append, ih, List.append_assoc]
    rfl

section

variable {α : Type} [Scalar α]

theorem Command.toList_text (c : Command α) :
    c.text.toList = c.letter.char :: behind (c.coords.map coordinateText) := by
  have hletter : c.letter.text.toList = [c.letter.char] := String.toList_singleton c.letter.char
  rw [text, toList_intercalate_cons, hletter]
  rfl

theorem toList_pathData_cons_cons (c d : Command α) (cs : List (Command α)) :
    (pathData (c :: d :: cs)).toList = c.text.toList ++ ' ' :: (pathData (d :: cs)).toList := by
  unfold pathData
  rw [List.map_cons, toList_intercalate_cons, List.map_cons, toList_intercalate_cons]
  rfl

theorem follows_behind (ws : List String) {tail : List Char} (htail : Follows " ".toList tail) :
    Follows " ".toList (behind ws ++ tail) := by
  cases ws with
  | nil => exact htail
  | cons w ws => exact .inr ⟨_, rfl⟩

end

theorem Command.coords_rounded (c : Command Rat) :
    (c.map Point.rounded).coords = c.coords.map Scalar.printed := by
  rw [← Point.printed_exact, coords_printed]

theorem LexemeGrammar.isPlain_foreign : foreign.IsPlain := ⟨fun _ h => h, by decide, by decide⟩

namespace Foreign

/-! ## Numbers -/

section

variable {α : Type} [Scalar α]

theorem numbers_coordinate {cs rest : List Char} (h : IsCoordinate cs) (hrest : Follows " ".toList rest) (fuel : Nat) :
    (numbers (fuel + 1) (cs ++ rest) : List (Token α)) = .number (lexemeValue cs) :: numbers fuel rest := by
  have hnumber := LexemeGrammar.number?_of_isCoordinate LexemeGrammar.isPlain_foreign h hrest
  obtain ⟨c, more, rfl, -⟩ := h.exists_cons
  rw [List.cons_append] at hnumber ⊢
  rw [numbers, hnumber]

theorem numbers_blank (rest : List Char) (fuel : Nat) :
    (numbers (fuel + 1) (' ' :: rest) : List (Token α)) = numbers fuel rest := by
  rw [numbers, LexemeGrammar.number?_blank LexemeGrammar.isPlain_foreign]

theorem lexemeValue_coordinateText (x : α) : lexemeValue (coordinateText x).toList = Scalar.printed x := by
  unfold lexemeValue
  rw [String.ofList_toList, read?_coordinateText]
  rfl

/-- Coordinates behind a letter are read one by one, and a blank in front of the next letter is passed over. -/
theorem numbers_behind {xs : List α} (hxs : ∀ x ∈ xs, Scalar.isFinite x = true) {tail : List Char}
    (htail : tail = [] ∨ tail = [' ']) {fuel : Nat}
    (hf : (behind (xs.map coordinateText) ++ tail).length < fuel) :
    numbers fuel (behind (xs.map coordinateText) ++ tail) = xs.map fun x => .number (Scalar.printed x) := by
  have hfollows : Follows " ".toList tail := by
    rcases htail with rfl | rfl
    · exact .inl rfl
    · exact .inr ⟨[], rfl⟩
  induction xs generalizing fuel with
  | nil =>
    obtain ⟨fuel, rfl⟩ := Nat.exists_eq_succ_of_ne_zero (Nat.ne_of_gt (Nat.zero_lt_of_lt hf))
    rcases htail with rfl | rfl
    · rfl
    · show numbers (fuel + 1) [' '] = _
      rw [numbers_blank]
      cases fuel <;> rfl
  | cons x xs ih =>
    obtain ⟨hx, hxs⟩ := List.forall_mem_cons.mp hxs
    have hcoordinate := isCoordinate_coordinateText hx
    have hpos : 0 < (coordinateText x).toList.length := by
      obtain ⟨c, more, hcons, -⟩ := hcoordinate.exists_cons
      simp [hcons]
    have hsplit : behind ((x :: xs).map coordinateText) ++ tail =
        ' ' :: ((coordinateText x).toList ++ (behind (xs.map coordinateText) ++ tail)) := by
      simp [behind]
    rw [hsplit] at hf ⊢
    rw [List.length_cons, List.length_append] at hf
    obtain ⟨fuel, rfl⟩ := Nat.exists_eq_add_of_le' (show 2 ≤ fuel by omega)
    rw [numbers_blank, numbers_coordinate hcoordinate (follows_behind _ hfollows), lexemeValue_coordinateText,
      ih hxs (by omega), List.map_cons]

/-- The tokens that a command is read as. -/
def tokensOf (c : Command α) : List (Token α) :=
  .letter c.letter.char :: c.coords.map fun x => .number (Scalar.printed x)

theorem stretch_behind (l : Letter) {xs : List α} (hxs : ∀ x ∈ xs, Scalar.isFinite x = true) {tail : List Char}
    (htail : tail = [] ∨ tail = [' ']) :
    stretch (some l.char) (behind (xs.map coordinateText) ++ tail) = xs.map fun x => .number (Scalar.printed x) := by
  have hnoArc : ((some l.char).any fun c => c.toUpper == 'A') = false := by cases l <;> decide
  unfold stretch
  rw [hnoArc, if_neg Bool.false_ne_true]
  exact numbers_behind hxs htail (Nat.lt_succ_self _)

theorem isLetter_char (l : Letter) : isLetter l.char = true := by cases l <;> decide

theorem isLetter_of_isDigit {c : Char} (h : c.isDigit = true) : isLetter c = false := by
  have h9 : c.val.toNat ≤ 57 := (Char.isDigit_iff_toNat.mp h).2
  have hupper : c.toUpper = c := by
    unfold Char.toUpper
    rw [dif_neg]
    intro hlower
    have h97 : 97 ≤ c.val.toNat := UInt32.le_iff_toNat_le.mp hlower.1
    omega
  have hletters : (letters.all fun l => !l.isDigit) = true := by decide
  unfold isLetter
  rw [hupper]
  refine Bool.eq_false_iff.mpr fun hmem => ?_
  have hnone := List.all_eq_true.mp hletters c (List.contains_iff_mem.mp hmem)
  rw [h] at hnone
  exact Bool.false_ne_true hnone

/-- What is no letter is kept until the next letter. -/
theorem tokensFrom_append {letter : Option Char} {cs : List Char} (hcs : ∀ c ∈ cs, isLetter c = false)
    (read rest : List Char) :
    (tokensFrom letter read (cs ++ rest) : List (Token α)) = tokensFrom letter (cs.reverse ++ read) rest := by
  induction cs generalizing read with
  | nil => rfl
  | cons c cs ih =>
    obtain ⟨hc, hcs⟩ := List.forall_mem_cons.mp hcs
    rw [List.cons_append, tokensFrom, if_neg (by simp [hc]), ih hcs]
    simp

theorem isLetter_of_mem_behind {xs : List α} (hxs : ∀ x ∈ xs, Scalar.isFinite x = true) :
    ∀ c ∈ behind (xs.map coordinateText), isLetter c = false := by
  intro c hc
  obtain ⟨w, hw, hc⟩ := List.mem_flatMap.mp hc
  obtain ⟨x, hx, rfl⟩ := List.mem_map.mp hw
  rcases List.mem_cons.mp hc with rfl | hc
  · decide
  · exact (isCoordinate_coordinateText (hxs x hx)).forall_mem (fun _ => isLetter_of_isDigit) (by decide) (by decide)
      c hc

/-- A command is read as its tokens, whatever was read before it and stands behind it. -/
theorem tokensFrom_text {c : Command α} (hc : ∀ x ∈ c.coords, Scalar.isFinite x = true) (letter : Option Char)
    (read rest : List Char) :
    (tokensFrom letter read (c.text.toList ++ rest) : List (Token α)) =
      stretch letter read.reverse ++ .letter c.letter.char ::
        tokensFrom (some c.letter.char) (behind (c.coords.map coordinateText)).reverse rest := by
  rw [c.toList_text, List.cons_append, tokensFrom, if_pos (isLetter_char _),
    tokensFrom_append (isLetter_of_mem_behind hc), List.append_nil]

theorem tokensFrom_pathData {c : Command α} {cs : List (Command α)}
    (h : ∀ d ∈ c :: cs, ∀ x ∈ d.coords, Scalar.isFinite x = true) (letter : Option Char) (read : List Char) :
    (tokensFrom letter read (pathData (c :: cs)).toList : List (Token α)) =
      stretch letter read.reverse ++ (c :: cs).flatMap tokensOf := by
  induction cs generalizing c letter read with
  | nil =>
    have hc := h c List.mem_cons_self
    have hdata : (pathData [c]).toList = c.text.toList ++ [] := by simp [pathData]
    have hstretch := stretch_behind c.letter hc (.inl rfl)
    rw [List.append_nil] at hstretch
    rw [hdata, tokensFrom_text hc, tokensFrom, List.reverse_reverse, hstretch]
    simp [tokensOf]
  | cons d cs ih =>
    obtain ⟨hc, hcs⟩ := List.forall_mem_cons.mp h
    have hblank : isLetter ' ' = false := by decide
    rw [toList_pathData_cons_cons, tokensFrom_text hc, tokensFrom, if_neg (by simp [hblank]), ih hcs,
      List.reverse_cons, List.reverse_reverse, stretch_behind c.letter hc (.inr rfl)]
    rfl

/-- The tokens of our own path data are letters and the coordinates as printed. -/
theorem tokens_pathData {commands : List (Command α)} (h : ∀ c ∈ commands, ∀ x ∈ c.coords, Scalar.isFinite x = true) :
    (tokens (pathData commands).toList : List (Token α)) = commands.flatMap tokensOf := by
  cases commands with
  | nil => rfl
  | cons c cs => exact tokensFrom_pathData h none []

end

/-! ## Following the pen -/

theorem ofParts_exact (x y : Rat) : Point.ofParts x y = ⟨x, y⟩ := by
  have hzero : (Scalar.zero : Rat) = 0 := rfl
  unfold Point.ofParts
  rw [hzero, Rat.mul_zero, Rat.add_zero, Rat.add_zero]

/-- Reading stands where the pen stands. -/
structure State.At (s : State Rat) (pen : Pen Rat) : Prop where
  pos : s.pen = some pen.pos
  opened : s.opened = some pen.opened
  strayed : s.strayed = false

/-- The state with the letter of a command in force, its points absolute. -/
def State.taking (s : State Rat) (l : Letter) : State Rat :=
  { s with command := some l.char, before := s.command, relative := false }

theorem locate_taking (s : State Rat) (l : Letter) (use : PenUse) (x y : Rat) :
    (s.taking l).locate use x y = .ok ⟨x, y⟩ := by
  unfold State.locate
  rw [ofParts_exact]
  rfl

theorem arguments_numbers (f : Rat → Rat) (xs : List Rat) :
    arguments (xs.map fun x => .number (f x)) = .ok (xs.map f) := by
  induction xs with
  | nil => rfl
  | cons x xs ih =>
    rw [List.map_cons, arguments, ih]
    rfl

theorem length_le_length_tokens (commands : List (Command Rat)) :
    commands.length ≤ (commands.flatMap tokensOf).length := by
  induction commands with
  | nil => exact Nat.le_refl 0
  | cons c commands ih =>
    rw [List.flatMap_cons, List.length_append, tokensOf, List.length_cons, List.length_cons]
    omega

section

variable [Trig Rat]

/-- A move opens a subpath, whatever was open before. -/
theorem State.run_move {s : State Rat} (h : s.strayed = false) (p : Point Rat) :
    ∃ s', (s.taking .move).run 'M' [p.x, p.y] = .ok ([], s') ∧ s'.At ⟨p, p⟩ := by
  have hrun : (s.taking .move).run 'M' [p.x, p.y] =
      .ok ([], { s.taking .move with pen := some p, opened := some p, command := some 'L' }) := by
    simp [State.run, locate_taking]
  exact ⟨_, hrun, rfl, rfl, h⟩

theorem State.run_command {s : State Rat} {pen : Pen Rat} (h : s.At pen) (c : Command Rat) :
    ∃ s', (s.taking c.letter).run c.letter.char c.coords = .ok ((pen.trace c).1, s') ∧ s'.At (pen.trace c).2 := by
  obtain ⟨hpos, hopened, hstrayed⟩ := h
  have hpen (l : Letter) : (s.taking l).pen = some pen.pos := hpos
  cases c with
  | move p => exact State.run_move hstrayed p
  | line p =>
    have hrun : (s.taking .line).run 'L' [p.x, p.y] =
        .ok ([.line pen.pos p], { s.taking .line with pen := some p, control := .absent }) := by
      simp [State.run, locate_taking, State.drawLine, State.draw, hpen]
    exact ⟨_, hrun, rfl, hopened, hstrayed⟩
  | quadratic c p =>
    have hrun : (s.taking .quadratic).run 'Q' [c.x, c.y, p.x, p.y] =
        .ok ([.quadratic pen.pos c p], { s.taking .quadratic with pen := some p, control := .at c }) := by
      simp [State.run, locate_taking, State.drawQuadratic, State.draw, hpen]
    exact ⟨_, hrun, rfl, hopened, hstrayed⟩
  | cubic c d p =>
    have hrun : (s.taking .cubic).run 'C' [c.x, c.y, d.x, d.y, p.x, p.y] =
        .ok ([.cubic pen.pos c d p], { s.taking .cubic with pen := some p, control := .at d }) := by
      simp [State.run, locate_taking, State.drawCubic, State.draw, hpen]
    exact ⟨_, hrun, rfl, hopened, hstrayed⟩
  | close =>
    have hopened' : (s.taking .close).opened = some pen.opened := hopened
    have hrun : (s.taking .close).run 'Z' [] = (s.taking .close).close := rfl
    rw [State.close, hpen, hopened'] at hrun
    dsimp only at hrun
    by_cases hclosed : pen.pos = pen.opened
    · have hdraw : pen.trace .close = ([], { pen with pos := pen.opened }) := by rw [Pen.trace, if_pos hclosed]
      rw [if_pos (beq_iff_eq.mpr hclosed)] at hrun
      rw [hdraw]
      exact ⟨_, hrun, rfl, rfl, hstrayed⟩
    · have hdraw : pen.trace .close = ([.line pen.pos pen.opened], { pen with pos := pen.opened }) := by
        rw [Pen.trace, if_neg hclosed]
      rw [if_neg (mt beq_iff_eq.mp hclosed), State.drawLine, State.draw] at hrun
      rw [hdraw]
      exact ⟨_, hrun, rfl, rfl, hstrayed⟩

/-- A command is carried out with the numbers behind its letter. -/
theorem strokesOf_command (text : String) (fuel : Nat) (s : State Rat) (c : Command Rat) (rest : List (Token Rat)) :
    strokesOf text (fuel + 1) s (tokensOf c ++ rest) = (do
      let (drawn, s) ← (s.taking c.letter).run c.letter.char (c.coords.map Scalar.printed)
      return drawn ++ (← strokesOf text fuel s rest)) := by
  have hupper : c.letter.char.toUpper = c.letter.char := by cases c <;> rfl
  have hlower : c.letter.char.isLower = false := by cases c <;> rfl
  have hready : (s.taking c.letter).ready c.letter.char = .ok () := by cases c <;> rfl
  have hcount : (c.coords.map fun x => Token.number (Scalar.printed x)).length = arity c.letter.char := by
    cases c <;> rfl
  have hcommand : s.command? text (tokensOf c ++ rest) =
      .ok (c.letter.char, s.taking c.letter, (c.coords.map fun x => .number (Scalar.printed x)) ++ rest) := by
    rw [tokensOf, List.cons_append, State.command?, hupper, hlower]
    rfl
  rw [tokensOf, List.cons_append, strokesOf, ← List.cons_append, ← tokensOf, hcommand]
  dsimp only [bind, Except.bind]
  rw [List.take_left' hcount, List.drop_left' hcount, hcount, if_neg (Nat.lt_irrefl _), hready, arguments_numbers]

/-- From where the pen is, the strokes that are read are the strokes that are drawn. -/
theorem strokesOf_commands (text : String) {s : State Rat} {pen : Pen Rat} (h : s.At pen) {fuel : Nat}
    (commands : List (Command Rat)) (hf : commands.length ≤ fuel) :
    strokesOf text fuel s (commands.flatMap tokensOf) =
      .ok (drawnFrom pen (commands.map (Command.map Point.rounded))) := by
  induction commands generalizing s pen fuel with
  | nil => cases fuel <;> simp [strokesOf, h.strayed, drawnFrom]
  | cons c commands ih =>
    obtain ⟨fuel, rfl⟩ := Nat.exists_eq_succ_of_ne_zero (Nat.ne_of_gt (Nat.zero_lt_of_lt hf))
    obtain ⟨s', hrun, h'⟩ := State.run_command h (c.map Point.rounded)
    rw [Command.letter_map, Command.coords_rounded] at hrun
    rw [List.flatMap_cons, strokesOf_command, hrun]
    dsimp only [bind, Except.bind]
    rw [ih h' (Nat.le_of_succ_le_succ hf)]
    rfl

/-- Path data that begin with a move are read as the strokes that they draw. -/
theorem segments_pathData (p : Point Rat) (rest : List (Command Rat)) :
    segments (pathData (.move p :: rest)) = .ok (drawn ((.move p :: rest).map (Command.map Point.rounded))) := by
  have hfinite : ∀ c ∈ .move p :: rest, ∀ x ∈ c.coords, Scalar.isFinite x = true := fun _ _ _ _ => rfl
  have hfuel := length_le_length_tokens (.move p :: rest)
  obtain ⟨s, hrun, hs⟩ := State.run_move (s := .start) rfl p.rounded
  unfold segments
  rw [tokens_pathData hfinite]
  dsimp only
  generalize (List.flatMap tokensOf (.move p :: rest)).length = fuel at hfuel
  obtain ⟨fuel, rfl⟩ := Nat.exists_eq_succ_of_ne_zero (Nat.ne_of_gt (Nat.zero_lt_of_lt hfuel))
  have hmove : (State.start.taking (Command.move p).letter).run (Command.move p).letter.char
      ((Command.move p).coords.map Scalar.printed) = .ok ([], s) := by
    rw [← Command.coords_rounded]
    exact hrun
  rw [List.flatMap_cons, strokesOf_command, hmove]
  dsimp only [bind, Except.bind]
  rw [strokesOf_commands _ hs rest (Nat.le_of_succ_le_succ hfuel)]
  rfl

end

end Foreign

section

variable [Trig Rat]

/-- **Path data of our own, read as foreign,** draw what they were written of, with every coordinate rounded to
hundredths. -/
theorem foreign_commands_pathData {commands : List (Command Rat)}
    (hmove : commands.head?.map Command.letter = some .move)
    (hdraws : ∃ c ∈ commands, c.letter = .line ∨ c.letter = .quadratic ∨ c.letter = .cubic) :
    ∃ read, Foreign.commands (pathData commands) = .ok read ∧
      drawn read = drawn (commands.map (Command.map Point.rounded)) := by
  obtain ⟨first, hfirst, hletter⟩ := Option.map_eq_some_iff.mp hmove
  obtain ⟨rest, rfl⟩ := List.head?_eq_some_iff.mp hfirst
  obtain ⟨p, rfl⟩ : ∃ p, first = .move p := by
    cases first <;> simp_all [Command.letter]
  have hne : drawn ((.move p :: rest).map (Command.map Point.rounded)) ≠ [] := by
    obtain ⟨c, hc, hdraws⟩ := hdraws
    rw [← Command.letter_map Point.rounded] at hdraws
    exact drawnFrom_ne_nil (List.mem_map_of_mem hc) hdraws _
  have hread := Foreign.segments_pathData p rest
  refine ⟨commandsOf (drawn ((.move p :: rest).map (Command.map Point.rounded))), ?_, ?_⟩
  · unfold Foreign.commands
    rw [hread]
    dsimp only [bind, Except.bind]
    rw [if_neg (by simpa using hne)]
    rfl
  · exact drawnFrom_commandsOf isDrawn_of_drawnFrom Pen.start

end

/-- Subpaths one behind the other: closed and drawn on from there, closed by a curve that ends where it begins, opened
and closed without a stroke, and one whose last point is the first only once both are rounded. -/
def windings : List (Command Rat) := [
  .move ⟨0, 0⟩, .line ⟨10, 1 / 3⟩, .line ⟨4, -7 / 2⟩, .close, .line ⟨5, 5⟩, .close, .close,
  .move ⟨100, 0⟩, .cubic ⟨110, 10⟩ ⟨90, 10⟩ ⟨100, 0⟩, .quadratic ⟨1, 1⟩ ⟨100, 0⟩,
  .move ⟨3, 3⟩, .close, .move ⟨1 / 3, 0⟩, .line ⟨8, 8⟩, .line ⟨1 / 3 + 1 / 1000, -1 / 1000⟩, .close]

theorem foreign_commands_pathData_windings :
    letI := Trig.flat
    ∃ read, Foreign.commands (pathData windings) = .ok read ∧
      drawn read = drawn (windings.map (Command.map Point.rounded)) := by
  let _ := Trig.flat
  exact foreign_commands_pathData rfl ⟨.line ⟨10, 1 / 3⟩, List.mem_cons_of_mem _ List.mem_cons_self, .inl rfl⟩

end Drawing
