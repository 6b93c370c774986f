import Drawing.Proofs.Number.Hundredths
import Drawing.Proofs.Path.Data

/-!
# `Drawing/Proofs/Path/Reading.lean` — path data read back

Path data of our own is letters and numbers, and each letter takes all the numbers up to the next one. Read that way,
what was written of some commands spells out the same commands, provided that the text of each coordinate is read as
that coordinate. Texts have two decimals, so this holds of hundredths.

> **path data read back** as the commands that they were written of.

The text of a finite number is made from its exact value. So path data can also be read exactly, though there may be no
scalar for a hundredth: they spell out the exact values of their commands, rounded to hundredths.
-/

namespace Drawing

section

variable {α : Type} [Scalar α]

/-- What tokens spell out: the numbers in front of the first letter, and the commands from there on. -/
def readTokens : List DataToken → Option (List α × List (Command α))
  | [] => some ([], [])
  | .number s :: rest => do
    let (xs, commands) ← readTokens rest
    return ((← NumberGrammar.anyScript.read? s) :: xs, commands)
  | .letter c :: rest => do
    let (xs, commands) ← readTokens rest
    let l ← Letter.ofChar? c
    let command ← if xs.length = l.arity then Command.ofPoints? l (pairUp xs) else none
    return ([], command :: commands)

/-- The commands that path data spell out. -/
def readCommands? (data : String) : Option (List (Command α)) :=
  match readTokens (tokensOf data) with
  | some ([], commands) => some commands
  | _ => none

/-- A point as it is printed. -/
def Point.printed (p : Point α) : Point α := ⟨Scalar.printed p.x, Scalar.printed p.y⟩

theorem Command.coords_printed (c : Command α) : (c.map Point.printed).coords = c.coords.map Scalar.printed := by
  cases c <;> rfl

theorem readTokens_numbers (xs : List α) {rest : List DataToken} {commands : List (Command α)}
    (h : readTokens rest = some ([], commands)) :
    readTokens (xs.map (fun x => .number (coordinateText x)) ++ rest) = some (xs.map Scalar.printed, commands) := by
  induction xs with
  | nil => exact h
  | cons x xs ih =>
    rw [List.map_cons, List.cons_append, readTokens, ih]
    simp [read?_coordinateText]

/-- Commands are read as they are printed. -/
theorem readTokens_commands (commands : List (Command α)) :
    readTokens (commands.flatMap Command.tokens) = some ([], commands.map (Command.map Point.printed)) := by
  induction commands with
  | nil => rfl
  | cons c rest ih =>
    have hcommand : Command.ofPoints? c.letter (pairUp (c.map Point.printed).coords) = some (c.map Point.printed) := by
      cases c <;> rfl
    rw [List.flatMap_cons, Command.tokens, List.cons_append, readTokens, readTokens_numbers c.coords ih,
      ← Command.coords_printed]
    simp [Letter.ofChar?_char, Command.length_coords, hcommand]

theorem readCommands?_pathData_printed {commands : List (Command α)} (hfinite : ∀ p ∈ pointsOf commands, p.IsFinite) :
    readCommands? (pathData commands) = some (commands.map (Command.map Point.printed)) := by
  unfold readCommands?
  rw [tokensOf_pathData hfinite, readTokens_commands]

/-- **Path data read back** if each coordinate is one that reads back. -/
theorem readCommands?_pathData {commands : List (Command α)} (hfinite : ∀ p ∈ pointsOf commands, p.IsFinite)
    (h : ∀ p ∈ pointsOf commands, Scalar.printed p.x = p.x ∧ Scalar.printed p.y = p.y) :
    readCommands? (pathData commands) = some commands := by
  have hsame : ∀ c ∈ commands, c.map Point.printed = c := by
    intro c hc
    have hpoint {p : Point α} (hp : p ∈ c.points) : p.printed = p := by
      obtain ⟨hx, hy⟩ := h p (List.mem_flatMap.mpr ⟨c, hc, hp⟩)
      rw [Point.printed, hx, hy]
    cases c <;> simp_all [Command.map, Command.points]
  rw [readCommands?_pathData_printed hfinite, List.map_congr_left hsame, List.map_id']

end

/-! ## Exact commands -/

/-- A point with its coordinates rounded to hundredths. -/
def Point.rounded (p : Point Rat) : Point Rat := ⟨roundRat 2 p.x, roundRat 2 p.y⟩

theorem Point.printed_exact : (Point.printed : Point Rat → Point Rat) = Point.rounded := by
  funext p
  rw [printed, Scalar.printed_exact, Scalar.printed_exact]
  rfl

section

variable {α : Type} [Scalar α]

/-- The point at the exact values of the coordinates. -/
def Point.toRat (p : Point α) : Point Rat := ⟨Scalar.toRat p.x, Scalar.toRat p.y⟩

/-- The command with its points at their exact values. -/
def Command.toRat : Command α → Command Rat
  | .move p => .move p.toRat
  | .line p => .line p.toRat
  | .cubic a b p => .cubic a.toRat b.toRat p.toRat
  | .quadratic a p => .quadratic a.toRat p.toRat
  | .close => .close

theorem Command.points_toRat (c : Command α) : c.toRat.points = c.points.map Point.toRat := by
  cases c <;> rfl

theorem Command.letter_toRat (c : Command α) : c.toRat.letter = c.letter := by cases c <;> rfl

theorem Command.coords_toRat (c : Command α) : c.toRat.coords = c.coords.map Scalar.toRat := by
  cases c <;> rfl

theorem pointsOf_toRat (commands : List (Command α)) :
    pointsOf (commands.map Command.toRat) = (pointsOf commands).map Point.toRat := by
  simp [pointsOf, List.flatMap_map, List.map_flatMap, Command.points_toRat]

variable [NearlyExact α]

/-- The text of a finite coordinate is that of its exact value. -/
theorem coordinateText_toRat {x : α} (h : Scalar.isFinite x = true) :
    coordinateText (Scalar.toRat x) = coordinateText x := by
  have hx := Scalar.toRat?_of_isFinite h
  generalize Scalar.toRat x = q at hx ⊢
  unfold coordinateText
  rw [hx, Scalar.toRat?_exact]
  dsimp only
  refine if_congr Iff.rfl rfl (ite_congr rfl (fun _ => rfl) fun hzero => ?_)
  -- what is printed with decimals is not zero, so its sign is that of its value
  have hq : q ≠ 0 := by
    rintro rfl
    exact hzero (by decide +kernel)
  have hsign : Scalar.isNegative q = Scalar.isNegative x := by
    rw [Bool.eq_iff_iff, Scalar.isNegative_exact, Scalar.isNegative_iff hx hq]
  unfold Scalar.fixedText
  rw [hx, Scalar.toRat?_exact]
  dsimp only
  rw [hsign]

theorem pathData_toRat {commands : List (Command α)} (h : CommandsFinite commands) :
    pathData (commands.map Command.toRat) = pathData commands := by
  unfold pathData
  rw [List.map_map]
  refine congrArg _ (List.map_congr_left fun c hc => ?_)
  have hcoords : c.coords.map (coordinateText ∘ Scalar.toRat) = c.coords.map coordinateText := by
    refine List.map_congr_left fun x hx => coordinateText_toRat ?_
    exact Command.isFinite_of_mem_coords (fun p hp => h p (List.mem_flatMap.mpr ⟨c, hc, hp⟩)) hx
  rw [Function.comp_apply, Command.text, Command.letter_toRat, Command.coords_toRat, List.map_map, hcoords]
  rfl

/-- **Path data are read exactly** as the exact values of the commands that they were written of, rounded to
hundredths. -/
theorem readCommands?_pathData_toRat {commands : List (Command α)} (h : CommandsFinite commands) :
    readCommands? (pathData commands) = some ((commands.map Command.toRat).map (Command.map Point.rounded)) := by
  rw [← pathData_toRat h, readCommands?_pathData_printed fun _ _ => ⟨rfl, rfl⟩, Point.printed_exact]

end

end Drawing
