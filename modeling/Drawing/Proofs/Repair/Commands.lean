import Drawing.Proofs.Path.Points
import Drawing.Proofs.Repair.Frame
import Drawing.Repair.Commands

/-!
# `Drawing/Proofs/Repair/Commands.lean` — repaired commands are of the strict grammar

Whatever stood in a path, its repaired commands are commands of the five letters, each with as many
coordinates as its letter takes, and the first of them is a move. Which commands these are is decided by the
commands and the path data alone; the id of the path only shows in what is told about the repair.
-/

namespace Drawing

variable {α : Type}

/-! ## Written commands -/

/-- Raw data that writes a command of a letter. -/
def WritesCommand (l : Letter) (item : Json α) : Prop :=
  ∃ (fields : Fields α) (coords : List α), item = .obj fields ∧
    Table.get? fields "cmd" = some (.str l.text) ∧
    Table.get? fields "coords" = some (.arr (coords.map .ofReal)) ∧ coords.length = l.arity

/-- Items that write a path: there are some, each writes a command, and the first of these is a move. -/
structure WritesPath (items : List (Json α)) : Prop where
  commands : ∀ item ∈ items, ∃ l, WritesCommand l item
  opens : ∃ first rest, items = first :: rest ∧ WritesCommand .move first

theorem Command.writes_json (c : Command α) : WritesCommand c.letter (c.json .stored) :=
  ⟨_, c.coords, rfl, rfl, rfl, c.length_coords⟩

theorem writesPath_of_move (p : Point α) (rest : List (Command α)) :
    WritesPath ((.move p :: rest).map (Command.json .stored)) where
  commands := by
    intro item hitem
    obtain ⟨c, -, rfl⟩ := List.mem_map.mp hitem
    exact ⟨_, c.writes_json⟩
  opens := ⟨_, _, rfl, (Command.move p).writes_json⟩

/-! ## Beginning with a move -/

/-- Commands that are made to begin with a move do so, if any are left. -/
theorem openWithMove_value (path : String) (commands : List (Command α)) :
    (openWithMove path commands).value = [] ∨
      ∃ p rest, (openWithMove path commands).value = .move p :: rest := by
  unfold openWithMove
  split
  · exact .inr ⟨_, _, rfl⟩
  · exact .inr ⟨_, _, rfl⟩
  · exact .inr ⟨_, _, rfl⟩
  · exact .inr ⟨_, _, rfl⟩
  · next hmove hline hcubic hquadratic =>
    -- what is left begins with a close, and these were dropped, or with nothing
    cases h : commands.dropWhile Command.isClose with
    | nil => exact .inl rfl
    | cons c rest =>
      have hc : ¬c.isClose = true := by
        have hhead := List.head_dropWhile_not (p := Command.isClose) (l := commands) (by simp [h])
        simpa [h] using hhead
      cases c with
      | move p => exact absurd h (hmove p rest)
      | line p => exact absurd h (hline p rest)
      | cubic a b p => exact absurd h (hcubic a b p rest)
      | quadratic a p => exact absurd h (hquadratic a p rest)
      | close => exact absurd rfl hc

theorem openWithMove_path (path other : String) (commands : List (Command α)) :
    (openWithMove path commands).value = (openWithMove other commands).value := by
  unfold openWithMove
  split <;> rfl

/-! ## The pen -/

section

variable [Scalar α]

/-- The id of a path does not guide the pen. -/
theorem Pen.carryOut_path (pen : Pen α) (path other : String) (w : WrittenCommand α) :
    (pen.carryOut path w).1 = (pen.carryOut other w).1 ∧
      (pen.carryOut path w).2.2 = (pen.carryOut other w).2.2 := by
  unfold Pen.carryOut
  split
  · exact ⟨rfl, rfl⟩
  · exact ⟨rfl, rfl⟩
  · split
    · exact ⟨rfl, rfl⟩
    · exact ⟨rfl, rfl⟩
    · simp only [Pen.drawLetter]
      split <;> exact ⟨rfl, rfl⟩

theorem followItems_path {path : String} (other : String) {pen : Pen α} {items : List (Json α)}
    {r : Repaired α (List (Command α))} (h : followItems path pen items = .ok r) :
    ∃ s, followItems other pen items = .ok s ∧ s.value = r.value := by
  induction items generalizing pen r with
  | nil =>
    obtain rfl := Except.ok.inj h
    exact ⟨_, rfl, rfl⟩
  | cons item rest ih =>
    rw [followItems] at h ⊢
    obtain ⟨written, hw, h⟩ := bind_eq_ok_iff.mp h
    cases written with
    | none =>
      obtain ⟨t, ht, h⟩ := bind_eq_ok_iff.mp h
      obtain ⟨s, hs, hvalue⟩ := ih ht
      obtain rfl := pure_eq_ok_iff.mp h
      exact ⟨_, bind_eq_ok_iff.mpr ⟨none, hw, bind_eq_ok_iff.mpr ⟨s, hs, rfl⟩⟩, hvalue⟩
    | some w =>
      -- the rest is drawn from the same pen, whichever id was given
      have hsame := pen.carryOut_path path other w
      rcases hcarry : pen.carryOut path w with ⟨drawn, actions, after⟩
      rcases hcarry' : pen.carryOut other w with ⟨drawn', actions', after'⟩
      rw [hcarry, hcarry'] at hsame
      obtain ⟨rfl, rfl⟩ := hsame
      simp only [hcarry] at h
      obtain ⟨t, ht, h⟩ := bind_eq_ok_iff.mp h
      obtain ⟨s, hs, hvalue⟩ := ih ht
      obtain rfl := pure_eq_ok_iff.mp h
      refine ⟨(s.map (drawn ++ ·)).after actions', bind_eq_ok_iff.mpr ⟨some w, hw, ?_⟩,
        congrArg (drawn ++ ·) hvalue⟩
      simp only [hcarry']
      exact bind_eq_ok_iff.mpr ⟨s, hs, rfl⟩

/-! ## Whole paths -/

variable [Trig α]

theorem commandItems_congr (path other : String) {fields fields' : Fields α}
    (hcommands : Table.get? fields "commands" = Table.get? fields' "commands")
    (hd : Table.get? fields "d" = Table.get? fields' "d") :
    (commandItems path fields).value = (commandItems other fields').value := by
  simp only [commandItems, hcommands, hd]
  split
  · split <;> rfl
  · rfl
  · rfl

theorem repairCommands_congr {path : String} (other : String) {fields fields' : Fields α}
    {r : Repaired α (List (Command α))}
    (hcommands : Table.get? fields "commands" = Table.get? fields' "commands")
    (hd : Table.get? fields "d" = Table.get? fields' "d") (h : repairCommands path fields = .ok r) :
    ∃ s, repairCommands other fields' = .ok s ∧ s.value = r.value := by
  obtain ⟨followed, hfollowed, h⟩ := bind_eq_ok_iff.mp h
  obtain ⟨t, ht, hvalue⟩ := Repaired.of_andThen hfollowed
  obtain ⟨opened, hopened, hr⟩ := Repaired.of_andThen h
  obtain rfl := Except.ok.inj hopened
  obtain ⟨t', ht', hvalue'⟩ := followItems_path other ht
  rw [commandItems_congr path other hcommands hd] at ht'
  obtain ⟨followed', hfollowed', hsame⟩ := Repaired.andThen_ok ht'
  obtain ⟨s, hs, hopen⟩ :=
    Repaired.andThen_ok (r := followed') (f := fun cs => .ok (openWithMove other cs)) rfl
  refine ⟨s, bind_eq_ok_iff.mpr ⟨followed', hfollowed', hs⟩, ?_⟩
  rw [hopen, hr, hsame, hvalue', ← hvalue, openWithMove_path]

/-- What is left of the commands of a path begins with a move. -/
theorem repairCommands_begins {path : String} {fields : Fields α}
    {r : Repaired α (List (Command α))} (h : repairCommands path fields = .ok r) :
    r.value = [] ∨ ∃ p rest, r.value = .move p :: rest := by
  obtain ⟨followed, -, h⟩ := bind_eq_ok_iff.mp h
  obtain ⟨opened, hopened, hr⟩ := Repaired.of_andThen h
  obtain rfl := Except.ok.inj hopened
  rw [hr]
  exact openWithMove_value path followed.value

/-- Repaired commands write a path, if there are any. -/
theorem repairCommands_writesPath {path : String} {fields : Fields α}
    {r : Repaired α (List (Command α))} (h : repairCommands path fields = .ok r) (hne : r.value ≠ []) :
    WritesPath (r.value.map (Command.json .stored)) := by
  rcases repairCommands_begins h with hempty | ⟨p, rest, hmove⟩
  · exact absurd hempty hne
  · rw [hmove]
    exact writesPath_of_move p rest

end

end Drawing
