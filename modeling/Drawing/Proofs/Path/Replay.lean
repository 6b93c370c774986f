import Drawing.Proofs.Number.Held
import Drawing.Proofs.Path.Foreign

/-!
# `Drawing/Proofs/Path/Replay.lean` — foreign path data, drawn again

Commands say where a stroke goes and not where it comes from. So the strokes of foreign path data lose their beginnings
when they are written as commands, and only the pen can tell them: a piece begins with a move to where its first stroke
began, every other stroke begins where the one before it ended, and a piece that ends where it began is closed.
Whether two ends are the same place is asked of the numbers. Doubles may be equal without being the same, as the two
zeros are, or the same without being equal, as not-a-number is; so a beginning comes back as it was or as an equal one
(`Point.Meets`), and everything else about a stroke just as it was.

> **Foreign path data is drawn again by its commands**, stroke by stroke and in order, with nothing more than closes
> that have nothing left to draw.

Arcs are drawn as the curves that stand for them, for all of them have a centre. Nothing is asked of the numbers but
that equality can be turned round.
-/

namespace Drawing

/-! ## What a pen draws -/

section

variable {α : Type}

/-- The strokes of some commands, each with the letter that it is drawn by. A move draws none. -/
def marksFrom (pen : Pen α) : List (Command α) → List (Letter × Segment α)
  | [] => []
  | .move p :: rest => marksFrom ⟨p, p⟩ rest
  | .line p :: rest => (.line, .line pen.pos p) :: marksFrom { pen with pos := p } rest
  | .quadratic c p :: rest => (.quadratic, .quadratic pen.pos c p) :: marksFrom { pen with pos := p } rest
  | .cubic c d p :: rest => (.cubic, .cubic pen.pos c d p) :: marksFrom { pen with pos := p } rest
  | .close :: rest => (.close, .line pen.pos pen.opened) :: marksFrom { pen with pos := pen.opened } rest

theorem map_snd_marksFrom (pen : Pen α) (commands : List (Command α)) :
    (marksFrom pen commands).map Prod.snd = strokesFrom pen commands := by
  induction commands generalizing pen with
  | nil => rfl
  | cons c rest ih => cases c <;> simp [marksFrom, strokesFrom, ih]

/-- The same place: points that are the same, or equal by their numbers. -/
def Point.Meets [BEq α] (p q : Point α) : Prop := p = q ∨ (p == q) = true

instance [BEq α] [PartialEquivBEq α] : PartialEquivBEq (Point α) where
  symm {p q} h := by
    obtain ⟨hx, hy⟩ := Bool.and_eq_true_iff.mp h
    exact Bool.and_eq_true_iff.mpr ⟨BEq.symm hx, BEq.symm hy⟩
  trans {p q r} h h' := by
    obtain ⟨hx, hy⟩ := Bool.and_eq_true_iff.mp h
    obtain ⟨hx', hy'⟩ := Bool.and_eq_true_iff.mp h'
    exact Bool.and_eq_true_iff.mpr ⟨BEq.trans hx hx', BEq.trans hy hy'⟩

/-- A stroke with another beginning. -/
def Segment.begun (p : Point α) : Segment α → Segment α
  | line _ q => line p q
  | quadratic _ c q => quadratic p c q
  | cubic _ c d q => cubic p c d q
  | arc a => arc { a with start := p }

section

variable [Scalar α] [Trig α]

/-- A stroke as it can be drawn: an arc becomes the curve that stands for it, a line if there is none. -/
def Segment.curved : Segment α → Segment α
  | arc a => match a.command with
    | .cubic c d _ => cubic a.start c d a.stop
    | _ => line a.start a.stop
  | s => s

/-- An arc is drawn by a curve if it has a centre, and goes to its end in any case. -/
theorem Arc.command_cases (a : Arc α) :
    (∃ c d, a.command = .cubic c d a.stop) ∨
      a.command = .line a.stop ∧ ∀ centred, a.centred = .ok centred → Scalar.isFinite a.rotation = false := by
  unfold command
  split
  · split_ifs with hfinite
    · exact .inl ⟨_, _, rfl⟩
    · exact .inr ⟨rfl, fun _ _ => Bool.eq_false_iff.mpr hfinite⟩
  · next hcentred => exact .inr ⟨rfl, fun _ h => nomatch hcentred.symm.trans h⟩

/-- Marks that draw some strokes again: each of them once and in order, from where it begins and with its control points
and its end, and between them closes with nothing left to draw. -/
inductive Redraws : List (Segment α) → List (Letter × Segment α) → Prop
  | nil : Redraws [] []
  | stroke {s : Segment α} {l : Letter} {p : Point α} {strokes : List (Segment α)} {marks : List (Letter × Segment α)}
    (hletter : l ≠ .close) (hstart : s.start.Meets p) (h : Redraws strokes marks) :
    Redraws (s :: strokes) ((l, s.curved.begun p) :: marks)
  | close {p q : Point α} {strokes : List (Segment α)} {marks : List (Letter × Segment α)}
    (hdone : (p == q) = true) (h : Redraws strokes marks) : Redraws strokes ((.close, .line p q) :: marks)

theorem Redraws.append {strokes strokes' : List (Segment α)} {marks marks' : List (Letter × Segment α)}
    (h : Redraws strokes marks) (h' : Redraws strokes' marks') : Redraws (strokes ++ strokes') (marks ++ marks') := by
  induction h with
  | nil => exact h'
  | stroke hletter hstart _ ih => exact .stroke hletter hstart ih
  | close hdone _ ih => exact .close hdone ih

/-- A command draws its stroke from where the pen is, and leaves the pen at its end. -/
theorem marksFrom_command (s : Segment α) (pen : Pen α) (rest : List (Command α)) :
    ∃ l, l ≠ .close ∧ marksFrom pen (s.command :: rest) =
      (l, s.curved.begun pen.pos) :: marksFrom { pen with pos := s.stop } rest := by
  cases s with
  | line p q => exact ⟨.line, nofun, rfl⟩
  | quadratic p c q => exact ⟨.quadratic, nofun, rfl⟩
  | cubic p c d q => exact ⟨.cubic, nofun, rfl⟩
  | arc a =>
    have hcommand : (Segment.arc a).command = a.command := rfl
    rw [hcommand, Segment.curved]
    rcases a.command_cases with ⟨c, d, h⟩ | ⟨h, -⟩
    · rw [h]
      exact ⟨.cubic, nofun, rfl⟩
    · rw [h]
      exact ⟨.line, nofun, rfl⟩

/-! ## Pieces -/

/-- A piece is drawn again stroke by stroke, if the pen is where it begins. -/
theorem exists_redraws_piece {first : Segment α} {piece : List (Segment α)}
    (hjoined : (first :: piece).IsChain fun s t => (t.start == s.stop) = true) (pen : Pen α)
    (hpos : first.start.Meets pen.pos) (rest : List (Command α)) :
    ∃ marks, Redraws (first :: piece) marks ∧
      marksFrom pen ((first :: piece).map Segment.command ++ rest) =
        marks ++ marksFrom { pen with pos := ((first :: piece).getLast (List.cons_ne_nil _ _)).stop } rest := by
  induction piece generalizing first pen with
  | nil =>
    obtain ⟨l, hl, hmarks⟩ := marksFrom_command first pen rest
    exact ⟨_, .stroke hl hpos .nil, hmarks⟩
  | cons second piece ih =>
    obtain ⟨hjoins, hjoined⟩ := List.isChain_cons_cons.mp hjoined
    obtain ⟨l, hl, hmarks⟩ := marksFrom_command first pen ((second :: piece).map Segment.command ++ rest)
    obtain ⟨marks, hredraws, hrest⟩ := ih hjoined { pen with pos := first.stop } (.inr hjoins)
    refine ⟨_, .stroke hl hpos hredraws, ?_⟩
    rw [List.map_cons, List.cons_append, hmarks, hrest]
    rfl

variable [PartialEquivBEq α]

/-- Pieces are drawn again one after the other: each begins with a move, since the one before it ended elsewhere. -/
theorem redraws_pieceCommands {ps : List (List (Segment α))} (hsplit : IsSplit ps) {last : Option (Point α)}
    (hlast : ∀ p ∈ ps.head?, ∀ s ∈ p.head?, (last == some s.start) = false) (pen : Pen α) :
    Redraws ps.flatten (marksFrom pen (pieceCommands last ps)) := by
  induction ps generalizing last pen with
  | nil => exact .nil
  | cons p ps ih =>
    obtain ⟨first, piece, rfl⟩ := List.exists_cons_of_ne_nil (hsplit.ne_nil p List.mem_cons_self)
    obtain ⟨hgap, hapart⟩ := List.isChain_cons.mp hsplit.apart
    have hsplit' : IsSplit ps := ⟨fun q hq => hsplit.ne_nil q (List.mem_cons_of_mem _ hq),
      fun q hq => hsplit.joined q (List.mem_cons_of_mem _ hq), hapart⟩
    obtain ⟨final, hfinal⟩ : ∃ final, (first :: piece).getLast (List.cons_ne_nil _ _) = final := ⟨_, rfl⟩
    have hgetLast : (first :: piece).getLast? = some final := by
      rw [List.getLast?_eq_some_getLast (List.cons_ne_nil _ _), hfinal]
    have hafter (pen : Pen α) : Redraws ps.flatten (marksFrom pen (pieceCommands (some final.stop) ps)) := by
      refine ih hsplit' (fun q hq t ht => ?_) pen
      have hne := hgap q hq final hgetLast t ht
      rwa [BEq.comm] at hne
    -- a piece that is closed has come back to its opening
    have hclosing : Redraws ps.flatten (marksFrom ⟨final.stop, first.start⟩
        ((if first.start == final.stop then [Command.close] else []) ++ pieceCommands (some final.stop) ps)) := by
      split_ifs with hclosed
      · exact .close (BEq.symm hclosed) (hafter _)
      · exact hafter _
    obtain ⟨marks, hredraws, hmarks⟩ := exists_redraws_piece (hsplit.joined _ List.mem_cons_self)
      ⟨first.start, first.start⟩ (.inl rfl)
      ((if first.start == final.stop then [Command.close] else []) ++ pieceCommands (some final.stop) ps)
    rw [hfinal] at hmarks
    rw [pieceCommands, hgetLast]
    dsimp only [List.head?_cons]
    rw [hlast _ rfl _ rfl, if_neg Bool.false_ne_true, List.append_assoc, List.append_assoc, List.singleton_append,
      marksFrom, hmarks, List.flatten_cons]
    exact hredraws.append hclosing

/-- Strokes of any origin are drawn again by the commands that they are written as, wherever the pen is to begin
with. -/
theorem redraws_commandsOf (strokes : List (Segment α)) (pen : Pen α) :
    Redraws strokes (marksFrom pen (commandsOf strokes)) := by
  have h : Redraws (pieces strokes).flatten (marksFrom pen (pieceCommands none (pieces strokes))) :=
    redraws_pieceCommands (isSplit_pieces strokes) (fun _ _ _ _ => rfl) pen
  rwa [flatten_pieces] at h

omit [PartialEquivBEq α] in
/-- The first stroke is moved to. -/
theorem head_commandsOf {strokes : List (Segment α)} (hne : strokes ≠ []) :
    (commandsOf strokes).head?.map Command.letter = some .move := by
  obtain ⟨first, rest, rfl⟩ := List.exists_cons_of_ne_nil hne
  obtain ⟨piece, more, hpieces⟩ := exists_pieces first rest
  have hgetLast := List.getLast?_eq_some_getLast (List.cons_ne_nil first piece)
  unfold commandsOf
  rw [hpieces, pieceCommands, hgetLast]
  rfl

end

end

/-! ## Arcs -/

namespace Foreign

section

variable {α : Type} [Scalar α] [Trig α]

/-- A step that, if it comes about, draws only arcs that have a centre. -/
def DrawsCentred (x : Except PathFault (List (Segment α) × State α)) : Prop :=
  ∀ drawn s, x = .ok (drawn, s) → ∀ a, .arc a ∈ drawn → ∃ c, a.centred = .ok c

namespace DrawsCentred

theorem bind {β : Type} {x : Except PathFault β} {f : β → Except PathFault (List (Segment α) × State α)}
    (h : ∀ b, DrawsCentred (f b)) : DrawsCentred (x >>= f) := by
  intro drawn s hok
  obtain ⟨b, -, hb⟩ := bind_eq_ok_iff.mp hok
  exact h b drawn s hb

theorem ok_nil (s : State α) : DrawsCentred (.ok ([], s)) := by
  intro drawn s' h a ha
  obtain ⟨rfl, -⟩ := Prod.mk.inj (Except.ok.inj h)
  exact absurd ha List.not_mem_nil

theorem draw {s : State α} {control : Control α} {stop : Point α} {stroke : Point α → Segment α}
    (h : ∀ p a, stroke p = .arc a → ∃ c, a.centred = .ok c) : DrawsCentred (s.draw control stop stroke) := by
  intro drawn s' hok a ha
  obtain ⟨rfl, -⟩ := Prod.mk.inj (Except.ok.inj hok)
  obtain ⟨p, -, hp⟩ := List.mem_map.mp ha
  exact h p a hp

theorem drawLine (s : State α) (stop : Point α) : DrawsCentred (s.drawLine stop) := draw nofun

theorem drawQuadratic (s : State α) (control : Control α) (stop : Point α) :
    DrawsCentred (s.drawQuadratic control stop) := draw fun _ _ h => by cases control <;> exact nomatch h

theorem drawCubic (s : State α) (first : Control α) (second stop : Point α) :
    DrawsCentred (s.drawCubic first second stop) := draw fun _ _ h => by cases first <;> exact nomatch h

/-- The centre of an arc is looked for before the arc is drawn. -/
theorem drawArc (s : State α) (radius : Point α) (rotation large sweep : α) (stop : Point α) :
    DrawsCentred (s.drawArc radius rotation large sweep stop) := by
  unfold State.drawArc
  split_ifs
  · exact drawLine s stop
  · refine bind fun start => ?_
    dsimp only
    split_ifs
    · exact fun _ _ h => nomatch h
    · split
      · next c hcentred => exact draw fun _ _ h => ⟨c, Segment.arc.inj h ▸ hcentred⟩
      · exact fun _ _ h => nomatch h

theorem close (s : State α) : DrawsCentred s.close := by
  unfold State.close
  split
  · split_ifs
    · exact ok_nil _
    · exact drawLine _ _
  · exact drawLine _ _
  · exact ok_nil _

theorem run (s : State α) (letter : Char) (args : List α) : DrawsCentred (s.run letter args) := by
  unfold State.run
  split
  · exact bind fun _ => ok_nil _
  · exact bind fun _ => drawLine _ _
  · exact bind fun _ => drawLine _ _
  · exact bind fun _ => drawLine _ _
  · exact bind fun _ => bind fun _ => bind fun _ => drawCubic _ _ _ _
  · exact bind fun _ => bind fun _ => bind fun _ => drawCubic _ _ _ _
  · exact bind fun _ => bind fun _ => drawQuadratic _ _ _
  · exact bind fun _ => bind fun _ => drawQuadratic _ _ _
  · exact bind fun _ => drawArc _ _ _ _ _ _
  · exact close _

end DrawsCentred

theorem centred_of_strokesOf {text : String} {fuel : Nat} {s : State α} {tokens : List (Token α)}
    {strokes : List (Segment α)} (h : strokesOf text fuel s tokens = .ok strokes) :
    ∀ a, .arc a ∈ strokes → ∃ c, a.centred = .ok c := by
  induction fuel generalizing s tokens strokes with
  | zero =>
    unfold strokesOf at h
    split_ifs at h
    obtain rfl := Except.ok.inj h
    exact fun a ha => absurd ha List.not_mem_nil
  | succ fuel ih =>
    cases tokens with
    | nil =>
      unfold strokesOf at h
      split_ifs at h
      obtain rfl := Except.ok.inj h
      exact fun a ha => absurd ha List.not_mem_nil
    | cons token tokens =>
      unfold strokesOf at h
      obtain ⟨⟨letter, s', rest⟩, -, h⟩ := bind_eq_ok_iff.mp h
      dsimp only at h
      split_ifs at h
      · obtain ⟨_, hfew, -⟩ := bind_eq_ok_iff.mp h
        cases hfew
      · obtain ⟨-, -, h⟩ := bind_eq_ok_iff.mp h
        obtain ⟨-, -, h⟩ := bind_eq_ok_iff.mp h
        obtain ⟨args, -, h⟩ := bind_eq_ok_iff.mp h
        obtain ⟨⟨drawn, s''⟩, hdrawn, h⟩ := bind_eq_ok_iff.mp h
        obtain ⟨others, hothers, h⟩ := bind_eq_ok_iff.mp h
        obtain rfl := pure_eq_ok_iff.mp h
        exact fun a ha => (List.mem_append.mp ha).elim (DrawsCentred.run _ _ _ _ _ hdrawn a) (ih hothers a)

end

end Foreign

/-! ## Path data -/

section

variable {α : Type} [Scalar α] [Trig α] [PartialEquivBEq α]

/-- **Foreign path data is drawn again by its commands.** Whatever strokes a text is read as, the commands that it is
converted to begin with a move, have just the coordinates that their letters take, and, from wherever the pen is, draw
every stroke from where it begins, through its control points and to its end, in order and with nothing else but closes
that have nothing left to draw. An arc of a finite rotation is drawn as a curve between its ends. -/
theorem foreign_commands_redraw {text : String} {strokes : List (Segment α)}
    (hread : Foreign.segments text = .ok strokes) (hne : strokes ≠ []) :
    ∃ commands, Foreign.commands text = .ok commands ∧ commands.head?.map Command.letter = some .move ∧
      (∀ c ∈ commands, c.coords.length = c.letter.arity) ∧
      (∀ pen, Redraws strokes (marksFrom pen commands)) ∧
      ∀ a, .arc a ∈ strokes → Scalar.isFinite a.rotation = true →
        ∃ c d, (Segment.arc a).curved = .cubic a.start c d a.stop := by
  refine ⟨commandsOf strokes, ?_, head_commandsOf hne, fun c _ => c.length_coords, redraws_commandsOf strokes, ?_⟩
  · unfold Foreign.commands
    rw [hread]
    dsimp only [bind, Except.bind]
    rw [if_neg (by simpa using hne)]
    rfl
  · intro a ha hfinite
    obtain ⟨centred, hcentred⟩ := Foreign.centred_of_strokesOf hread a ha
    rcases a.command_cases with ⟨c, d, h⟩ | ⟨-, hnone⟩
    · exact ⟨c, d, by rw [Segment.curved, h]⟩
    · exact nomatch (hnone centred hcentred).symm.trans hfinite

end

/-- An arc and its chord, a subpath that is drawn on after its close, shorthands, and one that ends where it began. -/
def flourish : String := "m 0 0 a 5 5 0 0 1 10 0 l 0 10 z m 20 0 q 5 5 10 0 t 10 0 M 0 0 L 3 4 C 1 1 2 2 0 0"

/-- A subpath that begins at the one zero and comes back to the other, where the next one begins. -/
def seam : String := "M 0 -1 L 8 4 L -0 -1 M 0 -1 L 3 3"

theorem foreign_commands_redraw_flourish :
    letI := Trig.flat
    (∃ (strokes : List (Segment Rat)) (commands : List (Command Rat)),
      Foreign.segments flourish = .ok strokes ∧ strokes.length = 7 ∧ Foreign.commands flourish = .ok commands ∧
        ∀ pen, Redraws strokes (marksFrom pen commands)) ∧
    ∃ (strokes : List (Segment Float)) (commands : List (Command Float)),
      Foreign.segments seam = .ok strokes ∧ strokes.length = 3 ∧ Foreign.commands seam = .ok commands ∧
        ∀ pen, Redraws strokes (marksFrom pen commands) := by
  let _ := Trig.flat
  constructor
  · have hread : (Foreign.segments flourish : Except PathFault (List (Segment Rat))).toOption.map List.length =
        some 7 := by decide +kernel
    obtain ⟨strokes, hstrokes, hlength⟩ := Option.map_eq_some_iff.mp hread
    obtain ⟨commands, hcommands, -, -, hredraws, -⟩ := foreign_commands_redraw (eq_ok_of_toOption hstrokes)
      (List.ne_nil_of_length_pos (by omega))
    exact ⟨strokes, commands, eq_ok_of_toOption hstrokes, hlength, hcommands, hredraws⟩
  · have hread : (Foreign.segments seam : Except PathFault (List (Segment Float))).toOption.map List.length =
        some 3 := by decide +kernel
    obtain ⟨strokes, hstrokes, hlength⟩ := Option.map_eq_some_iff.mp hread
    obtain ⟨commands, hcommands, -, -, hredraws, -⟩ := foreign_commands_redraw (eq_ok_of_toOption hstrokes)
      (List.ne_nil_of_length_pos (by omega))
    exact ⟨strokes, commands, eq_ok_of_toOption hstrokes, hlength, hcommands, hredraws⟩

end Drawing
