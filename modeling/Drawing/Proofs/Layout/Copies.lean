import Drawing.Layout.Stage
import Drawing.Proofs.Document.Reading
import Drawing.Proofs.Document.Redrawn
import Drawing.Proofs.Validation.Settled
import Drawing.Validation.Outcome

/-!
# `Drawing/Proofs/Layout/Copies.lean` — what a layout draws of a path

A layout draws a path as often as it repeats it, and each time with the letters that the path has. The move that
is put in front of a copy is for paths that begin with something else; a path that begins with a move gets none.
All that is drawn is finite.
-/

namespace Drawing

variable {α : Type}

/-- How many copies of a path a layout draws. -/
def EffectiveLayout.copies (layout : EffectiveLayout α) : Nat :=
  match layout.repetition with
  | none => 1
  | some r => match r.pattern with
    | .grid => (Stage.gridShape r.count).1 * (Stage.gridShape r.count).2
    | .radial => Stage.radialCount r.count

theorem EffectiveLayout.copies_pos {layout : EffectiveLayout α}
    (h : ∀ r, layout.repetition = some r → r.count.IsPositive) : 0 < layout.copies := by
  unfold copies
  cases hrepetition : layout.repetition with
  | none => exact Nat.one_pos
  | some r =>
    have hcount := h r hrepetition
    cases hp : r.pattern <;> cases hc : r.count <;> simp only [hc, RepeatCount.IsPositive] at hcount
    · simpa [Stage.gridShape, hp, hc] using hcount
    · simpa [Stage.gridShape, hp, hc] using Nat.mul_pos hcount.1 hcount.2
    · simpa [Stage.radialCount, hp, hc] using hcount
    · simpa [Stage.radialCount, hp, hc] using hcount.1

/-- A path drawn some times over: its letters are repeated, and nothing else but its points is changed. -/
structure ShapePath.Repeated (n : Nat) (p p' : ShapePath α) : Prop where
  frame : p' = p.withCommands p'.commands
  letters : p'.commands.map Command.letter = (List.replicate n (p.commands.map Command.letter)).flatten

namespace ShapePath.Repeated

variable {n : Nat} {p p' p'' : ShapePath α}

theorem refl (p : ShapePath α) : p.Repeated 1 p := ⟨rfl, by simp⟩

theorem traced (h : p.Repeated n p') (h' : p'.Traced p'') : p.Repeated n p'' := by
  refine ⟨?_, h'.letters.trans h.letters⟩
  calc p'' = p'.withCommands p''.commands := h'.frame
    _ = p.withCommands p''.commands := by rw [h.frame]; rfl

/-- A path drawn at least once has commands if there are any to draw, and begins as they do. -/
theorem head_letters (h : p.Repeated n p') (hn : 0 < n) :
    (p'.commands.map Command.letter).head? = (p.commands.map Command.letter).head? := by
  obtain ⟨m, rfl⟩ := Nat.exists_eq_succ_of_ne_zero (Nat.ne_of_gt hn)
  rw [h.letters]
  cases p.commands with
  | nil => simp
  | cons c rest => simp [List.replicate_succ]

theorem isEmpty_commands (h : p.Repeated n p') (hn : 0 < n) :
    p'.commands.isEmpty = p.commands.isEmpty := by
  have hhead := h.head_letters hn
  cases hp : p.commands <;> cases hp' : p'.commands <;> simp_all

theorem startsWithMove (h : p.Repeated n p') (hn : 0 < n) (hp : p.startsWithMove = true) :
    p'.startsWithMove = true := by
  rw [startsWithMove_iff, h.head_letters hn]
  exact startsWithMove_iff.mp hp

end ShapePath.Repeated

namespace Stage

variable [Scalar α] {s : Stage α} {commands drawn : List (Command α)} {points : List (Point α)}

/-! ## Letters -/

theorem length_gridPositions {base : Point α} {columns rows : Nat} {stepX stepY : α}
    {origins : List (Point α)} (h : gridPositions base columns rows stepX stepY = .ok origins) :
    origins.length = columns * rows := by
  obtain ⟨startX, -, h⟩ := bind_eq_ok_iff.mp h
  obtain ⟨startY, -, h⟩ := bind_eq_ok_iff.mp h
  obtain rfl := pure_eq_ok_iff.mp h
  simp [List.length_flatMap, Nat.mul_comm]

theorem length_positions [Trig α] {layout : EffectiveLayout α} {base : Point α}
    {origins : List (Point α)} (h : s.positions layout base = .ok origins) :
    origins.length = layout.copies := by
  unfold positions at h
  unfold EffectiveLayout.copies
  cases hrepetition : layout.repetition with
  | none =>
    rw [hrepetition] at h
    obtain rfl := Except.ok.inj h
    rfl
  | some r =>
    rw [hrepetition] at h
    cases hpattern : r.pattern with
    | grid =>
      simp only [hpattern] at h ⊢
      obtain ⟨box, -, h⟩ := bind_eq_ok_iff.mp h
      exact length_gridPositions h
    | radial =>
      simp only [hpattern] at h ⊢
      obtain rfl := Except.ok.inj h
      simp [radialPositions]

/-- An instance of commands that begin with a move has their letters. -/
theorem letters_instanceAt {first : Bool} {origin : Point α}
    (hstart : (commands.head?.map Command.letter == some .move) = true)
    (h : s.instanceAt commands points first origin = .ok drawn) :
    drawn.map Command.letter = commands.map Command.letter := by
  obtain ⟨body, hbody, h⟩ := bind_eq_ok_iff.mp h
  have hletters := letter_rebuilt hbody
  have hhead : body.head?.map Command.letter = commands.head?.map Command.letter := by
    rw [← List.head?_map, ← List.head?_map, hletters]
  -- a move is put in front only of what begins without one
  rw [hhead, hstart, Bool.or_true, if_pos rfl] at h
  obtain rfl := pure_eq_ok_iff.mp h
  exact hletters

theorem letters_instances {first : Bool} {origins : List (Point α)}
    (hstart : (commands.head?.map Command.letter == some .move) = true)
    (h : s.instances commands points first origins = .ok drawn) :
    drawn.map Command.letter =
      (List.replicate origins.length (commands.map Command.letter)).flatten := by
  induction origins generalizing first drawn with
  | nil =>
    obtain rfl := Except.ok.inj h
    rfl
  | cons origin rest ih =>
    obtain ⟨one, hone, h⟩ := bind_eq_ok_iff.mp h
    obtain ⟨others, hothers, h⟩ := bind_eq_ok_iff.mp h
    obtain rfl := pure_eq_ok_iff.mp h
    rw [List.map_append, letters_instanceAt hstart hone, ih hothers, List.length_cons,
      List.replicate_succ, List.flatten_cons]

theorem copies_of_isIdentity {layout : EffectiveLayout α} (h : layout.isIdentity = true) :
    layout.copies = 1 := by
  have hnone : layout.repetition = none := by
    unfold EffectiveLayout.isIdentity at h
    exact Option.isNone_iff_eq_none.mp (Bool.and_eq_true_iff.mp h).2
  unfold EffectiveLayout.copies
  rw [hnone]

/-- A path that begins with a move is drawn with its letters, once for each copy. -/
theorem letters_transform [Trig α] {layout : EffectiveLayout α} {p : ShapePath α}
    (hstart : p.startsWithMove = true) (h : s.transform p.commands layout = .ok drawn) :
    drawn.map Command.letter =
      (List.replicate layout.copies (p.commands.map Command.letter)).flatten := by
  unfold transform at h
  split_ifs at h with hidentity hempty
  · obtain rfl := Except.ok.inj h
    simp [copies_of_isIdentity hidentity]
  · obtain rfl := Except.ok.inj h
    simp [List.isEmpty_iff.mp hempty]
  · obtain ⟨points, -, h⟩ := bind_eq_ok_iff.mp h
    obtain ⟨base, -, h⟩ := bind_eq_ok_iff.mp h
    obtain ⟨origins, horigins, h⟩ := bind_eq_ok_iff.mp h
    rw [← length_positions horigins]
    refine letters_instances ?_ h
    unfold ShapePath.startsWithMove at hstart
    split at hstart
    · next hc => exact absurd (List.isEmpty_iff.mpr hc) hempty
    · next c rest hc =>
      rw [hc]
      exact hstart

/-! ## Finite points -/

theorem finite_instanceAt {first : Bool} {origin : Point α}
    (h : s.instanceAt commands points first origin = .ok drawn) : CommandsFinite drawn := by
  obtain ⟨body, hbody, h⟩ := bind_eq_ok_iff.mp h
  split_ifs at h
  · obtain rfl := pure_eq_ok_iff.mp h
    exact finite_of_rebuilt hbody
  · obtain ⟨opening, hopening, h⟩ := bind_eq_ok_iff.mp h
    obtain rfl := pure_eq_ok_iff.mp h
    intro q hq
    rcases List.mem_append.mp (show q ∈ opening.points ++ pointsOf body from hq) with hq | hq
    · exact Command.isFinite_of_check (Command.ofChecked_eq_ok_iff.mp hopening) q hq
    · exact finite_of_rebuilt hbody q hq

theorem finite_instances {first : Bool} {origins : List (Point α)}
    (h : s.instances commands points first origins = .ok drawn) : CommandsFinite drawn := by
  induction origins generalizing first drawn with
  | nil =>
    obtain rfl := Except.ok.inj h
    exact nofun
  | cons origin rest ih =>
    obtain ⟨one, hone, h⟩ := bind_eq_ok_iff.mp h
    obtain ⟨others, hothers, h⟩ := bind_eq_ok_iff.mp h
    obtain rfl := pure_eq_ok_iff.mp h
    intro q hq
    rw [pointsOf_append] at hq
    exact (List.mem_append.mp hq).elim (finite_instanceAt hone q) (ih hothers q)

theorem finite_transform [Trig α] {layout : EffectiveLayout α} (hfinite : CommandsFinite commands)
    (h : s.transform commands layout = .ok drawn) : CommandsFinite drawn := by
  unfold transform at h
  split_ifs at h
  · obtain rfl := Except.ok.inj h
    exact hfinite
  · obtain rfl := Except.ok.inj h
    exact nofun
  · obtain ⟨points, -, h⟩ := bind_eq_ok_iff.mp h
    obtain ⟨base, -, h⟩ := bind_eq_ok_iff.mp h
    obtain ⟨origins, -, h⟩ := bind_eq_ok_iff.mp h
    exact finite_instances h

end Stage

end Drawing
