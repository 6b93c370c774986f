import Drawing.Proofs.Checked

/-!
# `Drawing/Proofs/Path/Points.lean` — pouring points into commands

Commands are flattened into points and rebuilt around others. A rebuilt drawing has the letters it had before,
and its points are the ones it was given, from the first on; no point is made up and none is changed. A point
that is not finite makes no command, so with just as many points as there is room for:

> **rebuilding undoes flattening and is undone by it, as long as all points are finite** — and it is refused as
> soon as one of them is not (`rebuilt_inverse`). Drawings put one behind the other are rebuilt one by one.
-/

namespace Drawing

variable {α : Type}

theorem pairUp_flatMap (ps : List (Point α)) : pairUp (ps.flatMap fun p => [p.x, p.y]) = ps := by
  induction ps with
  | nil => rfl
  | cons p ps ih =>
    rw [List.flatMap_cons]
    exact congrArg (p :: ·) ih

theorem mem_pairUp {xs : List α} {p : Point α} (h : p ∈ pairUp xs) : p.x ∈ xs ∧ p.y ∈ xs := by
  fun_induction pairUp xs with
  | case1 x y rest ih =>
    rcases List.mem_cons.mp h with rfl | h
    · simp
    · simp [ih h]
  | case2 => exact absurd h List.not_mem_nil

instance : LawfulBEq Letter where
  eq_of_beq {a b} h := by cases a <;> cases b <;> first | rfl | exact nomatch h
  rfl {a} := by cases a <;> rfl

/-- A point both of whose coordinates are finite. -/
def Point.IsFinite [Scalar α] (p : Point α) : Prop :=
  Scalar.isFinite p.x = true ∧ Scalar.isFinite p.y = true

/-- Commands whose points are all finite. -/
def CommandsFinite [Scalar α] (commands : List (Command α)) : Prop :=
  ∀ p ∈ pointsOf commands, p.IsFinite

namespace Command

theorem length_coords (c : Command α) : c.coords.length = c.letter.arity := by
  cases c <;> rfl

theorem length_points (c : Command α) : c.points.length = c.letter.pointCount := by
  cases c <;> rfl

/-- The command of a letter with some points has just these. -/
theorem of_ofPoints? {l : Letter} {ps : List (Point α)} {c : Command α} (h : ofPoints? l ps = some c) :
    c.letter = l ∧ c.points = ps := by
  unfold ofPoints? at h
  split at h <;> first
    | obtain rfl := Option.some.inj h
      exact ⟨rfl, rfl⟩
    | exact absurd h (by simp)

/-- As many points as a letter takes make a command of it. -/
theorem exists_ofPoints? {l : Letter} {ps : List (Point α)} (h : ps.length = l.pointCount) :
    ∃ c, ofPoints? l ps = some c := by
  cases l with
  | move | line =>
    obtain ⟨p, rfl⟩ := List.length_eq_one_iff.mp h
    exact ⟨_, rfl⟩
  | cubic =>
    obtain ⟨a, b, p, rfl⟩ := List.length_eq_three.mp h
    exact ⟨_, rfl⟩
  | quadratic =>
    obtain ⟨a, p, rfl⟩ := List.length_eq_two.mp h
    exact ⟨_, rfl⟩
  | close =>
    obtain rfl := List.length_eq_zero_iff.mp h
    exact ⟨_, rfl⟩

@[simp] theorem letter_map (f : Point α → Point α) (c : Command α) : (c.map f).letter = c.letter := by
  cases c <;> rfl

@[simp] theorem points_map (f : Point α → Point α) (c : Command α) :
    (c.map f).points = c.points.map f := by
  cases c <;> rfl

variable [Scalar α]

theorem finiteCoords_eq_valid {xs ys : List α} (h : finiteCoords xs = .valid ys) :
    ys = xs ∧ ∀ x ∈ xs, Scalar.isFinite x = true := by
  have hall := Checked.items_eq_valid_iff.mp (Checked.within_eq_valid_iff.mp h)
  clear h
  induction hall with
  | nil => exact ⟨rfl, nofun⟩
  | @cons x y xs ys hx _ ih =>
    split_ifs at hx with hf
    · obtain rfl := Checked.valid.inj hx
      exact ⟨congrArg (x :: ·) ih.1, List.forall_mem_cons.mpr ⟨hf, ih.2⟩⟩
    · exact nomatch hx

omit [Scalar α] in
theorem of_ofCoords {l : Letter} {coords : List α} {c : Command α} (h : ofCoords l coords = .valid c) :
    c.letter = l ∧ c.points = pairUp coords := by
  unfold ofCoords at h
  split at h
  · next c' hc =>
    obtain rfl := Checked.valid.inj h
    split_ifs at hc
    exact of_ofPoints? hc
  · exact nomatch h

/-- A command of finite coordinates has finite points. -/
theorem isFinite_of_ofCoords {l : Letter} {coords : List α} {c : Command α}
    (hcoords : ∀ x ∈ coords, Scalar.isFinite x = true) (h : ofCoords l coords = .valid c) :
    ∀ p ∈ c.points, p.IsFinite := by
  intro p hp
  rw [(of_ofCoords h).2] at hp
  obtain ⟨hx, hy⟩ := mem_pairUp hp
  exact ⟨hcoords _ hx, hcoords _ hy⟩

/-- A checked command has the letter and the points it was made of. -/
theorem of_check {l : Letter} {ps : List (Point α)} {c : Command α}
    (h : check l (ps.flatMap fun p => [p.x, p.y]) = .valid c) : c.letter = l ∧ c.points = ps := by
  obtain ⟨coords, hf, h⟩ := Checked.refine_eq_valid_iff.mp h
  obtain ⟨rfl, -⟩ := finiteCoords_eq_valid hf
  rw [← pairUp_flatMap ps]
  exact of_ofCoords h

theorem isFinite_of_check {l : Letter} {coords : List α} {c : Command α} (h : check l coords = .valid c) :
    ∀ p ∈ c.points, p.IsFinite := by
  obtain ⟨coords', hf, hc⟩ := Checked.refine_eq_valid_iff.mp h
  obtain ⟨rfl, hfinite⟩ := finiteCoords_eq_valid hf
  exact isFinite_of_ofCoords hfinite hc

theorem isFinite_of_mem_coords {c : Command α} (h : ∀ p ∈ c.points, p.IsFinite) {x : α} (hx : x ∈ c.coords) :
    Scalar.isFinite x = true := by
  obtain ⟨p, hp, hx⟩ := List.mem_flatMap.mp hx
  obtain ⟨hpx, hpy⟩ := h p hp
  rcases List.mem_pair.mp hx with rfl | rfl
  · exact hpx
  · exact hpy

/-- A command whose points are finite passes its check. -/
theorem check_points {c : Command α} (h : ∀ p ∈ c.points, p.IsFinite) :
    check c.letter (c.points.flatMap fun p => [p.x, p.y]) = .valid c := by
  have hfinite : finiteCoords (c.points.flatMap fun p => [p.x, p.y]) = .valid _ :=
    Checked.within_eq_valid_iff.mpr <| Checked.items_eq_valid_iff.mpr <|
      List.forall₂_same.mpr fun x hx => by
        rw [if_pos (isFinite_of_mem_coords h hx)]
  unfold check
  rw [hfinite]
  cases c <;> rfl

end Command

/-- Finite points poured into commands that take just as many give the drawing they are the points of. -/
theorem rebuild_pointsOf [Scalar α] {commands drawn : List (Command α)}
    (hletters : drawn.map Command.letter = commands.map Command.letter)
    (h : ∀ p ∈ pointsOf drawn, p.IsFinite) : rebuild commands (pointsOf drawn) = .valid drawn := by
  induction drawn generalizing commands with
  | nil =>
    obtain rfl := List.map_eq_nil_iff.mp hletters.symm
    rfl
  | cons d rest ih =>
    cases commands with
    | nil => exact nomatch hletters
    | cons c cs =>
      obtain ⟨hletter, hrest⟩ := List.cons.inj hletters
      have hcount : d.points.length = c.letter.pointCount := hletter ▸ d.length_points
      have hcheck := Command.check_points (c := d) fun p hp =>
        h p (List.mem_flatMap.mpr ⟨d, List.mem_cons_self, hp⟩)
      have htail : rebuild cs (pointsOf rest) = .valid rest := by
        refine ih hrest fun p hp => h p ?_
        rw [pointsOf, List.flatMap_cons]
        exact List.mem_append_right _ hp
      have hsplit : pointsOf (d :: rest) = d.points ++ pointsOf rest := List.flatMap_cons
      rw [hletter] at hcheck
      unfold rebuild
      dsimp only
      rw [hsplit, List.take_left' hcount, List.drop_left' hcount, hcheck, htail]
      rfl

theorem pointsOf_append (xs ys : List (Command α)) : pointsOf (xs ++ ys) = pointsOf xs ++ pointsOf ys :=
  List.flatMap_append

theorem pointsOf_map (f : Point α → Point α) (commands : List (Command α)) :
    pointsOf (commands.map (Command.map f)) = (pointsOf commands).map f := by
  simp [pointsOf, List.flatMap_map, List.map_flatMap]

theorem letters_map (f : Point α → Point α) (commands : List (Command α)) :
    (commands.map (Command.map f)).map Command.letter = commands.map Command.letter := by
  simp [Function.comp_def]

/-- Rebuilding keeps the letters and pours in the points in order. -/
theorem rebuild_eq_valid [Scalar α] {commands drawn : List (Command α)} {ps : List (Point α)}
    (h : rebuild commands ps = .valid drawn) :
    drawn.map Command.letter = commands.map Command.letter ∧ pointsOf drawn <+: ps := by
  induction commands generalizing ps drawn with
  | nil =>
    obtain rfl := Checked.valid.inj h
    exact ⟨rfl, List.nil_prefix⟩
  | cons c rest ih =>
    obtain ⟨c', hc, h⟩ := Checked.refine_eq_valid_iff.mp h
    obtain ⟨rest', hr, h⟩ := Checked.refine_eq_valid_iff.mp h
    obtain rfl := Checked.valid.inj h
    obtain ⟨hl, hp⟩ := Command.of_check hc
    obtain ⟨hls, hps⟩ := ih hr
    refine ⟨by simp [hl, hls], ?_⟩
    have hprefix : c'.points ++ pointsOf rest' <+:
        ps.take c.letter.pointCount ++ ps.drop c.letter.pointCount := by
      rw [hp]
      exact (List.prefix_append_right_inj _).mpr hps
    simpa [pointsOf] using hprefix

theorem mem_of_rebuilt [Scalar α] {commands drawn : List (Command α)} {ps : List (Point α)}
    (h : rebuilt commands ps = .ok drawn) {p : Point α} (hp : p ∈ pointsOf drawn) : p ∈ ps :=
  (rebuild_eq_valid (Command.ofChecked_eq_ok_iff.mp h)).2.subset hp

theorem letter_rebuilt [Scalar α] {commands drawn : List (Command α)} {ps : List (Point α)}
    (h : rebuilt commands ps = .ok drawn) : drawn.map Command.letter = commands.map Command.letter :=
  (rebuild_eq_valid (Command.ofChecked_eq_ok_iff.mp h)).1

theorem length_pointsOf {commands drawn : List (Command α)}
    (h : drawn.map Command.letter = commands.map Command.letter) :
    (pointsOf drawn).length = (pointsOf commands).length := by
  have hcount (cs : List (Command α)) :
      (pointsOf cs).length = ((cs.map Command.letter).map Letter.pointCount).sum := by
    unfold pointsOf
    rw [List.length_flatMap, List.map_map]
    congr 1
    exact List.map_congr_left fun c _ => c.length_points
  rw [hcount, hcount, h]

/-- Commands rebuilt around as many points as they have take all of them. -/
theorem pointsOf_rebuilt_map [Scalar α] {commands drawn : List (Command α)} {f : Point α → Point α}
    (h : rebuilt commands ((pointsOf commands).map f) = .ok drawn) : pointsOf drawn = (pointsOf commands).map f := by
  obtain ⟨hletters, hprefix⟩ := rebuild_eq_valid (Command.ofChecked_eq_ok_iff.mp h)
  exact hprefix.eq_of_length (by rw [length_pointsOf hletters, List.length_map])

theorem finite_of_rebuild [Scalar α] {commands drawn : List (Command α)} {ps : List (Point α)}
    (h : rebuild commands ps = .valid drawn) : CommandsFinite drawn := by
  induction commands generalizing ps drawn with
  | nil =>
    obtain rfl := Checked.valid.inj h
    exact nofun
  | cons c rest ih =>
    obtain ⟨c', hc, h⟩ := Checked.refine_eq_valid_iff.mp h
    obtain ⟨rest', hr, h⟩ := Checked.refine_eq_valid_iff.mp h
    obtain rfl := Checked.valid.inj h
    intro p hp
    rcases List.mem_append.mp (show p ∈ c'.points ++ pointsOf rest' from hp) with hp | hp
    · exact Command.isFinite_of_check hc p hp
    · exact ih hr p hp

/-- Whatever is rebuilt is finite. -/
theorem finite_of_rebuilt [Scalar α] {commands drawn : List (Command α)} {ps : List (Point α)}
    (h : rebuilt commands ps = .ok drawn) : CommandsFinite drawn :=
  finite_of_rebuild (Command.ofChecked_eq_ok_iff.mp h)

/-! ## As many points as there is room for -/

theorem length_pointsOf_cons (c : Command α) (rest : List (Command α)) :
    (pointsOf (c :: rest)).length = c.letter.pointCount + (pointsOf rest).length := by
  rw [← c.length_points]
  exact List.length_append

/-- There are commands with given letters and given points, if the points are as many as the letters take. -/
theorem exists_poured {commands : List (Command α)} {ps : List (Point α)}
    (h : ps.length = (pointsOf commands).length) :
    ∃ drawn : List (Command α), drawn.map Command.letter = commands.map Command.letter ∧ pointsOf drawn = ps := by
  induction commands generalizing ps with
  | nil => exact ⟨[], rfl, (List.length_eq_zero_iff.mp h).symm⟩
  | cons c rest ih =>
    rw [length_pointsOf_cons] at h
    have htake : (ps.take c.letter.pointCount).length = c.letter.pointCount := by rw [List.length_take]; omega
    have hdrop : (ps.drop c.letter.pointCount).length = (pointsOf rest).length := by rw [List.length_drop]; omega
    obtain ⟨d, hd⟩ := Command.exists_ofPoints? htake
    obtain ⟨hletter, hpoints⟩ := Command.of_ofPoints? hd
    obtain ⟨drawn, hletters, hrest⟩ := ih hdrop
    refine ⟨d :: drawn, by rw [List.map_cons, List.map_cons, hletter, hletters], ?_⟩
    rw [pointsOf, List.flatMap_cons, hpoints]
    exact (congrArg _ hrest).trans (List.take_append_drop _ ps)

section

variable [Scalar α]

/-- Points that are just enough are all poured in, if they are finite. -/
theorem rebuilt_eq_ok_iff {commands drawn : List (Command α)} {ps : List (Point α)}
    (hcount : ps.length = (pointsOf commands).length) :
    rebuilt commands ps = .ok drawn ↔
      (∀ p ∈ ps, p.IsFinite) ∧ drawn.map Command.letter = commands.map Command.letter ∧ pointsOf drawn = ps := by
  constructor
  · intro h
    obtain ⟨hletters, hprefix⟩ := rebuild_eq_valid (Command.ofChecked_eq_ok_iff.mp h)
    have hpoints : pointsOf drawn = ps := hprefix.eq_of_length ((length_pointsOf hletters).trans hcount.symm)
    exact ⟨hpoints ▸ finite_of_rebuilt h, hletters, hpoints⟩
  · rintro ⟨hfinite, hletters, rfl⟩
    exact Command.ofChecked_eq_ok_iff.mpr (rebuild_pointsOf hletters hfinite)

theorem rebuilt_refused {commands : List (Command α)} {ps : List (Point α)}
    (h : ¬ ∃ drawn, rebuilt commands ps = .ok drawn) :
    ∃ complaints, rebuilt commands ps = .error (.record "PathCommand" complaints) := by
  unfold rebuilt at h ⊢
  cases hx : rebuild commands ps with
  | valid drawn => exact absurd ⟨drawn, hx ▸ rfl⟩ h
  | invalid complaints => exact ⟨complaints, rfl⟩

theorem rebuild_cons (c : Command α) (rest : List (Command α)) (ps : List (Point α)) :
    rebuild (c :: rest) ps =
      (Command.check c.letter ((ps.take c.letter.pointCount).flatMap fun p => [p.x, p.y])).refine fun c' =>
        (rebuild rest (ps.drop c.letter.pointCount)).refine fun rest' => .valid (c' :: rest') := rfl

/-- Commands take their own points and leave the rest to those behind them. -/
theorem rebuild_append {xs ys : List (Command α)} {ps qs : List (Point α)} (h : ps.length = (pointsOf xs).length) :
    rebuild (xs ++ ys) (ps ++ qs) =
      (rebuild xs ps).refine fun as => (rebuild ys qs).refine fun bs => .valid (as ++ bs) := by
  induction xs generalizing ps with
  | nil =>
    obtain rfl := List.length_eq_zero_iff.mp h
    show rebuild ys qs = (rebuild ys qs).refine .valid
    cases rebuild ys qs <;> rfl
  | cons x xs ih =>
    rw [length_pointsOf_cons] at h
    have hcount : x.letter.pointCount ≤ ps.length := by omega
    have hdrop : (ps.drop x.letter.pointCount).length = (pointsOf xs).length := by rw [List.length_drop]; omega
    rw [List.cons_append, rebuild_cons, rebuild_cons, List.take_append_of_le_length hcount,
      List.drop_append_of_le_length hcount, ih hdrop]
    simp only [Checked.refine_refine]
    rfl

theorem rebuilt_append {xs ys : List (Command α)} {ps qs : List (Point α)} (h : ps.length = (pointsOf xs).length) :
    rebuilt (xs ++ ys) (ps ++ qs) = do return (← rebuilt xs ps) ++ (← rebuilt ys qs) := by
  unfold rebuilt
  rw [rebuild_append h, Command.ofChecked_refine]
  simp only [Command.ofChecked_refine]
  rfl

/-- **Drawings put one behind the other** are rebuilt one by one. -/
theorem rebuilt_flatMap {pieces : List (List (Command α) × List (Point α))}
    (h : ∀ piece ∈ pieces, piece.2.length = (pointsOf piece.1).length) :
    rebuilt (pieces.flatMap Prod.fst) (pieces.flatMap Prod.snd) =
      List.flatten <$> pieces.mapM fun piece => rebuilt piece.1 piece.2 := by
  induction pieces with
  | nil => rfl
  | cons piece rest ih =>
    obtain ⟨hpiece, hrest⟩ := List.forall_mem_cons.mp h
    rw [List.flatMap_cons, List.flatMap_cons, rebuilt_append hpiece, ih hrest, List.mapM_cons]
    simp only [map_bind, bind_map_left, map_pure, List.flatten_cons]

/-- **Rebuilding undoes flattening and is undone by it.** Finite commands are rebuilt around their own points as they
were. Around as many other points, if these are finite, they are rebuilt with the letters and the numbers of
coordinates they had and have just these points; if not, the points are refused. Drawings that are put one behind the
other, each with as many points as it has, are rebuilt one by one. -/
theorem rebuilt_inverse (commands : List (Command α)) :
    (CommandsFinite commands → rebuilt commands (pointsOf commands) = .ok commands) ∧
      (∀ points : List (Point α), points.length = (pointsOf commands).length →
        ((∀ p ∈ points, p.IsFinite) → ∃ drawn, rebuilt commands points = .ok drawn ∧
          drawn.map Command.letter = commands.map Command.letter ∧
          drawn.map (fun c => c.coords.length) = commands.map (fun c => c.coords.length) ∧
          pointsOf drawn = points) ∧
        (¬ (∀ p ∈ points, p.IsFinite) →
          ∃ complaints, rebuilt commands points = .error (.record "PathCommand" complaints))) ∧
      ∀ pieces : List (List (Command α) × List (Point α)),
        (∀ piece ∈ pieces, piece.2.length = (pointsOf piece.1).length) →
          rebuilt (pieces.flatMap Prod.fst) (pieces.flatMap Prod.snd) =
            List.flatten <$> pieces.mapM fun piece => rebuilt piece.1 piece.2 := by
  refine ⟨fun h => ?_, fun points hcount => ⟨fun hfinite => ?_, fun hinfinite => ?_⟩, fun pieces => rebuilt_flatMap⟩
  · exact (rebuilt_eq_ok_iff rfl).mpr ⟨h, rfl, rfl⟩
  · obtain ⟨drawn, hletters, hpoints⟩ := exists_poured hcount
    have hcoords (cs : List (Command α)) :
        cs.map (fun c => c.coords.length) = (cs.map Command.letter).map Letter.arity := by
      rw [List.map_map]
      exact List.map_congr_left fun c _ => c.length_coords
    refine ⟨drawn, (rebuilt_eq_ok_iff hcount).mpr ⟨hfinite, hletters, hpoints⟩, hletters, ?_, hpoints⟩
    rw [hcoords, hcoords, hletters]
  · exact rebuilt_refused fun ⟨_, h⟩ => hinfinite ((rebuilt_eq_ok_iff hcount).mp h).1

end

/-- Commands of all five kinds, two of which take no points, at some distance from the origin. -/
def pennant (away : Float) : List (Command Float) := [
  .move ⟨away, 2⟩, .cubic ⟨3, 4⟩ ⟨5, 6⟩ ⟨7, away⟩, .close, .close, .line ⟨-0.0, 9⟩, .quadratic ⟨10, 11⟩ ⟨12, 13⟩]

theorem length_pointsOf_pennant (away away' : Float) :
    (pointsOf (pennant away)).length = (pointsOf (pennant away')).length := length_pointsOf rfl

theorem rebuilt_inverse_pennant :
    CommandsFinite (pennant 1) ∧ (∀ p ∈ pointsOf (pennant 8), p.IsFinite) ∧
      (¬ ∀ p ∈ pointsOf (pennant (1 / 0)), p.IsFinite) ∧
      rebuilt (pennant 1) (pointsOf (pennant 1)) = .ok (pennant 1) ∧
      (∃ drawn, rebuilt (pennant 1) (pointsOf (pennant 8)) = .ok drawn ∧ pointsOf drawn = pointsOf (pennant 8)) ∧
      (∃ complaints, rebuilt (pennant 1) (pointsOf (pennant (1 / 0))) = .error (.record "PathCommand" complaints)) ∧
      rebuilt (pennant 1 ++ pennant 1) (pointsOf (pennant 8) ++ pointsOf (pennant 2)) = do
        return (← rebuilt (pennant 1) (pointsOf (pennant 8))) ++ (← rebuilt (pennant 1) (pointsOf (pennant 2))) := by
  have hnear : CommandsFinite (pennant 1) := by
    unfold CommandsFinite Point.IsFinite
    decide +kernel
  have hmoved : ∀ p ∈ pointsOf (pennant 8), p.IsFinite := by
    unfold Point.IsFinite
    decide +kernel
  have hendless : ¬ ∀ p ∈ pointsOf (pennant (1 / 0)), p.IsFinite := by
    unfold Point.IsFinite
    decide +kernel
  obtain ⟨hsame, hpoured, hpieces⟩ := rebuilt_inverse (pennant 1)
  obtain ⟨drawn, hdrawn, -, -, hpoints⟩ := (hpoured _ (length_pointsOf_pennant 8 1)).1 hmoved
  refine ⟨hnear, hmoved, hendless, hsame hnear, ⟨drawn, hdrawn, hpoints⟩,
    (hpoured _ (length_pointsOf_pennant (1 / 0) 1)).2 hendless, ?_⟩
  have htwo := hpieces [(pennant 1, pointsOf (pennant 8)), (pennant 1, pointsOf (pennant 2))] <| by
    simp only [List.forall_mem_cons, List.not_mem_nil, false_implies, implies_true, and_true]
    exact ⟨length_pointsOf_pennant 8 1, length_pointsOf_pennant 2 1⟩
  simpa only [List.flatMap_cons, List.flatMap_nil, List.append_nil, List.mapM_cons, List.mapM_nil, map_bind, map_pure,
    bind_assoc, pure_bind, List.flatten_cons, List.flatten_nil] using htwo

/-- A point that is not finite cannot be poured into commands. -/
theorem rebuilt_refuses_endless :
    ¬ ∀ (commands : List (Command Float)) (points : List (Point Float)),
      points.length = (pointsOf commands).length → ∃ drawn, rebuilt commands points = .ok drawn ∧
        drawn.map Command.letter = commands.map Command.letter ∧ pointsOf drawn = points := by
  intro hpoured
  obtain ⟨drawn, h, -⟩ := hpoured [.move ⟨0, 0⟩] [⟨1 / 0, 0⟩] rfl
  have hrefused : (rebuilt [.move ⟨0, 0⟩] [(⟨1 / 0, 0⟩ : Point Float)]).toOption.isSome = false := by decide +kernel
  rw [h] at hrefused
  exact nomatch hrefused

end Drawing
