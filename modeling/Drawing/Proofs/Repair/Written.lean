import Drawing.Proofs.Fallible
import Drawing.Proofs.Path.Points
import Drawing.Repair.Commands

/-!
# `Drawing/Proofs/Repair/Written.lean` — written commands

An item writes a command if it has a letter under one of two names and numbers, which may be left out. Everything
that counts as a number is one here, texts and truth values too. What is read of an item is just this. A command that
is absolute already is written with one group of numbers, and stands for itself.
-/

namespace Drawing

deriving instance DecidableEq for WrittenCommand

/-! ## Items -/

section

variable {α : Type} [Scalar α]

/-- The numbers of some values are read if each of them is. -/
theorem Json.numbers?_eq_some_iff {vs : List (Json α)} {xs : List α} :
    Json.numbers? vs = .ok (some xs) ↔ List.Forall₂ (fun v x => v.toNumber = .ok x) vs xs := by
  induction vs generalizing xs with
  | nil => cases xs <;> simp [Json.numbers?]
  | cons v vs ih =>
    rw [Json.numbers?]
    cases hv : v.toNumber with
    | ok x =>
      dsimp only
      constructor
      · intro h
        obtain ⟨read, hread, h⟩ := bind_eq_ok_iff.mp h
        obtain ⟨ys, rfl, rfl⟩ := Option.map_eq_some_iff.mp (pure_eq_ok_iff.mp h)
        exact .cons hv (ih.mp hread)
      · rintro (_ | ⟨hx, hxs⟩)
        obtain rfl := Except.ok.inj (hv.symm.trans hx)
        exact bind_eq_ok_iff.mpr ⟨_, ih.mpr hxs, rfl⟩
    | error fault =>
      constructor
      · intro h
        split at h
        · next hok => exact nomatch hok
        · exact nomatch h
        · exact nomatch h
      · rintro (_ | ⟨hx, -⟩)
        exact nomatch hv.symm.trans hx

/-- An item that writes a command. -/
def Writes (item : Json α) (w : WrittenCommand α) : Prop :=
  ∃ fields coords, item = .obj fields ∧
    (Table.get? fields "cmd").or (Table.get? fields "command") = some (.str (String.singleton w.letter)) ∧
    (Table.get? fields "coords").getD (.arr []) = .arr coords ∧
    List.Forall₂ (fun v x => v.toNumber = .ok x) coords w.numbers ∧ ∀ x ∈ w.numbers, Scalar.isFinite x = true

/-- The letter that something written is, if it is one. -/
def letterOf? (written : Option (Json α)) : Option Char :=
  match written with
  | some (.str s) =>
    match s.toList with
    | [c] => some c
    | _ => none
  | _ => none

omit [Scalar α] in
/-- Whichever name the letter stands under, it is read in the same way. -/
theorem itemLetter?_eq (fields : Fields α) :
    itemLetter? fields = letterOf? ((Table.get? fields "cmd").or (Table.get? fields "command")) := by
  unfold itemLetter?
  cases Table.get? fields "cmd" <;> rfl

omit [Scalar α] in
theorem letterOf?_eq_some_iff {written : Option (Json α)} {c : Char} :
    letterOf? written = some c ↔ written = some (.str (String.singleton c)) := by
  constructor
  · intro h
    unfold letterOf? at h
    split at h
    · next s =>
      split at h
      · next d hd =>
        obtain rfl := Option.some.inj h
        rw [← String.ofList_toList (s := s), hd]
        rfl
      · exact nomatch h
    · exact nomatch h
  · rintro rfl
    simp [letterOf?]

omit [Scalar α] in
theorem itemLetter?_eq_some_iff {fields : Fields α} {c : Char} :
    itemLetter? fields = some c ↔
      (Table.get? fields "cmd").or (Table.get? fields "command") = some (.str (String.singleton c)) := by
  rw [itemLetter?_eq, letterOf?_eq_some_iff]

theorem itemNumbers?_eq_some_iff {fields : Fields α} {xs : List α} :
    itemNumbers? fields = .ok (some xs) ↔
      ∃ coords, (Table.get? fields "coords").getD (.arr []) = .arr coords ∧
        List.Forall₂ (fun v x => v.toNumber = .ok x) coords xs ∧ ∀ x ∈ xs, Scalar.isFinite x = true := by
  unfold itemNumbers?
  split
  · next hnone =>
    rw [hnone]
    constructor
    · intro h
      obtain rfl := Option.some.inj (Except.ok.inj h)
      exact ⟨[], rfl, .nil, nofun⟩
    · rintro ⟨_, ⟨⟩, hread, -⟩
      rw [List.forall₂_nil_left_iff.mp hread]
  · next items hitems =>
    rw [hitems]
    constructor
    · intro h
      obtain ⟨numbers, hnumbers, h⟩ := bind_eq_ok_iff.mp h
      obtain ⟨rfl, hfinite⟩ := Option.filter_eq_some_iff.mp (pure_eq_ok_iff.mp h)
      have hread := Json.numbers?_eq_some_iff.mp (mapError_eq_ok_iff.mp hnumbers)
      exact ⟨items, rfl, hread, List.all_eq_true.mp hfinite⟩
    · rintro ⟨_, ⟨⟩, hread, hfinite⟩
      refine bind_eq_ok_iff.mpr ⟨some xs, mapError_eq_ok_iff.mpr (Json.numbers?_eq_some_iff.mpr hread), ?_⟩
      exact pure_eq_ok_iff.mpr (Option.filter_eq_some_iff.mpr ⟨rfl, List.all_eq_true.mpr hfinite⟩)
  · next v hother hv =>
    rw [hv]
    refine ⟨nofun, ?_⟩
    rintro ⟨coords, rfl, -⟩
    exact absurd rfl (hother coords)

theorem writtenCommand?_eq_some_iff {item : Json α} {w : WrittenCommand α} :
    writtenCommand? item = .ok (some w) ↔ Writes item w := by
  obtain ⟨letter, numbers⟩ := w
  unfold writtenCommand?
  split
  · next fields =>
    cases hletter : itemLetter? fields with
    | none =>
      refine ⟨nofun, ?_⟩
      rintro ⟨_, coords, ⟨⟩, hcmd, -⟩
      exact nomatch hletter.symm.trans (itemLetter?_eq_some_iff.mpr hcmd)
    | some c =>
      constructor
      · intro h
        obtain ⟨read, hread, h⟩ := bind_eq_ok_iff.mp h
        obtain ⟨xs, rfl, hw⟩ := Option.map_eq_some_iff.mp (pure_eq_ok_iff.mp h)
        obtain ⟨rfl, rfl⟩ := WrittenCommand.mk.inj hw
        obtain ⟨coords, hcoords, hall⟩ := itemNumbers?_eq_some_iff.mp hread
        exact ⟨fields, coords, rfl, itemLetter?_eq_some_iff.mp hletter, hcoords, hall⟩
      · rintro ⟨_, coords, ⟨⟩, hcmd, hcoords, hall⟩
        obtain rfl := Option.some.inj (hletter.symm.trans (itemLetter?_eq_some_iff.mpr hcmd))
        exact bind_eq_ok_iff.mpr ⟨_, itemNumbers?_eq_some_iff.mpr ⟨coords, hcoords, hall⟩, rfl⟩
  · next hother =>
    refine ⟨nofun, ?_⟩
    rintro ⟨fields, _, rfl, -⟩
    exact absurd rfl (hother fields)

end

/-! ## Lists of items -/

section

variable {α : Type} [Scalar α] [Trig α]

theorem commandItems_of_list (path : String) {fields : Fields α} {items : List (Json α)}
    (hitems : Table.get? fields "commands" = some (.arr items)) (hne : items ≠ []) :
    commandItems path fields = .same items := by
  have htruthy : (Json.arr items).isTruthy = true := by
    cases items with
    | nil => exact absurd rfl hne
    | cons => rfl
  unfold commandItems
  rw [hitems]
  dsimp only [Option.getD_some]
  rw [htruthy]

/-- The items of a path are those of its list of commands, or there are none, or path data was converted to them,
which is told. -/
theorem commandItems_cases (path : String) (fields : Fields α) :
    (∃ items, Table.get? fields "commands" = some (.arr items) ∧ commandItems path fields = .same items) ∨
      commandItems path fields = .same [] ∨
      ∃ commands : List (Command α), commandItems path fields =
        ⟨commands.map (Command.json .stored), [.convertedData path]⟩ := by
  unfold commandItems
  dsimp only
  split
  · split
    · next commands _ => exact .inr (.inr ⟨commands, rfl⟩)
    · exact .inr (.inl rfl)
  · next items hitems _ =>
    refine .inl ⟨items, ?_, rfl⟩
    cases hv : Table.get? fields "commands" with
    | none =>
      rw [hv] at hitems
      exact nomatch hitems
    | some v =>
      rw [hv] at hitems
      exact congrArg some hitems
  · exact .inr (.inl rfl)

end

/-! ## Groups of points -/

section

variable {α : Type}

/-- The coordinates of some points in a row. -/
def coordinatesOf (ps : List (Point α)) : List α := ps.flatMap fun p => [p.x, p.y]

theorem coordinatesOf_append (ps qs : List (Point α)) :
    coordinatesOf (ps ++ qs) = coordinatesOf ps ++ coordinatesOf qs := List.flatMap_append

theorem pointGroups_append {size : Nat} (hsize : 0 < size) {g : List (Point α)} (hg : g.length = size)
    (ps : List (Point α)) : pointGroups size (g ++ ps) = g :: pointGroups size ps := by
  have hcount : (g ++ ps).length / size = ps.length / size + 1 := by
    rw [List.length_append, hg, Nat.add_comm, Nat.add_div_right _ hsize]
  unfold pointGroups
  rw [hcount, List.range_succ_eq_map, List.map_cons, List.map_map]
  refine congrArg₂ _ ?_ (List.map_congr_left fun i _ => ?_)
  · simp [List.take_left' hg]
  · have hstart : (i + 1) * size = g.length + i * size := by rw [hg, Nat.succ_mul, Nat.add_comm]
    simp only [Function.comp_apply, Nat.succ_eq_add_one]
    rw [hstart, List.drop_length_add_append]

theorem pointGroups_flatten {size : Nat} (hsize : 0 < size) {gs : List (List (Point α))}
    (h : ∀ g ∈ gs, g.length = size) : pointGroups size gs.flatten = gs := by
  induction gs with
  | nil => simp [pointGroups]
  | cons g gs ih =>
    obtain ⟨hg, hgs⟩ := List.forall_mem_cons.mp h
    rw [List.flatten_cons, pointGroups_append hsize hg, ih hgs]

/-- Full groups of numbers are groups of points. -/
theorem exists_groups {size : Nat} (n : Nat) {xs : List α} (h : xs.length = 2 * size * n) :
    ∃ gs : List (List (Point α)), (∀ g ∈ gs, g.length = size) ∧ xs = coordinatesOf gs.flatten := by
  have hpoints (k : Nat) {xs : List α} (h : xs.length = 2 * k) :
      ∃ ps : List (Point α), ps.length = k ∧ xs = coordinatesOf ps := by
    induction k generalizing xs with
    | zero => exact ⟨[], rfl, List.length_eq_zero_iff.mp h⟩
    | succ k ih =>
      match xs, h with
      | x :: y :: rest, h =>
        have hrest : rest.length = 2 * k := by simp at h; omega
        obtain ⟨ps, hlength, rfl⟩ := ih hrest
        exact ⟨⟨x, y⟩ :: ps, congrArg (· + 1) hlength, rfl⟩
  induction n generalizing xs with
  | zero => exact ⟨[], nofun, List.length_eq_zero_iff.mp h⟩
  | succ n ih =>
    rw [Nat.mul_succ] at h
    have htake : (xs.take (2 * size)).length = 2 * size := by simp; omega
    have hdrop : (xs.drop (2 * size)).length = 2 * size * n := by simp; omega
    obtain ⟨g, hg, hfirst⟩ := hpoints size htake
    obtain ⟨gs, hgs, hrest⟩ := ih hdrop
    refine ⟨g :: gs, List.forall_mem_cons.mpr ⟨hg, hgs⟩, ?_⟩
    rw [List.flatten_cons, coordinatesOf_append, ← hfirst, ← hrest, List.take_append_drop]

end

/-! ## Absolute commands -/

section

variable {α : Type}

/-- An absolute command as it is written. -/
def Command.written (c : Command α) : WrittenCommand α := ⟨c.letter.char, c.coords⟩

theorem Letter.pointCount_pos {l : Letter} (h : l ≠ .close) : 0 < l.pointCount := by
  cases l with
  | close => exact absurd rfl h
  | move | line | cubic | quadratic => decide

theorem Command.pointGroups_coords {c : Command α} (h : c.letter ≠ .close) :
    pointGroups c.letter.pointCount (pairUp c.coords) = [c.points] := by
  have hcount : c.points.length = c.letter.pointCount := by cases c <;> rfl
  have hall : ∀ g ∈ [c.points], g.length = c.letter.pointCount := by simpa using hcount
  have hone := pointGroups_flatten (Letter.pointCount_pos h) hall
  rw [List.flatten_singleton] at hone
  rw [coords, pairUp_flatMap, hone]

variable [Scalar α]

/-- A command of finite coordinates is written by its data. -/
theorem Command.writes_written {c : Command α} (h : ∀ x ∈ c.coords, Scalar.isFinite x = true) :
    Writes (c.json .stored) c.written := by
  refine ⟨_, c.coords.map .ofReal, rfl, rfl, rfl, ?_, h⟩
  exact List.forall₂_map_left_iff.mpr (List.forall₂_same.mpr fun x _ => rfl)

/-- An absolute command stands for itself. -/
theorem Pen.carryOut_written (pen : Pen α) (path : String) (c : Command α) :
    ∃ after, pen.carryOut path c.written = ([c], [], after) := by
  have hdraw (hc : c.letter ≠ .close) : ∃ after, pen.drawLetter path c.letter c.written = ([c], [], after) := by
    unfold drawLetter
    dsimp only [Command.written]
    rw [Command.pointGroups_coords hc]
    cases c with
    | close => exact absurd rfl hc
    | move | line | cubic | quadratic => exact ⟨_, rfl⟩
  cases c with
  | close => exact ⟨_, rfl⟩
  | move | line | cubic | quadratic => exact hdraw nofun

end

end Drawing
