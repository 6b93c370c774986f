import Drawing.Proofs.Document.Canvas
import Drawing.Proofs.Document.Inside
import Drawing.Proofs.Number.Exact
import Drawing.Proofs.Path.Points
import Mathlib.Tactic.Positivity

/-!
# `Drawing/Proofs/Viewport/Fit.lean` — framing keeps a drawing on the canvas

Framing goes one of three ways: it shows the whole canvas, it frames the commands as they are, or it scales
content that is too large about its middle first. What framing does is told by cases on these. The middle of
points on a canvas is on it too, so nothing is pushed over an edge.
-/

namespace Drawing

/-- A fold that chooses between two numbers comes to one of those it started from. -/
theorem foldl_choice_mem {f : Rat → Rat → Rat} (hf : ∀ a b, f a b = a ∨ f a b = b) (a : Rat)
    (xs : List Rat) : xs.foldl f a ∈ a :: xs := by
  induction xs generalizing a with
  | nil => exact List.mem_singleton_self a
  | cons x xs ih =>
    rw [List.foldl_cons]
    rcases List.mem_cons.mp (ih (f a x)) with h | h
    · rcases hf a x with hfa | hfx
      · rw [h, hfa]
        exact List.mem_cons_self
      · rw [h, hfx]
        exact List.mem_cons_of_mem _ List.mem_cons_self
    · exact List.mem_cons_of_mem _ (List.mem_cons_of_mem _ h)

theorem lower_choice (a b : Rat) : Scalar.lower a b = a ∨ Scalar.lower a b = b := by
  show Scalar.least a b = a ∨ Scalar.least a b = b
  unfold Scalar.least
  split_ifs
  · exact .inr rfl
  · exact .inl rfl

theorem upper_choice (a b : Rat) : Scalar.upper a b = a ∨ Scalar.upper a b = b := by
  show Scalar.greatest a b = a ∨ Scalar.greatest a b = b
  unfold Scalar.greatest
  split_ifs
  · exact .inr rfl
  · exact .inl rfl

/-- The middle of points on a canvas is on it too. -/
theorem middle_on {size : Nat × Nat} {points : List (Point Rat)} (hne : points ≠ [])
    (h : ∀ p ∈ points, p.On size) : (extent points).middle.On size := by
  obtain ⟨p, ps, rfl⟩ := List.exists_cons_of_ne_nil hne
  have hx {x : Rat} (hx : x ∈ p.x :: ps.map Point.x) : 0 ≤ x ∧ x ≤ size.1 := by
    obtain ⟨q, hq, rfl⟩ := List.mem_map.mp (show x ∈ (p :: ps).map Point.x from hx)
    exact ⟨(h q hq).1, (h q hq).2.1⟩
  have hy {y : Rat} (hy : y ∈ p.y :: ps.map Point.y) : 0 ≤ y ∧ y ≤ size.2 := by
    obtain ⟨q, hq, rfl⟩ := List.mem_map.mp (show y ∈ (p :: ps).map Point.y from hy)
    exact (h q hq).2.2
  obtain ⟨hl0, hl⟩ := hx (foldl_choice_mem lower_choice p.x (ps.map Point.x))
  obtain ⟨hr0, hr⟩ := hx (foldl_choice_mem upper_choice p.x (ps.map Point.x))
  obtain ⟨ht0, ht⟩ := hy (foldl_choice_mem lower_choice p.y (ps.map Point.y))
  obtain ⟨hb0, hb⟩ := hy (foldl_choice_mem upper_choice p.y (ps.map Point.y))
  have hmid {a b n : Rat} (ha0 : 0 ≤ a) (ha : a ≤ n) (hb0 : 0 ≤ b) (hb : b ≤ n) :
      0 ≤ (a + b) / 2 ∧ (a + b) / 2 ≤ n := by
    constructor <;> linarith
  exact ⟨(hmid hl0 hl hr0 hr).1, (hmid hl0 hl hr0 hr).2, hmid ht0 ht hb0 hb⟩

/-! ## How far content is scaled down -/

namespace Extent

variable (e : Extent Rat) (size : Nat × Nat)

/-- Content whose aspect differs from that of a canvas by more than a half. -/
def IsFar : Prop := 0.5 < |e.width / e.height - size.1 / size.2|

/-- The factor by which content comes to fill four fifths of a canvas in one direction, and no more in the other. -/
def fill : Rat := min (size.1 * 0.8 / e.width) (size.2 * 0.8 / e.height)

instance : Decidable (e.IsFar size) := inferInstanceAs (Decidable (_ < _))

variable {e size}

theorem shrinking?_exact (hsize : 0 < size.2) : e.shrinking? (.whole size.1) (.whole size.2) =
    .ok (if e.IsFar size ∧ e.fill size < 1 then some (e.fill size) else none) := by
  have habs (q : Rat) : Scalar.abs q = |q| := by
    unfold Scalar.abs
    by_cases hq : q < 0
    · rw [if_pos ((Scalar.isNegative_exact q).mpr hq), abs_of_neg hq]
    · rw [if_neg (mt (Scalar.isNegative_exact q).mp hq), abs_of_nonneg (not_lt.mp hq)]
  have hfill : e.fillFactor (Numeral.whole size.1 : Numeral Rat).value (Numeral.whole size.2 : Numeral Rat).value =
      e.fill size := Scalar.least_exact _ _
  have hfar : e.isFarFrom ((size.1 : Rat) / size.2) = decide (e.IsFar size) := by
    unfold isFarFrom
    rw [habs]
    rfl
  unfold shrinking?
  rw [Numeral.quotient_exact hsize, hfill]
  show Except.ok (if (e.isFarFrom _ && decide (e.fill size < 1)) = true then _ else _) = _
  rw [hfar]
  exact congrArg Except.ok (if_congr (by rw [Bool.and_eq_true, decide_eq_true_iff, decide_eq_true_iff]) rfl rfl)

theorem shrinking?_eq_some {factor : Rat} (hsize : 0 < size.2)
    (h : e.shrinking? (.whole size.1) (.whole size.2) = .ok (some factor)) :
    e.IsFar size ∧ factor = e.fill size ∧ factor < 1 := by
  have h := Except.ok.inj ((shrinking?_exact hsize).symm.trans h)
  split_ifs at h with hshrunk
  obtain rfl := Option.some.inj h
  exact ⟨hshrunk.1, rfl, hshrunk.2⟩

theorem fill_pos (hw : 0 < e.width) (hh : 0 < e.height) (hsize : 0 < size.1 ∧ 0 < size.2) : 0 < e.fill size := by
  have hwidth : (0 : Rat) < size.1 := Nat.cast_pos.mpr hsize.1
  have hheight : (0 : Rat) < size.2 := Nat.cast_pos.mpr hsize.2
  exact lt_min (by positivity) (by positivity)

theorem fill_mul_le (hw : 0 < e.width) (hh : 0 < e.height) :
    e.fill size * e.width ≤ size.1 * 0.8 ∧ e.fill size * e.height ≤ size.2 * 0.8 :=
  ⟨(le_div_iff₀ hw).mp (min_le_left _ _), (le_div_iff₀ hh).mp (min_le_right _ _)⟩

end Extent

/-! ## The ways out of framing -/

section

variable {α : Type} [Scalar α]

/-- Content with an area: something is drawn, and it is not flat. -/
structure HasArea (points : List (Point α)) : Prop where
  ne_nil : points ≠ []
  width : ¬ (extent points).width ≤ Scalar.zero
  height : ¬ (extent points).height ≤ Scalar.zero

theorem pointsOf_shrunk {commands drawn : List (Command α)} {factor : α}
    (h : rebuilt commands (shrink (pointsOf commands) factor) = .ok drawn) :
    pointsOf drawn = shrink (pointsOf commands) factor := pointsOf_rebuilt_map h

/-- The ways in which commands are framed: shown on the whole canvas, framed as they are, or scaled down first. -/
inductive Framed (commands : List (Command α)) (width height padding : Numeral α) : Framing α → Prop
  | whole {w h : α} (hwidth : width.toScalar = .ok w) (hheight : height.toScalar = .ok h)
      (hflat : ¬ HasArea (pointsOf commands)) :
      Framed commands width height padding ⟨⟨Scalar.zero, Scalar.zero, w, h⟩, commands, none⟩
  | kept {share : α} (harea : HasArea (pointsOf commands)) (hshare : padding.toScalar = .ok share) :
      Framed commands width height padding
        ⟨(extent (pointsOf commands)).padded ((extent (pointsOf commands)).padding share), commands, none⟩
  | shrunk {factor share : α} {drawn : List (Command α)} (harea : HasArea (pointsOf commands))
      (hfactor : (extent (pointsOf commands)).shrinking? width height = .ok (some factor))
      (hdrawn : rebuilt commands (shrink (pointsOf commands) factor) = .ok drawn)
      (hshare : padding.toScalar = .ok share) :
      Framed commands width height padding
        ⟨(extent (shrink (pointsOf commands) factor)).padded
          ((extent (shrink (pointsOf commands) factor)).padding share), drawn, some factor⟩

/-- **Framing** goes one of the three ways. -/
theorem framed_of_frame {commands : List (Command α)} {width height padding : Numeral α} {framing : Framing α}
    (h : frame commands width height padding = .ok framing) : Framed commands width height padding framing := by
  obtain ⟨w, hwidth, h⟩ := bind_eq_ok_iff.mp h
  obtain ⟨height', hheight, h⟩ := bind_eq_ok_iff.mp h
  dsimp only at h
  split_ifs at h with hwhole
  · obtain rfl := pure_eq_ok_iff.mp h
    rw [Bool.or_eq_true, Bool.or_eq_true, decide_eq_true_iff, decide_eq_true_iff, List.isEmpty_iff] at hwhole
    refine .whole hwidth hheight fun harea => ?_
    exact hwhole.elim (Or.rec harea.ne_nil harea.width) harea.height
  · have harea : HasArea (pointsOf commands) := by
      rw [Bool.or_eq_true, Bool.or_eq_true, decide_eq_true_iff, decide_eq_true_iff, List.isEmpty_iff, not_or,
        not_or] at hwhole
      exact ⟨hwhole.1.1, hwhole.1.2, hwhole.2⟩
    obtain ⟨factor?, hfactor, h⟩ := bind_eq_ok_iff.mp h
    cases factor? with
    | none =>
      obtain ⟨share, hshare, h⟩ := bind_eq_ok_iff.mp h
      obtain rfl := pure_eq_ok_iff.mp h
      exact .kept harea hshare
    | some factor =>
      obtain ⟨drawn, hdrawn, h⟩ := bind_eq_ok_iff.mp h
      obtain ⟨share, hshare, h⟩ := bind_eq_ok_iff.mp h
      obtain rfl := pure_eq_ok_iff.mp h
      exact .shrunk harea hfactor hdrawn hshare

end

theorem HasArea.pos {points : List (Point Rat)} (h : HasArea points) :
    0 < (extent points).width ∧ 0 < (extent points).height := ⟨not_le.mp h.width, not_le.mp h.height⟩

theorem frame_on {size : Nat × Nat} (hsize : 0 < size.1 ∧ 0 < size.2) {commands : List (Command Rat)}
    {padding : Numeral Rat} {framing : Framing Rat} (hon : CommandsOn size commands)
    (h : frame commands (.whole size.1) (.whole size.2) padding = .ok framing) :
    CommandsOn size framing.commands := by
  cases framed_of_frame h with
  | whole => exact hon
  | kept => exact hon
  | shrunk harea hfactor hdrawn =>
    obtain ⟨-, rfl, hle⟩ := Extent.shrinking?_eq_some hsize.2 hfactor
    intro q hq
    obtain ⟨p, hp, rfl⟩ := List.mem_map.mp (mem_of_rebuilt hdrawn hq)
    exact scaleAbout_on (hon p hp) (middle_on harea.ne_nil hon) (Extent.fill_pos harea.pos.1 harea.pos.2 hsize).le
      hle.le

/-! ## Dealing out -/

section

variable {α : Type}

/-- Dealing out commands deals out only these. -/
theorem mem_of_dealToPaths (paths : List (ShapePath α)) (commands : List (Command α)) :
    (∀ p ∈ (dealToPaths paths commands).1, ∀ c ∈ p.commands, c ∈ commands) ∧
      ∀ c ∈ (dealToPaths paths commands).2, c ∈ commands := by
  induction paths generalizing commands with
  | nil => simp [dealToPaths]
  | cons p rest ih =>
    obtain ⟨hdealt, hleft⟩ := ih (commands.drop p.commands.length)
    simp only [dealToPaths]
    refine ⟨fun q hq c hc => ?_, fun c hc => List.mem_of_mem_drop (hleft c hc)⟩
    rcases List.mem_cons.mp hq with rfl | hq
    · exact List.mem_of_mem_take hc
    · exact List.mem_of_mem_drop (hdealt q hq c hc)

theorem mem_of_dealToLayers {layers : List (Layer α)} {commands : List (Command α)} {l : Layer α}
    (hl : l ∈ dealToLayers layers commands) {p : ShapePath α} (hp : p ∈ l.paths) {c : Command α}
    (hc : c ∈ p.commands) : c ∈ commands := by
  induction layers generalizing commands with
  | nil => exact absurd hl (by simp [dealToLayers])
  | cons l₀ rest ih =>
    obtain ⟨hdealt, hleft⟩ := mem_of_dealToPaths l₀.paths commands
    simp only [dealToLayers] at hl
    rcases List.mem_cons.mp hl with rfl | hl
    · exact hdealt p hp c hc
    · exact hleft c (ih hl)

/-- Paths take the commands from the front, as many as they had, and leave the others. -/
theorem commands_dealToPaths (paths : List (ShapePath α)) (commands : List (Command α)) :
    (dealToPaths paths commands).1.flatMap ShapePath.commands =
        commands.take (paths.flatMap ShapePath.commands).length ∧
      (dealToPaths paths commands).2 = commands.drop (paths.flatMap ShapePath.commands).length := by
  induction paths generalizing commands with
  | nil => exact ⟨rfl, rfl⟩
  | cons p rest ih =>
    obtain ⟨hdealt, hleft⟩ := ih (commands.drop p.commands.length)
    simp only [dealToPaths, List.flatMap_cons, List.length_append, hdealt, hleft, List.drop_drop, List.take_add]
    exact ⟨rfl, trivial⟩

theorem commands_dealToLayers {layers : List (Layer α)} {commands : List (Command α)}
    (h : commands.length = (layers.flatMap Layer.commands).length) :
    (dealToLayers layers commands).flatMap Layer.commands = commands := by
  induction layers generalizing commands with
  | nil => exact (List.length_eq_zero_iff.mp h).symm
  | cons l rest ih =>
    obtain ⟨hdealt, hleft⟩ := commands_dealToPaths l.paths commands
    have hrest : (commands.drop l.commands.length).length = (rest.flatMap Layer.commands).length := by
      rw [List.length_drop, h, List.flatMap_cons, List.length_append, Nat.add_sub_cancel_left]
    have hl : (l.withPaths (dealToPaths l.paths commands).1).commands = commands.take l.commands.length := hdealt
    simp only [dealToLayers, List.flatMap_cons]
    rw [hl, hleft]
    show commands.take l.commands.length ++
      (dealToLayers rest (commands.drop l.commands.length)).flatMap Layer.commands = commands
    rw [ih hrest, List.take_append_drop]

end

theorem Document.fit_on {d f : Document Rat} {padding : Numeral Rat} {framing : Framing Rat}
    (hon : CommandsOn d.size d.commands) (h : d.fit padding = .ok (f, framing)) :
    CommandsOn d.size f.commands := by
  unfold fit at h
  obtain ⟨framing', hframe, h⟩ := bind_eq_ok_iff.mp h
  obtain ⟨rfl, -⟩ := Prod.mk.inj (pure_eq_ok_iff.mp h)
  have hframed := frame_on ⟨d.canvas.width_pos, d.canvas.height_pos⟩ hon hframe
  refine commandsOn_iff.mpr fun l hl p hp q hq => ?_
  obtain ⟨c, hc, hq⟩ := List.mem_flatMap.mp hq
  exact hframed q (List.mem_flatMap.mpr ⟨c, mem_of_dealToLayers hl hp hc, hq⟩)

end Drawing
