import Drawing.Document.Basic
import Drawing.Number.Exact
import Drawing.Proofs.Path.Points
import Mathlib.Algebra.Order.Ring.Rat
import Mathlib.Tactic.Linarith

/-!
# `Drawing/Proofs/Document/Inside.lean` — being on a canvas

A point is on a canvas if it lies between its sides or on them, and commands are if all their points are, control
points included. Clamping puts a point there, and shrinking about a point of the canvas keeps it there. Numbers are
exact here.
-/

namespace Drawing

/-- A point on a canvas of a size, or on its edges. -/
def Point.On (size : Nat × Nat) (p : Point Rat) : Prop :=
  0 ≤ p.x ∧ p.x ≤ size.1 ∧ 0 ≤ p.y ∧ p.y ≤ size.2

instance (size : Nat × Nat) (p : Point Rat) : Decidable (p.On size) := inferInstanceAs (Decidable (_ ∧ _ ∧ _ ∧ _))

/-- Commands all of whose points are on a canvas, control points included. -/
def CommandsOn (size : Nat × Nat) (commands : List (Command Rat)) : Prop :=
  ∀ p ∈ pointsOf commands, p.On size

theorem commandsOn_append {size : Nat × Nat} {xs ys : List (Command Rat)} :
    CommandsOn size (xs ++ ys) ↔ CommandsOn size xs ∧ CommandsOn size ys := by
  unfold CommandsOn
  rw [pointsOf_append, List.forall_mem_append]

theorem commandsOn_flatten {size : Nat × Nat} {parts : List (List (Command Rat))} :
    CommandsOn size parts.flatten ↔ ∀ part ∈ parts, CommandsOn size part := by
  induction parts with
  | nil => exact iff_of_true nofun nofun
  | cons part parts ih => rw [List.flatten_cons, commandsOn_append, ih, List.forall_mem_cons]

/-- The points of a document are the points of its paths. -/
theorem Document.forall_mem_points_iff {α : Type} {d : Document α} {P : Point α → Prop} :
    (∀ q ∈ pointsOf d.commands, P q) ↔ ∀ l ∈ d.layers, ∀ p ∈ l.paths, ∀ q ∈ pointsOf p.commands, P q := by
  constructor
  · intro h l hl p hp q hq
    obtain ⟨c, hc, hq⟩ := List.mem_flatMap.mp hq
    exact h q (List.mem_flatMap.mpr
      ⟨c, List.mem_flatMap.mpr ⟨l, hl, List.mem_flatMap.mpr ⟨p, hp, hc⟩⟩, hq⟩)
  · intro h q hq
    obtain ⟨c, hc, hq⟩ := List.mem_flatMap.mp hq
    obtain ⟨l, hl, hc⟩ := List.mem_flatMap.mp hc
    obtain ⟨p, hp, hc⟩ := List.mem_flatMap.mp hc
    exact h l hl p hp q (List.mem_flatMap.mpr ⟨c, hc, hq⟩)

theorem Document.commandsOn_iff {size : Nat × Nat} {d : Document Rat} :
    CommandsOn size d.commands ↔ ∀ l ∈ d.layers, ∀ p ∈ l.paths, CommandsOn size p.commands :=
  forall_mem_points_iff

theorem clamp_on (c : Canvas Rat) (p : Point Rat) : (p.clamp c.w c.h).On (c.width, c.height) :=
  ⟨Scalar.le_clamp (Nat.cast_nonneg c.width) p.x, Scalar.clamp_le _ _ p.x,
    Scalar.le_clamp (Nat.cast_nonneg c.height) p.y, Scalar.clamp_le _ _ p.y⟩

/-- Shrinking about a point of the canvas stays on it. -/
theorem scaleAbout_on {size : Nat × Nat} {p c : Point Rat} {factor : Rat} (hp : p.On size)
    (hc : c.On size) (h0 : 0 ≤ factor) (h1 : factor ≤ 1) : (p.scaleAbout factor c.x c.y).On size := by
  have hmix {x m n : Rat} (hx0 : 0 ≤ x) (hx : x ≤ n) (hm0 : 0 ≤ m) (hm : m ≤ n) :
      0 ≤ (x - m) * factor + m ∧ (x - m) * factor + m ≤ n := by
    constructor <;> nlinarith
  exact ⟨(hmix hp.1 hp.2.1 hc.1 hc.2.1).1, (hmix hp.1 hp.2.1 hc.1 hc.2.1).2,
    hmix hp.2.2.1 hp.2.2.2 hc.2.2.1 hc.2.2.2⟩

end Drawing
