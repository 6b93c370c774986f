import Drawing.Proofs.Checked
import Drawing.Proofs.Fallible
import Drawing.Proofs.Number.Exact
import Drawing.Proofs.Path.Points
import Drawing.Sketch.Template

/-!
# `Drawing/Proofs/Sketch/Shape.lean` — shapes that can always be drawn

A shape is drawn unless it has no vertices or a number on the way is not finite. Exact numbers are always finite, and
every template has vertices of its own, so each can be drawn at any size. What comes out begins with a move, which is
all that is asked of a path later on. Sine and cosine may be any functions.
-/

namespace Drawing

/-- A drawing that came about, the first command of which is a move. -/
def Drawn {α : Type} (x : Except (Fault α) (List (Command α))) : Prop :=
  ∃ target rest, x = .ok (.move target :: rest)

namespace Shape

/-- Exact coordinates are finite, so nothing is found out about them. -/
theorem checkedShape_exact (commands : List (Command Rat)) : checkedShape commands = .ok commands := by
  refine mapM_eq_ok_iff.mpr (List.forall₂_same.mpr fun c _ => ?_)
  exact Command.ofChecked_eq_ok_iff.mpr (Command.check_points fun p _ => ⟨rfl, rfl⟩)

theorem drawn_polygon {α : Type} {ps : List (Point α)} (h : ps ≠ []) : Drawn (polygon ps) := by
  cases ps with
  | nil => exact absurd rfl h
  | cons p ps => exact ⟨p, _, rfl⟩

theorem drawn_rectangle (w h : Numeral Rat) : Drawn (rectangle w h) := by
  have htwo : (Numeral.whole 2 : Numeral Rat).value ≠ 0 := by decide +kernel
  obtain ⟨x, hx⟩ := w.exists_quotient_exact htwo
  obtain ⟨y, hy⟩ := h.exists_quotient_exact htwo
  unfold rectangle
  rw [hx, hy]
  exact drawn_polygon (List.cons_ne_nil _ _)

section

variable [Trig Rat]

/-- As many vertices are found as were asked for. -/
theorem vertices_exact {count : Int} {distance : Nat → Except (Fault Rat) (Numeral Rat)}
    {direction : Nat → Except (Fault Rat) Rat} (hdistance : ∀ i, ∃ r, distance i = .ok r)
    (hdirection : ∀ i, ∃ angle, direction i = .ok angle) :
    ∃ ps, vertices count distance direction = .ok ps ∧ ps.length = count.toNat := by
  obtain ⟨ps, hps⟩ : ∃ ps, List.Forall₂ (fun i p => (do
      let r ← distance i
      let angle ← direction i
      if Scalar.isInfinite angle then .error (.number .endlessAngle) else return polar (← r.toScalar) angle) =
        (.ok p : Except (Fault Rat) (Point Rat))) (List.range count.toNat) ps := by
    refine exists_forall₂ fun i _ => ?_
    obtain ⟨r, hr⟩ := hdistance i
    obtain ⟨angle, hangle⟩ := hdirection i
    refine ⟨polar r.value angle, bind_eq_ok_iff.mpr ⟨r, hr, bind_eq_ok_iff.mpr ⟨angle, hangle, ?_⟩⟩⟩
    rw [r.toScalar_exact]
    rfl
  refine ⟨ps, mapM_eq_ok_iff.mpr hps, ?_⟩
  rw [← hps.length_eq, List.length_range]

theorem drawn_vertices {count : Int} {distance : Nat → Except (Fault Rat) (Numeral Rat)}
    {direction : Nat → Except (Fault Rat) Rat} (hcount : 0 < count) (hdistance : ∀ i, ∃ r, distance i = .ok r)
    (hdirection : ∀ i, ∃ angle, direction i = .ok angle) :
    Drawn (do polygon (← vertices count distance direction)) := by
  obtain ⟨ps, hps, hlength⟩ := vertices_exact hdistance hdirection
  rw [hps]
  refine drawn_polygon ?_
  rintro rfl
  rw [List.length_nil] at hlength
  omega

theorem drawn_regular {n : Int} (hn : 0 < n) (r rotation : Numeral Rat) : Drawn (regular (.whole n) r rotation) := by
  refine drawn_vertices hn (fun _ => ⟨r, rfl⟩) fun i => ?_
  rw [rotation.toScalar_exact]
  exact ⟨_, rfl⟩

theorem drawn_star {n : Int} (hn : 0 < n) (r depth : Rat) : Drawn (star (.real r) (.whole n) (.real depth)) := by
  refine drawn_vertices (by omega) (fun i => ?_) fun i => ⟨_, rfl⟩
  split_ifs
  · exact ⟨_, rfl⟩
  · exact ⟨_, rfl⟩

end

theorem drawn_wave (w amplitude : Rat) : Drawn (wave (.real w) (.real amplitude) (.whole 3)) := by
  obtain ⟨step, hstep⟩ := (Numeral.real w).exists_quotient_exact (b := .whole 6) (by decide +kernel)
  obtain ⟨half, hhalf⟩ := (Numeral.real w).exists_quotient_exact (b := .whole 2) (by decide +kernel)
  refine ⟨⟨-half, Scalar.zero⟩, halfWaves (amplitude * 2) step true (-half) 6, ?_⟩
  refine bind_eq_ok_iff.mpr ⟨.whole 6, rfl, ?_⟩
  refine bind_eq_ok_iff.mpr ⟨step, hstep, ?_⟩
  refine bind_eq_ok_iff.mpr ⟨half, hhalf, ?_⟩
  exact bind_eq_ok_iff.mpr ⟨_, checkedShape_exact _, rfl⟩

end Shape

/-! ## Templates -/

variable [Trig Rat]

theorem Template.drawn_outline (size : Rat) (t : Template) : Drawn (t.outline size) := by
  cases t with
  | star => exact Shape.drawn_star (by decide) _ _
  | triangle | pentagon | hexagon | octagon => exact Shape.drawn_regular (by decide) _ _
  | square => exact Shape.drawn_rectangle _ _
  | wave => exact Shape.drawn_wave _ _
  | diamond | arrow | house => exact Shape.drawn_polygon (List.cons_ne_nil _ _)
  | heart | circle => exact ⟨_, _, rfl⟩

/-- **Every template can be drawn** at any size, and begins with a move. -/
theorem Template.drawn (size : Rat) (t : Template) : Drawn (t.draw size) := by
  obtain ⟨target, rest, h⟩ := t.drawn_outline size
  unfold draw
  rw [h]
  exact ⟨target, rest, Shape.checkedShape_exact _⟩

end Drawing
