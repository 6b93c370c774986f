import Drawing.Proofs.Document.Bounds
import Drawing.Proofs.Markup.Accepted
import Drawing.Proofs.Path.Reading

/-!
# `Drawing/Proofs/Document/Held.lean` — nothing leaves the canvas, exact or not

Clamping compares and never computes, so numbers need not be exact for it. What is clamped is between zero and the side
of a canvas as long as it is a number at all and the side is held exactly; rounding it does not take it over an edge.

> **what is laid out is on the canvas** by the exact values of its coordinates, whatever the scalars.
-/

namespace Drawing

section

variable {α : Type} [Scalar α]

theorem Scalar.clamp_choice (lo hi x : α) : clamp lo hi x = lo ∨ clamp lo hi x = hi ∨ clamp lo hi x = x := by
  unfold clamp lower upper least greatest
  split_ifs <;> simp

theorem Scalar.isFinite_of_roundTo {places : Nat} {x : α} (h : isFinite (roundTo places x) = true) :
    isFinite x = true := by
  unfold isFinite at h ⊢
  unfold roundTo at h
  cases hx : toRat? x with
  | none => rwa [hx, hx] at h
  | some q => rfl

variable [NearlyExact α]

/-- What is clamped to the side of a canvas is on it, unless it is no number at all. -/
theorem Scalar.clamp_mem {n : Nat} {hi x : α} (hhi : toRat? hi = some (n : Rat))
    (h : isFinite (clamp zero hi x) = true) : 0 ≤ toRat (clamp zero hi x) ∧ toRat (clamp zero hi x) ≤ n := by
  have hn : (0 : Rat) ≤ n := Nat.cast_nonneg n
  cases hx : toRat? x with
  | some q =>
    have hclamp : toRat? (clamp zero hi x) = some (clamp 0 (n : Rat) q) :=
      toRat?_lower (toRat?_upper hx toRat?_zero) hhi
    rw [toRat_of hclamp]
    exact ⟨le_clamp hn q, clamp_le 0 (n : Rat) q⟩
  | none =>
    rcases clamp_choice zero hi x with heq | heq | heq
    · rw [heq, toRat_of toRat?_zero]
      exact ⟨le_rfl, hn⟩
    · rw [heq, toRat_of hhi]
      exact ⟨hn, le_rfl⟩
    · rw [heq, isFinite, hx] at h
      exact nomatch h

theorem clamp_heldOn {c : Canvas α} (hw : Scalar.toRat? c.w = some (c.width : Rat))
    (hh : Scalar.toRat? c.h = some (c.height : Rat)) {p : Point α} (h : (p.clamp c.w c.h).IsFinite) :
    (p.clamp c.w c.h).toRat.On (c.width, c.height) :=
  ⟨(Scalar.clamp_mem hw h.1).1, (Scalar.clamp_mem hw h.1).2, Scalar.clamp_mem hh h.2⟩

/-- The nearest number on a side is there, unless it is no number at all. -/
theorem nearestOnSide_held {side : Nat} (hside : Scalar.toRat? (Scalar.ofNat side : α) = some (side : Rat)) {x : α}
    (h : Scalar.isFinite (nearestOnSide side x) = true) :
    ∃ q, Scalar.toRat? (nearestOnSide side x) = some q ∧ 0 ≤ q ∧ q ≤ side := by
  have hn : (0 : Rat) ≤ side := Nat.cast_nonneg side
  unfold nearestOnSide at h ⊢
  cases hx : Scalar.toRat? x with
  | some q =>
    have hbelow : (Numeral.whole side : Numeral α).isBelow (.real x) = decide ((side : Rat) < q) := by
      simp [Numeral.isBelow, Numeral.isOrdered, Numeral.toRat?, hx]
    rw [hbelow]
    by_cases hq : (side : Rat) < q
    · rw [decide_eq_true hq, if_pos rfl]
      exact ⟨side, hside, hn, le_rfl⟩
    · rw [decide_eq_false hq, if_neg Bool.false_ne_true]
      refine ⟨_, Scalar.toRat?_greatest hx Scalar.toRat?_zero, ?_⟩
      rw [Scalar.greatest_exact]
      exact ⟨le_max_right _ _, max_le (not_lt.mp hq) hn⟩
  | none =>
    split_ifs at h ⊢
    · exact ⟨side, hside, hn, le_rfl⟩
    · unfold Scalar.greatest at h ⊢
      split_ifs at h ⊢
      · exact ⟨0, Scalar.toRat?_zero, le_rfl, hn⟩
      · rw [Scalar.isFinite, hx] at h
        exact nomatch h

theorem sanitizePoint_heldOn {c : Canvas α} (hw : Scalar.toRat? c.w = some (c.width : Rat))
    (hh : Scalar.toRat? c.h = some (c.height : Rat)) (hwidth : (c.width : Rat) ≤ reach)
    (hheight : (c.height : Rat) ≤ reach) {p : Point α} (h : (c.sanitizePoint false p).IsFinite) :
    (c.sanitizePoint false p).toRat.On (c.width, c.height) := by
  have hround {side : Nat} (hside : Scalar.toRat? (Scalar.ofNat side : α) = some (side : Rat))
      (hreach : (side : Rat) ≤ reach) {x : α} (hx : Scalar.isFinite (Scalar.roundTo coordinatePlaces (nearestOnSide side x)) = true) :
      0 ≤ Scalar.toRat (Scalar.roundTo coordinatePlaces (nearestOnSide side x)) ∧
        Scalar.toRat (Scalar.roundTo coordinatePlaces (nearestOnSide side x)) ≤ side := by
    obtain ⟨q, hq, h0, hqn⟩ := nearestOnSide_held hside (Scalar.isFinite_of_roundTo hx)
    obtain ⟨r, hr, hr0, hrn⟩ := Scalar.toRat?_roundTo_mem hreach coordinatePlaces hq h0 hqn
    rw [Scalar.toRat_of hr]
    exact ⟨hr0, hrn⟩
  exact ⟨(hround hw hwidth h.1).1, (hround hw hwidth h.1).2, hround hh hheight h.2⟩

theorem Aspect.size_le_reach (a : Aspect) : (a.size.1 : Rat) ≤ reach ∧ (a.size.2 : Rat) ≤ reach := by
  cases a <;> exact ⟨by norm_num [reach, size], by norm_num [reach, size]⟩

/-- **What is laid out is on the canvas**, by the exact values of its coordinates. -/
theorem Document.heldOn_of_resolve [StaysFinite α] [HoldsSides α] [Trig α] {raw : Fields α} {a : Aspect} {o : Outcome α}
    {d r : Document α} (hvalid : validateData raw (some (.ofAspect a)) = .ok o) (haccepted : o.accepted? = some d)
    (hresolved : d.resolve = .ok r) :
    ∀ q ∈ pointsOf r.commands, q.IsFinite ∧ q.toRat.On a.size := by
  have hd := accepted_of_validateData hvalid haccepted
  have hsize : d.size = a.size := size_of_validateData hvalid haccepted
  have hfinite := forall_mem_points_iff.mpr (isFinite_resolve hd.finite hresolved)
  obtain ⟨hwidth, hheight⟩ := Prod.mk.inj (show (d.canvas.width, d.canvas.height) = (a.size.1, a.size.2) from hsize)
  have hw : Scalar.toRat? d.canvas.w = some (d.canvas.width : Rat) := by
    rw [Canvas.w, hwidth]
    exact (HoldsSides.toRat?_sides a).1
  have hh : Scalar.toRat? d.canvas.h = some (d.canvas.height : Rat) := by
    rw [Canvas.h, hheight]
    exact (HoldsSides.toRat?_sides a).2
  intro q hq
  refine ⟨hfinite q hq, ?_⟩
  rw [← hsize]
  rcases mem_of_resolve hd.resolved hd.startsWithMove hresolved q hq with ⟨l, hl, p, hp, hfixed, hq'⟩ | ⟨p, rfl⟩
  · obtain ⟨given, -, hgiven⟩ := exists_given hvalid haccepted
    obtain ⟨-, m, rescale, -, rfl⟩ := accepted_of_validate hgiven haccepted
    obtain ⟨q', rfl⟩ := sanitized_of_isMoved hl hp hfixed hq'
    refine sanitizePoint_heldOn hw hh ?_ ?_ (hfinite _ hq)
    · rw [hwidth]
      exact a.size_le_reach.1
    · rw [hheight]
      exact a.size_le_reach.2
  · exact clamp_heldOn hw hh (hfinite _ hq)

end

end Drawing
