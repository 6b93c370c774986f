import Drawing.Layout.Stage
import Drawing.Proofs.Document.Inside
import Drawing.Proofs.Document.Redrawn
import Drawing.Proofs.Fallible
import Drawing.Proofs.Path.Points
import Drawing.Validation.Outcome

/-!
# `Drawing/Proofs/Layout/Stage.lean` — layouts draw on the canvas

Carrying out a layout ends with clamping the points of each instance. So every point of a document that was laid out
was clamped to the canvas, unless it is one of a path that no layout moves.
-/

namespace Drawing

section

variable {α : Type} [Scalar α] {s : Stage α} {commands drawn : List (Command α)}

/-- The points of an instance were clamped, and so was that of the move it may begin with. -/
theorem Stage.instanceAt_clamped {points : List (Point α)} {first : Bool} {origin : Point α}
    (hpoints : points ≠ []) (h : s.instanceAt commands points first origin = .ok drawn) :
    ∀ q ∈ pointsOf drawn, ∃ p : Point α, q = p.clamp s.canvas.w s.canvas.h := by
  have hplaced {q : Point α} (hq : q ∈ s.placed points origin) :
      ∃ p : Point α, q = p.clamp s.canvas.w s.canvas.h := by
    obtain ⟨p, -, rfl⟩ := List.mem_map.mp hq
    exact ⟨_, rfl⟩
  unfold instanceAt at h
  obtain ⟨body, hb, h⟩ := bind_eq_ok_iff.mp h
  split_ifs at h
  · obtain rfl := pure_eq_ok_iff.mp h
    exact fun q hq => hplaced (mem_of_rebuilt hb hq)
  · obtain ⟨opening, ho, h⟩ := bind_eq_ok_iff.mp h
    obtain rfl := pure_eq_ok_iff.mp h
    obtain ⟨start, rest, hstart⟩ := List.exists_cons_of_ne_nil
      (show s.placed points origin ≠ [] from fun h => hpoints (List.map_eq_nil_iff.mp h))
    rw [hstart] at ho
    have hcheck : Command.check .move ([start].flatMap fun p => [p.x, p.y]) = .valid opening :=
      Command.ofChecked_eq_ok_iff.mp ho
    intro q hq
    rcases List.mem_append.mp (show q ∈ opening.points ++ pointsOf body from hq) with hq | hq
    · rw [(Command.of_check hcheck).2, List.mem_singleton] at hq
      exact hplaced (by rw [hq, hstart]; exact List.mem_cons_self)
    · exact hplaced (mem_of_rebuilt hb hq)

theorem Stage.instances_clamped {points : List (Point α)} {first : Bool} {origins : List (Point α)}
    (hpoints : points ≠ []) (h : s.instances commands points first origins = .ok drawn) :
    ∀ q ∈ pointsOf drawn, ∃ p : Point α, q = p.clamp s.canvas.w s.canvas.h := by
  induction origins generalizing first drawn with
  | nil =>
    obtain rfl := Except.ok.inj h
    exact nofun
  | cons origin rest ih =>
    unfold instances at h
    obtain ⟨one, ho, h⟩ := bind_eq_ok_iff.mp h
    obtain ⟨others, hr, h⟩ := bind_eq_ok_iff.mp h
    obtain rfl := pure_eq_ok_iff.mp h
    intro q hq
    rw [pointsOf_append] at hq
    exact (List.mem_append.mp hq).elim (instanceAt_clamped hpoints ho q) (ih hr q)

theorem Stage.sizedPoints_ne_nil {points sized : List (Point α)} {layout : EffectiveLayout α}
    (hpoints : points ≠ []) (h : s.sizedPoints points layout = .ok sized) : sized ≠ [] := by
  unfold sizedPoints at h
  split at h
  · exact Except.ok.inj h ▸ hpoints
  · exact absurd rfl hpoints
  · obtain ⟨target, -, h⟩ := bind_eq_ok_iff.mp h
    obtain rfl := pure_eq_ok_iff.mp h
    unfold fitPoints
    split
    · exact hpoints
    · exact fun h => hpoints (List.map_eq_nil_iff.mp h)

/-- What a layout makes of a path that begins with a move was clamped. -/
theorem Stage.transform_clamped [Trig α] {layout : EffectiveLayout α} {p : ShapePath α}
    (hstart : p.startsWithMove = true) (hmoves : layout.isIdentity = false)
    (h : s.transform p.commands layout = .ok drawn) :
    ∀ q ∈ pointsOf drawn, ∃ p : Point α, q = p.clamp s.canvas.w s.canvas.h := by
  unfold transform at h
  rw [if_neg (by simp [hmoves])] at h
  split_ifs at h with hempty
  · obtain rfl := Except.ok.inj h
    exact nofun
  · obtain ⟨points, hp, h⟩ := bind_eq_ok_iff.mp h
    obtain ⟨base, -, h⟩ := bind_eq_ok_iff.mp h
    obtain ⟨origins, -, h⟩ := bind_eq_ok_iff.mp h
    refine instances_clamped (sizedPoints_ne_nil ?_ hp) h
    -- a move has a point
    unfold ShapePath.startsWithMove at hstart
    split at hstart
    · next hc => exact absurd (by simp [hc]) hempty
    · next c rest hc =>
      rw [hc]
      cases c with
      | move target => exact List.cons_ne_nil target _
      | line | cubic | quadratic | close => exact nomatch hstart

/-- A point of a document whose layouts were carried out is one of a path that no layout moves, or it was clamped. -/
theorem Document.mem_of_resolve [Trig α] {d r : Document α} (hresolved : d.resolved = false)
    (hstart : ∀ l ∈ d.layers, ∀ p ∈ l.paths, p.startsWithMove = true) (h : d.resolve = .ok r) :
    ∀ q ∈ pointsOf r.commands, (∃ l ∈ d.layers, ∃ p ∈ l.paths, d.isMoved l p = false ∧ q ∈ pointsOf p.commands) ∨
      ∃ p : Point α, q = p.clamp d.canvas.w d.canvas.h := by
  obtain ⟨catalog, -, -, hredrawn⟩ := (resolve_eq_ok_iff hresolved).mp h
  refine Document.forall_mem_points_iff.mpr fun l' hl' p' hp' q hq => ?_
  obtain ⟨l, hl, p, hp, -, hpath⟩ := hredrawn.exists_path hl' hp'
  obtain ⟨hfixed, rfl⟩ | ⟨hm, commands, hcommands, rfl⟩ := resolvePath_cases hpath
  · exact .inl ⟨l, hl, p', hp, hfixed, hq⟩
  · have hmoves : (d.layoutOf l p).isIdentity = false := by
      unfold isMoved at hm
      simpa using (Bool.and_eq_true_iff.mp hm).2
    exact .inr (Stage.transform_clamped (hstart l hl p hp) hmoves hcommands q hq)

end

end Drawing
