import Drawing.Proofs.Layout.Stage
import Drawing.Proofs.Validation.Settled
import Drawing.Proofs.Viewport.Fit
import Drawing.Repair.Design

/-!
# `Drawing/Proofs/Document/Bounds.lean` — nothing leaves the canvas

Points are put on the canvas in two places: validation does it for the paths that no layout moves, carrying out
the layouts for all others, so every path is put there by one of them. What comes behind, rounding and scaling
about a middle, cannot push a point over an edge. Sine and cosine may be any functions.
-/

namespace Drawing

/-- Carrying out the layouts of a settled document puts all of it on the canvas. -/
theorem Document.Settled.resolve [Trig Rat] {d r : Document Rat} (hd : d.Settled)
    (h : d.resolve = .ok r) : CommandsOn d.size r.commands := by
  intro q hq
  rcases mem_of_resolve hd.resolved hd.startsWithMove h q hq with ⟨l, hl, p, hp, hm, hq⟩ | ⟨p, rfl⟩
  · exact hd.fixed l hl p hp hm q hq
  · exact clamp_on d.canvas p

/-- **Nothing leaves the canvas**: whatever the data, if the document in it is accepted, as it is or repaired,
and can be laid out and framed, then all its points are on the canvas that was asked for. -/
theorem fitted_on_canvas [Trig Rat] {raw : Fields Rat} {a : Aspect} {o : Outcome Rat}
    {d r f : Document Rat} {padding : Numeral Rat} {framing : Framing Rat}
    (hvalid : validateData raw (some (.ofAspect a)) = .ok o ∨
      ∃ repaired, repairDesign raw = .ok repaired ∧
        validateData repaired.value (some (.ofAspect a)) = .ok o)
    (haccepted : o.accepted? = some d) (hresolved : d.resolve = .ok r)
    (hfit : r.fit padding = .ok (f, framing)) :
    ∀ p ∈ pointsOf f.commands,
      0 ≤ p.x ∧ p.x ≤ a.size.1 ∧ 0 ≤ p.y ∧ p.y ≤ a.size.2 := by
  obtain ⟨fields, hfields⟩ : ∃ fields, validateData fields (some (.ofAspect a)) = .ok o := by
    rcases hvalid with h | ⟨repaired, -, h⟩
    · exact ⟨raw, h⟩
    · exact ⟨repaired.value, h⟩
  have hsize : d.size = a.size := size_of_validateData hfields haccepted
  have hon : CommandsOn r.size r.commands := by
    rw [Document.size_resolve hresolved]
    exact (Document.settled_of_validateData hfields haccepted).resolve hresolved
  have hfitted := Document.fit_on hon hfit
  rw [Document.size_resolve hresolved, hsize] at hfitted
  exact hfitted

/-- A plain sine and cosine. -/
@[reducible] def Trig.flat : Trig Rat := ⟨22 / 7, fun _ => 0, fun _ => 1, fun _ => 0, fun _ => 0, id⟩

/-- A curve that leaves its canvas and three copies of a line that is far too long. -/
def strayDesign : Fields Rat := [
  ("canvas", .obj [("width", .ofInt 100), ("height", .ofInt 100)]),
  ("layers", .arr [
    .obj [("id", .str "curve"), ("paths", .arr [.obj [("id", .str "stroke"), ("commands", .arr [
      .obj [("cmd", .str "M"), ("coords", .arr [.ofInt (-40), .ofInt 20])],
      .obj [("cmd", .str "Q"), ("coords", .arr [.ofInt 50, .ofInt 900, .ofInt 70, .ofInt 30])]])]])],
    .obj [("id", .str "ring"),
      ("layout", .obj [("region", .str "top_left"),
        ("repeat", .obj [("type", .str "radial"), ("count", .ofInt 3)])]),
      ("paths", .arr [.obj [("id", .str "spoke"), ("commands", .arr [
        .obj [("cmd", .str "M"), ("coords", .arr [.ofInt 0, .ofInt 0])],
        .obj [("cmd", .str "L"), ("coords", .arr [.ofInt 900, .ofInt 30])]])]])]])]

theorem fitted_on_canvas_stray :
    letI := Trig.flat
    ∃ o d r f framing, validateData strayDesign (some (.ofAspect .square)) = .ok o ∧
      o.accepted? = some d ∧ d.resolve = .ok r ∧ r.fit (.real 0.15) = .ok (f, framing) ∧
      ∀ p ∈ pointsOf f.commands,
        0 ≤ p.x ∧ p.x ≤ Aspect.square.size.1 ∧ 0 ≤ p.y ∧ p.y ≤ Aspect.square.size.2 := by
  let _ := Trig.flat
  have hruns : (do
      let o ← validateData strayDesign (some (.ofAspect .square))
      let d ← o.accepted?.elim (.error .emptyCache) .ok
      let r ← d.resolve
      r.fit (.real 0.15) : Except (Fault Rat) _).toOption.isSome = true := by decide +kernel
  obtain ⟨⟨f, framing⟩, h⟩ := exists_ok_of_isSome hruns
  obtain ⟨o, ho, h⟩ := bind_eq_ok_iff.mp h
  obtain ⟨d, hd, h⟩ := bind_eq_ok_iff.mp h
  obtain ⟨r, hr, hf⟩ := bind_eq_ok_iff.mp h
  have ha : o.accepted? = some d := by
    cases hacc : o.accepted? with
    | none => simp [hacc] at hd
    | some d' => simpa [hacc] using hd
  exact ⟨o, d, r, f, framing, ho, ha, hr, hf, fitted_on_canvas (.inl ho) ha hr hf⟩

end Drawing
