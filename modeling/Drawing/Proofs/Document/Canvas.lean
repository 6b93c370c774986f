import Drawing.Layout.Stage
import Drawing.Proofs.Checked
import Drawing.Proofs.Fallible
import Drawing.Sketch.Basic
import Drawing.Validation.Outcome
import Drawing.Viewport.Fit

/-!
# `Drawing/Proofs/Document/Canvas.lean` — the size of the canvas

A document goes through many hands, but only one of them sets the size of its canvas: validation, which
moves a document to the canvas that was asked for. Cleaning, carrying out layouts and framing leave that size
alone, and a sketch is made for it to begin with.
-/

namespace Drawing

/-- The width and height of the canvas of a document. -/
def Document.size {α : Type} (d : Document α) : Nat × Nat := (d.canvas.width, d.canvas.height)

section

variable {α : Type} [Scalar α]

theorem Document.size_sanitize (d : Document α) : d.sanitize.size = d.size := rfl

theorem Document.size_resolve [Trig α] {d r : Document α} (h : d.resolve = .ok r) : r.size = d.size := by
  unfold resolve at h
  split_ifs at h
  · exact Except.ok.inj h ▸ rfl
  · obtain ⟨catalog, -, h⟩ := bind_eq_ok_iff.mp h
    obtain ⟨layers, -, h⟩ := bind_eq_ok_iff.mp h
    exact pure_eq_ok_iff.mp h ▸ rfl

theorem Document.size_fit {d f : Document α} {padding : Numeral α} {framing : Framing α}
    (h : d.fit padding = .ok (f, framing)) : f.size = d.size := by
  unfold fit at h
  obtain ⟨framing', -, h⟩ := bind_eq_ok_iff.mp h
  exact congrArg Document.size (Prod.mk.inj (pure_eq_ok_iff.mp h)).1 ▸ rfl

/-- What moving a document to a canvas comes to. Where the size stays, the document is put there as it is; any other
size multiplies its view box and its layers by the ratios of the sides, and that is told. -/
theorem Document.conform_cases {d m : Document α} {canvas : Canvas α} {rescale : Option (Rescale α)}
    (h : d.conform canvas = .ok (m, rescale)) :
    (d.size = (canvas.width, canvas.height) ∧ rescale = none ∧
      m = { d with canvas := { canvas with viewBox := d.canvas.viewBox } }) ∨
    d.size ≠ (canvas.width, canvas.height) ∧ rescale = some ⟨d.canvas.width, d.canvas.height, canvas⟩ ∧
      ∃ sx sy layers, (Numeral.whole canvas.width).quotient (.whole d.canvas.width) = .ok sx ∧
        (Numeral.whole canvas.height).quotient (.whole d.canvas.height) = .ok sy ∧
        d.layers.mapM (fun l => l.stretch sx sy) = .ok layers ∧
        m = { d with canvas := { canvas with viewBox := d.canvas.viewBox.map fun b => b.scale sx sy }, layers } := by
  simp only [conform] at h
  split_ifs at h with hsame
  · obtain ⟨rfl, rfl⟩ := Prod.mk.inj (Except.ok.inj h)
    exact .inl ⟨Prod.ext hsame.1 hsame.2, rfl, rfl⟩
  · obtain ⟨sx, hsx, h⟩ := bind_eq_ok_iff.mp h
    obtain ⟨sy, hsy, h⟩ := bind_eq_ok_iff.mp h
    obtain ⟨layers, hlayers, h⟩ := bind_eq_ok_iff.mp h
    obtain ⟨rfl, rfl⟩ := Prod.mk.inj (pure_eq_ok_iff.mp h)
    exact .inr ⟨mt Prod.mk.inj hsame, rfl, sx, sy, layers, hsx, hsy, hlayers, rfl⟩

/-- A document that was moved to a canvas is on that canvas, with a view box of its own. -/
theorem Document.canvas_conform {d m : Document α} {canvas : Canvas α} {rescale : Option (Rescale α)}
    (h : d.conform canvas = .ok (m, rescale)) : m.canvas = { canvas with viewBox := m.canvas.viewBox } := by
  obtain ⟨-, -, rfl⟩ | ⟨-, -, sx, sy, layers, -, -, -, rfl⟩ := conform_cases h
  · rfl
  · rfl

theorem Document.resolved_conform {d m : Document α} {canvas : Canvas α} {rescale : Option (Rescale α)}
    (h : d.conform canvas = .ok (m, rescale)) : m.resolved = d.resolved := by
  obtain ⟨-, -, rfl⟩ | ⟨-, -, sx, sy, layers, -, -, -, rfl⟩ := conform_cases h
  · rfl
  · rfl

theorem Document.size_conform {d m : Document α} {canvas : Canvas α} {rescale : Option (Rescale α)}
    (h : d.conform canvas = .ok (m, rescale)) : m.size = (canvas.width, canvas.height) := by
  unfold size
  rw [canvas_conform h]

/-- What is done to a document with layers in which nothing is found. -/
theorem Document.validate_of_findings {d m : Document α} {canvas : Option (Canvas α)} {rescale : Option (Rescale α)}
    (hlayers : d.layers ≠ []) (hfindings : d.findings.1 = []) (hm : d.conformTo canvas = .ok (m, rescale)) :
    d.validate canvas = .ok (.accepted m.sanitize d.findings.2 rescale m.strays) := by
  unfold validate
  rw [if_neg (mt List.isEmpty_iff.mp hlayers)]
  dsimp only
  rw [hfindings, hm]
  rfl

/-- What was done to an accepted document: it was found without errors, moved to the canvas that was asked
for, and cleaned there. -/
theorem Document.accepted_of_validate {d a : Document α} {canvas : Option (Canvas α)} {o : Outcome α}
    (h : d.validate canvas = .ok o) (ha : o.accepted? = some a) :
    d.findings.1 = [] ∧
      ∃ m rescale, d.conformTo canvas = .ok (m, rescale) ∧ a = m.sanitize := by
  unfold validate at h
  split_ifs at h with hl
  · exact absurd ha (Except.ok.inj h ▸ nofun)
  · simp only at h
    split_ifs at h with he
    · exact absurd ha (Except.ok.inj h ▸ nofun)
    · obtain ⟨⟨m, rescale⟩, hm, h⟩ := bind_eq_ok_iff.mp h
      obtain rfl := pure_eq_ok_iff.mp h
      exact ⟨by simpa using he, m, rescale, hm, (Option.some.inj ha).symm⟩

/-- A document without layers is not accepted. -/
theorem Document.layers_of_validate {d a : Document α} {canvas : Option (Canvas α)} {o : Outcome α}
    (h : d.validate canvas = .ok o) (ha : o.accepted? = some a) : d.layers ≠ [] := by
  intro hnil
  unfold validate at h
  rw [hnil, List.isEmpty_nil, if_pos rfl] at h
  exact absurd ha (Except.ok.inj h ▸ nofun)

/-- Data that is accepted can be read, and it is the document that is read from it that is accepted. -/
theorem exists_given {raw : Fields α} {canvas : Option (Canvas α)} {o : Outcome α} {d : Document α}
    (h : validateData raw canvas = .ok o) (ha : o.accepted? = some d) :
    ∃ given, Document.readFields (withoutResolved raw) = .valid given ∧ given.validate canvas = .ok o := by
  unfold validateData at h
  split at h
  · exact absurd ha (Except.ok.inj h ▸ nofun)
  · next given hread => exact ⟨given, hread, h⟩

/-- An accepted document has the size of the canvas that was asked for. -/
theorem size_of_validateData {fields : Fields α} {canvas : Canvas α} {o : Outcome α} {d : Document α}
    (h : validateData fields (some canvas) = .ok o) (ha : o.accepted? = some d) :
    d.size = (canvas.width, canvas.height) := by
  obtain ⟨given, -, h⟩ := exists_given h ha
  obtain ⟨-, m, rescale, hm, rfl⟩ := Document.accepted_of_validate h ha
  exact m.size_sanitize.trans (Document.size_conform hm)

/-- A side that was read from a whole number is that number. -/
theorem Canvas.readSide_ofInt {n : Int} {side : { n : Nat // 0 < n }}
    (h : readSide (.ofInt n : Json α) = .valid side) : (side.1 : Int) = n := by
  unfold readSide at h
  obtain ⟨m, hm, h⟩ := Checked.refine_eq_valid_iff.mp h
  obtain rfl : n = m := Checked.valid.inj hm
  split_ifs at h with hpos
  · obtain rfl := Checked.valid.inj h
    exact Int.toNat_of_nonneg (by omega)
  · exact nomatch h

theorem Sketch.size_canvasFor {r : SizedRequest} {c : Canvas α} (h : canvasFor r = .ok c) :
    (c.width : Int) = r.width ∧ (c.height : Int) = r.height := by
  unfold canvasFor at h
  obtain ⟨aspect, -, h⟩ := bind_eq_ok_iff.mp h
  simp only at h
  split at h
  · exact nomatch h
  · next canvas hc =>
    obtain rfl := pure_eq_ok_iff.mp h
    obtain ⟨_, height, hf, hh, rfl⟩ := Checked.seq_eq_valid_iff.mp hc
    obtain ⟨width, hw, rfl⟩ := Checked.functor_map_eq_valid_iff.mp hf
    exact ⟨Canvas.readSide_ofInt (Checked.within_eq_valid_iff.mp hw),
      Canvas.readSide_ofInt (Checked.within_eq_valid_iff.mp hh)⟩

theorem Sketch.size_ofRequest [Trig α] {r : SizedRequest} {s : Sketch α} {size : Nat × Nat}
    (hr : (r.width, r.height) = ((size.1 : Int), (size.2 : Int))) (h : ofRequest r = .ok s) :
    s.document.size = size := by
  unfold ofRequest at h
  obtain ⟨canvas, hc, h⟩ := bind_eq_ok_iff.mp h
  obtain ⟨side, -, h⟩ := bind_eq_ok_iff.mp h
  obtain ⟨layers, -, h⟩ := bind_eq_ok_iff.mp h
  obtain rfl := pure_eq_ok_iff.mp h
  obtain ⟨hw, hh⟩ := Prod.mk.inj hr
  obtain ⟨hcw, hch⟩ := size_canvasFor hc
  exact Prod.ext (Int.ofNat.inj (hcw.trans hw)) (Int.ofNat.inj (hch.trans hh))

end

end Drawing
