import Drawing.Proofs.Document.Stretch
import Drawing.Proofs.Markup.Accepted

/-!
# `Drawing/Proofs/Document/Kept.lean` — nothing is lost on the way

From the data of a design to its frame every list of commands is built anew four times: moved to the canvas that
was asked for, cleaned, laid out and framed. Framing even draws all paths as one and deals the commands out again.

> **what goes in comes out** — in the end there are the layers and paths of the data, in their order and with all
> they had, and each path is drawn with its own letters, as often as its layout repeats it.
-/

namespace Drawing

variable {α : Type}

/-- How often a repetition draws a shape: in every cell of a grid, or at every place of a row or a circle. A
circle heeds the first of two numbers only. -/
def Repetition.times : Repetition α → Nat
  | ⟨_, .one n, _, _⟩ => n
  | ⟨.grid, .pair columns rows, _, _⟩ => columns * rows
  | ⟨.radial, .pair n _, _, _⟩ => n

theorem EffectiveLayout.copies_eq_times (layout : EffectiveLayout α) :
    layout.copies = layout.repetition.elim 1 Repetition.times := by
  unfold copies
  cases layout.repetition with
  | none => rfl
  | some r =>
    obtain ⟨pattern, count, spacing, radius⟩ := r
    cases pattern <;> cases count <;> simp [Repetition.times, Stage.gridShape, Stage.radialCount]

/-- Moving the points of a path before it is drawn some times over leaves its letters as they were. -/
theorem ShapePath.Traced.repeated {n : Nat} {p p' p'' : ShapePath α} (h : p.Traced p')
    (h' : p'.Repeated n p'') : p.Repeated n p'' := by
  refine ⟨?_, ?_⟩
  · calc p'' = p'.withCommands p''.commands := h'.frame
      _ = p.withCommands p''.commands := by rw [h.frame]; rfl
  · rw [h'.letters, h.letters]

section

variable [Scalar α]

/-- How often a path of a layer is drawn. -/
def Document.timesDrawn (d : Document α) (l : Layer α) (p : ShapePath α) : Nat :=
  (d.layoutOf l p).repetition.elim 1 Repetition.times

/-- **Nothing is lost on the way**: whatever the data, if the document in it is accepted and can be laid out and
framed, then it is drawn with the layers and paths of the data. They stand in their order and have kept ids,
labels, styles and layouts, and each path has its letters, once for every place at which its layout repeats it. -/
theorem accepted_paths_kept [Trig α] {raw : Fields α} {canvas : Option (Canvas α)} {o : Outcome α}
    {d r f : Document α} {padding : Numeral α} {framing : Framing α}
    (hvalid : validateData raw canvas = .ok o) (haccepted : o.accepted? = some d)
    (hresolved : d.resolve = .ok r) (hfit : r.fit padding = .ok (f, framing)) :
    ∃ given, Document.readFields (withoutResolved raw) = .valid given ∧
      given.Redrawn (fun l p p' => p.Repeated (given.timesDrawn l p) p') f ∧
      ∀ (l : Layer α) (p : ShapePath α) (s : Stage α) (base : Point α) (origins : List (Point α)),
        s.positions (given.layoutOf l p) base = .ok origins → origins.length = given.timesDrawn l p := by
  unfold validateData at hvalid
  split at hvalid
  · exact absurd haccepted (Except.ok.inj hvalid ▸ nofun)
  · next given hread =>
    obtain ⟨hfindings, htraced⟩ := Document.accepted_redrawn hvalid haccepted
    have hstart := htraced.startsWithMove (Document.findings_eq_nil_iff.mp hfindings).moves
    have hlaid := Document.resolve_redrawn (Document.resolved_of_accepted hread hvalid haccepted) hstart hresolved
    refine ⟨given, hread, ?_, ?_⟩
    · have hdrawn := hlaid.trans (Document.fit_redrawn hfit) fun _ _ _ _ _ _ hp hp' => hp.traced hp'
      refine htraced.trans hdrawn ?_
      intro l l' p p' p'' hl hp hrepeated
      -- the layouts were read from the data, and neither the move nor the cleaning touches them
      have hlayout : d.layoutOf l' p' = given.layoutOf l p :=
        layoutOf_congr htraced.layout hl.layout (by rw [hp.frame]; rfl)
      rw [hlayout, EffectiveLayout.copies_eq_times] at hrepeated
      exact hp.repeated hrepeated
    · intro l p s base origins horigins
      rw [Stage.length_positions horigins]
      exact EffectiveLayout.copies_eq_times _

end

/-- Tiles in a grid, spokes around a point that get their layout from their layer, and a line that stays where it
is. -/
def mosaicDesign : Fields Rat := [
  ("canvas", .obj [("width", .ofInt 100), ("height", .ofInt 100)]),
  ("layers", .arr [
    .obj [("id", .str "tiles"), ("paths", .arr [.obj [("id", .str "tile"),
      ("layout", .obj [("region", .str "top_left"),
        ("repeat", .obj [("type", .str "grid"), ("count", .arr [.ofInt 3, .ofInt 2])])]),
      ("commands", .arr [
        .obj [("cmd", .str "M"), ("coords", .arr [.ofInt 0, .ofInt 0])],
        .obj [("cmd", .str "L"), ("coords", .arr [.ofInt 4, .ofInt 8])],
        .obj [("cmd", .str "Z")]])]])],
    .obj [("id", .str "ring"),
      ("layout", .obj [("repeat", .obj [("type", .str "radial"), ("count", .arr [.ofInt 2, .ofInt 9])])]),
      ("paths", .arr [
        .obj [("id", .str "spoke"), ("commands", .arr [
          .obj [("cmd", .str "M"), ("coords", .arr [.ofInt 0, .ofInt 0])],
          .obj [("cmd", .str "L"), ("coords", .arr [.ofInt 900, .ofInt 30])]])],
        .obj [("id", .str "blank"), ("commands", .arr [])]])],
    .obj [("id", .str "line"), ("paths", .arr [.obj [("id", .str "stroke"), ("commands", .arr [
      .obj [("cmd", .str "M"), ("coords", .arr [.ofInt (-40), .ofInt 20])],
      .obj [("cmd", .str "L"), ("coords", .arr [.ofInt 50, .ofInt 900])]])]])]])]

/-- All that a design goes through up to its frame. -/
def runToFrame [Scalar α] [Trig α] (raw : Fields α) (canvas : Canvas α) (padding : Numeral α) :
    Except (Fault α) (Document α × Framing α) := do
  let o ← validateData raw (some canvas)
  let d ← o.accepted?.elim (.error .emptyCache) .ok
  let r ← d.resolve
  r.fit padding

theorem exists_of_runToFrame [Scalar α] [Trig α] {raw : Fields α} {canvas : Canvas α} {padding : Numeral α}
    {f : Document α} {framing : Framing α} (h : runToFrame raw canvas padding = .ok (f, framing)) :
    ∃ o d r, validateData raw (some canvas) = .ok o ∧ o.accepted? = some d ∧ d.resolve = .ok r ∧
      r.fit padding = .ok (f, framing) := by
  obtain ⟨o, ho, h⟩ := bind_eq_ok_iff.mp h
  obtain ⟨d, hd, h⟩ := bind_eq_ok_iff.mp h
  obtain ⟨r, hr, hf⟩ := bind_eq_ok_iff.mp h
  cases haccepted : o.accepted? with
  | none => simp [haccepted] at hd
  | some d' =>
    obtain rfl : d' = d := by simpa [haccepted] using hd
    exact ⟨o, d', r, ho, haccepted, hr, hf⟩

theorem accepted_paths_kept_mosaic :
    letI := Trig.flat
    ∃ o d r f framing given, validateData mosaicDesign (some (.ofAspect .square)) = .ok o ∧
      o.accepted? = some d ∧ d.resolve = .ok r ∧ r.fit (.real 0.15) = .ok (f, framing) ∧
      Document.readFields (withoutResolved mosaicDesign) = .valid given ∧
      given.Redrawn (fun l p p' => p.Repeated (given.timesDrawn l p) p') f ∧
      ∀ l p (s : Stage Rat) base origins,
        s.positions (given.layoutOf l p) base = .ok origins → origins.length = given.timesDrawn l p := by
  let _ := Trig.flat
  have hruns : (runToFrame mosaicDesign (.ofAspect .square) (.real 0.15)).toOption.isSome = true := by
    decide +kernel
  obtain ⟨⟨f, framing⟩, h⟩ := exists_ok_of_isSome hruns
  obtain ⟨o, d, r, ho, ha, hr, hf⟩ := exists_of_runToFrame h
  obtain ⟨given, hkept⟩ := accepted_paths_kept ho ha hr hf
  exact ⟨o, d, r, f, framing, given, ho, ha, hr, hf, hkept⟩

end Drawing
