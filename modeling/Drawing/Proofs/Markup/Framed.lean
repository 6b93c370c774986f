import Drawing.Proofs.Markup.ReadBack
import Drawing.Proofs.Viewport.Framed

/-!
# `Drawing/Proofs/Markup/Framed.lean` — pages that are framed

The view box of a page and the coordinates of its paths are texts. They are read as the exact numbers that they stand
for, whatever scalars they were written of; no scalar has to be near a hundredth for that.

> **a page is framed** if the document is (`Document.isFramed_of_frames`), the box and the points taken at their exact
> values and rounded to hundredths.
-/

namespace Drawing

/-- A page whose view box has sides and holds every pair of coordinates in its path data, by the numbers that are
written there. -/
def IsFramed (markup : String) : Prop :=
  ∃ box : Box Rat, readViewBox? markup = some box.toList ∧ 0 < box.width ∧ 0 < box.height ∧
    ∀ entry ∈ readPathTags markup, ∃ data, entry.get? "d" = some data ∧
      ∃ commands, readCommands? data = some commands ∧ ∀ p ∈ pointsOf commands, box.contains p = true

variable {α : Type} [Scalar α] [NearlyExact α] {box : Box α}

theorem Box.isNumberText (h : box.IsFinite) :
    List.Forall₂ IsNumberText (box.toList.map coordinateText) box.toRat.rounded.toList := by
  have hnumber {x : α} (hx : Scalar.isFinite x = true) :
      IsNumberText (coordinateText x) (roundRat 2 (Scalar.toRat x)) := by
    rw [← coordinateText_toRat hx, ← Scalar.printed_exact]
    exact isNumberText_coordinateText _
  obtain ⟨hx, hy, hw, hh⟩ := h
  exact .cons (hnumber hx) (.cons (hnumber hy) (.cons (hnumber hw) (.cons (hnumber hh) .nil)))

variable [DecimalText α] [Trig α] {d : Document α} {markup : String}

/-- The view box of a page is read as the exact one, rounded to hundredths. -/
theorem Document.readViewBox?_toRat (hm : d.markup = .ok markup) (hbox : d.canvas.viewBox = some box)
    (hfinite : box.IsFinite) : readViewBox? markup = some box.toRat.rounded.toList := by
  have htext : d.canvas.viewBoxText = " ".intercalate (box.toList.map coordinateText) := by
    unfold Canvas.viewBoxText
    rw [hbox]
    rfl
  exact readViewBox?_of_text hm htext (Box.isNumberText hfinite)

/-- **A page is framed** if its document is. -/
theorem Document.isFramed_of_frames (hm : d.markup = .ok markup) (hresolved : d.resolve = .ok d) (hd : d.IsFinite)
    (hbox : d.canvas.viewBox = some box) (hfinite : box.IsFinite)
    (hframes : box.toRat.Frames ((pointsOf d.commands).map Point.toRat)) : IsFramed markup := by
  refine ⟨box.toRat.rounded, readViewBox?_toRat hm hbox hfinite, hframes.width, hframes.height, fun entry hentry => ?_⟩
  rw [readPathTags_markup hresolved hm] at hentry
  obtain ⟨p, hp, rfl⟩ := List.mem_map.mp hentry
  obtain ⟨l, hl, hp⟩ := mem_paintedPaths.mp hp
  refine ⟨_, p.isEntry_inside.data, _, readCommands?_pathData_toRat (hd l hl p hp), fun q hq => ?_⟩
  rw [pointsOf_map, pointsOf_toRat, List.map_map] at hq
  obtain ⟨q₀, hq₀, rfl⟩ := List.mem_map.mp hq
  have hdrawn : ∀ l ∈ d.layers, ∀ p ∈ l.paths, ∀ q ∈ pointsOf p.commands,
      box.toRat.rounded.contains q.toRat.rounded = true :=
    forall_mem_points_iff.mp fun q hq => hframes.contains _ (List.mem_map_of_mem hq)
  exact hdrawn l hl p hp q₀ hq₀

/-- What is laid out and framed on the canvas of a request: its view box is printed as it is, and the page is framed
unless what is drawn is a speck. -/
theorem Document.isFramed_of_fit [HoldsSides α] [StaysFinite α] {raw : Fields α} {a : Aspect} {o : Outcome α}
    {read resolved : Document α} {framing : Framing α} (hvalid : validateData raw (some (.ofAspect a)) = .ok o)
    (haccepted : o.accepted? = some read) (hresolve : read.resolve = .ok resolved)
    (hfit : resolved.fit (.real defaultPadding) = .ok (d, framing)) (hm : d.markup = .ok markup) :
    d.canvas.viewBox = some framing.viewBox ∧ readViewBox? markup = some framing.viewBox.toRat.rounded.toList ∧
      ((Drawing.extent ((pointsOf d.commands).map Point.toRat)).IsLegible → IsFramed markup) := by
  have hon := heldOn_of_resolve hvalid haccepted hresolve
  have hsize : resolved.size = a.size := (size_resolve hresolve).trans (size_of_validateData hvalid haccepted)
  obtain ⟨hwidth, hheight⟩ := Prod.mk.inj
    (show (resolved.canvas.width, resolved.canvas.height) = (a.size.1, a.size.2) from hsize)
  have hfinite : d.IsFinite :=
    isFinite_fit (isFinite_resolve (accepted_of_validateData hvalid haccepted).finite hresolve) hfit
  have hcommands := commands_fit hfit
  have hresolved := resolve_of_fit hresolve hfit
  obtain ⟨framing', hframe, hframed⟩ := bind_eq_ok_iff.mp hfit
  obtain ⟨rfl, rfl⟩ := Prod.mk.inj (pure_eq_ok_iff.mp hframed)
  rw [hwidth, hheight] at hframe
  obtain ⟨hbox, hframes⟩ := frame_framed hon hframe
  rw [← hcommands] at hframes
  exact ⟨rfl, readViewBox?_toRat hm rfl hbox, fun hlegible =>
    isFramed_of_frames hm hresolved hfinite rfl hbox (hframes hlegible)⟩

end Drawing
