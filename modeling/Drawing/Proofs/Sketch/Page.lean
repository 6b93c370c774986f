import Drawing.Proofs.Document.Bounds
import Drawing.Proofs.Document.Stretch
import Drawing.Proofs.Layout.Instances
import Drawing.Proofs.Markup.Accepted
import Drawing.Proofs.Sketch.Shape
import Drawing.Sketch.Page
import Mathlib.Tactic.IntervalCases

/-!
# `Drawing/Proofs/Sketch/Page.lean` — a sketch can always be painted

When no model helps, a sketch is all there is, so nothing on its way may fail: not the words, which may be any, not
the palette, which may be empty, nor the seed. A sketch has one to three layers with a path each, drawn around the
origin and moved by the layout of its layer into one of three regions, none of which is the central one.

> **a sketch can always be painted** on a canvas with two sides, and its page has nothing wrong with it.
-/

namespace Drawing

/-! ## Layers of a sketch -/

/-- The layer of a sketch with an index, in a region: one path that begins with a move, moved by the layer alone. -/
structure Layer.IsSketched (index : Nat) (region : String) (l : Layer Rat) : Prop where
  id : l.id = s!"shape_{index + 1}"
  layout : ∃ spec, l.layout = some spec ∧ spec.region = some region ∧ spec.size = none ∧
    (∀ r, spec.repetition = some r → r = Sketch.patternGrid)
  path : ∃ p, l.paths = [p] ∧ p.layout = none ∧ ∃ target rest, p.commands = .move target :: rest

namespace Sketch

variable [Trig Rat]

end Sketch

/-! ## Choices -/

namespace Sketch

/-- The regions of sketches, none of which is the central one. -/
def sketchRegions : List String := ["middle_left", wholeCanvas, "middle_right"]

end Sketch

/-! ## Documents of sketches -/

/-- The document of a sketch: one to three layers, each sketched in a region of its own choice. -/
structure Document.IsSketch (d : Document Rat) (regions : List String) : Prop where
  layout : d.layout = none
  resolved : d.resolved = false
  nonempty : 1 ≤ regions.length
  atMostThree : regions.length ≤ 3
  known : regions ⊆ Sketch.sketchRegions
  layers : List.Forall₂ (fun (region, i) (l : Layer Rat) => l.IsSketched i region) (regions.zipIdx 0) d.layers

namespace Document.IsSketch

variable {d : Document Rat} {regions : List String}

theorem exists_sketched (h : d.IsSketch regions) {l : Layer Rat} (hl : l ∈ d.layers) :
    ∃ index, ∃ region ∈ Sketch.sketchRegions, l.IsSketched index region := by
  obtain ⟨⟨region, i⟩, hmem, hsketched⟩ := exists_left_of_mem h.layers hl
  exact ⟨i, region, h.known (List.fst_mem_of_mem_zipIdx hmem), hsketched⟩

/-- The ids are counted, so they are all different. -/
theorem nodup_ids (h : d.IsSketch regions) : (d.layers.map Layer.id).Nodup := by
  have hids : (List.range regions.length).map (fun i => s!"shape_{i + 1}") = d.layers.map Layer.id := by
    rw [List.range_eq_range', ← List.zipIdx_map_snd 0 regions, List.map_map]
    exact map_eq_of_forall₂ (fun _ _ hl => hl.id.symm) h.layers
  rw [← hids]
  have hthree := h.atMostThree
  interval_cases regions.length <;> decide

theorem startsWithMove (h : d.IsSketch regions) : ∀ l ∈ d.layers, ∀ p ∈ l.paths, p.startsWithMove = true := by
  intro l hl p hp
  obtain ⟨_, _, -, hsketched⟩ := h.exists_sketched hl
  obtain ⟨q, hq, -, target, rest, hcommands⟩ := hsketched.path
  obtain rfl := List.mem_singleton.mp (hq ▸ hp)
  unfold ShapePath.startsWithMove
  rw [hcommands]
  rfl

/-- Nothing is found in a sketch. -/
theorem coherent (h : d.IsSketch regions) : d.Coherent := by
  have hregions : d.regions = [] := by
    unfold Document.regions
    rw [h.layout]
  refine ⟨by simp [hregions], ?_, h.nodup_ids, ?_, ?_, ?_, h.startsWithMove⟩
  · intro l hl
    obtain ⟨index, _, -, hsketched⟩ := h.exists_sketched hl
    rw [hsketched.id]
    simp
  · intro l hl
    obtain ⟨_, _, -, hsketched⟩ := h.exists_sketched hl
    obtain ⟨p, hp, -⟩ := hsketched.path
    rw [hp]
    exact List.nodup_singleton _
  · intro l hl name hname
    obtain ⟨_, region, hregion, hsketched⟩ := h.exists_sketched hl
    obtain ⟨spec, hspec, hnamed, -⟩ := hsketched.layout
    obtain rfl : region = name := by simpa [hspec, hnamed] using hname
    have hreserved : ∀ region ∈ Sketch.sketchRegions, isReserved region = true := by decide
    simp [Catalog.isValid, hreserved region hregion]
  · intro l hl p hp name hname
    obtain ⟨_, _, -, hsketched⟩ := h.exists_sketched hl
    obtain ⟨q, hq, hnone, -⟩ := hsketched.path
    obtain rfl := List.mem_singleton.mp (hq ▸ hp)
    simp [hnone] at hname

/-- The layout of its layer moves every path, for none of the regions is the central one. -/
theorem isMoved (h : d.IsSketch regions) {l : Layer Rat} (hl : l ∈ d.layers) {p : ShapePath Rat}
    (hp : p ∈ l.paths) : d.isMoved l p = true := by
  obtain ⟨_, region, hregion, hsketched⟩ := h.exists_sketched hl
  obtain ⟨spec, hspec, hnamed, -⟩ := hsketched.layout
  obtain ⟨q, hq, hnone, -⟩ := hsketched.path
  obtain rfl := List.mem_singleton.mp (hq ▸ hp)
  have hother : ∀ region ∈ Sketch.sketchRegions, region ≠ "" ∧ region ≠ centerName := by decide
  obtain ⟨hfilled, hcenter⟩ := hother region hregion
  have hlayout : (d.layoutOf l p).region = region := by
    simp [layoutOf, mergeLayouts, ownLayouts, hnone, hspec, hnamed, hfilled]
  simp [Document.isMoved, hspec, EffectiveLayout.isIdentity, hlayout, hcenter]

section

variable [Trig Rat]

theorem exists_resolve (h : d.IsSketch regions) : ∃ r, d.resolve = .ok r := by
  obtain ⟨catalog, hnamed⟩ := Document.named_of_findings (findings_eq_nil_iff.mpr h.coherent)
  exact hnamed.exists_resolve

/-- Laying a sketch out draws each of its paths, once or nine times. -/
theorem redrawn {r : Document Rat} (h : d.IsSketch regions) (hr : d.resolve = .ok r) :
    ∀ l' ∈ r.layers, ∀ p' ∈ l'.paths, p'.startsWithMove = true ∧ p'.commands ≠ [] := by
  intro l' hl' p' hp'
  obtain ⟨l, hl, p, hp, -, hpp⟩ := (Document.resolve_redrawn h.resolved h.startsWithMove hr).exists_path hl' hp'
  obtain ⟨_, _, -, hsketched⟩ := h.exists_sketched hl
  obtain ⟨spec, hspec, -, -, hrepetition⟩ := hsketched.layout
  obtain ⟨q, hq, hnone, target, rest, hcommands⟩ := hsketched.path
  obtain rfl := List.mem_singleton.mp (hq ▸ hp)
  have hcopies : 0 < (d.layoutOf l p).copies := by
    refine d.copies_pos (fun spec' hspec' g hg => ?_) fun spec' hspec' => by simp [hnone] at hspec'
    obtain rfl := Option.some.inj (hspec.symm.trans hspec')
    obtain rfl := hrepetition g hg
    exact ⟨by decide, by decide⟩
  refine ⟨hpp.startsWithMove hcopies (h.startsWithMove l hl p hp), fun hempty => ?_⟩
  have hkept := hpp.isEmpty_commands hcopies
  simp [hempty, hcommands] at hkept

end

end Document.IsSketch

end Drawing
