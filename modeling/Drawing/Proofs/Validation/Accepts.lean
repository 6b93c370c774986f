import Drawing.Proofs.Path.Points
import Drawing.Proofs.Validation.Findings

/-!
# `Drawing/Proofs/Validation/Accepts.lean` — which data validation accepts

`Document.Coherent` says of a document what validation looks at: the defect of a box, the catalog that registration
leaves behind. What a good document is can be told without either, from its fields alone (`Document.Good`). The two
differ in one point, the regions that exist: validation asks the catalog, which holds only those that could be
registered. Where all of them could, it holds exactly those that the document lists.

> **Data is accepted exactly if, without its mark of being resolved, it is a document, and a good one.**
-/

namespace Drawing

variable {α : Type} [Scalar α]

/-! ## Good documents -/

/-- A box inside the unit square. Its far edges may lie a billionth past it, so that rounded thirds still fit. -/
structure Box.InUnitSquare (b : Box α) : Prop where
  left : Scalar.zero ≤ b.x ∧ b.x ≤ Scalar.one
  top : Scalar.zero ≤ b.y ∧ b.y ≤ Scalar.one
  width : Scalar.zero < b.width ∧ b.width ≤ Scalar.one
  height : Scalar.zero < b.height ∧ b.height ≤ Scalar.one
  -- stated as what the edges are not, so that it asks for nothing of the order
  right : ¬ Scalar.one + Scalar.ofRat 1e-9 < b.x + b.width
  bottom : ¬ Scalar.one + Scalar.ofRat 1e-9 < b.y + b.height

/-- A region that the document may name: a reserved one, or one of its own. -/
def Document.HasRegion (d : Document α) (region : String) : Prop :=
  region ∈ reservedNames ∨ ∃ r ∈ d.regions, r.name = region

/-- A document with layers, with regions of its own inside the canvas and under names of their own, with ids that are
there and all different, that names no region it does not have, and whose paths begin with a move. -/
structure Document.Good (d : Document α) : Prop where
  layers : d.layers ≠ []
  regionNames : ∀ r ∈ d.regions, r.name ∉ reservedNames
  regionBoxes : ∀ r ∈ d.regions, r.bounds.InUnitSquare
  layerIds : ∀ l ∈ d.layers, l.id ≠ ""
  distinctLayers : (d.layers.map Layer.id).Nodup
  distinctPaths : ∀ l ∈ d.layers, (l.paths.map ShapePath.id).Nodup
  layerRegions : ∀ l ∈ d.layers, ∀ layout region, l.layout = some layout → layout.region = some region →
    d.HasRegion region
  pathRegions : ∀ l ∈ d.layers, ∀ p ∈ l.paths, ∀ layout region, p.layout = some layout →
    layout.region = some region → d.HasRegion region
  moves : ∀ l ∈ d.layers, ∀ p ∈ l.paths, ∀ c rest, p.commands = c :: rest → c.letter = .move

/-! ## What registration refuses -/

theorem Catalog.boxDefect?_eq_none_iff {b : Box α} : boxDefect? b = none ↔ b.InUnitSquare := by
  unfold boxDefect?
  dsimp only
  constructor
  · intro h
    split_ifs at h with horigin hsize hedge
    simp only [Bool.not_eq_true, Bool.not_eq_false', Bool.and_eq_true, decide_eq_true_iff] at horigin hsize
    simp only [Bool.or_eq_true, decide_eq_true_iff, not_or] at hedge
    exact ⟨horigin.1, horigin.2, hsize.1, hsize.2, hedge.1, hedge.2⟩
  · rintro ⟨hx, hy, hw, hh, hright, hbottom⟩
    have hedge : ¬ (edgeLimit < b.right ∨ edgeLimit < b.bottom) := not_or.mpr ⟨hright, hbottom⟩
    simp [hx, hy, hw, hh, hedge]

theorem Catalog.defect?_eq_none_iff {name : String} {b : Box α} :
    defect? name b = none ↔ name ∉ reservedNames ∧ b.InUnitSquare := by
  unfold defect?
  by_cases hreserved : name ∈ reservedNames
  · simp [isReserved, hreserved]
  · simp [isReserved, hreserved, boxDefect?_eq_none_iff]

/-! ## Which regions exist -/

/-- Where nothing is refused, a region is registered exactly if it was before or is among the new ones. -/
theorem isValid_registerValid_iff {catalog : Catalog α} {regions : List (CustomRegion α)} {region : String}
    (h : ∀ r ∈ regions, Catalog.defect? r.name r.bounds = none) :
    (registerValid catalog regions).1.isValid region = true ↔
      catalog.isValid region = true ∨ ∃ r ∈ regions, r.name = region := by
  induction regions generalizing catalog with
  | nil => simp [registerValid]
  | cons r rest ih =>
    obtain ⟨hr, hrest⟩ := List.forall_mem_cons.mp h
    unfold registerValid
    rw [hr, ih hrest, List.exists_mem_cons_iff]
    simp only [Catalog.isValid, Bool.or_eq_true, Table.has_put_iff, @eq_comm _ region]
    tauto

theorem Document.regionKnown_iff {d : Document α} {layout : Option (LayoutSpec α)}
    (h : ∀ r ∈ d.regions, Catalog.defect? r.name r.bounds = none) :
    RegionKnown (registerValid .empty d.regions).1 layout ↔
      ∀ spec region, layout = some spec → spec.region = some region → d.HasRegion region := by
  have hempty (region : String) :
      (Catalog.empty : Catalog α).isValid region = true ↔ region ∈ reservedNames := by
    simp [Catalog.isValid, Catalog.empty, isReserved, Table.has]
  simp only [RegionKnown, isValid_registerValid_iff h, hempty, HasRegion]
  constructor
  · rintro hknown spec region rfl hregion
    exact hknown region hregion
  · intro hknown region hregion
    obtain ⟨spec, hlayout, hregion⟩ := Option.bind_eq_some_iff.mp hregion
    exact hknown spec region hlayout hregion

omit [Scalar α] in
theorem ShapePath.startsWithMove_iff_commands {p : ShapePath α} :
    p.startsWithMove = true ↔ ∀ c rest, p.commands = c :: rest → c.letter = .move := by
  unfold startsWithMove
  cases p.commands with
  | nil => simp
  | cons c rest =>
    show (c.letter == .move) = true ↔ _
    constructor
    · rintro h _ _ ⟨⟩
      exact eq_of_beq h
    · intro h
      exact beq_iff_eq.mpr (h c rest rfl)

/-- A document with layers is good exactly if it holds together. -/
theorem Document.good_iff {d : Document α} : d.Good ↔ d.layers ≠ [] ∧ d.Coherent := by
  constructor
  · intro h
    have hregions : ∀ r ∈ d.regions, Catalog.defect? r.name r.bounds = none := fun r hr =>
      Catalog.defect?_eq_none_iff.mpr ⟨h.regionNames r hr, h.regionBoxes r hr⟩
    exact ⟨h.layers, hregions, h.layerIds, h.distinctLayers, h.distinctPaths,
      fun l hl => (regionKnown_iff hregions).mpr (h.layerRegions l hl),
      fun l hl p hp => (regionKnown_iff hregions).mpr (h.pathRegions l hl p hp),
      fun l hl p hp => ShapePath.startsWithMove_iff_commands.mpr (h.moves l hl p hp)⟩
  · rintro ⟨hlayers, h⟩
    have hregions (r) (hr : r ∈ d.regions) := Catalog.defect?_eq_none_iff.mp (h.regions r hr)
    exact ⟨hlayers, fun r hr => (hregions r hr).1, fun r hr => (hregions r hr).2, h.layerIds,
      h.distinctLayers, h.distinctPaths,
      fun l hl => (regionKnown_iff h.regions).mp (h.layerRegions l hl),
      fun l hl p hp => (regionKnown_iff h.regions).mp (h.pathRegions l hl p hp),
      fun l hl p hp => ShapePath.startsWithMove_iff_commands.mp (h.moves l hl p hp)⟩

/-! ## Validation -/

/-- A document on its own canvas is validated without a fault, and the outcome tells whether it is good and whether
it has layers. -/
theorem Document.validate_own (d : Document α) :
    ∃ o, d.validate none = .ok o ∧ (o.isOk = true ↔ d.Good) ∧
      (o.isStructural = true ↔ d.layers ≠ [] ∧ ¬ d.Good) := by
  simp only [good_iff, ← findings_eq_nil_iff]
  unfold validate
  cases hlayers : d.layers with
  | nil => exact ⟨.noLayers, rfl, by simp [Outcome.isOk], by simp [Outcome.isStructural]⟩
  | cons l rest =>
    cases hfound : d.findings.1 with
    | nil =>
      refine ⟨.accepted d.sanitize d.findings.2 none d.strays, ?_, by simp [Outcome.isOk], ?_⟩
      · simp [hfound, conformTo]
      · simp [Outcome.isStructural]
    | cons e es =>
      refine ⟨.misfit d (e :: es) d.findings.2, ?_, by simp [Outcome.isOk], ?_⟩
      · simp [hfound]
      · simp [Outcome.isStructural]

/-- **Validation accepts exactly the good documents.** Data that is not accepted is marked as structurally wrong
exactly if it is a document with layers. -/
theorem validateData_accepts_iff (raw : Fields α) :
    ∃ o, validateData raw none = .ok o ∧
      (o.isOk = true ↔ ∃ d, Document.readFields (withoutResolved raw) = .valid d ∧ d.Good) ∧
      (o.isStructural = true ↔
        (∃ d, Document.readFields (withoutResolved raw) = .valid d ∧ d.layers ≠ []) ∧ o.isOk = false) := by
  unfold validateData
  cases hread : Document.readFields (withoutResolved raw) with
  | invalid complaints =>
    exact ⟨.malformed complaints, rfl, by simp [Outcome.isOk], by simp [Outcome.isStructural]⟩
  | valid d =>
    obtain ⟨o, ho, hok, hstructural⟩ := d.validate_own
    refine ⟨o, ho, ?_, ?_⟩
    · simpa using hok
    · rw [hstructural, ← Bool.not_eq_true, hok]
      simp

end Drawing
