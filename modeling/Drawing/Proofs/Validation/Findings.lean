import Drawing.Proofs.Table
import Drawing.Validation.Outcome
import Mathlib.Data.List.Nodup

/-!
# `Drawing/Proofs/Validation/Findings.lean` — documents without findings

Validation goes through a document once, with the ids it has seen so far and the regions it could register. What it
asks for has nothing to do with the order in which it looks: custom regions that may be registered, ids that are all
different, regions that exist, and paths that begin with a move. A document has these (`Document.Coherent`) exactly
if nothing is found.
-/

namespace Drawing

variable {α : Type}

/-- The region that a layout names, if it names one, is in a catalog. -/
def RegionKnown (catalog : Catalog α) (layout : Option (LayoutSpec α)) : Prop :=
  ∀ region, layout.bind LayoutSpec.region = some region → catalog.isValid region = true

theorem regionErrors_eq_nil_iff {catalog : Catalog α} {owner : String}
    {layout : Option (LayoutSpec α)} :
    regionErrors catalog owner layout = [] ↔ RegionKnown catalog layout := by
  unfold regionErrors RegionKnown
  cases layout.bind LayoutSpec.region with
  | none => simp
  | some region => simp

/-! ## Ids -/

theorem idErrors_eq_nil_iff {seen : List String} {id : String} :
    idErrors seen id = [] ↔ id ≠ "" ∧ id ∉ seen := by
  unfold idErrors
  split_ifs with hempty hseen
  · simp [hempty]
  · simpa [hempty] using hseen
  · simpa [hempty] using hseen

theorem pathErrors_eq_nil_iff {catalog : Catalog α} {layer : String} {seen : List String}
    {paths : List (ShapePath α)} :
    pathErrors catalog layer seen paths = [] ↔
      (∀ p ∈ paths, p.id ∉ seen) ∧ (paths.map ShapePath.id).Nodup ∧
        ∀ p ∈ paths, RegionKnown catalog p.layout := by
  -- an id is new to the rest of the list if it is new to all that was seen, with this one among it
  induction paths generalizing seen with
  | nil => simp [pathErrors]
  | cons p rest ih =>
    have hseen : (if seen.contains p.id then [LayerError.samePathId p.id layer] else []) = [] ↔
        p.id ∉ seen := by simp
    simp only [pathErrors, List.append_eq_nil_iff, hseen, regionErrors_eq_nil_iff, ih,
      List.forall_mem_cons, List.map_cons, List.nodup_cons, List.mem_map]
    constructor
    · rintro ⟨⟨hp, hregion⟩, hrest, hnodup, hregions⟩
      refine ⟨⟨hp, fun q hq => List.not_mem_of_not_mem_cons (hrest q hq)⟩, ⟨?_, hnodup⟩, hregion, hregions⟩
      rintro ⟨q, hq, hid⟩
      exact List.ne_of_not_mem_cons (hrest q hq) hid
    · rintro ⟨⟨hp, hrest⟩, ⟨hnew, hnodup⟩, hregion, hregions⟩
      exact ⟨⟨hp, hregion⟩, fun q hq => List.not_mem_cons_of_ne_of_not_mem (fun hid => hnew ⟨q, hq, hid⟩)
        (hrest q hq), hnodup, hregions⟩

theorem layerErrors_eq_nil_iff {catalog : Catalog α} {seen : List String} {layers : List (Layer α)} :
    layerErrors catalog seen layers = [] ↔
      (∀ l ∈ layers, l.id ≠ "" ∧ l.id ∉ seen) ∧ (layers.map Layer.id).Nodup ∧
        ∀ l ∈ layers, RegionKnown catalog l.layout ∧ pathErrors catalog l.id [] l.paths = [] := by
  induction layers generalizing seen with
  | nil => simp [layerErrors]
  | cons l rest ih =>
    simp only [layerErrors, List.append_eq_nil_iff, idErrors_eq_nil_iff, regionErrors_eq_nil_iff, ih,
      List.forall_mem_cons, List.map_cons, List.nodup_cons, List.mem_append, List.mem_singleton, not_or,
      List.mem_map]
    constructor
    · rintro ⟨⟨⟨hl, hregion⟩, hpaths⟩, hrest, hnodup, hall⟩
      refine ⟨⟨hl, fun m hm => ⟨(hrest m hm).1, (hrest m hm).2.1⟩⟩, ⟨?_, hnodup⟩, ⟨hregion, hpaths⟩, hall⟩
      rintro ⟨m, hm, hid⟩
      exact (hrest m hm).2.2 hid
    · rintro ⟨⟨hl, hrest⟩, ⟨hnew, hnodup⟩, ⟨hregion, hpaths⟩, hall⟩
      exact ⟨⟨⟨hl, hregion⟩, hpaths⟩,
        fun m hm => ⟨(hrest m hm).1, (hrest m hm).2, fun hid => hnew ⟨m, hm, hid⟩⟩, hnodup, hall⟩

/-! ## Moves -/

theorem Document.moveErrors_eq_nil_iff {d : Document α} :
    d.moveErrors = [] ↔ ∀ l ∈ d.layers, ∀ p ∈ l.paths, p.startsWithMove = true := by
  simp only [moveErrors, paths, List.map_eq_nil_iff, List.filter_eq_nil_iff, List.mem_flatMap,
    List.mem_map, Bool.not_eq_true, Bool.not_eq_false']
  constructor
  · intro h l hl p hp
    exact h (l, p) ⟨l, hl, p, hp, rfl⟩
  · rintro h _ ⟨l, hl, p, hp, rfl⟩
    exact h l hl p hp

/-! ## Custom regions -/

section

variable [Scalar α]

theorem registerValid_eq_nil_iff {catalog : Catalog α} {regions : List (CustomRegion α)} :
    (registerValid catalog regions).2 = [] ↔ ∀ r ∈ regions, Catalog.defect? r.name r.bounds = none := by
  induction regions generalizing catalog with
  | nil => simp [registerValid]
  | cons r rest ih =>
    unfold registerValid
    cases hd : Catalog.defect? r.name r.bounds with
    | some defect => simp [hd]
    | none => simp [hd, ih]

/-- Registering goes through where validation finds nothing, and comes to the same catalog. -/
theorem registerAll_of_registerValid {catalog : Catalog α} {regions : List (CustomRegion α)}
    (h : (registerValid catalog regions).2 = []) :
    catalog.registerAll regions = .ok (registerValid catalog regions).1 := by
  induction regions generalizing catalog with
  | nil => rfl
  | cons r rest ih =>
    unfold registerValid at h ⊢
    unfold Catalog.registerAll Catalog.register
    cases hd : Catalog.defect? r.name r.bounds with
    | some defect => simp [hd] at h
    | none =>
      simp only [hd] at h ⊢
      exact ih h

/-- A region that may be registered is, and a region that is registered stays so. -/
theorem isValid_registerValid {catalog : Catalog α} {regions : List (CustomRegion α)} {region : String}
    (h : catalog.isValid region = true ∨
      ∃ r ∈ regions, r.name = region ∧ Catalog.defect? r.name r.bounds = none) :
    (registerValid catalog regions).1.isValid region = true := by
  -- registering adds to the catalog only, so whatever is valid on the way is valid in the end
  induction regions generalizing catalog with
  | nil => simpa [registerValid] using h
  | cons r rest ih =>
    unfold registerValid
    split
    · next defect hd =>
      refine ih (h.imp_right ?_)
      rintro ⟨q, hq, hname, hfit⟩
      rcases List.mem_cons.mp hq with rfl | hq
      · exact nomatch hd.symm.trans hfit
      · exact ⟨q, hq, hname, hfit⟩
    · refine ih ?_
      simp only [Catalog.isValid, Bool.or_eq_true, Table.has_put_iff] at h ⊢
      rcases h with (h | h) | ⟨q, hq, hname, hfit⟩
      · exact .inl (.inl h)
      · exact .inl (.inr (.inr h))
      · rcases List.mem_cons.mp hq with rfl | hq
        · exact .inl (.inr (.inl hname.symm))
        · exact .inr ⟨q, hq, hname, hfit⟩

/-! ## Documents -/

/-- A document that holds together: its custom regions may be registered, its ids are there and all different, it
names no region that does not exist, and its paths begin with a move. -/
structure Document.Coherent (d : Document α) : Prop where
  regions : ∀ r ∈ d.regions, Catalog.defect? r.name r.bounds = none
  layerIds : ∀ l ∈ d.layers, l.id ≠ ""
  distinctLayers : (d.layers.map Layer.id).Nodup
  distinctPaths : ∀ l ∈ d.layers, (l.paths.map ShapePath.id).Nodup
  layerRegions : ∀ l ∈ d.layers, RegionKnown (registerValid .empty d.regions).1 l.layout
  pathRegions : ∀ l ∈ d.layers, ∀ p ∈ l.paths, RegionKnown (registerValid .empty d.regions).1 p.layout
  moves : ∀ l ∈ d.layers, ∀ p ∈ l.paths, p.startsWithMove = true

/-- **Nothing is found in a document exactly if it holds together.** -/
theorem Document.findings_eq_nil_iff {d : Document α} : d.findings.1 = [] ↔ d.Coherent := by
  simp only [findings, layerReport, List.append_eq_nil_iff, List.map_eq_nil_iff, registerValid_eq_nil_iff,
    layerErrors_eq_nil_iff, pathErrors_eq_nil_iff, moveErrors_eq_nil_iff]
  constructor
  · rintro ⟨⟨hregions, hids, hnodup, hlayers⟩, hmoves⟩
    exact ⟨hregions, fun l hl => (hids l hl).1, hnodup, fun l hl => (hlayers l hl).2.2.1,
      fun l hl => (hlayers l hl).1, fun l hl => (hlayers l hl).2.2.2, hmoves⟩
  · intro h
    exact ⟨⟨h.regions, fun l hl => ⟨h.layerIds l hl, List.not_mem_nil⟩, h.distinctLayers,
      fun l hl => ⟨h.layerRegions l hl, fun _ _ => List.not_mem_nil, h.distinctPaths l hl,
        h.pathRegions l hl⟩⟩, h.moves⟩

end

end Drawing
