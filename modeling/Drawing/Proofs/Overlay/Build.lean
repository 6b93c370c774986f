import Drawing.Overlay.Build
import Drawing.Proofs.Analysis.Exact
import Drawing.Proofs.Layout.Instances
import Drawing.Proofs.Viewport.Similarity

/-!
# `Drawing/Proofs/Overlay/Build.lean` — an overlay for every document

An overlay looks at a document twice. First at the layouts that layers and paths have themselves: those whose region
is not known are told and passed over, and so is a custom region that is refused. Then the layouts are carried out, but
only if there was nothing to tell. Carrying them out looks at other layouts, those in force for each path that is
moved, and a path may take its region from its layer. It does so only if it has no layout of its own or one that names
no region; in the one case it is put where its layer is, and in the other the layout in force for it was looked at. So
there is nothing left that could fail:

> **an overlay can be built for every document,** whatever is wrong with its layouts.

Numbers are exact here, and sine and cosine any functions.
-/

namespace Drawing

/-! ## The first look -/

section

variable {α : Type} [Scalar α] [DecimalText α] {d : Document α}

/-- What is told of the layouts of a document before any of them is carried out: the custom region that is refused, and
every layout in a region that is not known. -/
def Document.namingErrors (d : Document α) : List String :=
  d.catalogOrEmpty.2 ++ (d.ownedLayouts.filter fun owned => !d.catalogOrEmpty.1.isValid owned.2.region).map fun owned =>
    (Fault.unknownRegion (α := α) owned.2.region).message ++ " on " ++ quoted owned.1

theorem Document.namingErrors_eq_nil_iff :
    d.namingErrors = [] ↔ ∃ catalog, d.catalog = .ok catalog ∧
      ∀ owned ∈ d.ownedLayouts, catalog.isValid owned.2.region = true := by
  unfold namingErrors catalogOrEmpty
  cases d.catalog with
  | error f => simp
  | ok catalog => simp

omit [DecimalText α] in
/-- The layout in force for a path that is moved is one of those that are looked at. -/
theorem Document.exists_owned {l : Layer α} (hl : l ∈ d.layers) {p : ShapePath α} (hp : p ∈ l.paths)
    (hmoved : d.isMoved l p = true) : ∃ owner, (owner, d.layoutOf l p) ∈ d.ownedLayouts := by
  unfold ownedLayouts
  cases hpath : p.layout with
  | some spec =>
    refine ⟨pathOwner l.id p.id, List.mem_append_right _ (List.mem_filterMap.mpr ⟨(l, p), ?_, ?_⟩)⟩
    · exact List.mem_flatMap.mpr ⟨l, hl, List.mem_map_of_mem hp⟩
    · simp [hpath]
  | none =>
    -- a path without a layout is put where its layer is
    have hlayout : d.layoutOf l p = d.layerLayout l := by
      have hown : ownLayouts (some l) (some p) = ownLayouts (some l) none := by simp [ownLayouts, hpath]
      unfold layoutOf layerLayout mergeLayouts
      rw [hown]
    have hlayer : l.layout.isSome = true := by
      unfold isMoved at hmoved
      simpa [hpath] using (Bool.and_eq_true_iff.mp hmoved).1
    obtain ⟨spec, hspec⟩ := Option.isSome_iff_exists.mp hlayer
    refine ⟨l.id, List.mem_append_left _ (List.mem_filterMap.mpr ⟨l, hl, ?_⟩)⟩
    simp [hspec, hlayout]

omit [DecimalText α] in
theorem Document.anchor_of_owned {owned : String × EffectiveLayout α} (h : owned ∈ d.ownedLayouts) :
    ∃ a, Anchor.ofName? owned.2.anchor = some a := by
  rcases List.mem_append.mp h with h | h
  · obtain ⟨l, -, h⟩ := List.mem_filterMap.mp h
    obtain ⟨spec, -, rfl⟩ := Option.map_eq_some_iff.mp h
    exact mergeLayouts_anchor ..
  · obtain ⟨⟨l, p⟩, -, h⟩ := List.mem_filterMap.mp h
    obtain ⟨spec, -, rfl⟩ := Option.map_eq_some_iff.mp h
    exact mergeLayouts_anchor ..

end

/-! ## The parts of an overlay -/

theorem ColourScheme.exists_ofName {α : Type} [DecimalText α] {scheme : Json α}
    (h : ∃ name ∈ ColourScheme.named.names, scheme = .str name) :
    ∃ colours, (ColourScheme.ofName scheme : Except (Fault α) ColourScheme) = .ok colours := by
  obtain ⟨name, hname, rfl⟩ := h
  obtain ⟨⟨n, colours⟩, hmem, rfl⟩ := List.mem_map.mp hname
  have hknown : (ColourScheme.named.find? fun entry => isText entry.1 (.str n : Json α)).isSome = true :=
    List.find?_isSome.mpr ⟨(n, colours), hmem, by simp [isText]⟩
  obtain ⟨found, hfound⟩ := Option.isSome_iff_exists.mp hknown
  exact ⟨found.2, bind_eq_ok_iff.mpr ⟨some found, congrArg Except.ok hfound, rfl⟩⟩

section

variable {s : Stage Rat}

theorem exists_layoutMarks (o : OverlayOptions Rat) (colours : ColourScheme) {owned : String × EffectiveLayout Rat}
    (hregion : s.catalog.isValid owned.2.region = true) (hanchor : ∃ a, Anchor.ofName? owned.2.anchor = some a) :
    ∃ marks, layoutMarks s o colours owned.1 owned.2 = .ok marks := by
  obtain ⟨base, hbase⟩ := (Stage.exists_position_iff hregion hanchor).mpr ⟨_, rfl⟩
  obtain ⟨_, -, hshifted⟩ := bind_eq_ok_iff.mp hbase
  obtain ⟨p, hp, -⟩ := bind_eq_ok_iff.mp hshifted
  unfold layoutMarks
  split
  · refine exists_bind_ok ⟨p, hp⟩ fun _ => ?_
    dsimp only
    generalize (if o.anchors then _ else _ : List (Mark Rat)) = dot
    split_ifs
    · exact exists_bind_ok ⟨base, hbase⟩ fun _ => ⟨_, rfl⟩
    · exact ⟨_, rfl⟩
  · exact ⟨_, rfl⟩

theorem exists_regionMarks (o : OverlayOptions Rat) (colours : ColourScheme) {regions : List String}
    (h : ∀ name ∈ regions, s.catalog.isValid name = true) : ∃ marks, regionMarks s o colours regions = .ok marks := by
  unfold regionMarks
  split_ifs
  · refine (exists_forall₂ fun name hname => ?_).imp fun _ => mapM_eq_ok_iff.mpr
    exact exists_bind_ok ((Stage.exists_regionBox_iff (h name hname)).mpr ⟨_, rfl⟩) fun _ => ⟨_, rfl⟩
  · exact ⟨_, rfl⟩

end

theorem exists_layerBounds [DecimalText Rat] (a : Analyzer Rat) (canvas : Canvas Rat) (layers : List (Layer Rat)) :
    ∃ bounds, layerBounds a canvas layers = .ok bounds := by
  induction layers generalizing a with
  | nil => exact ⟨_, rfl⟩
  | cons l rest ih =>
    obtain ⟨m, hm⟩ := a.exists_measure l canvas.width canvas.height
    unfold layerBounds
    dsimp only
    rw [hm]
    exact exists_bind_ok ⟨m, rfl⟩ fun _ => exists_bind_ok (ih _) fun _ => ⟨_, rfl⟩

theorem Extent.exists_isClipped (e : Extent Rat) (x y width height : Numeral Rat) :
    ∃ clipped, e.isClipped x y width height = .ok clipped := by
  unfold isClipped
  split_ifs
  · exact ⟨_, rfl⟩
  · refine exists_bind_ok (Numeral.exists_plus_exact _ _) fun right => ?_
    split_ifs
    · exact ⟨_, rfl⟩
    · exact exists_bind_ok (Numeral.exists_plus_exact _ _) fun _ => ⟨_, rfl⟩

theorem exists_viewErrors (d : Document Rat) : ∃ errors, viewErrors d = .ok errors := by
  have hreport (box : Box Rat) : ∃ report, viewReport d.commands (box.toList.map .real) (.whole d.canvas.width)
      (.whole d.canvas.height) = .ok report := by
    unfold viewReport Box.toList
    dsimp only [List.map]
    split_ifs
    · exact ⟨_, rfl⟩
    · exact exists_bind_ok (Extent.exists_isClipped _ _ _ _ _) fun _ =>
        exists_bind_ok (Extent.exists_isOfOtherAspect _ _ d.canvas.height_pos) fun _ => ⟨_, rfl⟩
  exact exists_bind_ok ⟨_, rfl⟩ fun sides => exists_bind_ok (hreport _) fun _ => ⟨_, rfl⟩

theorem exists_overlayMarkup [DecimalText Rat] (canvas : Canvas Rat) (opacity : Numeral Rat) (marks : List (Mark Rat)) :
    ∃ markup, overlayMarkup canvas opacity marks = .ok markup :=
  exists_bind_ok ⟨_, rfl⟩ fun _ => exists_bind_ok ⟨_, opacity.toScalar_exact⟩ fun _ => ⟨_, rfl⟩

/-! ## Overlays -/

section

variable [Trig Rat] [DecimalText Rat]

/-- If there is nothing to tell about the names in a document, it can be laid out. -/
theorem Document.exists_resolve_of_namingErrors {d : Document Rat} (h : d.namingErrors = []) :
    ∃ r, d.resolve = .ok r := by
  obtain ⟨catalog, hcatalog, howned⟩ := namingErrors_eq_nil_iff.mp h
  refine Document.exists_resolve hcatalog fun l hl p hp hmoved => ?_
  obtain ⟨owner, howner⟩ := exists_owned hl hp hmoved
  exact howned _ howner

/-- A document is laid out only if there is nothing to tell about its names, and otherwise taken as it is. -/
theorem exists_laidOut {d : Document Rat} {names : List String} (hnames : d.namingErrors = names) {β : Type}
    {f : Document Rat → Except (Fault Rat) β} {P : β → Prop} (hf : ∀ r, ∃ b, f r = .ok b ∧ P b) :
    ∃ b, (if names.isEmpty then d.resolve >>= f else pure d >>= f) = .ok b ∧ P b := by
  split_ifs with hnone
  · exact exists_bind_ok_and (Document.exists_resolve_of_namingErrors (hnames.trans (List.isEmpty_iff.mp hnone))) hf
  · exact hf d

/-- **An overlay can be built for every document.** Whatever its layouts, whatever has been measured before, with a
result or without, there is an overlay if the colour scheme is a known one. It tells first what there is to tell about
names; if that is nothing, the document can be laid out. -/
theorem exists_overlay (a : Analyzer Rat) (d : Document Rat) (result : Option (Metadata Rat)) {o : OverlayOptions Rat}
    (hscheme : ∃ name ∈ ColourScheme.named.names, o.scheme = .str name) :
    (∃ built, buildOverlay a d result o = .ok built ∧ d.namingErrors <+: built.1.errors) ∧
      (d.namingErrors = [] → ∃ r, d.resolve = .ok r) := by
  refine ⟨?_, Document.exists_resolve_of_namingErrors⟩
  refine exists_bind_ok_and (ColourScheme.exists_ofName hscheme) fun colours => ?_
  obtain ⟨⟨catalog, refused⟩, hcatalog⟩ : ∃ c, d.catalogOrEmpty = c := ⟨_, rfl⟩
  obtain ⟨⟨known, unknown⟩, hpartition⟩ : ∃ parts,
      d.ownedLayouts.partition (fun (_, l) => catalog.isValid l.region) = parts := ⟨_, rfl⟩
  obtain ⟨hknown, hunknown⟩ := Prod.mk.inj ((List.partition_eq_filter_filter ..).symm.trans hpartition)
  have hnames : d.namingErrors = refused ++ unknown.map fun (owner, l) =>
      (Fault.unknownRegion (α := Rat) l.region).message ++ " on " ++ quoted owner := by
    unfold Document.namingErrors
    rw [hcatalog, ← hunknown]
    rfl
  have hvalid (owned) (h : owned ∈ known) :
      owned ∈ d.ownedLayouts ∧ catalog.isValid owned.2.region = true := List.mem_filter.mp (hknown ▸ h)
  rw [hcatalog]
  dsimp only
  rw [hpartition]
  dsimp only
  -- the first look is at regions that are known only
  refine exists_bind_ok_and ?_ fun dots => ?_
  · refine (exists_forall₂ fun owned h => ?_).imp fun _ => mapM_eq_ok_iff.mpr
    exact exists_layoutMarks o colours (hvalid owned h).2 (Document.anchor_of_owned (hvalid owned h).1)
  refine exists_bind_ok_and (exists_regionMarks o colours fun name hname => ?_) fun boxes => ?_
  · obtain ⟨owned, howned, rfl⟩ := List.mem_map.mp (mem_distinct.mp hname)
    exact (hvalid owned howned).2
  -- behind it nothing depends on names, so the document may have been laid out or not
  refine exists_laidOut hnames fun resolved => ?_
  refine exists_bind_ok_and (exists_layerBounds a resolved.canvas resolved.layers) fun ⟨bounds, a'⟩ => ?_
  refine exists_bind_ok_and (exists_viewErrors resolved) fun problems => ?_
  refine exists_bind_ok_and (exists_overlayMarkup _ _ _) fun markup => ?_
  refine ⟨_, rfl, ?_⟩
  rw [hnames]
  exact (List.prefix_append _ _).trans (List.prefix_append _ _)

end

/-- A custom region with a name that is taken, a layer in a region that nobody knows, another one of the same id, and in
it a path in a third region and one that follows its layer. -/
def tornDocument : Document Rat where
  canvas := .ofAspect .square
  layout := some ⟨[⟨"center", ⟨0, 0, 1 / 2, 1 / 2⟩⟩], none, some ⟨1 / 4, 0⟩⟩
  layers := [
    { id := "sky"
      label := "Sky"
      paths := []
      layout := some ⟨some "nowhere", none, none, none, none, none⟩ },
    { id := "sky"
      label := "Sky"
      paths := [
        ⟨"kite", .plain, [.line ⟨900, -4⟩, .close], some ⟨some "attic", none, none, none, none, none⟩⟩,
        ⟨"kite", .plain, [.close], none⟩]
      layout := some ⟨some "", some .topLeft, none, some (.relative 1), some ⟨.grid, .pair 2 3, none, none⟩, none⟩ }]
  resolved := false

theorem exists_overlay_torn :
    letI := Trig.flat
    letI := DecimalText.whole
    letI o : OverlayOptions Rat := { OverlayOptions.standard with scheme := .str "high_contrast" }
    (∃ name ∈ ColourScheme.named.names, o.scheme = .str name) ∧
      tornDocument.namingErrors = ["Invalid custom region 'center': name is reserved",
        "Unknown region: 'nowhere' on 'sky'", "Unknown region: 'attic' on 'sky/kite'"] ∧
      ∃ built, buildOverlay .standard tornDocument none o = .ok built ∧
        tornDocument.namingErrors <+: built.1.errors := by
  let _ := Trig.flat
  let _ := DecimalText.whole
  have hscheme : ∃ name ∈ ColourScheme.named.names, (Json.str "high_contrast" : Json Rat) = .str name :=
    ⟨"high_contrast", by decide, rfl⟩
  refine ⟨hscheme, by decide +kernel, ?_⟩
  exact (exists_overlay .standard tornDocument none hscheme).1

end Drawing
