import Drawing.Proofs.Document.Stretch
import Drawing.Proofs.Repair.Reading

/-!
# `Drawing/Proofs/Repair/Accepted.lean` — one repair is enough

Repair and validation each have their own idea of a good document: one as what it makes of raw data, the other as
what it finds in a document. A document that was read from a repaired design holds together, so nothing is found in
it; and moving it to a canvas never fails on exact numbers. So

> **a repaired design is accepted if it can be read**, which it can unless a side of its canvas was rounded to
> nothing or an id is no text.
-/

namespace Drawing

open Schema

section

variable {α : Type} [Scalar α]

/-! ## Fields -/

omit [Scalar α] in
/-- A field that may be `null` was read only if it was given. -/
theorem exists_given_of_optional {β : Type} {name : String} {read : Json α → Checked β} {fields : Fields α} {b : β}
    (h : optional (.same name) none (nullable read) fields = .valid (some b)) :
    ∃ v, givenField? fields name = some v ∧ read v = .valid b := by
  rcases optional_same_eq_valid_iff.mp h with ⟨-, hb⟩ | ⟨v, hv, hread⟩
  · exact nomatch hb
  · rcases nullable_eq_valid_iff.mp hread with ⟨-, hb⟩ | ⟨hne, x, hx, hb⟩
    · exact nomatch hb
    · refine ⟨v, ?_, Option.some.inj hb ▸ hx⟩
      unfold givenField?
      split
      · next hnull => exact absurd (Option.some.inj (hv.symm.trans hnull)) hne
      · exact hv

omit [Scalar α] in
/-- The items of a field that is a list are read one by one. -/
theorem forall₂_listField {β : Type} {name : String} {read : Json α → Checked β} {fields : Fields α} {bs : List β}
    (h : optional (.same name) [] (list read) fields = .valid bs) :
    List.Forall₂ (fun item b => read item = .valid b) (listField fields name) bs := by
  unfold listField
  rcases optional_same_eq_valid_iff.mp h with ⟨hnone, rfl⟩ | ⟨v, hv, hlist⟩
  · rw [hnone]
    exact .nil
  · obtain ⟨items, rfl, hall⟩ := list_eq_valid_iff.mp hlist
    rw [hv]
    exact hall

/-! ## Layouts -/

/-- A layout that refers to what exists names a region that does. -/
theorem regionKnown_of_isLayout {names : List (Json α)} {catalog : Catalog α} {fields : Fields α}
    {layout : Option (LayoutSpec α)} (hnames : ∀ s, .str s ∈ names → catalog.isValid s = true)
    (hgood : ∀ v, givenField? fields "layout" = some v → IsLayout names v)
    (h : optional (.same "layout") none (nullable LayoutSpec.read) fields = .valid layout) :
    RegionKnown catalog layout := by
  intro region hregion
  obtain ⟨spec, rfl, hspec⟩ := Option.bind_eq_some_iff.mp hregion
  obtain ⟨v, hv, hread⟩ := exists_given_of_optional h
  obtain ⟨raw, rfl, hrefers⟩ := hgood v hv
  obtain ⟨hreadRegion, -⟩ := LayoutSpec.readFields_eq_valid_iff.mp hread
  rw [hspec] at hreadRegion
  obtain ⟨w, hw, htext⟩ := exists_given_of_optional hreadRegion
  obtain rfl := text_eq_valid htext
  rcases hrefers.region _ hw with ⟨s, hs, hreserved⟩ | ⟨name, hname, hsame⟩
  · obtain rfl := Json.str.inj hs
    simp [Catalog.isValid, hreserved]
  · exact hnames region (eq_str_of_sameName_right hsame ▸ hname)

/-! ## Ids -/

omit [Scalar α] in
/-- Ids that are fresh in raw data are all there and all different in what was read from it. -/
theorem FreshIds.of_read {β : Type} {id : β → String} {taken : List String} {entries : List (Fields α)}
    {bs : List β} (h : FreshIds taken entries)
    (hread : List.Forall₂ (fun fields b => Table.get? fields "id" = some (.str (id b))) entries bs) :
    (∀ b ∈ bs, id b ≠ "") ∧ (bs.map id).Nodup := by
  obtain ⟨ids, hids, hempty, hnodup, -⟩ := h
  -- reading changes no id, so the raw ids are those of what was read
  have hsame : ids = bs.map id := by
    have hmap : entries.map (fun fields => Table.get? fields "id") = (bs.map id).map (some ∘ .str) := by
      rw [List.map_map, ← List.forall₂_eq_eq_eq, List.forall₂_map_left_iff, List.forall₂_map_right_iff]
      exact hread
    exact List.map_injective_iff.mpr (fun s t hst => Json.str.inj (Option.some.inj hst)) (hids.symm.trans hmap)
  rw [hsame] at hempty hnodup
  exact ⟨fun b hb hid => hempty (hid ▸ List.mem_map_of_mem hb), hnodup⟩

/-! ## Paths -/

theorem Command.letter_of_read {l : Letter} {item : Json α} {c : Command α} (hitem : WritesCommand l item)
    (h : read item = .valid c) : c.letter = l := by
  obtain ⟨fields, coords, rfl, hcmd, -⟩ := hitem
  obtain ⟨l', coords', hl, -, hc⟩ := readFields_eq_valid_iff.mp h
  obtain ⟨v, hv, hl⟩ := required_same_eq_valid_iff.mp hl
  obtain rfl := Option.some.inj (hcmd.symm.trans hv)
  rw [(of_ofCoords hc).1]
  exact Checked.valid.inj (hl.symm.trans l.read_text)

/-- Commands that write a path were read as ones that begin with a move. -/
theorem ShapePath.startsWithMove_of_read {items : List (Json α)} {p : ShapePath α} (hitems : WritesPath items)
    (h : List.Forall₂ (fun item c => Command.read item = .valid c) items p.commands) :
    p.startsWithMove = true := by
  obtain ⟨first, rest, rfl, hmove⟩ := hitems.opens
  unfold startsWithMove
  cases hc : p.commands with
  | nil => rfl
  | cons c cs =>
    rw [hc] at h
    obtain _ | ⟨hread, -⟩ := h
    simp [Command.letter_of_read hmove hread]

variable [Trig α]

/-- What a repaired path was read as. -/
theorem PathRepaired.of_read {names : List (Json α)} {catalog : Catalog α} {before path : Fields α}
    {p : ShapePath α} (h : PathRepaired names before path)
    (hnames : ∀ s, .str s ∈ names → catalog.isValid s = true) (hread : ShapePath.readFields path = .valid p) :
    Table.get? path "id" = some (.str p.id) ∧ RegionKnown catalog p.layout ∧ p.startsWithMove = true := by
  obtain ⟨hid, -, hcommands, hlayout⟩ := ShapePath.readFields_eq_valid_iff.mp hread
  refine ⟨?_, regionKnown_of_isLayout hnames h.layout hlayout, ?_⟩
  · obtain ⟨v, hv, hid⟩ := required_same_eq_valid_iff.mp hid
    exact filledText_eq_valid hid ▸ hv
  · obtain ⟨_, -, hwritten, hpath⟩ := h.commands
    exact ShapePath.startsWithMove_of_read hpath (listField_of_get? hwritten ▸ forall₂_listField hcommands)

/-- What a repaired layer was read as. -/
theorem LayerRepaired.of_read {names : List (Json α)} {catalog : Catalog α} {before layer : Fields α}
    {l : Layer α} (h : LayerRepaired names before layer)
    (hnames : ∀ s, .str s ∈ names → catalog.isValid s = true) (hread : Layer.readFields layer = .valid l) :
    Table.get? layer "id" = some (.str l.id) ∧ RegionKnown catalog l.layout ∧
      (l.paths.map ShapePath.id).Nodup ∧
        ∀ p ∈ l.paths, RegionKnown catalog p.layout ∧ p.startsWithMove = true := by
  obtain ⟨hid, -, hpaths, hlayout⟩ := Layer.readFields_eq_valid_iff.mp hread
  obtain ⟨paths, hwritten, hrepaired, hfresh⟩ := h.paths
  have hall : List.Forall₂ (fun path p => Table.get? path "id" = some (.str p.id) ∧
      RegionKnown catalog p.layout ∧ p.startsWithMove = true) paths l.paths := by
    have hreads := List.forall₂_map_left_iff.mp (listField_of_get? hwritten ▸ forall₂_listField hpaths)
    refine (forall₂_mem hreads).imp fun path p hp => ?_
    obtain ⟨_, -, hpath⟩ := exists_left_of_mem hrepaired hp.1
    exact hpath.of_read hnames hp.2
  refine ⟨?_, regionKnown_of_isLayout hnames h.layout hlayout, ?_, ?_⟩
  · obtain ⟨v, hv, hid⟩ := required_same_eq_valid_iff.mp hid
    exact text_eq_valid hid ▸ hv
  · exact (hfresh.of_read (hall.imp fun _ _ h => h.1)).2
  · intro p hp
    obtain ⟨_, -, h⟩ := exists_left_of_mem hall hp
    exact h.2

/-! ## Documents -/

omit [Trig α] in
/-- What a custom region was read as that may be registered. -/
theorem Registrable.of_read {region : Json α} {r : CustomRegion α} (h : Registrable region)
    (hread : CustomRegion.read region = .valid r) :
    regionName? region = some (.str r.name) ∧ Catalog.defect? r.name r.bounds = none := by
  obtain ⟨fields, name, bounds, b, rfl, hname, hreserved, hbounds, hbox, hfits⟩ := h
  obtain ⟨hreadName, hreadBounds⟩ := CustomRegion.readFields_eq_valid_iff.mp hread
  obtain ⟨v, hv, hreadName⟩ := required_same_eq_valid_iff.mp hreadName
  obtain ⟨w, hw, hreadBounds⟩ := required_same_eq_valid_iff.mp hreadBounds
  obtain rfl := filledText_eq_valid hreadName
  obtain rfl := Option.some.inj (hbounds.symm.trans hw)
  obtain rfl := Checked.valid.inj (hbox.symm.trans hreadBounds)
  refine ⟨hv, ?_⟩
  unfold Catalog.defect?
  rw [if_neg (by simp [hreserved r.name (Option.some.inj (hname.symm.trans hv))])]
  exact hfits

omit [Trig α] in
theorem forall₂_regions {fields : Fields α} {d : Document α}
    (h : optional (.same "layout") none (nullable LayoutConfig.read) fields = .valid d.layout) :
    List.Forall₂ (fun region r => CustomRegion.read region = .valid r) (customRegions fields) d.regions := by
  unfold customRegions Document.regions
  rcases optional_same_eq_valid_iff.mp h with ⟨hnone, hlayout⟩ | ⟨v, hv, hread⟩
  · rw [hnone, ← hlayout]
    exact .nil
  · rw [hv]
    rcases nullable_eq_valid_iff.mp hread with ⟨rfl, hlayout⟩ | ⟨-, config, hconfig, hlayout⟩
    · rw [hlayout]
      exact .nil
    · obtain ⟨layout, rfl, hconfig⟩ := record_eq_valid_iff.mp hconfig
      obtain ⟨hregions, -⟩ := LayoutConfig.readFields_eq_valid_iff.mp hconfig
      rw [hlayout]
      exact forall₂_listField hregions

omit [Trig α] in
/-- The names of custom regions that may be registered name regions of the document that was read. -/
theorem isValid_of_mem_customNames {fields : Fields α} {d : Document α}
    (hregions : ∀ region ∈ customRegions fields, Registrable region)
    (hread : List.Forall₂ (fun region r => CustomRegion.read region = .valid r) (customRegions fields) d.regions)
    {s : String} (hs : .str s ∈ customNames fields) : (registerValid .empty d.regions).1.isValid s = true := by
  obtain ⟨region, hregion, hname⟩ := List.mem_filterMap.mp hs
  obtain ⟨r, hr, hreadRegion⟩ := exists_left_of_mem hread.flip hregion
  obtain ⟨hname', hfits⟩ := (hregions region hregion).of_read hreadRegion
  refine isValid_registerValid (.inr ⟨r, hr, ?_, hfits⟩)
  exact Json.str.inj (Option.some.inj (hname'.symm.trans hname))

theorem Document.coherent_of_read {design fields : Fields α} {layers : List (Fields α)} {d : Document α}
    (hregions : ∀ region ∈ customRegions fields, Registrable region)
    (hlayers : Table.get? fields "layers" = some (.arr (layers.map .obj)))
    (hrepaired : List.Forall₂ (LayerRepaired (customNames fields)) (objectsOf (listField design "layers")) layers)
    (hfresh : FreshIds [] layers) (h : readFields fields = .valid d) : d.Coherent := by
  obtain ⟨-, -, hlayout, hread, -⟩ := readFields_eq_valid_iff.mp h
  have hreadRegions := forall₂_regions hlayout
  -- each layer that was read comes from a raw one, and that one from a layer that was repaired
  have hreads := List.forall₂_map_left_iff.mp (listField_of_get? hlayers ▸ forall₂_listField hread)
  have hall := (forall₂_mem hreads).imp fun layer l hl => by
    obtain ⟨_, -, hlayer⟩ := exists_left_of_mem hrepaired hl.1
    exact hlayer.of_read (fun _ => isValid_of_mem_customNames hregions hreadRegions) hl.2
  obtain ⟨hfilled, hdistinct⟩ := hfresh.of_read (hall.imp fun _ _ h => h.1)
  refine ⟨fun r hr => ?_, hfilled, hdistinct, fun l hl => ?_, fun l hl => ?_, fun l hl p hp => ?_,
    fun l hl p hp => ?_⟩
  · obtain ⟨region, hregion, hreadRegion⟩ := exists_left_of_mem hreadRegions hr
    exact ((hregions region hregion).of_read hreadRegion).2
  · obtain ⟨_, -, -, -, hpathIds, -⟩ := exists_left_of_mem hall hl
    exact hpathIds
  · obtain ⟨_, -, -, hregion, -⟩ := exists_left_of_mem hall hl
    exact hregion
  · obtain ⟨_, -, -, -, -, hpaths⟩ := exists_left_of_mem hall hl
    exact (hpaths p hp).1
  · obtain ⟨_, -, -, -, -, hpaths⟩ := exists_left_of_mem hall hl
    exact (hpaths p hp).2

/-- **A document that was read from a repaired design holds together.** -/
theorem Document.coherent_of_repaired [UnitOrder α] {design : Fields α} {r : Repaired α (Fields α)} {d : Document α}
    (h : repairDesign design = .ok r) (hread : readFields (withoutResolved r.value) = .valid d) : d.Coherent := by
  obtain ⟨-, -, before, regions, repaired, -, hregions, hsameLayout, hrepaired, hwritten⟩ := repairDesign_parts h
  obtain ⟨-, hregistrable, hnames⟩ := repairRegions_spec hregions
  obtain ⟨layers, hvalue, hall, hfresh⟩ := repairLayers_spec hrepaired
  have hframe := withoutResolved_frame r.value
  have hlayers := (hframe "layers" (by decide)).trans (hvalue ▸ hwritten)
  have hcustom := customRegions_congr ((hframe "layout" (by decide)).trans hsameLayout)
  rw [hnames, customNames, ← hcustom] at hall
  rw [← hcustom] at hregistrable
  exact coherent_of_read hregistrable hlayers hall hfresh hread

end

/-! ## Validation -/

/-- On exact numbers nothing stands in the way of a document that holds together. -/
theorem Document.Coherent.accepted {d : Document Rat} (h : d.Coherent) (hlayers : d.layers ≠ [])
    (canvas : Option (Canvas Rat)) : ∃ o, d.validate canvas = .ok o ∧ o.isOk = true := by
  obtain ⟨m, rescale, hconform⟩ := d.exists_conformTo canvas
  exact ⟨_, validate_of_findings hlayers (findings_eq_nil_iff.mpr h) hconform, rfl⟩

/-- **One repair is enough**: a repaired design that has layers, and whose other parts can be read, is accepted on any
canvas, exactly if no side of its own canvas was rounded to nothing and its ids are texts. -/
theorem repaired_accepted_iff [Trig Rat] {design : Fields Rat} {r : Repaired Rat (Fields Rat)}
    (canvas : Option (Canvas Rat)) (h : repairDesign design = .ok r) (hlayers : listField r.value "layers" ≠ [])
    (hrest : DesignRestValid design) :
    ∃ o, validateData r.value canvas = .ok o ∧ (o.isOk = true ↔ DesignHolds design) := by
  have hreadable := isValid_repaired_iff h hrest
  unfold validateData
  cases hread : Document.readFields (withoutResolved r.value) with
  | invalid complaints =>
    rw [hread] at hreadable
    exact ⟨.malformed complaints, rfl, hreadable⟩
  | valid d =>
    rw [hread] at hreadable
    have hdrawn : d.layers ≠ [] := by
      intro hnil
      obtain ⟨-, -, -, hlist, -⟩ := Document.readFields_eq_valid_iff.mp hread
      have hkept : listField (withoutResolved r.value) "layers" = listField r.value "layers" :=
        listField_congr (withoutResolved_frame r.value "layers" (by decide))
      have hread := forall₂_listField hlist
      rw [hnil, List.forall₂_nil_right_iff, hkept] at hread
      exact hlayers hread
    obtain ⟨o, ho, hok⟩ := (Document.coherent_of_repaired h hread).accepted hdrawn canvas
    exact ⟨o, ho, iff_of_true hok (hreadable.mp rfl)⟩

def draftPath : Fields Rat := [
  ("id", .str "stroke"),
  ("style", .obj [("stroke", .str "red")]),
  ("layout", .obj [("anchor", .str "nowhere"), ("offset", .arr [.ofInt 7, .ofInt 0]), ("zIndex", .ofInt 2)]),
  ("commands", .arr [
    .obj [("cmd", .str "l"), ("coords", .arr [.ofInt 5, .ofInt 6, .ofInt 7])],
    .obj [("cmd", .str "H"), ("coords", .arr [.ofInt 9])]])]

def emptyPath : Fields Rat := [("id", .str "empty"), ("commands", .arr [])]

def draftLayer : Fields Rat := [
  ("id", .ofInt 4),
  ("layout", .obj [("region", .str "stage"), ("size", .obj [("relative", .num (.real (1 / 4)))])]),
  ("paths", .arr [.obj draftPath, .null, .obj emptyPath])]

def draftRegion (name : String) (width : Int) : Json Rat :=
  .obj [("name", .str name), ("bounds", .obj [("x", .ofInt 0), ("y", .ofInt 0),
    ("width", .ofInt width), ("height", .ofInt 1)])]

/-- A design that only repair can read: an old version, an unknown aspect ratio, a region of its own beside one that
leaves the canvas, an unknown anchor, an offset that goes too far, and commands in small letters. -/
def draftDesign : Fields Rat := [
  ("version", .ofInt 3),
  ("canvas", .obj [("width", .num (.real (3 / 2))), ("height", .ofInt 200), ("aspect_ratio", .str "tall")]),
  ("layout", .obj [("regions", .arr [draftRegion "stage" 1, draftRegion "wing" 2])]),
  ("layers", .arr [.obj draftLayer])]

theorem draftDesign_restValid : DesignRestValid draftDesign where
  viewBox := by
    rintro _ ⟨⟩
    rfl
  layout := by
    rintro _ ⟨⟩
    refine .inr ⟨_, rfl, rfl, rfl, fun region hregion name hname => ?_⟩
    have hall : ∀ region ∈ [draftRegion "stage" 1, draftRegion "wing" 2],
        ((regionName? region).elim true fun name => (filledText name).isValid) = true := by decide +kernel
    have hvalid := hall region hregion
    rwa [hname] at hvalid
  layers := by
    intro layer hl
    obtain rfl := List.mem_singleton.mp (show layer ∈ [draftLayer] from hl)
    refine ⟨fun v hv => (nomatch hv), ?_, ?_⟩
    · rintro _ ⟨⟩
      exact ⟨by decide +kernel, rfl, rfl⟩
    · intro path hp
      have hp : path ∈ [draftPath, emptyPath] := hp
      simp only [List.mem_cons, List.not_mem_nil, or_false] at hp
      rcases hp with rfl | rfl
      · refine ⟨?_, ?_⟩
        · rintro _ ⟨⟩
          decide +kernel
        · rintro _ ⟨⟩
          exact ⟨rfl, rfl, by decide +kernel⟩
      · exact ⟨nofun, nofun⟩

theorem draftDesign_holds :
    letI := Trig.flat
    DesignHolds draftDesign := by
  let _ := Trig.flat
  constructor
  · rintro _ ⟨⟩ w h hsides hw hh
    obtain ⟨rfl, rfl⟩ := Prod.mk.inj (Option.some.inj (Except.ok.inj hsides))
    decide +kernel
  · intro layer hl
    obtain rfl := List.mem_singleton.mp (show layer ∈ [draftLayer] from hl)
    refine ⟨nofun, fun path hp => ?_⟩
    have hp : path ∈ [draftPath] := hp
    obtain rfl := List.mem_singleton.mp hp
    rintro _ ⟨⟩
    decide +kernel

theorem repaired_accepted_iff_draft :
    letI := Trig.flat
    ∃ r o, repairDesign draftDesign = .ok r ∧ listField r.value "layers" ≠ [] ∧ DesignRestValid draftDesign ∧
      DesignHolds draftDesign ∧ validateData r.value none = .ok o ∧ o.isOk = true := by
  let _ := Trig.flat
  have hruns : (repairDesign draftDesign).toOption.map (fun r => (listField r.value "layers").length) = some 1 := by
    decide +kernel
  obtain ⟨r, hr, hlength⟩ := Option.map_eq_some_iff.mp hruns
  have hr := eq_ok_of_toOption hr
  have hlayers : listField r.value "layers" ≠ [] := List.ne_nil_of_length_eq_add_one hlength
  obtain ⟨o, ho, hok⟩ := repaired_accepted_iff none hr hlayers draftDesign_restValid
  exact ⟨r, o, hr, hlayers, draftDesign_restValid, draftDesign_holds, ho, hok.mpr draftDesign_holds⟩

/-- A canvas two fifths of a pixel wide. -/
def sliverDesign : Fields Rat := [
  ("canvas", .obj [("width", .num (.real (2 / 5))), ("height", .ofInt 300), ("aspectRatio", .str "1:1")]),
  ("layers", .arr [.obj [("id", .str "a"), ("label", .str "A"), ("paths", .arr [
    .obj [("id", .str "p"), ("commands", .arr [
      .obj [("cmd", .str "M"), ("coords", .arr [.ofInt 1, .ofInt 2])]])]])]])]

theorem sliverDesign_restValid : DesignRestValid sliverDesign where
  viewBox := by
    rintro _ ⟨⟩
    rfl
  layout := nofun
  layers := by
    rintro _ (_ | ⟨_, ⟨⟩⟩)
    refine ⟨?_, nofun, ?_⟩
    · rintro _ ⟨⟩ -
      decide +kernel
    · rintro _ (_ | ⟨_, ⟨⟩⟩)
      exact ⟨nofun, nofun⟩

/-- Its width is above zero when it is looked at and zero once it is rounded, so one repair is not enough. -/
theorem repaired_refused_sliver :
    letI := Trig.flat
    ¬ ∀ (design : Fields Rat) (r : Repaired Rat (Fields Rat)), repairDesign design = .ok r →
      listField r.value "layers" ≠ [] → DesignRestValid design →
        ∃ o, validateData r.value none = .ok o ∧ o.isOk = true := by
  let _ := Trig.flat
  intro henough
  have hruns : (do
      let r ← repairDesign sliverDesign
      let o ← validateData r.value none
      return ((listField r.value "layers").length, o.isOk)).toOption = some (1, false) := by decide +kernel
  obtain ⟨r, hr, h⟩ := bind_eq_ok_iff.mp (eq_ok_of_toOption hruns)
  obtain ⟨o, ho, h⟩ := bind_eq_ok_iff.mp h
  obtain ⟨hlayers, hrefused⟩ := Prod.mk.inj (pure_eq_ok_iff.mp h)
  obtain ⟨o', ho', hok⟩ := henough _ r hr (List.ne_nil_of_length_eq_add_one hlayers) sliverDesign_restValid
  obtain rfl := Except.ok.inj (ho.symm.trans ho')
  exact Bool.false_ne_true (hrefused.symm.trans hok)

end Drawing
