import Drawing.Proofs.Document.Bounds
import Drawing.Proofs.Path.Strokes
import Drawing.Proofs.Repair.Design
import Drawing.Proofs.Repair.Written

/-!
# `Drawing/Proofs/Repair/Twice.lean` — a second repair finds nothing to do

For each part of a design there is a state in which nothing is left to repair: a path, a layer, the custom
regions or a canvas that is *settled*. A repair leaves every part settled, and whatever is settled it returns as
it is and tells of nothing:

> **repairing twice is repairing once** — what a repair returned is repaired to itself, without an action.

A canvas is the one part that a repair may leave unsettled. A side of less than half a pixel rounds to zero, and
a second repair would replace it; so the canvas has to be left at least one pixel wide and high.
-/

namespace Drawing

/-! ## Layouts -/

section

variable {α : Type} [Scalar α]

theorem lookUp_of_namesRegion {names : List (Json α)} {region : Json α} (h : NamesRegion names region) :
    lookUp region (isKnownRegion names region) = (.ok true : Except (Fault α) Bool) := by
  rcases h with ⟨s, rfl, hs⟩ | ⟨name, hname, hsame⟩
  · have hknown : isKnownRegion names (.str s) = true := Bool.or_eq_true_iff.mpr (.inl hs)
    rw [hknown]
    rfl
  · have hknown : isKnownRegion names region = true :=
      Bool.or_eq_true_iff.mpr (.inr (List.any_eq_true.mpr ⟨name, hname, hsame⟩))
    -- lists and objects name nothing
    have hnamed : nameFault? region = none := by
      cases region with
      | arr items => cases name <;> simp [sameName, Json.numeral?] at hsame
      | obj fields => cases name <;> simp [sameName, Json.numeral?] at hsame
      | null | bool | num | str => rfl
    unfold lookUp
    rw [hknown, hnamed]

omit [Scalar α] in
theorem lookUp_anchor (a : Anchor) :
    lookUp (.str a.name : Json α) (isKnownAnchor (.str a.name : Json α)) = (.ok true : Except (Fault α) Bool) := by
  cases a <;> rfl

end

theorem toUnitRange_of_mem {x : Rat} (h : InUnitRange x) : toUnitRange x = x := by
  obtain ⟨hlo, hhi⟩ : (-1 : Rat) ≤ x ∧ x ≤ 1 := h
  show Scalar.greatest (-1 : Rat) (Scalar.least 1 x) = x
  unfold Scalar.greatest Scalar.least
  split_ifs <;> grind

section

variable {names : List (Json Rat)} {layout : Fields Rat} (owner : LayoutOwner)

theorem repairRegionName_of_refersTo (h : RefersTo names layout) :
    repairRegionName owner names layout = .ok (.same layout) := by
  unfold repairRegionName
  cases hv : givenField? layout "region" with
  | none => rfl
  | some v =>
    dsimp only
    rw [lookUp_of_namesRegion (h.region v hv)]
    rfl

theorem repairAnchorName_of_refersTo (h : RefersTo names layout) :
    repairAnchorName owner layout = .ok (.same layout) := by
  unfold repairAnchorName
  cases hv : givenField? layout "anchor" with
  | none => rfl
  | some v =>
    obtain ⟨a, rfl⟩ := h.anchor v hv
    dsimp only
    rw [lookUp_anchor]
    rfl

theorem repairOffset_of_refersTo (h : RefersTo names layout) : repairOffset owner layout = .ok (.same layout) := by
  unfold repairOffset
  cases hv : givenField? layout "offset" with
  | none => rfl
  | some v =>
    obtain ⟨x, y, rfl, hx, hy⟩ := h.offset v hv
    have hpair : offsetPair? (.arr [.ofReal x, .ofReal y]) = .ok (some ⟨x, y⟩) := rfl
    have hput : Table.put "offset" (Point.mk x y).json layout = layout :=
      Table.put_of_get? (get?_of_givenField? hv)
    dsimp only
    rw [hpair]
    dsimp only [bind, Except.bind]
    rw [toUnitRange_of_mem hx, toUnitRange_of_mem hy, hput, if_pos (beq_self_eq_true _)]
    rfl

theorem repairLayout_of_isLayout {fields : Fields Rat}
    (h : ∀ v, givenField? fields "layout" = some v → IsLayout names v) :
    repairLayout owner names fields = .ok (.same fields) := by
  unfold repairLayout
  cases hv : givenField? fields "layout" with
  | none => rfl
  | some v =>
    obtain ⟨layout, rfl, hrefers⟩ := h v hv
    have hput : Table.put "layout" (.obj layout) fields = fields := Table.put_of_get? (get?_of_givenField? hv)
    dsimp only
    rw [repairRegionName_of_refersTo owner hrefers]
    dsimp only [bind, Except.bind]
    rw [Repaired.same_andThen, repairAnchorName_of_refersTo owner hrefers]
    dsimp only
    rw [Repaired.same_andThen, repairOffset_of_refersTo owner hrefers]
    exact congrArg (fun fields => Except.ok (Repaired.same fields)) hput

end

/-! ## Commands -/

/-- Absolute commands stand for themselves, wherever the pen is. -/
theorem followItems_commands (path : String) (pen : Pen Rat) (commands : List (Command Rat)) :
    followItems path pen (commands.map (Command.json .stored)) = .ok (.same commands) := by
  induction commands generalizing pen with
  | nil => rfl
  | cons c rest ih =>
    obtain ⟨after, hcarry⟩ := pen.carryOut_written path c
    rw [List.map_cons, followItems, writtenCommand?_eq_some_iff.mpr (Command.writes_written fun _ _ => rfl)]
    dsimp only [bind, Except.bind]
    rw [hcarry]
    dsimp only
    rw [ih after]
    rfl

/-- Commands that begin with a move are repaired to themselves. -/
theorem repairCommands_of_commands [Trig Rat] (path : String) {fields : Fields Rat} {p : Point Rat}
    {rest : List (Command Rat)}
    (h : Table.get? fields "commands" = some (.arr ((.move p :: rest).map (Command.json .stored)))) :
    repairCommands path fields = .ok (.same (.move p :: rest)) := by
  unfold repairCommands
  rw [commandItems_of_list path h (by simp), Repaired.same_andThen, followItems_commands]
  rfl

/-! ## Paths -/

/-- A path with nothing left to repair. -/
structure PathSettled (names : List (Json Rat)) (path : Fields Rat) : Prop where
  style : ∃ style, Table.get? path "style" = some (.obj style)
  layout : ∀ v, givenField? path "layout" = some v → IsLayout names v
  commands : ∃ p rest, Table.get? path "commands" = some (.arr ((.move p :: rest).map (Command.json .stored)))
  data : Table.get? path "d" = none

theorem pathSettled_of_repairPath [Trig Rat] {names : List (Json Rat)} {layer id : String} {fields path : Fields Rat}
    {r : Repaired Rat (Option (Fields Rat))} (h : repairPath names layer id fields = .ok r)
    (hpath : r.value = some path) : PathSettled names path := by
  obtain ⟨laidOut, hlaidOut, h⟩ := bind_eq_ok_iff.mp h
  obtain ⟨commands, hcommands, h⟩ := bind_eq_ok_iff.mp h
  split at h
  · obtain rfl := pure_eq_ok_iff.mp h
    exact nomatch hpath
  · next hdraws =>
    obtain rfl := pure_eq_ok_iff.mp h
    obtain rfl := Option.some.inj hpath
    have hlayout := repairLayout_mended hlaidOut
    obtain ⟨hitems, hwritten⟩ := withCommandItems_spec commands.value laidOut.value
    refine ⟨?_, ?_, ?_, Table.get?_erase_self _⟩
    · rw [hitems "style" (by decide), hlayout.frame "style" (by decide)]
      exact style_withStyle id fields
    · exact fun v hv => hlayout.good v ((givenField?_congr (hitems "layout" (by decide))).symm.trans hv)
    · rcases repairCommands_begins hcommands with hnil | ⟨p, rest, hmove⟩
      · exact absurd (List.isEmpty_iff.mpr hnil) hdraws
      · exact ⟨p, rest, hmove ▸ hwritten⟩

theorem repairPath_of_settled [Trig Rat] {names : List (Json Rat)} {path : Fields Rat} (h : PathSettled names path)
    {id : String} (hid : Table.get? path "id" = some (.str id)) (layer : String) :
    repairPath names layer id path = .ok (.same (some path)) := by
  obtain ⟨style, hstyle⟩ := h.style
  obtain ⟨p, rest, hcommands⟩ := h.commands
  have hwritten : withCommandItems (.move p :: rest) path = path := by
    rw [withCommandItems, Table.put_of_get? hcommands, Table.erase_of_get?_eq_none h.data]
  unfold repairPath
  dsimp only
  rw [renameActions_eq_nil_iff.mpr hid, withStyle_of_style hid hstyle, repairLayout_of_isLayout _ h.layout]
  dsimp only [bind, Except.bind, Repaired.same]
  rw [repairCommands_of_commands id hcommands]
  dsimp only [Repaired.same]
  rw [hwritten]
  rfl

theorem repairPaths_of_settled [Trig Rat] {names : List (Json Rat)} (layer : String) {paths : List (Fields Rat)}
    (h : ∀ path ∈ paths, PathSettled names path) (place : Nat) {taken : List String} (hids : FreshIds taken paths) :
    repairPaths names layer place taken (paths.map .obj) = .ok (.same (paths.map .obj)) := by
  induction paths generalizing place taken with
  | nil => rfl
  | cons path paths ih =>
    obtain ⟨hpath, hpaths⟩ := List.forall_mem_cons.mp h
    obtain ⟨id, hid, hne, hfree, hrest⟩ := hids.of_cons
    rw [List.map_cons, repairPaths, hid, wantedId_of_text hne, freeId_of_not_mem hfree,
      repairPath_of_settled hpath hid]
    dsimp only [bind, Except.bind]
    rw [ih hpaths (place + 1) hrest]
    rfl

/-! ## Layers -/

/-- A layer with nothing left to repair. -/
structure LayerSettled (names : List (Json Rat)) (layer : Fields Rat) : Prop where
  label : ∀ id, Table.get? layer "id" = some (.str id) →
    ((Table.get? layer "label").getD .null).isTruthy = true ∨
      Table.get? layer "label" = some (.str (labelOfId id))
  layout : ∀ v, givenField? layer "layout" = some v → IsLayout names v
  paths : ∃ paths : List (Fields Rat), Table.get? layer "paths" = some (.arr (paths.map .obj)) ∧
    (∀ path ∈ paths, PathSettled names path) ∧ FreshIds [] paths

theorem layerSettled_of_repairLayer [Trig Rat] {names : List (Json Rat)} {place : Nat} {id : String}
    {fields : Fields Rat} {r : Repaired Rat (Fields Rat)} (h : repairLayer names place id fields = .ok r) :
    LayerSettled names r.value := by
  obtain ⟨hid, hrepaired⟩ := repairLayer_spec h
  obtain ⟨hframe, -, repaired, hpaths, hwritten⟩ := repairLayer_parts h
  refine ⟨fun id' hid' => ?_, hrepaired.layout, ?_⟩
  · obtain rfl := Json.str.inj (Option.some.inj (hid.symm.trans hid'))
    rw [hframe "label" (by decide)]
    exact label_withLabel id fields
  · obtain ⟨paths, hvalue, hall, hids⟩ := repairPaths_forall₂ (R := fun _ path => PathSettled names path)
      (fun _ _ _ _ _ _ hpath hsome => pathSettled_of_repairPath hpath hsome) hpaths
    refine ⟨paths, hvalue ▸ hwritten, fun path hpath => ?_, hids⟩
    obtain ⟨_, -, hsettled⟩ := exists_left_of_mem hall hpath
    exact hsettled

theorem repairLayer_of_settled [Trig Rat] {names : List (Json Rat)} {layer : Fields Rat} (h : LayerSettled names layer)
    {id : String} (hid : Table.get? layer "id" = some (.str id)) (place : Nat) :
    repairLayer names place id layer = .ok (.same layer) := by
  obtain ⟨paths, hpaths, hsettled, hids⟩ := h.paths
  unfold repairLayer
  dsimp only
  rw [renameActions_eq_nil_iff.mpr hid, withLabel_of_label hid (h.label id hid), repairLayout_of_isLayout _ h.layout]
  dsimp only [bind, Except.bind, Repaired.same]
  rw [listField_of_get? hpaths, repairPaths_of_settled id hsettled 0 hids]
  dsimp only [Repaired.same]
  rw [Table.put_of_get? hpaths]
  rfl

theorem repairLayers_of_settled [Trig Rat] {names : List (Json Rat)} {layers : List (Fields Rat)}
    (h : ∀ layer ∈ layers, LayerSettled names layer) (place : Nat) {taken : List String}
    (hids : FreshIds taken layers) :
    repairLayers names place taken (layers.map .obj) = .ok (.same (layers.map .obj)) := by
  induction layers generalizing place taken with
  | nil => rfl
  | cons layer layers ih =>
    obtain ⟨hlayer, hlayers⟩ := List.forall_mem_cons.mp h
    obtain ⟨id, hid, hne, hfree, hrest⟩ := hids.of_cons
    rw [List.map_cons, repairLayers, hid, wantedId_of_text hne, freeId_of_not_mem hfree,
      repairLayer_of_settled hlayer hid]
    dsimp only [bind, Except.bind]
    rw [ih hlayers (place + 1) hrest]
    rfl

/-! ## Custom regions -/

/-- Entries that were kept are kept again. -/
theorem keepRegistrable_kept {α : Type} [Scalar α] (entries : List (Json α)) :
    keepRegistrable ((keepRegistrable entries).value.map Prod.fst) = .same (keepRegistrable entries).value := by
  induction entries with
  | nil => rfl
  | cons entry rest ih =>
    cases hname : registrableName entry with
    | ok name =>
      have hkept : (keepRegistrable (entry :: rest)).value = (entry, name) :: (keepRegistrable rest).value := by
        simp only [keepRegistrable, hname, Repaired.value_map]
      rw [hkept, List.map_cons]
      simp only [keepRegistrable, hname, ih]
      rfl
    | error refusal =>
      have hkept : (keepRegistrable (entry :: rest)).value = (keepRegistrable rest).value := by
        simp only [keepRegistrable, hname, Repaired.value_after]
      rw [hkept, ih]

/-- Custom regions with nothing left to repair, and their names. -/
def RegionsSettled (names : List (Json Rat)) (design : Fields Rat) : Prop :=
  (∃ (layout : Fields Rat) (kept : List (Json Rat × Json Rat)),
    Table.get? design "layout" = some (.obj layout) ∧
      Table.get? layout "regions" = some (.arr (kept.map Prod.fst)) ∧
      keepRegistrable (kept.map Prod.fst) = .same kept ∧ kept.map Prod.snd = names) ∨
    (∀ layout, Table.get? design "layout" ≠ some (.obj layout)) ∧ names = []

theorem repairRegions_of_settled {names : List (Json Rat)} {design : Fields Rat} (h : RegionsSettled names design) :
    repairRegions design = .ok (.same (design, names)) := by
  rcases h with ⟨layout, kept, hlayout, hregions, hkept, rfl⟩ | ⟨hlayout, rfl⟩
  · have hputRegions : Table.put "regions" (.arr (kept.map Prod.fst)) layout = layout := Table.put_of_get? hregions
    have hputLayout : Table.put "layout" (.obj layout) design = design := Table.put_of_get? hlayout
    have hdone : (keepRegistrable (kept.map Prod.fst)).map (fun kept : List (Json Rat × Json Rat) =>
        (Table.put "layout" (.obj (Table.put "regions" (.arr (kept.map Prod.fst)) layout)) design,
          kept.map Prod.snd)) = .same (design, kept.map Prod.snd) := by
      rw [hkept]
      dsimp only [Repaired.map, Repaired.same]
      rw [hputRegions, hputLayout]
    unfold repairRegions
    rw [hlayout]
    dsimp only
    rw [hregions, Option.getD_some]
    -- an empty list is not even looked through
    split
    · exact congrArg Except.ok hdone
    · next hempty =>
      cases kept with
      | nil => exact congrArg Except.ok hdone
      | cons => exact absurd rfl hempty
  · unfold repairRegions
    split
    · next layout hobj => exact absurd hobj (hlayout layout)
    · rfl

theorem regionsSettled_of_repairRegions {design after : Fields Rat}
    {r : Repaired Rat (Fields Rat × List (Json Rat))} (h : repairRegions design = .ok r)
    (hafter : Table.get? after "layout" = Table.get? r.value.1 "layout") : RegionsSettled r.value.2 after := by
  unfold repairRegions at h
  split at h
  · next layout hlayout =>
    have hkept (entries : List (Json Rat))
        (hr : r.value = (Table.put "layout" (.obj (Table.put "regions"
          (.arr ((keepRegistrable entries).value.map Prod.fst)) layout)) design,
            (keepRegistrable entries).value.map Prod.snd)) : RegionsSettled r.value.2 after := by
      rw [hr] at hafter ⊢
      exact .inl ⟨_, _, hafter.trans (Table.get?_put_self _), Table.get?_put_self _, keepRegistrable_kept entries, rfl⟩
    dsimp only at h
    split at h
    · obtain ⟨entries, -, h⟩ := bind_eq_ok_iff.mp h
      obtain rfl := pure_eq_ok_iff.mp h
      exact hkept entries rfl
    · obtain rfl := pure_eq_ok_iff.mp h
      exact hkept [] rfl
  · next hlayout =>
    obtain rfl := Except.ok.inj h
    exact .inr ⟨fun layout hobj => hlayout layout (hafter.symm.trans hobj), rfl⟩

/-! ## The canvas and the version -/

/-- Whether a field holds a number that is at least one. -/
def reachesOne (fields : Fields Rat) (name : String) : Bool :=
  match Table.get? fields name with
  | some (.num n) => (Numeral.whole 1).isAtMost n
  | _ => false

/-- Whether a design has a canvas that is at least one pixel wide and high. -/
def hasRoom (design : Fields Rat) : Bool :=
  match Table.get? design "canvas" with
  | some (.obj canvas) => reachesOne canvas "width" && reachesOne canvas "height"
  | _ => false

theorem one_le_of_reachesOne {fields : Fields Rat} {name : String} {k : Int}
    (hk : Table.get? fields name = some (.ofInt k)) (h : reachesOne fields name = true) : 1 ≤ k := by
  unfold reachesOne at h
  rw [hk] at h
  have hrat : ((1 : Int) : Rat) ≤ (k : Rat) := of_decide_eq_true h
  exact Rat.intCast_le_intCast.mp hrat

/-- A canvas with nothing left to repair, but for its sides: they are whole numbers. -/
structure CanvasSettled (w h : Int) (canvas : Fields Rat) : Prop where
  width : Table.get? canvas "width" = some (.ofInt w)
  height : Table.get? canvas "height" = some (.ofInt h)
  aspect : ∃ a : Aspect, Table.get? canvas "aspectRatio" = some (.str a.tag)
  other : Table.get? canvas "aspect_ratio" = none

theorem canvasSettled_of_repairCanvas {design : Fields Rat} {r : Repaired Rat (Fields Rat)}
    (h : repairCanvas design = .ok r) :
    ∃ canvas w h, Table.get? r.value "canvas" = some (.obj canvas) ∧ CanvasSettled w h canvas := by
  unfold repairCanvas at h
  split at h
  · next canvas _ =>
    obtain ⟨sides, -, h⟩ := bind_eq_ok_iff.mp h
    obtain ⟨aspect, -, h⟩ := bind_eq_ok_iff.mp h
    obtain rfl := pure_eq_ok_iff.mp h
    refine ⟨_, (repairSize aspect.value sides).value.1, (repairSize aspect.value sides).value.2,
      Table.get?_put_self _, ?_, ?_, ⟨aspect.value, Table.get?_put_self _⟩, ?_⟩
    · rw [Table.get?_put_of_ne (by decide), Table.get?_put_of_ne (by decide), Table.get?_put_self]
    · rw [Table.get?_put_of_ne (by decide), Table.get?_put_self]
    · rw [Table.get?_put_of_ne (by decide), Table.get?_put_of_ne (by decide), Table.get?_put_of_ne (by decide),
        Table.get?_erase_self]
  · obtain rfl := Except.ok.inj h
    exact ⟨_, 512, 512, Table.get?_put_self _, rfl, rfl, ⟨.square, rfl⟩, rfl⟩

theorem CanvasSettled.of_hasRoom {design canvas : Fields Rat} {w h : Int} (hsettled : CanvasSettled w h canvas)
    (hcanvas : Table.get? design "canvas" = some (.obj canvas)) (hroom : hasRoom design = true) : 1 ≤ w ∧ 1 ≤ h := by
  unfold hasRoom at hroom
  rw [hcanvas] at hroom
  obtain ⟨hwidth, hheight⟩ := Bool.and_eq_true_iff.mp hroom
  exact ⟨one_le_of_reachesOne hsettled.width hwidth, one_le_of_reachesOne hsettled.height hheight⟩

theorem repairCanvas_of_settled {design canvas : Fields Rat} {w h : Int}
    (hcanvas : Table.get? design "canvas" = some (.obj canvas)) (hsettled : CanvasSettled w h canvas) (hw : 1 ≤ w)
    (hh : 1 ≤ h) : repairCanvas design = .ok (.same design) := by
  obtain ⟨hwidth, hheight, ⟨a, haspect⟩, hother⟩ := hsettled
  have hsides : sides? canvas = .ok (some (.whole w, .whole h)) := by
    unfold sides?
    simp only [hwidth, hheight]
    rfl
  have hlookUp : repairAspect canvas (some (.whole w, .whole h)) = .ok (.same a) := by
    unfold repairAspect writtenAspect
    simp only [haspect]
    cases a <;> rfl
  have hsize : repairSize a (some (.whole w, .whole h)) = (.same (w, h) : Repaired Rat (Int × Int)) := by
    have hwpos : (Numeral.whole w : Numeral Rat).atMostZero = false := decide_eq_false (by omega)
    have hhpos : (Numeral.whole h : Numeral Rat).atMostZero = false := decide_eq_false (by omega)
    unfold repairSize
    dsimp only
    rw [hwpos, hhpos]
    rfl
  unfold repairCanvas
  rw [hcanvas]
  dsimp only
  rw [hsides]
  dsimp only [bind, Except.bind]
  rw [hlookUp]
  dsimp only [Repaired.same]
  rw [hsize]
  dsimp only [Repaired.same]
  rw [Table.erase_of_get?_eq_none hother, Table.put_of_get? hwidth, Table.put_of_get? hheight,
    Table.put_of_get? haspect, Table.put_of_get? hcanvas]
  rfl

/-! ## Designs -/

/-- **A second repair changes nothing and has nothing to tell**, if the first one left the canvas some room. -/
theorem repairDesign_again [Trig Rat] {design : Fields Rat} {r : Repaired Rat (Fields Rat)}
    (h : repairDesign design = .ok r) (hroom : hasRoom r.value = true) :
    ∃ s, repairDesign r.value = .ok s ∧ s.value = r.value ∧ s.actions = [] := by
  obtain ⟨hversion, ⟨repairedCanvas, hrepaired, hcanvas⟩, before, regions, layers, -, hregions, hlayout, hlayers,
    hwritten⟩ := repairDesign_parts h
  have hregionsAgain := repairRegions_of_settled (regionsSettled_of_repairRegions hregions hlayout)
  obtain ⟨kept, hkept, hall, hids⟩ := repairLayers_forall₂ (R := fun _ layer => LayerSettled regions.value.2 layer)
    (fun _ _ _ _ _ hlayer => layerSettled_of_repairLayer hlayer) hlayers
  have hsettled : ∀ layer ∈ kept, LayerSettled regions.value.2 layer := fun layer hl => by
    obtain ⟨_, -, hlayer⟩ := exists_left_of_mem hall hl
    exact hlayer
  obtain ⟨canvas, w, ht, hput, hsides⟩ := canvasSettled_of_repairCanvas hrepaired
  obtain ⟨hw, hh⟩ := hsides.of_hasRoom (hcanvas.trans hput) hroom
  have hcanvasAgain := repairCanvas_of_settled (hcanvas.trans hput) hsides hw hh
  have hlist : repairLayerList regions.value.2 r.value = .ok (.same r.value) := by
    have hentries : layerEntries r.value = .same layers.value := by
      unfold layerEntries
      rw [hwritten]
    have hlayersAgain := repairLayers_of_settled hsettled 0 hids
    rw [← hkept] at hlayersAgain
    unfold repairLayerList
    rw [hentries, Repaired.same_andThen, hlayersAgain]
    exact congrArg (fun design => Except.ok (Repaired.same design)) (Table.put_of_get? hwritten)
  refine ⟨.same r.value, ?_, rfl, rfl⟩
  unfold repairDesign
  rw [repairVersion_of_version hversion, Repaired.same_andThen, hcanvasAgain]
  dsimp only [bind, Except.bind]
  rw [Repaired.same_andThen, hregionsAgain]
  dsimp only
  rw [Repaired.same_andThen]
  exact hlist

/-- A design with much to repair: no aspect ratio beside the sides of a wide canvas, a custom region of a reserved
name beside a fit one and an unfit one, two layers of one id with a text between them, an unknown region and anchor,
an offset that goes too far, paths of one id or of none, one without a usable command, and a path that begins with a
close and goes on with relative lines. -/
def tangledDesign : Fields Rat := [
  ("version", .ofInt 1),
  ("canvas", .obj [("aspect_ratio", .str "cinema"), ("width", .num (.real (1201 / 2))), ("height", .ofInt 250)]),
  ("layout", .obj [("regions", .arr [
    .obj [("name", .str "center"), ("bounds", .obj [("x", .ofInt 0), ("y", .ofInt 0),
      ("width", .ofInt 1), ("height", .ofInt 1)])],
    .obj [("name", .str "stage"), ("bounds", .obj [("x", .ofInt 0), ("y", .ofInt 0),
      ("width", .ofInt 1), ("height", .ofInt 1)])],
    .null])]),
  ("layers", .arr [
    .obj [("id", .str "night_sky"), ("layout", .obj [("region", .str "stage"), ("anchor", .str "nowhere")]),
      ("paths", .arr [
        .obj [("layout", .obj [("region", .str "attic"), ("offset", .arr [.ofInt 7, .str "-0.25"])]),
          ("d", .str "M 0 0"),
          ("commands", .arr [
            .obj [("cmd", .str "Z")],
            .obj [("cmd", .str "l"), ("coords", .arr [.ofInt 5, .ofInt 6, .ofInt 7])],
            .obj [("cmd", .str "H"), ("coords", .arr [.ofInt 9])]])],
        .obj [("id", .str "night_sky_path_1"), ("commands", .arr [.str "M", .obj [("cmd", .str "M"),
          ("coords", .arr [.ofInt 1, .ofInt 1, .ofInt 2, .ofInt 2])]])],
        .obj [("id", .str "empty"), ("commands", .arr [])]])],
    .str "none",
    .obj [("id", .str "night_sky"), ("label", .null), ("paths", .null)]])]

theorem repairDesign_again_tangled :
    letI := Trig.flat
    ∃ r, repairDesign tangledDesign = .ok r ∧ hasRoom r.value = true ∧ r.actions ≠ [] ∧
      ∃ s, repairDesign r.value = .ok s ∧ s.value = r.value ∧ s.actions = [] := by
  let _ := Trig.flat
  have hruns : ((repairDesign tangledDesign).toOption.any fun r => hasRoom r.value && !r.actions.isEmpty) = true := by
    decide +kernel
  obtain ⟨r, hr, hholds⟩ := Option.any_eq_true _ _ |>.mp hruns
  obtain ⟨hroom, hactions⟩ := Bool.and_eq_true_iff.mp hholds
  exact ⟨r, eq_ok_of_toOption hr, hroom, by rintro hnil; simp [hnil] at hactions,
    repairDesign_again (eq_ok_of_toOption hr) hroom⟩

end Drawing
