import Drawing.Number.Exact
import Drawing.Proofs.Document.Reading
import Drawing.Proofs.Number.Rounding
import Drawing.Proofs.Repair.Design
import Drawing.Proofs.Validation.Settled

/-!
# `Drawing/Proofs/Repair/Reading.lean` — what was repaired can be read

A repair leaves some parts of a design to its author: labels and styles that are there, the sizes, repetitions and
depths of layouts, the view box, what the layouts inherit, and the names of custom regions. Where these can be read,
so can what the repair made of the others, with two exceptions. A side of the canvas is found to be above zero before
it is rounded to whole pixels, so half a pixel or less becomes a side of none; and an id is kept that names half of a
surrogate pair, which is no text.
-/

namespace Drawing

open Schema

/-! ## What repair leaves as it is -/

section

variable {α : Type} [Scalar α]

/-- What a repair does not look at in the layout of a layer or a path can be read. -/
structure LayoutRestValid (layout : Fields α) : Prop where
  size : (optional (.same "size") none (nullable SizeSpec.read) layout).isValid = true
  repetition : (optional (.same "repeat") none (nullable Repetition.read) layout).isValid = true
  zIndex : (optional ⟨"zIndex", "z_index"⟩ none (nullable whole) layout).isValid = true

structure PathRestValid (path : Fields α) : Prop where
  style : ∀ style, Table.get? path "style" = some (.obj style) → (PathStyle.readFields style).isValid = true
  layout : ∀ layout, Table.get? path "layout" = some (.obj layout) → LayoutRestValid layout

structure LayerRestValid (layer : Fields α) : Prop where
  label : ∀ v, Table.get? layer "label" = some v → v.isTruthy = true → (text v).isValid = true
  layout : ∀ layout, Table.get? layer "layout" = some (.obj layout) → LayoutRestValid layout
  paths : ∀ path ∈ objectsOf (listField layer "paths"), PathRestValid path

/-- The same of the layout of a document, whose custom regions are to have names. -/
structure LayoutConfigRestValid (layout : Fields α) : Prop where
  anchor : (optional ⟨"globalAnchor", "global_anchor"⟩ none (nullable Anchor.read) layout).isValid = true
  offset : (optional ⟨"globalOffset", "global_offset"⟩ none (nullable Point.read) layout).isValid = true
  names : ∀ region ∈ listField layout "regions", ∀ name, regionName? region = some name →
    (filledText name).isValid = true

structure DesignRestValid (design : Fields α) : Prop where
  viewBox : ∀ canvas, Table.get? design "canvas" = some (.obj canvas) →
    (optional ⟨"viewBox", "view_box"⟩ none (nullable Box.readList) canvas).isValid = true
  layout : ∀ v, Table.get? design "layout" = some v →
    v = .null ∨ ∃ layout, v = .obj layout ∧ LayoutConfigRestValid layout
  layers : ∀ layer ∈ objectsOf (listField design "layers"), LayerRestValid layer

end

/-! ## What repair may leave unreadable -/

/-- An id that is a text is one of characters only. -/
def IdIsCharacters {α : Type} (fields : Fields α) : Prop :=
  ∀ s, Table.get? fields "id" = some (.str s) → isWellFormed s = true

/-- The sides of a canvas, if both are above zero, are both above half a pixel. -/
def SidesHold (canvas : Fields Rat) : Prop :=
  ∀ w h, sides? canvas = .ok (some (w, h)) → 0 < w.value → 0 < h.value → 1 / 2 < w.value ∧ 1 / 2 < h.value

/-! ## The canvas -/

theorem atMostZero_iff (n : Numeral Rat) : n.atMostZero = true ↔ n.value ≤ 0 := by
  cases n with
  | whole n => exact decide_eq_true_iff.trans Int.cast_nonpos.symm
  | real x => exact decide_eq_true_iff

/-- Half a pixel is rounded down, and so is everything below it. -/
theorem pixels_pos_iff (n : Numeral Rat) : 0 < n.pixels ↔ 1 / 2 < n.value := by
  cases n with
  | whole n =>
    show 0 < n ↔ (1 / 2 : Rat) < n
    constructor
    · intro h
      have hone : (1 : Rat) ≤ n := by exact_mod_cast h
      linarith
    · intro h
      have hpos : (0 : Rat) < n := by linarith
      exact_mod_cast hpos
  | real x => exact nearestInt_pos_iff

theorem repairSize_pos_iff (aspect : Aspect) (sides : Option (Numeral Rat × Numeral Rat)) :
    0 < (repairSize aspect sides).value.1 ∧ 0 < (repairSize aspect sides).value.2 ↔
      ∀ w h, sides = some (w, h) → 0 < w.value → 0 < h.value → 1 / 2 < w.value ∧ 1 / 2 < h.value := by
  have hfallback : (0 : Int) < aspect.size.1 ∧ (0 : Int) < aspect.size.2 := by cases aspect <;> decide
  unfold repairSize
  split
  · next w h =>
    dsimp only
    split_ifs with hzero
    · refine ⟨fun _ w' h' hs hw hh => ?_, fun _ => hfallback⟩
      obtain ⟨rfl, rfl⟩ := Prod.mk.inj (Option.some.inj hs)
      rw [Bool.or_eq_true, atMostZero_iff, atMostZero_iff] at hzero
      exact absurd hzero (not_or.mpr ⟨not_le.mpr hw, not_le.mpr hh⟩)
    -- both sides are above zero here, but only rounding tells whether they are above half a pixel
    · rw [Bool.or_eq_true, atMostZero_iff, atMostZero_iff, not_or, not_le, not_le] at hzero
      show 0 < w.pixels ∧ 0 < h.pixels ↔ _
      rw [pixels_pos_iff, pixels_pos_iff]
      constructor
      · rintro hpos w' h' hs - -
        obtain ⟨rfl, rfl⟩ := Prod.mk.inj (Option.some.inj hs)
        exact hpos
      · exact fun hall => hall w h rfl hzero.1 hzero.2
  · exact ⟨fun _ _ _ hs => (nomatch hs), fun _ => hfallback⟩

theorem isValid_readSide_ofInt {α : Type} [Scalar α] (n : Int) :
    (Canvas.readSide (.ofInt n : Json α)).isValid = true ↔ 0 < n := by
  have hpos : 0 < n.toNat ↔ 0 < n := by omega
  unfold Canvas.readSide
  show (if h : 0 < n.toNat then _ else _ : Checked _).isValid = true ↔ _
  split_ifs with h
  · simpa using hpos.mp h
  · simpa using mt hpos.mpr h

/-! ## Fields -/

section

variable {α β : Type}

theorem AgreeBeyond.optional {names : List String} {before after : Fields α}
    (h : AgreeBeyond names before after) {key : Key} (hcamel : key.camel ∉ names) (hname : key.name ∉ names)
    (fallback : β) (read : Json α → Checked β) :
    optional key fallback read after = optional key fallback read before := by
  unfold Schema.optional Key.find?
  rw [h _ hcamel, h _ hname]

/-- A field that may be `null` can be read if what is given can be. -/
theorem isValid_optional_nullable_iff {name : String} {read : Json α → Checked β} {fields : Fields α} :
    (optional (.same name) none (nullable read) fields).isValid = true ↔
      ∀ v, givenField? fields name = some v → (read v).isValid = true := by
  rw [isValid_optional_same_iff]
  constructor
  · intro h v hv
    refine isValid_nullable_iff.mp (h v (get?_of_givenField? hv)) ?_
    rintro rfl
    exact givenField?_ne_null hv
  · intro h v hv
    refine isValid_nullable_iff.mpr fun hne => h v ?_
    unfold givenField?
    split
    · next hnull => exact absurd (Option.some.inj (hv.symm.trans hnull)) hne
    · exact hv

end

/-- What became of records can be read, all of it, if each of them met what it takes. -/
theorem isValid_records_iff {α β : Type} {read : Json α → Checked β} {P : Fields α → Prop}
    {before after : List (Fields α)}
    (h : List.Forall₂ (fun fields fields' => (read (.obj fields')).isValid = true ↔ P fields) before after) :
    (list read (.arr (after.map .obj))).isValid = true ↔ ∀ fields ∈ before, P fields := by
  rw [isValid_list_iff, ← forall_mem_iff_of_forall₂ h]
  constructor
  · rintro ⟨items, hitems, hread⟩ fields hf
    obtain rfl := Json.arr.inj hitems
    exact hread (.obj fields) (List.mem_map_of_mem hf)
  · intro hread
    refine ⟨_, rfl, fun item hitem => ?_⟩
    obtain ⟨fields, hf, rfl⟩ := List.mem_map.mp hitem
    exact hread fields hf

theorem withoutResolved_frame {α : Type} (fields : Fields α) :
    AgreeBeyond ["layoutResolved", "layout_resolved"] fields (withoutResolved fields) :=
  ((AgreeBeyond.refl _ _).erase _ (by simp)).erase _ (by simp)

/-! ## Ids and labels -/

/-- The id that something gets is of characters only if the one is that it asks for. -/
theorem isWellFormed_given_iff {α : Type} {fields : Fields α} {fallback : String}
    (h : isWellFormed fallback = true) (taken : List String) :
    isWellFormed (freeId (wantedId (Table.get? fields "id") fallback) taken) = true ↔ IdIsCharacters fields := by
  rw [isWellFormed_freeId, isWellFormed_wantedId_iff h]
  rfl

theorem isWellFormed_labelOfId {id : String} (h : isWellFormed id = true) :
    isWellFormed (labelOfId id) = true := by
  refine isWellFormed_titled (isWellFormed_iff.mpr fun c hc => ?_)
  rw [String.toList_ofList] at hc
  obtain ⟨d, hd, rfl⟩ := List.mem_map.mp hc
  split_ifs
  · exact isCharacter_of_lt (by decide)
  · exact isWellFormed_iff.mp h d hd

theorem isValid_labelOf {α : Type} [Scalar α] {id : String} {layer : Fields α} (hid : isWellFormed id = true)
    (h : LayerRestValid layer) :
    (optional (.same "label") "" text (withLabel id layer)).isValid = true := by
  refine isValid_optional_same_iff.mpr fun v hv => ?_
  unfold withLabel at hv
  dsimp only at hv
  rw [Table.get?_put_of_ne (by decide)] at hv
  split_ifs at hv with htruthy
  · rw [Table.get?_put_of_ne (by decide)] at hv
    rw [hv] at htruthy
    exact h.label v hv htruthy
  · rw [Table.get?_put_self] at hv
    obtain rfl := Option.some.inj hv
    rw [isValid_text_str]
    exact isWellFormed_labelOfId hid

/-! ## Layouts -/

theorem isWellFormed_of_isReserved {s : String} (h : isReserved s = true) : isWellFormed s = true := by
  have hall : ∀ name ∈ reservedNames, isWellFormed name = true := by decide +kernel
  exact hall s (List.contains_iff_mem.mp h)

theorem eq_str_of_sameName_left {α : Type} [Scalar α] {s : String} {v : Json α}
    (h : sameName (.str s) v = true) : v = .str s := by
  cases v with
  | str t => exact congrArg Json.str (beq_iff_eq.mp h).symm
  | null | bool | num | arr | obj => exact nomatch h

theorem eq_str_of_sameName_right {α : Type} [Scalar α] {s : String} {v : Json α}
    (h : sameName v (.str s) = true) : v = .str s := by
  cases v with
  | str t => exact congrArg Json.str (beq_iff_eq.mp h)
  | null | bool | num | arr | obj => exact nomatch h

/-- A region that is named is a text, if the names of the custom regions are. -/
theorem NamesRegion.exists_text {α : Type} [Scalar α] {names : List (Json α)} {region : Json α}
    (hnames : ∀ name ∈ names, (filledText name).isValid = true) (h : NamesRegion names region) :
    ∃ s, region = .str s ∧ isWellFormed s = true ∧ (isReserved s = true ∨ .str s ∈ names) := by
  rcases h with ⟨s, rfl, hs⟩ | ⟨name, hname, hsame⟩
  · exact ⟨s, rfl, isWellFormed_of_isReserved hs, .inl hs⟩
  · obtain ⟨s, rfl, hs, -⟩ := isValid_filledText_iff.mp (hnames name hname)
    exact ⟨s, eq_str_of_sameName_left hsame, hs, .inr hname⟩

theorem RefersTo.isValid_readFields {names : List (Json Rat)} {layout : Fields Rat} (h : RefersTo names layout)
    (hnames : ∀ name ∈ names, (filledText name).isValid = true) (hrest : LayoutRestValid layout) :
    (LayoutSpec.readFields layout).isValid = true := by
  have hregion : (optional (.same "region") none (nullable text) layout).isValid = true := by
    refine isValid_optional_nullable_iff.mpr fun v hv => ?_
    obtain ⟨s, rfl, hs, -⟩ := (h.region v hv).exists_text hnames
    exact isValid_text_iff.mpr ⟨s, rfl, hs⟩
  have hanchor : (optional (.same "anchor") none (nullable Anchor.read) layout).isValid = true := by
    refine isValid_optional_nullable_iff.mpr fun v hv => ?_
    obtain ⟨a, rfl⟩ := h.anchor v hv
    cases a <;> rfl
  have hoffset : (optional (.same "offset") none (nullable Point.read) layout).isValid = true := by
    refine isValid_optional_nullable_iff.mpr fun v hv => ?_
    obtain ⟨x, y, rfl, -⟩ := h.offset v hv
    rfl
  simp only [LayoutSpec.readFields, Checked.isValid_seq, Checked.isValid_functor_map, hregion, hanchor,
    hoffset, hrest.size, hrest.repetition, hrest.zIndex, Bool.and_true]

theorem LayoutRestValid.of_agree {α : Type} [Scalar α] {before after : Fields α}
    (h : AgreeBeyond ["region", "anchor", "offset"] before after) (hbefore : LayoutRestValid before) :
    LayoutRestValid after where
  size := by
    rw [h.optional (by decide) (by decide)]
    exact hbefore.size
  repetition := by
    rw [h.optional (by decide) (by decide)]
    exact hbefore.repetition
  zIndex := by
    rw [h.optional (by decide) (by decide)]
    exact hbefore.zIndex

/-- The layout of a layer or a path can be read once it is repaired. -/
theorem isValid_repairedLayout {owner : LayoutOwner} {names : List (Json Rat)} {fields after : Fields Rat}
    {r : Repaired Rat (Fields Rat)} (h : repairLayout owner names fields = .ok r)
    (hafter : Table.get? after "layout" = Table.get? r.value "layout")
    (hnames : ∀ name ∈ names, (filledText name).isValid = true)
    (hrest : ∀ layout, Table.get? fields "layout" = some (.obj layout) → LayoutRestValid layout) :
    (optional (.same "layout") none (nullable LayoutSpec.read) after).isValid = true := by
  refine isValid_optional_nullable_iff.mpr fun v hv => ?_
  rw [givenField?_congr hafter] at hv
  obtain ⟨before, layout, hbefore, rfl, hrefers, hframe⟩ := (repairLayout_spec h).good v hv
  exact hrefers.isValid_readFields hnames ((hrest before hbefore).of_agree hframe)

/-! ## Paths -/

theorem isValid_styleOf {α : Type} [Scalar α] {path : Fields α} (id : String) (h : PathRestValid path) :
    (optional (.same "style") PathStyle.plain PathStyle.read (withStyle id path)).isValid = true := by
  refine isValid_optional_same_iff.mpr fun v hv => ?_
  unfold withStyle at hv
  dsimp only at hv
  rw [Table.get?_put_of_ne (by decide)] at hv
  split at hv
  · next style hstyle =>
    rw [Table.get?_put_of_ne (by decide), hstyle] at hv
    obtain rfl := Option.some.inj hv
    exact h.style style hstyle
  · rw [Table.get?_put_self] at hv
    obtain rfl := Option.some.inj hv
    rfl

theorem isValid_commands {commands : List (Command Rat)} :
    (list Command.read (.arr (commands.map (Command.json .stored)))).isValid = true := by
  refine isValid_list_iff.mpr ⟨_, rfl, fun item hitem => ?_⟩
  obtain ⟨c, -, rfl⟩ := List.mem_map.mp hitem
  rw [Command.read_json fun _ _ => ⟨rfl, rfl⟩]
  rfl

section

variable [Trig Rat] {names : List (Json Rat)}

/-- A path that is left can be read if its id can be. -/
theorem isValid_repairedPath {layer id : String} {fields path : Fields Rat}
    {r : Repaired Rat (Option (Fields Rat))} (h : repairPath names layer id fields = .ok r)
    (hpath : r.value = some path) (hid : id ≠ "") (hnames : ∀ name ∈ names, (filledText name).isValid = true)
    (hrest : PathRestValid fields) : (ShapePath.readFields path).isValid = isWellFormed id := by
  obtain ⟨hframe, ⟨laidOut, hlaidOut, hlayout⟩, commands, hcommands⟩ := repairPath_parts h hpath
  obtain ⟨hstyleFrame, hgiven⟩ := withStyle_spec id fields
  have hidValid : (required (.same "id") filledText path).isValid = isWellFormed id := by
    rw [isValid_required_same ((hframe "id" (by decide)).trans hgiven), isValid_filledText_str hid]
  have hstyleValid : (optional (.same "style") PathStyle.plain PathStyle.read path).isValid = true := by
    rw [hframe.optional (by decide) (by decide)]
    exact isValid_styleOf id hrest
  have hcommandsValid : (optional (.same "commands") [] (list Command.read) path).isValid = true := by
    rw [isValid_optional_same hcommands]
    exact isValid_commands
  have hlayoutValid : (optional (.same "layout") none (nullable LayoutSpec.read) path).isValid = true := by
    refine isValid_repairedLayout hlaidOut hlayout hnames fun layout hl => hrest.layout layout ?_
    rwa [hstyleFrame "layout" (by decide)] at hl
  simp only [ShapePath.readFields, Checked.isValid_seq, Checked.isValid_functor_map, hidValid, hstyleValid,
    hcommandsValid, hlayoutValid, Bool.and_true]

theorem isValid_repairedPaths_iff {layer : String} {place : Nat} {taken : List String}
    {entries : List (Json Rat)} {r : Repaired Rat (List (Json Rat))}
    (h : repairPaths names layer place taken entries = .ok r) (hlayer : isWellFormed layer = true)
    (hnames : ∀ name ∈ names, (filledText name).isValid = true)
    (hrest : ∀ path ∈ objectsOf entries, PathRestValid path) :
    (list ShapePath.read (.arr r.value)).isValid = true ↔
      ∀ path ∈ (objectsOf entries).filter drawsSomething, IdIsCharacters path := by
  have hpath : ∀ fields ∈ objectsOf entries, ∀ place taken r path,
      repairPath names layer (freeId (wantedId (Table.get? fields "id") s!"{layer}_path_{place + 1}") taken)
        fields = .ok r → r.value = some path →
      ((ShapePath.readFields path).isValid = true ↔ IdIsCharacters fields) := by
    intro fields hfields place taken r path hr hpath
    have hfallback : isWellFormed (layer ++ "_path_" ++ toString (place + 1)) = true := by
      rw [isWellFormed_append, isWellFormed_append, hlayer, isWellFormed_toString]
      decide
    rw [isValid_repairedPath hr hpath ?_ hnames (hrest fields hfields)]
    · exact isWellFormed_given_iff hfallback taken
    · refine freeId_ne_empty (wantedId_ne_empty ?_ _) _
      simp
  obtain ⟨paths, hvalue, hall, -⟩ := repairPaths_forall₂ hpath h
  rw [hvalue]
  exact isValid_records_iff hall

/-! ## Layers -/

/-- A layer whose ids, its own and those of the paths that are left, can be read. -/
def LayerIdsHold (layer : Fields Rat) : Prop :=
  IdIsCharacters layer ∧
    ∀ path ∈ (objectsOf (listField layer "paths")).filter drawsSomething, IdIsCharacters path

theorem isValid_repairedLayer_iff {place : Nat} {id : String} {fields : Fields Rat}
    {r : Repaired Rat (Fields Rat)} (h : repairLayer names place id fields = .ok r)
    (hnames : ∀ name ∈ names, (filledText name).isValid = true) (hrest : LayerRestValid fields) :
    (Layer.readFields r.value).isValid = true ↔ isWellFormed id = true ∧
      ∀ path ∈ (objectsOf (listField fields "paths")).filter drawsSomething, IdIsCharacters path := by
  obtain ⟨hframe, ⟨laidOut, hlaidOut, hlayout⟩, paths, hpaths, hwritten⟩ := repairLayer_parts h
  obtain ⟨hlabelFrame, hgiven⟩ := withLabel_spec id fields
  have hidValid : (required (.same "id") text r.value).isValid = isWellFormed id := by
    rw [isValid_required_same ((hframe "id" (by decide)).trans hgiven), isValid_text_str]
  -- the paths matter only where the id of the layer is a text, which is when the ids made of it are texts too
  cases hid : isWellFormed id with
  | false => simp [Layer.readFields, hidValid, hid]
  | true =>
    have hlabelValid : (optional (.same "label") "" text r.value).isValid = true := by
      rw [hframe.optional (by decide) (by decide)]
      exact isValid_labelOf hid hrest
    have hlayoutValid : (optional (.same "layout") none (nullable LayoutSpec.read) r.value).isValid = true := by
      refine isValid_repairedLayout hlaidOut hlayout hnames fun layout hl => hrest.layout layout ?_
      rwa [hlabelFrame "layout" (by decide)] at hl
    have hpathsValid : (optional (.same "paths") [] (list ShapePath.read) r.value).isValid = true ↔
        ∀ path ∈ (objectsOf (listField fields "paths")).filter drawsSomething, IdIsCharacters path := by
      rw [isValid_optional_same hwritten]
      exact isValid_repairedPaths_iff hpaths hid hnames hrest.paths
    simp only [Layer.readFields, Checked.isValid_seq, Checked.isValid_functor_map, hidValid, hid, hlabelValid,
      hlayoutValid, Bool.true_and, Bool.and_true, true_and, hpathsValid]

end

/-! ## Designs -/

theorem isValid_sized_iff {α : Type} [Scalar α] {canvas after : Fields α} {size : Int × Int} {aspect : Aspect}
    (h : after = (Table.put "aspectRatio" (.str aspect.tag) <| Table.put "height" (.ofInt size.2) <|
      Table.put "width" (.ofInt size.1) (Table.erase "aspect_ratio" canvas)))
    (hrest : (optional ⟨"viewBox", "view_box"⟩ none (nullable Box.readList) canvas).isValid = true) :
    (Canvas.readFields after).isValid = true ↔ 0 < size.1 ∧ 0 < size.2 := by
  have hframe : AgreeBeyond ["aspect_ratio", "width", "height", "aspectRatio"] canvas after := by
    rw [h]
    exact ((((AgreeBeyond.refl _ _).erase _ (by simp)).put _ (by simp) _).put _ (by simp) _).put _ (by simp) _
  have hwidth : Table.get? after "width" = some (.ofInt size.1) := by
    rw [h, Table.get?_put_of_ne (by decide), Table.get?_put_of_ne (by decide), Table.get?_put_self]
  have hheight : Table.get? after "height" = some (.ofInt size.2) := by
    rw [h, Table.get?_put_of_ne (by decide), Table.get?_put_self]
  have haspect : (optional ⟨"aspectRatio", "aspect_ratio"⟩ Aspect.square Aspect.read after).isValid = true := by
    rw [isValid_optional_camel _ (h ▸ Table.get?_put_self _)]
    cases aspect <;> rfl
  have hviewBox : (optional ⟨"viewBox", "view_box"⟩ none (nullable Box.readList) after).isValid = true := by
    rw [hframe.optional (by decide) (by decide)]
    exact hrest
  rw [← isValid_readSide_ofInt (α := α), ← isValid_readSide_ofInt (α := α)]
  simp only [Canvas.readFields, Checked.isValid_seq, Checked.isValid_functor_map, isValid_optional_same hwidth,
    isValid_optional_same hheight, haspect, hviewBox, Bool.and_true, Bool.and_eq_true]

/-- A canvas can be read once it is repaired if its sides are still there. -/
theorem isValid_repairedCanvas_iff {design : Fields Rat} {r : Repaired Rat (Fields Rat)}
    (h : repairCanvas design = .ok r)
    (hrest : ∀ canvas, Table.get? design "canvas" = some (.obj canvas) →
      (optional ⟨"viewBox", "view_box"⟩ none (nullable Box.readList) canvas).isValid = true) :
    (optional (.same "canvas") (Canvas.ofAspect .square) Canvas.read r.value).isValid = true ↔
      ∀ canvas, Table.get? design "canvas" = some (.obj canvas) → SidesHold canvas := by
  unfold repairCanvas at h
  split at h
  · next canvas hcanvas =>
    obtain ⟨sides, hsides, h⟩ := bind_eq_ok_iff.mp h
    obtain ⟨aspect, -, h⟩ := bind_eq_ok_iff.mp h
    obtain rfl := pure_eq_ok_iff.mp h
    have hholds : SidesHold canvas ↔ ∀ w h, sides = some (w, h) → 0 < w.value → 0 < h.value →
        1 / 2 < w.value ∧ 1 / 2 < h.value := by
      simp only [SidesHold, hsides, Except.ok.injEq]
    have hsize := repairSize_pos_iff aspect.value sides
    rw [isValid_optional_same (Table.get?_put_self _)]
    constructor
    · intro hvalid other hother
      obtain rfl := Json.obj.inj (Option.some.inj (hcanvas.symm.trans hother))
      exact hholds.mpr (hsize.mp ((isValid_sized_iff rfl (hrest canvas hcanvas)).mp hvalid))
    · intro hall
      exact (isValid_sized_iff rfl (hrest canvas hcanvas)).mpr (hsize.mpr (hholds.mp (hall canvas hcanvas)))
  · next hcanvas =>
    obtain rfl := Except.ok.inj h
    rw [isValid_optional_same (Table.get?_put_self _)]
    exact ⟨fun _ canvas hobj => absurd hobj (hcanvas canvas), fun _ => rfl⟩

/-- A custom region that may be registered can be read if its name can. -/
theorem Registrable.isValid_read {α : Type} [Scalar α] {region name : Json α} (h : Registrable region)
    (hname : regionName? region = some name) (hvalid : (filledText name).isValid = true) :
    (CustomRegion.read region).isValid = true := by
  obtain ⟨fields, name', bounds, b, rfl, hname', -, hbounds, hbox, -⟩ := h
  have hboxValid : (Box.read (.obj bounds)).isValid = true := Checked.isValid_iff.mpr ⟨b, hbox⟩
  show (CustomRegion.readFields fields).isValid = true
  simp only [CustomRegion.readFields, Checked.isValid_seq, Checked.isValid_functor_map,
    isValid_required_same hname, isValid_required_same hbounds, hvalid, hboxValid, Bool.and_true]

theorem isValid_withRegions {α : Type} [Scalar α] {layout : Fields α} {regions : List (Json α)}
    (hregions : ∀ region ∈ regions, (CustomRegion.read region).isValid = true)
    (hrest : LayoutConfigRestValid layout) :
    (nullable LayoutConfig.read (.obj (Table.put "regions" (.arr regions) layout))).isValid = true := by
  have hframe : AgreeBeyond ["regions"] layout (Table.put "regions" (.arr regions) layout) :=
    (AgreeBeyond.refl _ _).put _ (by simp) _
  have hlist : (optional (.same "regions") [] (list CustomRegion.read)
      (Table.put "regions" (.arr regions) layout)).isValid = true := by
    rw [isValid_optional_same (Table.get?_put_self _)]
    exact isValid_list_iff.mpr ⟨_, rfl, hregions⟩
  have hanchor : (optional ⟨"globalAnchor", "global_anchor"⟩ none (nullable Anchor.read)
      (Table.put "regions" (.arr regions) layout)).isValid = true := by
    rw [hframe.optional (by decide) (by decide)]
    exact hrest.anchor
  have hoffset : (optional ⟨"globalOffset", "global_offset"⟩ none (nullable Point.read)
      (Table.put "regions" (.arr regions) layout)).isValid = true := by
    rw [hframe.optional (by decide) (by decide)]
    exact hrest.offset
  refine isValid_nullable_iff.mpr fun _ => ?_
  show (LayoutConfig.readFields _).isValid = true
  simp only [LayoutConfig.readFields, Checked.isValid_seq, Checked.isValid_functor_map, hlist, hanchor, hoffset,
    Bool.and_true]

/-- The layout of a document and the names of its custom regions can be read once these are repaired. -/
theorem isValid_repairedRegions {α : Type} [Scalar α] {design : Fields α}
    {r : Repaired α (Fields α × List (Json α))} (h : repairRegions design = .ok r)
    (hrest : ∀ v, Table.get? design "layout" = some v →
      v = .null ∨ ∃ layout, v = .obj layout ∧ LayoutConfigRestValid layout) :
    (optional (.same "layout") none (nullable LayoutConfig.read) r.value.1).isValid = true ∧
      ∀ name ∈ r.value.2, (filledText name).isValid = true := by
  rcases repairRegions_cases h with ⟨layout, kept, hlayout, hkept, hr⟩ | ⟨hnone, hr⟩
  · have hconfig : LayoutConfigRestValid layout := by
      rcases hrest _ hlayout with hnull | ⟨other, hother, hconfig⟩
      · exact nomatch hnull
      · exact Json.obj.inj hother ▸ hconfig
    have hnames : ∀ p ∈ kept, (filledText p.2).isValid = true := fun p hp =>
      hconfig.names p.1 (hkept p hp).1 p.2 (hkept p hp).2.2
    rw [hr]
    constructor
    · rw [isValid_optional_same (Table.get?_put_self _)]
      refine isValid_withRegions (fun region hregion => ?_) hconfig
      obtain ⟨p, hp, rfl⟩ := List.mem_map.mp hregion
      exact (hkept p hp).2.1.isValid_read (hkept p hp).2.2 (hnames p hp)
    · rintro name hname
      obtain ⟨p, hp, rfl⟩ := List.mem_map.mp hname
      exact hnames p hp
  · rw [hr]
    refine ⟨isValid_optional_same_iff.mpr fun v hv => ?_, nofun⟩
    rcases hrest v hv with rfl | ⟨layout, rfl, -⟩
    · rfl
    · exact absurd hv (hnone layout)

section

variable [Trig Rat]

/-- A design whose sides are still there once they are rounded, and whose ids are texts. -/
structure DesignHolds (design : Fields Rat) : Prop where
  sides : ∀ canvas, Table.get? design "canvas" = some (.obj canvas) → SidesHold canvas
  ids : ∀ layer ∈ objectsOf (listField design "layers"), LayerIdsHold layer

theorem isValid_repairedLayers_iff {names : List (Json Rat)} {entries : List (Json Rat)}
    {r : Repaired Rat (List (Json Rat))} (h : repairLayers names 0 [] entries = .ok r)
    (hnames : ∀ name ∈ names, (filledText name).isValid = true)
    (hrest : ∀ layer ∈ objectsOf entries, LayerRestValid layer) :
    (list Layer.read (.arr r.value)).isValid = true ↔ ∀ layer ∈ objectsOf entries, LayerIdsHold layer := by
  have hlayer : ∀ fields ∈ objectsOf entries, ∀ place taken r,
      repairLayer names place (freeId (wantedId (Table.get? fields "id") s!"layer_{place + 1}") taken) fields =
        .ok r → ((Layer.readFields r.value).isValid = true ↔ LayerIdsHold fields) := by
    intro fields hfields place taken r hr
    have hfallback : isWellFormed ("layer_" ++ toString (place + 1)) = true := by
      rw [isWellFormed_append, isWellFormed_toString]
      decide
    refine (isValid_repairedLayer_iff hr hnames (hrest fields hfields)).trans (and_congr_left fun _ => ?_)
    exact isWellFormed_given_iff hfallback taken
  obtain ⟨layers, hvalue, hall, -⟩ := repairLayers_forall₂
    (R := fun before after => (Layer.readFields after).isValid = true ↔ LayerIdsHold before) hlayer h
  rw [hvalue]
  exact isValid_records_iff hall

/-- **A repaired design can be read**, if what was left to its author can be, exactly if the sides of its canvas are
still there and its ids are texts. -/
theorem isValid_repaired_iff {design : Fields Rat} {r : Repaired Rat (Fields Rat)} (h : repairDesign design = .ok r)
    (hrest : DesignRestValid design) :
    (Document.readFields (withoutResolved r.value)).isValid = true ↔ DesignHolds design := by
  obtain ⟨hversion, ⟨canvas, hcanvas, hsameCanvas⟩, before, regions, layers, hbefore, hregions, hsameLayout,
    hlayers, hwritten⟩ := repairDesign_parts h
  -- what is read is what repair wrote, less the mark of a layout that was carried out
  have hframe := withoutResolved_frame r.value
  have hversionFrame := repairVersion_frame design
  have hversionValid : (optional (.same "version") () Document.readVersion (withoutResolved r.value)).isValid =
      true := by
    rw [isValid_optional_same ((hframe "version" (by decide)).trans hversion)]
    rfl
  have hcanvasValid : (optional (.same "canvas") (Canvas.ofAspect .square) Canvas.read
      (withoutResolved r.value)).isValid = true ↔
        ∀ canvas, Table.get? design "canvas" = some (.obj canvas) → SidesHold canvas := by
    rw [optional_same_congr ((hframe "canvas" (by decide)).trans hsameCanvas), isValid_repairedCanvas_iff hcanvas,
      hversionFrame "canvas" (by decide)]
    intro canvas hc
    exact hrest.viewBox canvas ((hversionFrame "canvas" (by decide)).symm.trans hc)
  obtain ⟨hlayoutValid, hnames⟩ := isValid_repairedRegions hregions fun v hv =>
    hrest.layout v ((hbefore "layout" (by decide)).symm.trans hv)
  rw [← optional_same_congr ((hframe "layout" (by decide)).trans hsameLayout)] at hlayoutValid
  have hlayersValid : (optional (.same "layers") [] (list Layer.read) (withoutResolved r.value)).isValid = true ↔
      ∀ layer ∈ objectsOf (listField design "layers"), LayerIdsHold layer := by
    rw [isValid_optional_same ((hframe "layers" (by decide)).trans hwritten)]
    exact isValid_repairedLayers_iff hlayers hnames hrest.layers
  have hresolvedValid : (optional ⟨"layoutResolved", "layout_resolved"⟩ false truth
      (withoutResolved r.value)).isValid = true := by
    unfold Schema.optional
    rw [find?_withoutResolved]
    rfl
  simp only [Document.readFields, Checked.isValid_seq, Checked.isValid_functor_map, hversionValid, hlayoutValid,
    hresolvedValid, Bool.true_and, Bool.and_true, Bool.and_eq_true, hcanvasValid, hlayersValid]
  exact ⟨fun h => ⟨h.1, h.2⟩, fun h => ⟨h.sides, h.ids⟩⟩

end

end Drawing
