import Drawing.Markup.Page
import Drawing.Number.Double
import Drawing.Proofs.Document.Redrawn
import Drawing.Proofs.Validation.Findings

/-!
# `Drawing/Proofs/Validation/Names.lean` — accepted documents know their names

Validation asks of every region that a layout names whether it is there, and registers the custom ones itself,
going on after one that is refused. Carrying out the layouts registers them again, up to the first that is refused,
and looks up what is left when path, layer and document have been merged. The two agree:

> **no name is unknown in an accepted document**, and where a name fails the layouts of a document with layers,
> validation has refused it.
-/

namespace Drawing

variable {α β γ : Type}

/-! ## Faults of names -/

/-- Whether a fault is that of a name: a region or an anchor that is unknown, or a custom region that is
refused. -/
def Fault.isNaming : Fault α → Bool
  | .unknownRegion _ | .unknownAnchor _ | .invalidRegion _ _ => true
  | _ => false

/-- A computation that, should it fail, fails for no name. -/
def BlamesNoName (x : Except (Fault α) β) : Prop := ∀ fault, x = .error fault → fault.isNaming = false

namespace BlamesNoName

theorem ok (b : β) : BlamesNoName (.ok b : Except (Fault α) β) := nofun

theorem error {fault : Fault α} (h : fault.isNaming = false) :
    BlamesNoName (.error fault : Except (Fault α) β) := fun _ he => Except.error.inj he ▸ h

theorem bind {x : Except (Fault α) β} {f : β → Except (Fault α) γ} (hx : BlamesNoName x)
    (hf : ∀ b, x = .ok b → BlamesNoName (f b)) : BlamesNoName (x >>= f) := by
  intro fault h
  rcases bind_eq_error_iff.mp h with h | ⟨b, hb, h⟩
  · exact hx fault h
  · exact hf b hb fault h

theorem mapM {f : β → Except (Fault α) γ} {xs : List β} (h : ∀ x ∈ xs, BlamesNoName (f x)) :
    BlamesNoName (xs.mapM f) := by
  induction xs with
  | nil => exact ok []
  | cons x xs ih =>
    rw [List.mapM_cons]
    refine (h x (by simp)).bind fun y _ => ?_
    exact (ih fun x hx => h x (by simp [hx])).bind fun _ _ => ok _

theorem ofChecked (x : Checked β) : BlamesNoName (Command.ofChecked x : Except (Fault α) β) := by
  cases x with
  | valid b => exact ok b
  | invalid cs => exact error rfl

end BlamesNoName

/-! ## What validation has seen to -/

theorem Catalog.isValid_centerName (catalog : Catalog α) : catalog.isValid centerName = true := by
  have hreserved : isReserved centerName = true := by decide
  simp [isValid, hreserved]

section

variable [Scalar α]

/-- A document whose custom regions make up a catalog, in which all the others are that it names. -/
structure Document.Named (d : Document α) (catalog : Catalog α) : Prop where
  registered : d.catalog = .ok catalog
  layers : ∀ l ∈ d.layers, RegionKnown catalog l.layout
  paths : ∀ l ∈ d.layers, ∀ p ∈ l.paths, RegionKnown catalog p.layout

theorem Document.named_of_findings {d : Document α} (h : d.findings.1 = []) :
    ∃ catalog, d.Named catalog := by
  have hd := findings_eq_nil_iff.mp h
  exact ⟨_, registerAll_of_registerValid (registerValid_eq_nil_iff.mpr hd.regions), hd.layerRegions,
    hd.pathRegions⟩

/-- Names are in layouts, so moving points leaves them as known as they were. -/
theorem Document.Named.of_redrawn {d d' : Document α} {catalog : Catalog α} (h : d.Named catalog)
    (hd : d.Redrawn (fun _ => ShapePath.Traced) d') : d'.Named catalog := by
  refine ⟨?_, fun l' hl' => ?_, fun l' hl' p' hp' => ?_⟩
  · unfold Document.catalog
    rw [hd.regions]
    exact h.registered
  · obtain ⟨l, hl, hll⟩ := hd.exists_layer hl'
    rw [hll.layout]
    exact h.layers l hl
  · obtain ⟨l, hl, p, hp, -, hpp⟩ := hd.exists_path hl' hp'
    rw [hpp.frame]
    exact h.paths l hl p hp

/-! ## What merging makes of names -/

theorem Anchor.ofName?_name (a : Anchor) : ofName? a.name = some a := by cases a <;> decide

theorem mergeLayouts_anchor (document : Option (Document α)) (layer : Option (Layer α))
    (path : Option (ShapePath α)) :
    ∃ a, Anchor.ofName? (mergeLayouts document layer path).anchor = some a := by
  unfold mergeLayouts
  dsimp only
  generalize Option.or _ _ = anchor
  cases anchor with
  | none => exact ⟨.center, Anchor.ofName?_name .center⟩
  | some a => exact ⟨a, Anchor.ofName?_name a⟩

/-- The region of a path is one that it, its layer, or nobody names. -/
theorem Document.Named.layoutOf_region {d : Document α} {catalog : Catalog α} (h : d.Named catalog)
    {l : Layer α} (hl : l ∈ d.layers) {p : ShapePath α} (hp : p ∈ l.paths) :
    catalog.isValid (d.layoutOf l p).region = true := by
  have hown : ∀ region,
      (ownLayouts (some l) (some p)).findSome? LayoutSpec.region = some region →
        catalog.isValid region = true := by
    intro region hr
    obtain ⟨spec, hspec, hr⟩ := List.exists_of_findSome?_eq_some hr
    rcases List.mem_append.mp hspec with hspec | hspec
    · have hlayout : p.layout = some spec := by simpa using hspec
      exact h.paths l hl p hp region (by rw [hlayout]; exact hr)
    · have hlayout : l.layout = some spec := by simpa using hspec
      exact h.layers l hl region (by rw [hlayout]; exact hr)
  unfold layoutOf mergeLayouts
  dsimp only
  split_ifs with hempty
  · exact catalog.isValid_centerName
  · cases hr : (ownLayouts (some l) (some p)).findSome? LayoutSpec.region with
    | none => exact catalog.isValid_centerName
    | some region => exact hown region hr

end

/-! ## Carrying out layouts -/

section

variable [Scalar α]

theorem Numeral.toScalar_blamesNoName (n : Numeral α) : BlamesNoName n.toScalar := by
  unfold toScalar
  split
  · exact .ok _
  · exact .error rfl

theorem Canvas.sides_blamesNoName (c : Canvas α) : BlamesNoName c.sides :=
  (Numeral.toScalar_blamesNoName _).bind fun _ _ =>
    (Numeral.toScalar_blamesNoName _).bind fun _ _ => .ok _

/-- A valid name has a box: a custom one, or that of a reserved region. -/
theorem Catalog.bounds_of_isValid {catalog : Catalog α} {region : String}
    (h : catalog.isValid region = true) : ∃ b, catalog.bounds region = .ok b := by
  unfold bounds
  cases hc : Table.get? catalog.custom region with
  | some b => exact ⟨b, rfl⟩
  -- what is not custom is reserved, and the reserved names are those of the table
  | none =>
    have hreserved : isReserved region = true := by
      have hcustom : Table.has catalog.custom region = false := by
        unfold Table.has
        rw [show catalog.custom.lookup region = none from hc]
        rfl
      simpa [isValid, hcustom] using h
    have hsome : (Table.get? (reservedRegions (α := α)) region).isSome = true := by
      unfold isReserved at hreserved
      rw [← names_reservedRegions (α := α)] at hreserved
      simpa [Table.get?, Table.names, List.lookup_isSome_iff] using hreserved
    obtain ⟨b, hb⟩ := Option.isSome_iff_exists.mp hsome
    exact ⟨b, by rw [hb]⟩

variable {s : Stage α} {layout : EffectiveLayout α}

theorem Stage.regionBox_blamesNoName {region : String} (h : s.catalog.isValid region = true) :
    BlamesNoName (s.regionBox region) := by
  obtain ⟨b, hb⟩ := Catalog.bounds_of_isValid h
  unfold regionBox Catalog.pixelBounds
  rw [hb]
  exact (Canvas.sides_blamesNoName s.canvas).bind fun _ _ => .ok _

theorem Stage.position_blamesNoName (hr : s.catalog.isValid layout.region = true)
    (ha : ∃ a, Anchor.ofName? layout.anchor = some a) : BlamesNoName (s.position layout) := by
  obtain ⟨a, ha⟩ := ha
  refine (regionBox_blamesNoName hr).bind fun box _ => ?_
  refine BlamesNoName.bind ?_ fun _ _ => .ok _
  unfold anchorPoint
  refine (regionBox_blamesNoName hr).bind fun _ _ => ?_
  rw [ha]
  exact .ok _

theorem Stage.gridPositions_blamesNoName (base : Point α) (columns rows : Nat) (stepX stepY : α) :
    BlamesNoName (gridPositions base columns rows stepX stepY) := by
  have hstart (x : α) (cells : Nat) (step : α) : BlamesNoName (gridStart x cells step) :=
    (Numeral.toScalar_blamesNoName _).bind fun _ _ => .ok _
  exact (hstart _ _ _).bind fun _ _ => (hstart _ _ _).bind fun _ _ => .ok _

theorem Stage.positions_blamesNoName [Trig α] (hr : s.catalog.isValid layout.region = true)
    (base : Point α) : BlamesNoName (s.positions layout base) := by
  unfold positions
  split
  · exact .ok _
  · split
    · exact (regionBox_blamesNoName hr).bind fun _ _ => gridPositions_blamesNoName _ _ _ _ _
    · exact .ok _

theorem Stage.sizedPoints_blamesNoName (hr : s.catalog.isValid layout.region = true)
    (points : List (Point α)) : BlamesNoName (s.sizedPoints points layout) := by
  unfold sizedPoints
  split
  · exact .ok _
  · exact .ok _
  · refine BlamesNoName.bind ?_ fun _ _ => .ok _
    exact (regionBox_blamesNoName hr).bind fun _ _ => .ok _

theorem Stage.instances_blamesNoName (commands : List (Command α)) (points : List (Point α))
    (first : Bool) (origins : List (Point α)) :
    BlamesNoName (s.instances commands points first origins) := by
  induction origins generalizing first with
  | nil => exact .ok _
  | cons origin rest ih =>
    refine BlamesNoName.bind ?_ fun _ _ => (ih false).bind fun _ _ => .ok _
    unfold instanceAt
    refine (BlamesNoName.ofChecked _).bind fun _ _ => ?_
    split_ifs
    · exact .ok _
    · exact (BlamesNoName.ofChecked _).bind fun _ _ => .ok _

theorem Stage.transform_blamesNoName [Trig α] (commands : List (Command α))
    (hr : s.catalog.isValid layout.region = true)
    (ha : ∃ a, Anchor.ofName? layout.anchor = some a) : BlamesNoName (s.transform commands layout) := by
  unfold transform
  split_ifs
  · exact .ok _
  · exact .ok _
  · refine (sizedPoints_blamesNoName hr _).bind fun _ _ => ?_
    refine (position_blamesNoName hr ha).bind fun _ _ => ?_
    exact (positions_blamesNoName hr _).bind fun _ _ => instances_blamesNoName _ _ _ _

/-- The layouts of a document that knows its names fail for no name. -/
theorem Document.Named.resolve [Trig α] {d : Document α} {catalog : Catalog α}
    (h : d.Named catalog) : BlamesNoName d.resolve := by
  unfold Document.resolve
  split_ifs
  · exact .ok _
  · rw [h.registered]
    refine (BlamesNoName.ok catalog).bind fun c hc => ?_
    obtain rfl := Except.ok.inj hc
    refine BlamesNoName.bind (.mapM fun l hl => ?_) fun _ _ => .ok _
    refine BlamesNoName.bind (.mapM fun p hp => ?_) fun _ _ => .ok _
    unfold resolvePath
    split_ifs
    · refine BlamesNoName.bind ?_ fun _ _ => .ok _
      exact Stage.transform_blamesNoName _ (h.layoutOf_region hl hp) (mergeLayouts_anchor ..)
    · exact .ok _

theorem Document.Named.markup [Trig α] [DecimalText α] {d : Document α} {catalog : Catalog α}
    (h : d.Named catalog) : BlamesNoName d.markup := by
  refine h.resolve.bind fun r _ => ?_
  refine BlamesNoName.bind ?_ fun _ _ => .ok _
  exact (Canvas.sides_blamesNoName _).bind fun _ _ => .ok _

/-- **The names of accepted documents are known**: whatever was validated, data or a document, the custom regions of
an accepted document make up a catalog, and neither its layouts nor its markup fail for a name. Conversely, where
a name fails the regions or the layouts of a document with layers, validation does not accept it. -/
theorem accepted_names_known [Trig α] [DecimalText α] (canvas : Option (Canvas α)) :
    (∀ (o : Outcome α) (d : Document α),
      ((∃ fields, validateData fields canvas = .ok o) ∨
        ∃ source : Document α, source.validate canvas = .ok o) →
      o.accepted? = some d →
        (∃ catalog, d.catalog = .ok catalog) ∧ BlamesNoName d.resolve ∧ BlamesNoName d.markup) ∧
    ∀ (d : Document α) (fault : Fault α), d.layers ≠ [] → fault.isNaming = true →
      (d.catalog = .error fault ∨ d.resolve = .error fault) →
        ∃ o, d.validate canvas = .ok o ∧ o.isOk = false := by
  constructor
  · intro o d hvalid ha
    obtain ⟨source, hsource⟩ : ∃ source : Document α, source.validate canvas = .ok o := by
      rcases hvalid with ⟨fields, h⟩ | h
      · unfold validateData at h
        split at h
        · exact absurd ha (Except.ok.inj h ▸ nofun)
        · exact ⟨_, h⟩
      · exact h
    obtain ⟨hfindings, hredrawn⟩ := Document.accepted_redrawn hsource ha
    obtain ⟨catalog, hnamed⟩ := Document.named_of_findings hfindings
    have hd := hnamed.of_redrawn hredrawn
    exact ⟨⟨catalog, hd.registered⟩, hd.resolve, hd.markup⟩
  · intro d fault hlayers hnaming hfails
    -- a document without findings would know its names
    have hfindings : d.findings.1 ≠ [] := by
      intro h
      obtain ⟨catalog, hnamed⟩ := Document.named_of_findings h
      rcases hfails with h | h
      · exact nomatch hnamed.registered.symm.trans h
      · exact absurd hnaming (by simp [hnamed.resolve fault h])
    refine ⟨.misfit d d.findings.1 d.findings.2, ?_, rfl⟩
    unfold Document.validate
    rw [if_neg (by simpa using hlayers)]
    simp [hfindings]

end

/-- A row of strokes: its layer names the region, each stroke the anchor. -/
def shelfDesign : Fields Float := [
  ("layout", .obj [
    ("regions", .arr [.obj [("name", .str "shelf"), ("bounds", .obj [("x", .ofReal 0.1),
      ("y", .ofInt 0), ("width", .ofReal 0.5), ("height", .ofReal 0.25)])]]),
    ("globalAnchor", .str "top_left")]),
  ("layers", .arr [.obj [("id", .str "row"),
    ("layout", .obj [("region", .str "shelf"),
      ("repeat", .obj [("type", .str "grid"), ("count", .ofInt 3)])]),
    ("paths", .arr [.obj [("id", .str "stroke"), ("layout", .obj [("anchor", .str "bottom_right")]),
      ("commands", .arr [
        .obj [("cmd", .str "M"), ("coords", .arr [.ofInt 0, .ofInt 20])],
        .obj [("cmd", .str "L"), ("coords", .arr [.ofInt 7, .ofInt 9])]])]])]])]

/-- The same row on a shelf that nobody put up. -/
def shelflessDocument : Document Float where
  canvas := .ofAspect .square
  layout := none
  layers := [{
    id := "row"
    label := "Row"
    paths := [⟨"stroke", .plain, [.move ⟨0, 20⟩, .line ⟨7, 9⟩], none⟩]
    layout := some ⟨some "shelf", none, none, none, none, none⟩ }]
  resolved := false

theorem accepted_names_known_shelf :
    (∃ o d, validateData shelfDesign (some (.ofAspect .sixteenNine)) = .ok o ∧ o.accepted? = some d ∧
      (∃ catalog, d.catalog = .ok catalog) ∧ BlamesNoName d.resolve ∧ BlamesNoName d.markup) ∧
    shelflessDocument.layers ≠ [] ∧ shelflessDocument.resolve = .error (.unknownRegion "shelf") ∧
      ∃ o, shelflessDocument.validate none = .ok o ∧ o.isOk = false := by
  constructor
  · have hruns : ((validateData shelfDesign (some (.ofAspect .sixteenNine))).toOption.bind
        Outcome.accepted?).isSome = true := by decide +kernel
    obtain ⟨d, h⟩ := Option.isSome_iff_exists.mp hruns
    obtain ⟨o, ho, ha⟩ := Option.bind_eq_some_iff.mp h
    have hok := eq_ok_of_toOption ho
    exact ⟨o, d, hok, ha, (accepted_names_known _).1 o d (.inl ⟨_, hok⟩) ha⟩
  · have hlayers : shelflessDocument.layers ≠ [] := List.cons_ne_nil _ _
    have hresolve : shelflessDocument.resolve = .error (.unknownRegion "shelf") := rfl
    exact ⟨hlayers, hresolve, (accepted_names_known none).2 _ _ hlayers rfl (.inr hresolve)⟩

end Drawing
