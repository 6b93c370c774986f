import Drawing.Proofs.Document.Bounds
import Drawing.Proofs.Layout.Stretch

/-!
# `Drawing/Proofs/Document/Stretch.lean` — moving to a canvas, before or after laying out

Moving a document to another canvas stretches its points and leaves its layouts as they are. If these ask for
nothing in pixels, it does not matter when that is done: the layouts carried out on the new canvas draw what they
drew on the old one, stretched. Paths that no layout moves are stretched like all others. Numbers are exact here,
and sine and cosine any functions.
-/

namespace Drawing

/-! ## Stretching documents -/

section

variable {α : Type}

/-- A path with every point replaced by its image. -/
def ShapePath.mapPoints (f : Point α → Point α) (p : ShapePath α) : ShapePath α :=
  p.withCommands (p.commands.map (Command.map f))

/-- A layer with every point replaced by its image. -/
def Layer.mapPoints (f : Point α → Point α) (l : Layer α) : Layer α :=
  l.withPaths (l.paths.map (ShapePath.mapPoints f))

theorem Command.map_id (c : Command α) : c.map (fun p => p) = c := by cases c <;> rfl

theorem Layer.mapPoints_id (l : Layer α) : l.mapPoints (fun p => p) = l := by
  have hpath (p : ShapePath α) : p.mapPoints (fun q => q) = p :=
    congrArg p.withCommands (List.map_id'' Command.map_id p.commands)
  exact congrArg l.withPaths (List.map_id'' hpath l.paths)

theorem layoutOf_congr [Scalar α] {d d' : Document α} {l l' : Layer α} {p p' : ShapePath α}
    (hd : d.layout = d'.layout) (hl : l.layout = l'.layout) (hp : p.layout = p'.layout) :
    d.layoutOf l p = d'.layoutOf l' p' := by
  unfold Document.layoutOf mergeLayouts ownLayouts
  simp only [Option.bind_some, hd, hl, hp]

end

theorem ShapePath.stretch_exact (p : ShapePath Rat) (sx sy : Rat) :
    p.stretch sx sy = .ok (p.mapPoints fun q => q.stretch sx sy) := by
  unfold stretch
  rw [← pointsOf_map, rebuilt_exact (letters_map _ _)]
  rfl

theorem Layer.stretch_exact (l : Layer Rat) (sx sy : Rat) :
    l.stretch sx sy = .ok (l.mapPoints fun q => q.stretch sx sy) := by
  have hpaths : (l.paths.mapM fun p => p.stretch sx sy : Except (Fault Rat) _) =
      .ok (l.paths.map (ShapePath.mapPoints fun q => q.stretch sx sy)) :=
    mapM_eq_ok_iff.mpr <| List.forall₂_map_right_iff.mpr <| List.forall₂_same.mpr
      fun p _ => p.stretch_exact sx sy
  unfold stretch
  rw [hpaths]
  rfl

/-- What moving a document to a canvas comes to: every point is multiplied by the ratios of the sides, also where
these are one. -/
theorem Document.conform_exact (d : Document Rat) (canvas : Canvas Rat) :
    ∃ m rescale, d.conform canvas = .ok (m, rescale) ∧
      m.size = (canvas.width, canvas.height) ∧ m.layout = d.layout ∧ m.resolved = d.resolved ∧
      m.layers = d.layers.map (Layer.mapPoints fun q =>
        q.stretch ((canvas.width : Rat) / d.canvas.width) ((canvas.height : Rat) / d.canvas.height)) := by
  have hlayers (sx sy : Rat) : (d.layers.mapM fun l => l.stretch sx sy : Except (Fault Rat) _) =
      .ok (d.layers.map (Layer.mapPoints fun q => q.stretch sx sy)) :=
    mapM_eq_ok_iff.mpr <| List.forall₂_map_right_iff.mpr <| List.forall₂_same.mpr
      fun l _ => l.stretch_exact sx sy
  unfold conform
  dsimp only
  split_ifs with hsame
  -- between canvases of one size nothing is done, which is a stretch by one and one
  · refine ⟨_, _, rfl, rfl, rfl, rfl, ?_⟩
    have hone {n n' : Nat} (h : n = n') (hn : 0 < n) : (n' : Rat) / n = 1 := by
      rw [← h]
      exact div_self (by exact_mod_cast hn.ne')
    have hid : (fun q : Point Rat => q.stretch 1 1) = fun q => q := by
      funext q
      simp [Point.stretch]
    rw [hone hsame.1 d.canvas.width_pos, hone hsame.2 d.canvas.height_pos, hid]
    exact (List.map_id'' Layer.mapPoints_id _).symm
  · rw [Numeral.quotient_exact d.canvas.width_pos, Numeral.quotient_exact d.canvas.height_pos]
    refine ⟨_, _, bind_eq_ok_iff.mpr ⟨_, rfl, bind_eq_ok_iff.mpr ⟨_, rfl,
      bind_eq_ok_iff.mpr ⟨_, hlayers _ _, rfl⟩⟩⟩, rfl, rfl, rfl, rfl⟩

/-- On exact numbers a document can be moved to any canvas. -/
theorem Document.exists_conformTo (d : Document Rat) (canvas : Option (Canvas Rat)) :
    ∃ m rescale, d.conformTo canvas = .ok (m, rescale) := by
  cases canvas with
  | none => exact ⟨_, _, rfl⟩
  -- quotients of sides are numbers, and stretched commands can be rebuilt
  | some canvas =>
    obtain ⟨m, rescale, hm, -⟩ := d.conform_exact canvas
    exact ⟨m, rescale, hm⟩

/-! ## Relative layouts -/

section

variable {α : Type}

/-- A layout that asks for nothing in pixels: its size, if it has one, is a share of its region, and its
repetition a grid. -/
structure LayoutSpec.IsRelative (spec : LayoutSpec α) : Prop where
  size : ∀ size, spec.size = some size → ∃ share, size = .relative share
  repetition : ∀ r, spec.repetition = some r → r.pattern = .grid

/-- A document none of whose layouts asks for anything in pixels. -/
structure Document.IsRelative (d : Document α) : Prop where
  layers : ∀ l ∈ d.layers, ∀ spec, l.layout = some spec → spec.IsRelative
  paths : ∀ l ∈ d.layers, ∀ p ∈ l.paths, ∀ spec, p.layout = some spec → spec.IsRelative

end

/-- Merging takes sizes and repetitions from layouts, so it makes none of its own. -/
theorem Document.IsRelative.layoutOf {d : Document Rat} (h : d.IsRelative) {l : Layer Rat}
    (hl : l ∈ d.layers) {p : ShapePath Rat} (hp : p ∈ l.paths) : (d.layoutOf l p).IsRelative := by
  have hown : ∀ spec ∈ ownLayouts (some l) (some p), spec.IsRelative := by
    intro spec hspec
    rcases List.mem_append.mp hspec with hspec | hspec
    · exact h.paths l hl p hp spec (by simpa using hspec)
    · exact h.layers l hl spec (by simpa using hspec)
  constructor
  · intro size hsize
    obtain ⟨spec, hspec, hsize⟩ := List.exists_of_findSome?_eq_some hsize
    exact (hown spec hspec).size size hsize
  · intro r hr
    obtain ⟨spec, hspec, hr⟩ := List.exists_of_findSome?_eq_some hr
    exact (hown spec hspec).repetition r hr

/-! ## Both orders -/

/-- A path of a document laid out on its stage, and its image on the stretched one. -/
theorem Document.resolvePath_stretched [Trig Rat] {d m : Document Rat} {s s' : Stage Rat} {sx sy : Rat}
    (hs : s.Stretched s' sx sy) (hm : m.layout = d.layout) (hd : d.Named s.catalog) {l : Layer Rat}
    (hl : l ∈ d.layers) {p : ShapePath Rat} (hp : p ∈ l.paths)
    (hrel : d.isMoved l p = true → (d.layoutOf l p).IsRelative) :
    Carried (ShapePath.mapPoints fun q => q.stretch sx sy) (d.resolvePath s l p)
      (m.resolvePath s' (l.mapPoints fun q => q.stretch sx sy) (p.mapPoints fun q => q.stretch sx sy)) := by
  have hmoved : m.isMoved (l.mapPoints fun q => q.stretch sx sy) (p.mapPoints fun q => q.stretch sx sy) =
      d.isMoved l p := isMoved_congr hm rfl rfl
  have hlayout : m.layoutOf (l.mapPoints fun q => q.stretch sx sy)
      (p.mapPoints fun q => q.stretch sx sy) = d.layoutOf l p := layoutOf_congr hm rfl rfl
  unfold resolvePath
  rw [hmoved]
  split_ifs with hmoves
  · unfold Stage.transformPath
    rw [hlayout]
    refine Carried.bind ?_ fun commands => .ok rfl
    exact hs.transform (hd.layoutOf_region hl hp) (mergeLayouts_anchor ..) (hrel hmoves) _
  · exact .ok rfl

/-- A layer of a document laid out on its stage, and its image on the stretched one. -/
theorem Document.resolveLayer_stretched [Trig Rat] {d m : Document Rat} {s s' : Stage Rat} {sx sy : Rat}
    (hs : s.Stretched s' sx sy) (hm : m.layout = d.layout) (hd : d.Named s.catalog)
    (hrel : d.IsRelative) {l : Layer Rat} (hl : l ∈ d.layers) :
    Carried (Layer.mapPoints fun q => q.stretch sx sy) (d.resolveLayer s l)
      (m.resolveLayer s' (l.mapPoints fun q => q.stretch sx sy)) :=
  Carried.bind (Carried.mapM fun _ hp => d.resolvePath_stretched hs hm hd hl hp fun _ => hrel.layoutOf hl hp)
    fun _ => .ok rfl

/-- Laying out a document and its image on a stretched canvas. -/
theorem Document.resolve_stretched [Trig Rat] {d m : Document Rat} {catalog : Catalog Rat} {sx sy : Rat}
    (hs : Stage.Stretched ⟨d.canvas, catalog⟩ ⟨m.canvas, catalog⟩ sx sy) (hm : m.layout = d.layout)
    (hlayers : m.layers = d.layers.map (Layer.mapPoints fun q => q.stretch sx sy))
    (hresolved : d.resolved = false) (hresolved' : m.resolved = false) (hd : d.Named catalog)
    (hrel : d.IsRelative) :
    ∃ r r', d.resolve = .ok r ∧ m.resolve = .ok r' ∧
      r'.layers = r.layers.map (Layer.mapPoints fun q => q.stretch sx sy) := by
  have hregistered : m.catalog = .ok catalog := by
    rw [← hd.registered]
    unfold Document.catalog Document.regions
    rw [hm]
  obtain ⟨layers, hl, hl'⟩ := Carried.mapM fun l hl =>
    Document.resolveLayer_stretched hs hm hd hrel hl
  rw [← hlayers] at hl'
  unfold resolve
  rw [hresolved, hresolved', hd.registered, hregistered]
  exact ⟨_, _, bind_eq_ok_iff.mpr ⟨_, rfl, bind_eq_ok_iff.mpr ⟨_, hl, rfl⟩⟩,
    bind_eq_ok_iff.mpr ⟨_, rfl, bind_eq_ok_iff.mpr ⟨_, hl', rfl⟩⟩, rfl⟩

/-- **Moving to a canvas commutes with laying out**: a document that knows its names and asks for nothing in pixels
can be laid out, and moved to any canvas and laid out there; what is drawn in the end is, path by path and command
by command, what was drawn without moving, stretched by the ratios of the sides. -/
theorem conform_resolve_comm [Trig Rat] {d : Document Rat} (canvas : Canvas Rat)
    (hnames : d.resolved = true ∨ ∃ catalog, d.Named catalog) (hrelative : d.IsRelative) :
    ∃ r m rescale r', d.resolve = .ok r ∧ d.conform canvas = .ok (m, rescale) ∧ m.resolve = .ok r' ∧
      r'.layers = r.layers.map (Layer.mapPoints fun q =>
        q.stretch ((canvas.width : Rat) / d.canvas.width) ((canvas.height : Rat) / d.canvas.height)) := by
  obtain ⟨m, rescale, hconform, hsize, hlayout, hresolved, hlayers⟩ := d.conform_exact canvas
  cases hr : d.resolved with
  -- what is laid out already is laid out by leaving it alone, here and on the other canvas
  | true =>
    refine ⟨d, m, rescale, m, if_pos hr, hconform, if_pos (hresolved.trans hr), hlayers⟩
  | false =>
    obtain ⟨catalog, hnamed⟩ := hnames.resolve_left (by simp [hr])
    obtain ⟨hwidth, hheight⟩ := Prod.mk.inj hsize
    have hw : (0 : Rat) < d.canvas.width := by exact_mod_cast d.canvas.width_pos
    have hh : (0 : Rat) < d.canvas.height := by exact_mod_cast d.canvas.height_pos
    have hstage : Stage.Stretched ⟨d.canvas, catalog⟩ ⟨m.canvas, catalog⟩
        ((canvas.width : Rat) / d.canvas.width) ((canvas.height : Rat) / d.canvas.height) := by
      refine ⟨rfl, ?_, ?_, ?_, ?_⟩
      · rw [hwidth, mul_div_cancel₀ _ hw.ne']
      · rw [hheight, mul_div_cancel₀ _ hh.ne']
      · exact div_pos (by exact_mod_cast canvas.width_pos) hw
      · exact div_pos (by exact_mod_cast canvas.height_pos) hh
    obtain ⟨r, r', h, h', hdrawn⟩ :=
      Document.resolve_stretched hstage hlayout hlayers hr (hresolved.trans hr) hnamed hrelative
    exact ⟨r, m, rescale, r', h, hconform, h', hdrawn⟩

/-- A frame that no layout moves, and tiles on a wall that only this document knows. -/
def tiledDocument : Document Rat where
  canvas := ⟨300, 200, .threeTwo, some ⟨0, 0, 300, 200⟩, by decide, by decide⟩
  layout := some ⟨[⟨"wall", ⟨1 / 10, 1 / 5, 1 / 2, 3 / 5⟩⟩], none, some ⟨1 / 20, 0⟩⟩
  layers := [
    { id := "frame"
      label := "Frame"
      paths := [⟨"edge", .plain, [.move ⟨0, 0⟩, .line ⟨300, 0⟩, .line ⟨300, 200⟩, .close], none⟩]
      layout := none },
    { id := "tiles"
      label := "Tiles"
      paths := [⟨"tile", .plain, [.line ⟨4, 0⟩, .quadratic ⟨9, 9⟩ ⟨0, 7⟩],
        some ⟨none, some .topLeft, none, some (.relative (1 / 4)),
          some ⟨.grid, .pair 2 3, some (1 / 5), none⟩, none⟩⟩]
      layout := some ⟨some "wall", none, none, none, none, some 3⟩ }]
  resolved := false

theorem tiledDocument_isRelative : tiledDocument.IsRelative := by
  constructor
  · rintro l hl spec hspec
    simp only [tiledDocument, List.mem_cons, List.not_mem_nil, or_false] at hl
    rcases hl with rfl | rfl
    · exact absurd hspec (Option.some_ne_none spec).symm
    · obtain rfl := Option.some.inj hspec
      constructor <;> rintro _ ⟨⟩
  · rintro l hl p hp spec hspec
    simp only [tiledDocument, List.mem_cons, List.not_mem_nil, or_false] at hl
    rcases hl with rfl | rfl
    · obtain rfl := List.mem_singleton.mp hp
      exact absurd hspec (Option.some_ne_none spec).symm
    · obtain rfl := List.mem_singleton.mp hp
      obtain rfl := Option.some.inj hspec
      exact ⟨fun _ h => ⟨_, (Option.some.inj h).symm⟩, fun _ h => Option.some.inj h ▸ rfl⟩

theorem conform_resolve_comm_tiles :
    letI := Trig.flat
    (tiledDocument.resolved = true ∨ ∃ catalog, tiledDocument.Named catalog) ∧
      tiledDocument.IsRelative ∧
      ∃ r m rescale r', tiledDocument.resolve = .ok r ∧
        tiledDocument.conform (.ofAspect .nineSixteen) = .ok (m, rescale) ∧ m.resolve = .ok r' ∧
        r'.layers = r.layers.map (Layer.mapPoints fun q => q.stretch
          (((Canvas.ofAspect .nineSixteen : Canvas Rat).width : Rat) / tiledDocument.canvas.width)
          (((Canvas.ofAspect .nineSixteen : Canvas Rat).height : Rat) / tiledDocument.canvas.height)) := by
  let _ := Trig.flat
  have hwall : (tiledDocument.catalog.toOption.any fun c => c.isValid "wall") = true := by decide +kernel
  obtain ⟨catalog, hnamed⟩ : ∃ catalog, tiledDocument.Named catalog := by
    obtain ⟨catalog, hc, hvalid⟩ := (Option.any_eq_true _ _).mp hwall
    refine ⟨catalog, eq_ok_of_toOption hc, ?_, ?_⟩
    · simpa [tiledDocument, RegionKnown] using hvalid
    · simp [tiledDocument, RegionKnown]
  exact ⟨.inr ⟨_, hnamed⟩, tiledDocument_isRelative,
    conform_resolve_comm _ (.inr ⟨_, hnamed⟩) tiledDocument_isRelative⟩

end Drawing
