import Drawing.Proofs.Document.Stretch
import Drawing.Proofs.Layout.Instances
import Drawing.Proofs.Layout.Pixels

/-!
# `Drawing/Proofs/Document/Pixels.lean` — moving to a canvas of the same proportions

Moving a document to a canvas multiplies its coordinates and its view box, and nothing else. So it does not scale the
whole picture, even where the canvas becomes larger or smaller by one factor in both directions: what the layouts ask for
in pixels is asked for on the new canvas as well. What is drawn there is

> **what the document would have drawn with its pixels divided by the factor**, with every coordinate multiplied by it,

and that is the picture as it was just where nothing is asked for in pixels. Numbers are exact here, and sine and cosine
any functions.
-/

namespace Drawing

/-! ## Documents with other pixels -/

/-- A path with everything that its layout asks for in pixels multiplied by a factor. -/
def ShapePath.scalePixels (k : Rat) (p : ShapePath Rat) : ShapePath Rat :=
  { p with layout := p.layout.map (·.scalePixels k) }

/-- A layer with everything that its layouts ask for in pixels multiplied by a factor. -/
def Layer.scalePixels (k : Rat) (l : Layer Rat) : Layer Rat :=
  { l with layout := l.layout.map (·.scalePixels k), paths := l.paths.map (·.scalePixels k) }

/-- A document with everything that its layouts ask for in pixels multiplied by a factor. -/
def Document.scalePixels (k : Rat) (d : Document Rat) : Document Rat :=
  { d with layers := d.layers.map (·.scalePixels k) }

/-- A path scaled as a whole, its points and its pixels. -/
def ShapePath.scale (k : Rat) (p : ShapePath Rat) : ShapePath Rat := (p.mapPoints fun q => q.stretch k k).scalePixels k

/-- A layer scaled as a whole. -/
def Layer.scale (k : Rat) (l : Layer Rat) : Layer Rat := (l.mapPoints fun q => q.stretch k k).scalePixels k

/-- A layer whose paths are scaled as a whole is scaled but for its own layout. -/
theorem Layer.paths_scale (k : Rat) (l : Layer Rat) : (l.scale k).paths = l.paths.map (ShapePath.scale k) :=
  List.map_map

theorem ownLayouts_scalePixels (k : Rat) (l : Layer Rat) (p : ShapePath Rat) :
    ownLayouts (some (l.scale k)) (some (p.scale k)) =
      (ownLayouts (some l) (some p)).map (LayoutSpec.scalePixels k) := by
  unfold ownLayouts
  rw [List.map_append]
  congr 1
  · cases hp : p.layout <;>
      simp [ShapePath.scale, ShapePath.scalePixels, ShapePath.mapPoints, ShapePath.withCommands, hp]
  · cases hl : l.layout <;> simp [Layer.scale, Layer.scalePixels, Layer.mapPoints, Layer.withPaths, hl]

/-- The pixels in force are those of the layouts, so merging may be done before they are multiplied. -/
theorem layoutOf_scale {d m : Document Rat} (hm : m.layout = d.layout) (k : Rat) (l : Layer Rat) (p : ShapePath Rat) :
    m.layoutOf (l.scale k) (p.scale k) = (d.layoutOf l p).scalePixels k := by
  unfold Document.layoutOf mergeLayouts
  rw [ownLayouts_scalePixels]
  simp only [List.findSome?_map, Option.bind_some, hm]
  unfold EffectiveLayout.scalePixels
  congr 1
  · exact List.map_findSome?.symm
  · exact List.map_findSome?.symm

theorem isMoved_scale {d m : Document Rat} (hm : m.layout = d.layout) (k : Rat) (l : Layer Rat) (p : ShapePath Rat) :
    m.isMoved (l.scale k) (p.scale k) = d.isMoved l p := by
  have hlayer : (l.scale k).layout.isSome = l.layout.isSome := Option.isSome_map
  have hpath : (p.scale k).layout.isSome = p.layout.isSome := Option.isSome_map
  unfold Document.isMoved
  rw [layoutOf_scale hm, EffectiveLayout.isIdentity_scalePixels, hlayer, hpath]

/-! ## Laying out -/

section

variable [Trig Rat] {d m : Document Rat} {catalog : Catalog Rat} {k : Rat}

/-- A path of a document laid out on its stage, and scaled as a whole on the stretched one. -/
theorem Document.resolvePath_scaled {s s' : Stage Rat} (hs : s.Stretched s' k k) (hm : m.layout = d.layout)
    (hd : d.Named s.catalog) {l : Layer Rat} (hl : l ∈ d.layers) {p : ShapePath Rat} (hp : p ∈ l.paths) :
    Carried (ShapePath.scale k) (d.resolvePath s l p) (m.resolvePath s' (l.scale k) (p.scale k)) := by
  unfold resolvePath
  rw [isMoved_scale hm]
  split_ifs
  · unfold Stage.transformPath
    rw [layoutOf_scale hm]
    refine Carried.bind ?_ fun commands => .ok rfl
    exact hs.transform_scaled (hd.layoutOf_region hl hp) (mergeLayouts_anchor ..) _
  · exact .ok rfl

/-- **A document scaled as a whole** is laid out as it was, scaled as a whole. -/
theorem Document.resolve_scaled (hs : Stage.Stretched ⟨d.canvas, catalog⟩ ⟨m.canvas, catalog⟩ k k)
    (hm : m.layout = d.layout) (hresolved : m.resolved = d.resolved) (hlayers : m.layers = d.layers.map (Layer.scale k))
    (hd : d.Named catalog) :
    ∃ r r', d.resolve = .ok r ∧ m.resolve = .ok r' ∧ r'.layers = r.layers.map (Layer.scale k) := by
  cases hr : d.resolved with
  | true => exact ⟨d, m, if_pos hr, if_pos (hresolved.trans hr), hlayers⟩
  | false =>
    have hregistered : m.catalog = .ok catalog := by
      rw [← hd.registered]
      unfold Document.catalog Document.regions
      rw [hm]
    have hlayer (l) (hl : l ∈ d.layers) : Carried (Layer.scale k) (d.resolveLayer ⟨d.canvas, catalog⟩ l)
        (m.resolveLayer ⟨m.canvas, catalog⟩ (l.scale k)) := by
      unfold resolveLayer
      rw [l.paths_scale]
      refine Carried.bind (Carried.mapM fun p hp => resolvePath_scaled hs hm hd hl hp) fun paths => .ok ?_
      exact congrArg (l.scale k).withPaths List.map_map
    obtain ⟨layers, hl, hl'⟩ := Carried.mapM hlayer
    rw [← hlayers] at hl'
    unfold resolve
    rw [hresolved, hr, hd.registered, hregistered]
    exact ⟨_, _, bind_eq_ok_iff.mpr ⟨_, rfl, bind_eq_ok_iff.mpr ⟨_, hl, rfl⟩⟩,
      bind_eq_ok_iff.mpr ⟨_, rfl, bind_eq_ok_iff.mpr ⟨_, hl', rfl⟩⟩, rfl⟩

end

/-! ## Moving to a canvas -/

theorem Point.stretch_inv {k : Rat} (hk : k ≠ 0) (q : Point Rat) : (q.stretch k k).stretch k⁻¹ k⁻¹ = q := by
  simp [stretch, hk]

theorem Command.map_stretch_inv {k : Rat} (hk : k ≠ 0) (c : Command Rat) :
    (c.map fun q => q.stretch k k).map (fun q => q.stretch k⁻¹ k⁻¹) = c := by
  cases c <;> simp [Command.map, Point.stretch_inv hk]

/-- Points that are stretched and then scaled back are where they were, and only the pixels are scaled. -/
theorem Layer.scale_mapPoints {k : Rat} (hk : k ≠ 0) (l : Layer Rat) :
    (l.mapPoints fun q => q.stretch k k).scale k⁻¹ = l.scalePixels k⁻¹ := by
  have hpath (p : ShapePath Rat) : (p.mapPoints fun q => q.stretch k k).scale k⁻¹ = p.scalePixels k⁻¹ := by
    have hcommands : (p.commands.map (Command.map fun q => q.stretch k k)).map
        (Command.map fun q => q.stretch k⁻¹ k⁻¹) = p.commands := by
      rw [List.map_map]
      exact List.map_id'' (Command.map_stretch_inv hk) _
    unfold ShapePath.scale ShapePath.scalePixels ShapePath.mapPoints ShapePath.withCommands
    dsimp only
    rw [hcommands]
  have hpaths : ((l.mapPoints fun q => q.stretch k k).scale k⁻¹).paths = (l.scalePixels k⁻¹).paths := by
    rw [paths_scale]
    show (l.paths.map _).map _ = l.paths.map _
    rw [List.map_map]
    exact List.map_congr_left fun p _ => hpath p
  exact congrArg (l.scalePixels k⁻¹).withPaths hpaths

/-- A path whose place and shape are asked for without pixels: no layout moves it, or one that asks for none. -/
def Document.IsPixelFree (d : Document Rat) (l : Layer Rat) (p : ShapePath Rat) : Prop :=
  d.isMoved l p = true → (d.layoutOf l p).IsRelative

/-- Two documents redrawn, the points of one moved: what becomes of a path and of its image. -/
theorem Document.Redrawn.images {R S : Layer Rat → ShapePath Rat → ShapePath Rat → Prop} {d m r r' : Document Rat}
    {f : Point Rat → Point Rat} (hr : d.Redrawn R r) (hr' : m.Redrawn S r') (hm : m.layout = d.layout)
    (hlayers : m.layers = d.layers.map (Layer.mapPoints f)) :
    r.Redrawn (fun l q q' => ∃ l₀ ∈ d.layers, ∃ p ∈ l₀.paths, l.layout = l₀.layout ∧ R l₀ p q ∧
      S (l₀.mapPoints f) (p.mapPoints f) q') r' := by
  have himages := hr'.layers
  rw [hlayers, List.forall₂_map_left_iff] at himages
  refine ⟨hr'.layout.trans (hm.trans hr.layout.symm), (forall₂_comp (forall₂_mem hr.layers).flip himages).imp ?_⟩
  rintro l l' ⟨l₀, ⟨hl₀, hl⟩, hl'⟩
  have hpaths := hl'.paths
  rw [show (l₀.mapPoints f).paths = l₀.paths.map (ShapePath.mapPoints f) from rfl, List.forall₂_map_left_iff] at hpaths
  refine ⟨?_, (forall₂_comp (forall₂_mem hl.paths).flip hpaths).imp ?_⟩
  · rw [hl'.frame, hl.frame]
    rfl
  · rintro q q' ⟨p, ⟨hp, hR⟩, hS⟩
    exact ⟨l₀, hl₀, p, hp, hl.layout, hR, hS⟩

/-- **Moving to a canvas of the same proportions.** A document that knows its names is laid out after the move as it would
be before, if everything that it asks for in pixels were divided by the factor; and the paths that ask for nothing in
pixels are laid out as they were. All coordinates are multiplied by the factor. -/
theorem conform_uniform [Trig Rat] {d : Document Rat} {catalog : Catalog Rat} {canvas : Canvas Rat} {s : Rat}
    (hnamed : d.Named catalog) (hwidth : (canvas.width : Rat) = d.canvas.width * s)
    (hheight : (canvas.height : Rat) = d.canvas.height * s) :
    ∃ r small m rescale r', d.resolve = .ok r ∧ (d.scalePixels s⁻¹).resolve = .ok small ∧
      d.conform canvas = .ok (m, rescale) ∧ m.resolve = .ok r' ∧
      r'.layers.map (fun l => l.paths.map ShapePath.commands) =
        small.layers.map (fun l => l.paths.map fun p => p.commands.map (Command.map fun q => q.stretch s s)) ∧
      r.Redrawn (fun l p p' => d.IsPixelFree l p → p' = p.mapPoints fun q => q.stretch s s) r' := by
  obtain ⟨m, rescale, hconform, hsize, hlayout, hresolved, hlayers⟩ := d.conform_exact canvas
  have hw : (0 : Rat) < d.canvas.width := by exact_mod_cast d.canvas.width_pos
  have hh : (0 : Rat) < d.canvas.height := by exact_mod_cast d.canvas.height_pos
  have hs : 0 < s := by
    have hpos : (0 : Rat) < d.canvas.width * s := by
      rw [← hwidth]
      exact_mod_cast canvas.width_pos
    exact (mul_pos_iff_of_pos_left hw).mp hpos
  rw [hwidth, hheight, mul_div_cancel_left₀ _ hw.ne', mul_div_cancel_left₀ _ hh.ne'] at hlayers
  obtain ⟨hmw, hmh⟩ := Prod.mk.inj hsize
  have hstage : Stage.Stretched ⟨d.canvas, catalog⟩ ⟨m.canvas, catalog⟩ s s := by
    refine ⟨rfl, ?_, ?_, hs, hs⟩
    · rw [hmw, hwidth]
    · rw [hmh, hheight]
  have hback : Stage.Stretched ⟨m.canvas, catalog⟩ ⟨(d.scalePixels s⁻¹).canvas, catalog⟩ s⁻¹ s⁻¹ := by
    refine ⟨rfl, ?_, ?_, inv_pos.mpr hs, inv_pos.mpr hs⟩
    · exact (mul_inv_cancel_right₀ hs.ne' _ ▸ congrArg (· * s⁻¹) hstage.width).symm
    · exact (mul_inv_cancel_right₀ hs.ne' _ ▸ congrArg (· * s⁻¹) hstage.height).symm
  have hm : m.Named catalog := hnamed.of_redrawn (Document.conform_redrawn hconform)
  have hshrunk : (d.scalePixels s⁻¹).layers = m.layers.map (Layer.scale s⁻¹) := by
    rw [hlayers, List.map_map]
    exact List.map_congr_left fun l _ => (l.scale_mapPoints hs.ne').symm
  obtain ⟨r, hr⟩ := hnamed.exists_resolve
  obtain ⟨r', small, hr', hsmall, hdrawn⟩ := Document.resolve_scaled hback hlayout.symm hresolved.symm hshrunk hm
  refine ⟨r, small, m, rescale, r', hr, hsmall, hconform, hr', ?_, ?_⟩
  · have hpath (p : ShapePath Rat) :
        p.commands = (p.scale s⁻¹).commands.map (Command.map fun q => q.stretch s s) := by
      have hback := Command.map_stretch_inv (inv_ne_zero hs.ne')
      rw [inv_inv] at hback
      show p.commands = (p.commands.map _).map _
      rw [List.map_map]
      exact (List.map_id'' hback p.commands).symm
    rw [hdrawn, List.map_map]
    refine List.map_congr_left fun l _ => ?_
    simp only [Function.comp]
    rw [l.paths_scale, List.map_map]
    exact List.map_congr_left fun p _ => hpath p
  · cases hresolvedD : d.resolved with
    | true =>
      obtain rfl := Except.ok.inj ((Document.resolve_of_resolved hresolvedD).symm.trans hr)
      obtain rfl := Except.ok.inj ((Document.resolve_of_resolved (hresolved.trans hresolvedD)).symm.trans hr')
      refine ⟨hlayout, ?_⟩
      rw [hlayers, List.forall₂_map_right_iff]
      refine List.forall₂_same.mpr fun l _ => ⟨rfl, ?_⟩
      exact List.forall₂_map_right_iff.mpr (List.forall₂_same.mpr fun p _ _ => rfl)
    | false =>
      obtain ⟨c, hc, -, hredrawn⟩ := (Document.resolve_eq_ok_iff hresolvedD).mp hr
      obtain ⟨c', hc', -, hredrawn'⟩ := (Document.resolve_eq_ok_iff (hresolved.trans hresolvedD)).mp hr'
      obtain rfl := Except.ok.inj (hnamed.registered.symm.trans hc)
      obtain rfl := Except.ok.inj (hm.registered.symm.trans hc')
      refine (hredrawn.images hredrawn' hlayout hlayers).imp ?_
      rintro l - q - q' ⟨l₀, hl₀, p, hp, hl, hR, hS⟩ hfree
      have hq : q.layout = p.layout := by
        rw [Document.frame_of_resolvePath hR]
        rfl
      have hrelative : d.isMoved l₀ p = true → (d.layoutOf l₀ p).IsRelative := by
        rw [← isMoved_congr (d := d) rfl hl hq, ← layoutOf_congr (d := d) rfl hl hq]
        exact hfree
      obtain ⟨seen, hseen, hseen'⟩ := Document.resolvePath_stretched hstage hlayout hnamed hl₀ hp hrelative
      obtain rfl := Except.ok.inj (hseen.symm.trans hR)
      exact Except.ok.inj (hS.symm.trans hseen')

/-- A row of posts with sizes in pixels, a wreath whose radius is left out, and a shape that no layout moves, drawn for
a canvas twice as large as the canonical one. -/
def roomyDocument : Document Rat where
  canvas := ⟨1024, 1024, .square, none, by decide, by decide⟩
  layout := none
  layers := [
    { id := "row"
      label := "Row"
      paths := [
        ⟨"post", .plain, [.move ⟨-50, -50⟩, .line ⟨50, 50⟩],
          some ⟨none, none, none, some (.absolute 100 100), none, none⟩⟩,
        ⟨"sign", .plain, [.move ⟨0, 0⟩, .cubic ⟨4, 0⟩ ⟨4, 8⟩ ⟨0, 8⟩],
          some ⟨some "top_left", some .topLeft, none, some (.constrained 30 (3 / 2)), none, none⟩⟩,
        ⟨"wreath", .plain, [.move ⟨0, 0⟩, .line ⟨5, 5⟩], some ⟨none, none, none, none,
          some ⟨.radial, .one 3, none, none⟩, none⟩⟩]
      layout := some ⟨some "center", none, none, none, none, none⟩ },
    { id := "frame"
      label := "Frame"
      paths := [⟨"edge", .plain, [.move ⟨0, 0⟩, .line ⟨1024, 1024⟩], none⟩]
      layout := none }]
  resolved := false

theorem roomyDocument_valid : roomyDocument.findings.1 = [] := by decide +kernel

theorem conform_uniform_roomy :
    letI := Trig.flat
    letI canvas : Canvas Rat := .ofAspect .square
    (∃ catalog, roomyDocument.Named catalog) ∧ (canvas.width : Rat) = roomyDocument.canvas.width * (1 / 2) ∧
      (canvas.height : Rat) = roomyDocument.canvas.height * (1 / 2) ∧
      ∃ r small m rescale r', roomyDocument.resolve = .ok r ∧
        (roomyDocument.scalePixels (1 / 2)⁻¹).resolve = .ok small ∧ roomyDocument.conform canvas = .ok (m, rescale) ∧
        m.resolve = .ok r' ∧
        r'.layers.map (fun l => l.paths.map ShapePath.commands) =
          small.layers.map (fun l => l.paths.map fun p =>
            p.commands.map (Command.map fun q => q.stretch (1 / 2) (1 / 2))) ∧
        r.Redrawn (fun l p p' => roomyDocument.IsPixelFree l p → p' = p.mapPoints fun q => q.stretch (1 / 2) (1 / 2))
          r' := by
  let _ := Trig.flat
  obtain ⟨catalog, hnamed⟩ := Document.named_of_findings roomyDocument_valid
  have hside : ((512 : Nat) : Rat) = (1024 : Nat) * (1 / 2) := by norm_num
  exact ⟨⟨catalog, hnamed⟩, hside, hside, conform_uniform hnamed hside hside⟩

/-- What is asked for in pixels keeps its size while the canvas changes, so the picture does not scale with it. -/
theorem conform_uniform_fails :
    letI := Trig.flat
    ¬ ∀ (d m r r' : Document Rat) (canvas : Canvas Rat) (rescale : Option (Rescale Rat)) (s : Rat),
      d.findings.1 = [] → (canvas.width : Rat) = d.canvas.width * s → (canvas.height : Rat) = d.canvas.height * s →
        d.resolve = .ok r → d.conform canvas = .ok (m, rescale) → m.resolve = .ok r' →
          r'.layers.map (fun l => l.paths.map ShapePath.commands) =
            r.layers.map (fun l => l.paths.map fun p => p.commands.map (Command.map fun q => q.stretch s s)) := by
  let _ := Trig.flat
  intro hscaled
  have hside : ((512 : Nat) : Rat) = (1024 : Nat) * (1 / 2) := by norm_num
  have hruns : (roomyDocument.resolve.toOption.bind fun r =>
      (roomyDocument.conform (.ofAspect .square)).toOption.bind fun (m, _) => m.resolve.toOption.map fun r' =>
        decide (r'.layers.map (fun l => l.paths.map ShapePath.commands) = r.layers.map fun l => l.paths.map fun p =>
          p.commands.map (Command.map fun q => q.stretch (1 / 2) (1 / 2)))) = some false := by
    decide +kernel
  obtain ⟨r, hr, hruns⟩ := Option.bind_eq_some_iff.mp hruns
  obtain ⟨⟨m, rescale⟩, hm, hruns⟩ := Option.bind_eq_some_iff.mp hruns
  obtain ⟨r', hr', hdiffers⟩ := Option.map_eq_some_iff.mp hruns
  exact of_decide_eq_false hdiffers (hscaled _ _ _ _ _ _ _ roomyDocument_valid hside hside (eq_ok_of_toOption hr)
    (eq_ok_of_toOption hm) (eq_ok_of_toOption hr'))

end Drawing
