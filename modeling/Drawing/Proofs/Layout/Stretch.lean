import Drawing.Number.Exact
import Drawing.Proofs.Region.Catalog
import Mathlib.Algebra.Order.Field.Rat
import Mathlib.Tactic.FieldSimp
import Mathlib.Tactic.Linarith
import Mathlib.Tactic.Ring

/-!
# `Drawing/Proofs/Layout/Stretch.lean` — layouts on a stretched stage

A stage may be stretched, its canvas by one factor in width and by another in height. Regions are fractions of the
canvas, and offsets, relative sizes and the steps of a grid are fractions of a region, so all of them stretch with
it, and so does what a layout draws, if the shape it is given is stretched as well. Pixels do not stretch: absolute
sizes and circles are left out. Numbers are exact here.
-/

namespace Drawing

/-! ## Computations side by side -/

section

variable {ε β γ β' γ' : Type}

/-- Two computations that come through, the second to the image of what the first comes to. -/
def Carried (f : β → γ) (x : Except ε β) (y : Except ε γ) : Prop := ∃ b, x = .ok b ∧ y = .ok (f b)

namespace Carried

theorem ok {f : β → γ} {b : β} {c : γ} (h : f b = c) :
    Carried f (.ok b : Except ε β) (.ok c) := ⟨b, rfl, h ▸ rfl⟩

theorem bind {f : β → γ} {g : β' → γ'} {x : Except ε β} {y : Except ε γ} {k : β → Except ε β'}
    {k' : γ → Except ε γ'} (h : Carried f x y) (hk : ∀ b, Carried g (k b) (k' (f b))) :
    Carried g (x >>= k) (y >>= k') := by
  obtain ⟨b, rfl, rfl⟩ := h
  exact hk b

/-- Lists are worked through side by side. -/
theorem mapM {f : β → β'} {g : γ → γ'} {k : β → Except ε γ} {k' : β' → Except ε γ'} {xs : List β}
    (h : ∀ x ∈ xs, Carried g (k x) (k' (f x))) :
    Carried (List.map g) (xs.mapM k) ((xs.map f).mapM k') := by
  induction xs with
  | nil => exact ok rfl
  | cons x xs ih =>
    rw [List.map_cons, List.mapM_cons, List.mapM_cons]
    refine (h x (by simp)).bind fun y => ?_
    exact (ih fun x hx => h x (by simp [hx])).bind fun ys => ok rfl

end Carried

end

/-! ## Points -/

theorem Scalar.lower_exact (a b : Rat) : lower a b = min a b := by
  rw [min_def_lt']
  rfl

theorem Scalar.upper_exact (a b : Rat) : upper a b = max a b := by
  rw [max_def_lt]
  rfl

/-- An extent with its sides multiplied by two factors. -/
def Extent.stretch (e : Extent Rat) (sx sy : Rat) : Extent Rat :=
  ⟨e.left * sx, e.top * sy, e.right * sx, e.bottom * sy⟩

section

variable {sx sy : Rat}

/-- Choosing among numbers commutes with multiplying all of them by a factor that keeps their order. -/
theorem foldl_choice_mul {choice : Rat → Rat → Rat} {k : Rat}
    (hchoice : ∀ a b, choice (a * k) (b * k) = choice a b * k) (x : Rat) (xs : List Rat) :
    (xs.map (· * k)).foldl choice (x * k) = xs.foldl choice x * k := by
  rw [List.foldl_map]
  exact List.foldl_hom (· * k) fun a b => hchoice a b

theorem extent_stretch (hx : 0 < sx) (hy : 0 < sy) (ps : List (Point Rat)) :
    extent (ps.map fun p => p.stretch sx sy) = (extent ps).stretch sx sy := by
  cases ps with
  | nil => simp [extent, Extent.stretch]
  | cons p ps =>
    have hlower {k : Rat} (hk : 0 < k) (a b : Rat) :
        Scalar.lower (a * k) (b * k) = Scalar.lower a b * k := by
      rw [Scalar.lower_exact, Scalar.lower_exact, min_mul_of_nonneg _ _ hk.le]
    have hupper {k : Rat} (hk : 0 < k) (a b : Rat) :
        Scalar.upper (a * k) (b * k) = Scalar.upper a b * k := by
      rw [Scalar.upper_exact, Scalar.upper_exact, max_mul_of_nonneg _ _ hk.le]
    have hxs : (ps.map fun p => p.stretch sx sy).map Point.x = (ps.map Point.x).map (· * sx) := by
      simp [Function.comp_def, Point.stretch]
    have hys : (ps.map fun p => p.stretch sx sy).map Point.y = (ps.map Point.y).map (· * sy) := by
      simp [Function.comp_def, Point.stretch]
    unfold extent Extent.ofPoints Extent.stretch
    rw [List.map_cons]
    dsimp only
    rw [hxs, hys]
    congr 1
    · exact foldl_choice_mul (hlower hx) p.x _
    · exact foldl_choice_mul (hlower hy) p.y _
    · exact foldl_choice_mul (hupper hx) p.x _
    · exact foldl_choice_mul (hupper hy) p.y _

/-- The factors that fit a shape into a target are ratios, so they are the same when both are stretched. -/
theorem Stage.sideFactors_stretch (hx : 0 < sx) (hy : 0 < sy) (e : Extent Rat) (t : Rat × Rat) :
    sideFactors (e.stretch sx sy) (t.1 * sx, t.2 * sy) = sideFactors e t := by
  have hfactor {k : Rat} (hk : 0 < k) (target side : Rat) :
      (if Scalar.zero < side * k then some (target * k / (side * k)) else none) =
        if Scalar.zero < side then some (target / side) else none := by
    have hpos : (Scalar.zero : Rat) < side * k ↔ (Scalar.zero : Rat) < side :=
      mul_pos_iff_of_pos_right hk
    rw [mul_div_mul_right _ _ hk.ne']
    exact if_congr hpos rfl rfl
  have hw : (e.stretch sx sy).width = e.width * sx := (sub_mul _ _ _).symm
  have hh : (e.stretch sx sy).height = e.height * sy := (sub_mul _ _ _).symm
  unfold sideFactors
  rw [hw, hh]
  simp only [List.filterMap_cons, List.filterMap_nil]
  rw [hfactor hx, hfactor hy]

theorem Stage.fitPoints_stretch (hx : 0 < sx) (hy : 0 < sy) (ps : List (Point Rat)) (t : Rat × Rat) :
    fitPoints (ps.map fun p => p.stretch sx sy) (t.1 * sx, t.2 * sy) =
      (fitPoints ps t).map fun p => p.stretch sx sy := by
  unfold fitPoints
  rw [extent_stretch hx hy, sideFactors_stretch hx hy]
  split
  · rfl
  · rw [List.map_map, List.map_map]
    refine List.map_congr_left fun p _ => ?_
    simp only [Function.comp, Point.scaleAbout, Point.stretch, Scalar.zero_exact]
    congr 1 <;> ring

/-- Clamping to the stretched canvas. -/
theorem clamp_stretch (hx : 0 < sx) (hy : 0 < sy) (w h : Rat) (p : Point Rat) :
    (p.stretch sx sy).clamp (w * sx) (h * sy) = (p.clamp w h).stretch sx sy := by
  have hclamp {k : Rat} (hk : 0 < k) (hi x : Rat) :
      Scalar.clamp Scalar.zero (hi * k) (x * k) = Scalar.clamp Scalar.zero hi x * k := by
    unfold Scalar.clamp
    rw [Scalar.lower_exact, Scalar.lower_exact, Scalar.upper_exact, Scalar.upper_exact,
      min_mul_of_nonneg _ _ hk.le, max_mul_of_nonneg _ _ hk.le, Scalar.zero_exact, zero_mul]
  unfold Point.clamp Point.stretch
  rw [hclamp hx, hclamp hy]

end

/-! ## Stages -/

/-- A stage with the same regions, whose canvas is stretched by two positive factors. -/
structure Stage.Stretched (s s' : Stage Rat) (sx sy : Rat) : Prop where
  catalog : s'.catalog = s.catalog
  width : (s'.canvas.width : Rat) = s.canvas.width * sx
  height : (s'.canvas.height : Rat) = s.canvas.height * sy
  sx_pos : 0 < sx
  sy_pos : 0 < sy

/-- A layout that asks for nothing in pixels: its size is a share of its region and its repetition a grid. -/
structure EffectiveLayout.IsRelative (layout : EffectiveLayout Rat) : Prop where
  size : ∀ size, layout.size = some size → ∃ share, size = .relative share
  repetition : ∀ r, layout.repetition = some r → r.pattern = .grid

namespace Stage.Stretched

variable {s s' : Stage Rat} {sx sy : Rat} {layout : EffectiveLayout Rat}

theorem regionBox (h : s.Stretched s' sx sy) {region : String}
    (hr : s.catalog.isValid region = true) :
    Carried (fun b => b.scale sx sy) (s.regionBox region) (s'.regionBox region) := by
  obtain ⟨b, hb⟩ := Catalog.bounds_of_isValid hr
  have hbox : (b.scale (s.canvas.width : Rat) s.canvas.height).scale sx sy =
      b.scale (s'.canvas.width : Rat) s'.canvas.height := by
    unfold Box.scale
    rw [h.width, h.height]
    simp only [mul_assoc]
  refine ⟨b.scale s.canvas.width s.canvas.height, Catalog.pixelBounds_exact hb s.canvas, ?_⟩
  exact (Catalog.pixelBounds_exact (h.catalog ▸ hb) s'.canvas).trans (congrArg Except.ok hbox.symm)

theorem position (h : s.Stretched s' sx sy) (hr : s.catalog.isValid layout.region = true)
    (ha : ∃ a, Anchor.ofName? layout.anchor = some a) :
    Carried (fun p => p.stretch sx sy) (s.position layout) (s'.position layout) := by
  obtain ⟨a, ha⟩ := ha
  refine (h.regionBox hr).bind fun box => ?_
  have hanchor : Carried (fun p => p.stretch sx sy) (s.anchorPoint layout.region layout.anchor)
      (s'.anchorPoint layout.region layout.anchor) := by
    refine (h.regionBox hr).bind fun box => ?_
    rw [ha]
    refine .ok ?_
    unfold Anchor.pointOf Box.scale Point.stretch
    congr 1 <;> ring
  refine hanchor.bind fun p => .ok ?_
  unfold Box.scale Point.stretch
  congr 1 <;> ring

theorem sizedPoints (h : s.Stretched s' sx sy) (hr : s.catalog.isValid layout.region = true)
    (hl : layout.IsRelative) (ps : List (Point Rat)) :
    Carried (List.map fun p => p.stretch sx sy) (s.sizedPoints ps layout)
      (s'.sizedPoints (ps.map fun p => p.stretch sx sy) layout) := by
  unfold Stage.sizedPoints
  cases hsize : layout.size with
  | none => exact .ok rfl
  | some size =>
    obtain ⟨share, rfl⟩ := hl.size size hsize
    cases ps with
    | nil => exact .ok rfl
    | cons p ps =>
      have htarget : Carried (fun t => (t.1 * sx, t.2 * sy))
          (s.targetSize (some (.relative share)) layout.region)
          (s'.targetSize (some (.relative share)) layout.region) := by
        refine (h.regionBox hr).bind fun box => .ok ?_
        unfold Box.scale
        dsimp only
        congr 1 <;> ring
      exact htarget.bind fun t => .ok (fitPoints_stretch h.sx_pos h.sy_pos (p :: ps) t).symm

theorem positions [Trig Rat] (h : s.Stretched s' sx sy) (hr : s.catalog.isValid layout.region = true)
    (hgrid : ∀ r, layout.repetition = some r → r.pattern = .grid) (base : Point Rat) :
    Carried (List.map fun p => p.stretch sx sy) (s.positions layout base)
      (s'.positions layout (base.stretch sx sy)) := by
  unfold Stage.positions
  cases hrep : layout.repetition with
  | none => exact .ok rfl
  | some r =>
    dsimp only
    rw [hgrid r hrep]
    refine (h.regionBox hr).bind fun box => .ok ?_
    rw [List.map_flatMap]
    congr 1
    funext row
    rw [List.map_map]
    refine List.map_congr_left fun column _ => ?_
    simp only [Function.comp, Box.scale, Point.stretch]
    congr 1 <;> ring

theorem placed (h : s.Stretched s' sx sy) (ps : List (Point Rat)) (origin : Point Rat) :
    s'.placed (ps.map fun p => p.stretch sx sy) (origin.stretch sx sy) =
      (s.placed ps origin).map fun p => p.stretch sx sy := by
  unfold Stage.placed
  rw [List.map_map, List.map_map]
  refine List.map_congr_left fun p _ => ?_
  have hshift : (p.stretch sx sy).shift (origin.stretch sx sy).x (origin.stretch sx sy).y =
      (p.shift origin.x origin.y).stretch sx sy := by
    unfold Point.shift Point.stretch
    congr 1 <;> ring
  have hw : s'.canvas.w = s.canvas.w * sx := h.width
  have hh : s'.canvas.h = s.canvas.h * sy := h.height
  simp only [Function.comp]
  rw [hshift, hw, hh, clamp_stretch h.sx_pos h.sy_pos]

end Stage.Stretched

/-! ## Commands -/

/-- The points of a shape at another size are those of the shape, each moved. -/
theorem Stage.sizedPoints_eq {α : Type} [Scalar α] {s : Stage α} {ps sized : List (Point α)}
    {layout : EffectiveLayout α} (h : s.sizedPoints ps layout = .ok sized) :
    ∃ f, sized = ps.map f := by
  unfold sizedPoints at h
  split at h
  · exact ⟨id, by rw [List.map_id]; exact (Except.ok.inj h).symm⟩
  · exact ⟨id, (Except.ok.inj h).symm⟩
  · obtain ⟨target, -, h⟩ := bind_eq_ok_iff.mp h
    obtain rfl := pure_eq_ok_iff.mp h
    unfold fitPoints
    split
    · exact ⟨id, (List.map_id _).symm⟩
    · exact ⟨_, rfl⟩

theorem rebuilt_exact {commands drawn : List (Command Rat)}
    (h : drawn.map Command.letter = commands.map Command.letter) :
    rebuilt commands (pointsOf drawn) = .ok drawn := by
  unfold rebuilt
  rw [rebuild_pointsOf h fun p _ => ⟨rfl, rfl⟩]
  rfl

namespace Stage.Stretched

variable {s s' : Stage Rat} {sx sy : Rat} {commands : List (Command Rat)}

theorem instanceAt (h : s.Stretched s' sx sy) (f : Point Rat → Point Rat) (first : Bool)
    (origin : Point Rat) :
    Carried (List.map (Command.map fun p => p.stretch sx sy))
      (s.instanceAt commands ((pointsOf commands).map f) first origin)
      (s'.instanceAt (commands.map (Command.map fun p => p.stretch sx sy))
        (((pointsOf commands).map f).map fun p => p.stretch sx sy) first (origin.stretch sx sy)) := by
  -- the points are those of commands, so on exact numbers both sides are rebuilt from them
  obtain ⟨drawn, hletters, hdrawn⟩ : ∃ drawn : List (Command Rat),
      drawn.map Command.letter = commands.map Command.letter ∧
        s.placed ((pointsOf commands).map f) origin = pointsOf drawn := by
    refine ⟨commands.map (Command.map fun p =>
      ((f p).shift origin.x origin.y).clamp s.canvas.w s.canvas.h), letters_map _ _, ?_⟩
    rw [pointsOf_map]
    exact List.map_map
  have hrebuilt : Carried (List.map (Command.map fun p => p.stretch sx sy))
      (rebuilt commands (pointsOf drawn))
      (rebuilt (commands.map (Command.map fun p => p.stretch sx sy))
        ((pointsOf drawn).map fun p => p.stretch sx sy)) := by
    refine ⟨drawn, rebuilt_exact hletters, ?_⟩
    rw [← pointsOf_map]
    exact rebuilt_exact (by rw [letters_map, letters_map, hletters])
  unfold Stage.instanceAt
  rw [h.placed, hdrawn]
  refine hrebuilt.bind fun cs => ?_
  have hfirst : (cs.map (Command.map fun p => p.stretch sx sy)).head?.map Command.letter =
      cs.head?.map Command.letter := by
    cases cs with
    | nil => rfl
    | cons c _ => exact congrArg some (Command.letter_map _ c)
  dsimp only
  rw [hfirst]
  split_ifs
  · exact .ok rfl
  · -- the move to the first point of the instance
    have hstart : ((pointsOf drawn).map fun p => p.stretch sx sy).head?.getD (origin.stretch sx sy) =
        ((pointsOf drawn).head?.getD origin).stretch sx sy := by
      cases pointsOf drawn <;> rfl
    rw [hstart]
    exact .ok rfl

theorem instances (h : s.Stretched s' sx sy) (f : Point Rat → Point Rat) (first : Bool)
    (origins : List (Point Rat)) :
    Carried (List.map (Command.map fun p => p.stretch sx sy))
      (s.instances commands ((pointsOf commands).map f) first origins)
      (s'.instances (commands.map (Command.map fun p => p.stretch sx sy))
        (((pointsOf commands).map f).map fun p => p.stretch sx sy) first
        (origins.map fun p => p.stretch sx sy)) := by
  induction origins generalizing first with
  | nil => exact .ok rfl
  | cons origin rest ih =>
    refine (h.instanceAt f first origin).bind fun drawn => ?_
    exact (ih false).bind fun others => .ok List.map_append

/-- What a layout draws on the stretched stage is what it draws, stretched. -/
theorem transform [Trig Rat] (h : s.Stretched s' sx sy) {layout : EffectiveLayout Rat}
    (hr : s.catalog.isValid layout.region = true)
    (ha : ∃ a, Anchor.ofName? layout.anchor = some a) (hl : layout.IsRelative)
    (commands : List (Command Rat)) :
    Carried (List.map (Command.map fun p => p.stretch sx sy)) (s.transform commands layout)
      (s'.transform (commands.map (Command.map fun p => p.stretch sx sy)) layout) := by
  unfold Stage.transform
  rw [pointsOf_map, List.isEmpty_map]
  split_ifs
  · exact .ok rfl
  · exact .ok rfl
  -- position and copies depend on the stage alone, only the shape on the commands
  · obtain ⟨sized, hsized, hsized'⟩ := h.sizedPoints hr hl (pointsOf commands)
    obtain ⟨f, rfl⟩ := sizedPoints_eq hsized
    rw [hsized, hsized']
    refine (h.position hr ha).bind fun base => ?_
    exact (h.positions hr hl.repetition base).bind fun origins => h.instances f true origins

end Stage.Stretched

end Drawing
