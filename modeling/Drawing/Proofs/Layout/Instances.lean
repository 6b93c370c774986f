import Drawing.Proofs.Document.Bounds
import Drawing.Proofs.Layout.Copies
import Drawing.Proofs.Layout.Unclamped

/-!
# `Drawing/Proofs/Layout/Instances.lean` — the instances of a shape

A layout draws a shape once at each of its origins. Every instance is the shape: it has the letters of it, and its
points are scaled by one factor, moved to the origin and kept on the canvas. What stands behind another instance has to
begin with a move and is given one if the shape begins with anything else.

> **What a layout draws of a shape are its instances,** one for each origin and in order.

The move goes to the first point of the instance. A shape of nothing but closes has none; then it goes to the origin,
and the origin is the one thing that nothing keeps on the canvas. Numbers are exact here, and sine and cosine any
functions.
-/

namespace Drawing

namespace Stage

/-! ## Size -/

/-- The factor that fits a shape into a target: the smallest quotient of a side of the target and that side of the
shape, where it has an extent, and one if it has none at all. -/
def fitFactor (e : Extent Rat) (target : Rat × Rat) : Rat :=
  if 0 < e.width then
    if 0 < e.height then min (target.1 / e.width) (target.2 / e.height) else target.1 / e.width
  else if 0 < e.height then target.2 / e.height else 1

/-- The factor by which a layout scales a shape, one if it asks for no size. -/
def sizeFactor (s : Stage Rat) (commands : List (Command Rat)) (layout : EffectiveLayout Rat) :
    Except (Fault Rat) Rat :=
  match layout.size with
  | none => .ok 1
  | some size => do return fitFactor (extent (pointsOf commands)) (← s.targetSize (some size) layout.region)

theorem fitPoints_exact (ps : List (Point Rat)) (target : Rat × Rat) :
    fitPoints ps target =
      ps.map fun p => p.stretch (fitFactor (extent ps) target) (fitFactor (extent ps) target) := by
  have hscale (k : Rat) (p : Point Rat) : p.scaleAbout k 0 0 = p.stretch k k := by
    simp [Point.scaleAbout, Point.stretch]
  unfold fitPoints fitFactor
  by_cases hw : 0 < (extent ps).width <;> by_cases hh : 0 < (extent ps).height
  · simp [sideFactors, hw, hh, hscale, Scalar.least_exact]
  · simp [sideFactors, hw, hh, hscale]
  · simp [sideFactors, hw, hh, hscale]
  · simp [sideFactors, hw, hh, Point.stretch]

section

variable {s : Stage Rat} {commands : List (Command Rat)} {layout : EffectiveLayout Rat}

theorem sizedPoints_of_target {size : SizeSpec Rat} {target : Rat × Rat} (hsize : layout.size = some size)
    (htarget : s.targetSize (some size) layout.region = .ok target) (ps : List (Point Rat)) :
    s.sizedPoints ps layout = .ok (fitPoints ps target) := by
  unfold sizedPoints
  rw [hsize]
  cases ps with
  | nil => rw [fitPoints_exact]; rfl
  | cons p ps => exact bind_eq_ok_iff.mpr ⟨target, htarget, rfl⟩

theorem sizedPoints_exact (commands : List (Command Rat)) (hbox : ∃ box, s.regionBox layout.region = .ok box) :
    ∃ factor, s.sizeFactor commands layout = .ok factor ∧
      s.sizedPoints (pointsOf commands) layout = .ok ((pointsOf commands).map fun p => p.stretch factor factor) := by
  cases hsize : layout.size with
  | none =>
    unfold sizeFactor sizedPoints
    rw [hsize]
    exact ⟨1, rfl, by simp [Point.stretch]⟩
  | some size =>
    obtain ⟨target, htarget⟩ : ∃ target, s.targetSize (some size) layout.region = .ok target :=
      exists_bind_ok hbox fun _ => ⟨_, rfl⟩
    refine ⟨fitFactor (extent (pointsOf commands)) target, ?_, ?_⟩
    · unfold sizeFactor
      rw [hsize]
      exact bind_eq_ok_iff.mpr ⟨target, htarget, rfl⟩
    · rw [sizedPoints_of_target hsize htarget, fitPoints_exact]

/-! ## Instances -/

/-- Where a point of a shape goes when the shape is scaled by a factor and put at an origin. -/
def settle (s : Stage Rat) (factor : Rat) (origin p : Point Rat) : Point Rat :=
  ⟨min (max (p.x * factor + origin.x) 0) s.canvas.width, min (max (p.y * factor + origin.y) 0) s.canvas.height⟩

/-- The instance of a shape at an origin. -/
def instanceOf (s : Stage Rat) (factor : Rat) (commands : List (Command Rat)) (origin : Point Rat) :
    List (Command Rat) :=
  commands.map (Command.map (s.settle factor origin))

/-- The move in front of an instance behind another one: none if the shape begins with a move, and else one to the first
point of the instance or, if it has none, to the origin. -/
def openingOf (s : Stage Rat) (factor : Rat) (commands : List (Command Rat)) (origin : Point Rat) :
    List (Command Rat) :=
  if commands.head?.map Command.letter = some .move then []
  else [.move ((pointsOf (s.instanceOf factor commands origin)).head?.getD origin)]

/-- The instances of a shape at some origins, each but the first with the move that it needs. -/
def blocks (s : Stage Rat) (factor : Rat) (commands : List (Command Rat)) :
    List (Point Rat) → List (List (Command Rat))
  | [] => []
  | origin :: rest => s.instanceOf factor commands origin ::
      rest.map fun o => s.openingOf factor commands o ++ s.instanceOf factor commands o

theorem length_blocks (factor : Rat) (origins : List (Point Rat)) :
    (s.blocks factor commands origins).length = origins.length := by
  cases origins <;> simp [blocks]

theorem letters_instanceOf (factor : Rat) (origin : Point Rat) :
    (s.instanceOf factor commands origin).map Command.letter = commands.map Command.letter := letters_map _ _

theorem pointsOf_instanceOf (factor : Rat) (origin : Point Rat) :
    pointsOf (s.instanceOf factor commands origin) = (pointsOf commands).map (s.settle factor origin) :=
  pointsOf_map _ _

/-- What stands behind another instance begins with a move. -/
theorem head_block {factor : Rat} {origins : List (Point Rat)} :
    ∀ b ∈ (s.blocks factor commands origins).tail, b.head?.map Command.letter = some .move := by
  cases origins with
  | nil => exact nofun
  | cons origin rest =>
    intro b hb
    obtain ⟨o, -, rfl⟩ := List.mem_map.mp hb
    unfold openingOf
    split_ifs with hmove
    · rw [List.nil_append, ← List.head?_map, letters_instanceOf, List.head?_map, hmove]
    · rfl

theorem placed_exact (factor : Rat) (origin : Point Rat) :
    s.placed ((pointsOf commands).map fun p => p.stretch factor factor) origin =
      pointsOf (s.instanceOf factor commands origin) := by
  rw [pointsOf_instanceOf]
  unfold placed
  rw [List.map_map]
  refine List.map_congr_left fun p _ => ?_
  unfold settle
  simp only [Function.comp, Point.clamp, Point.shift, Point.stretch, Scalar.clamp, Scalar.lower_exact,
    Scalar.upper_exact, Scalar.zero_exact]
  rfl

/-- An instance is rebuilt from its points, with the move in front of it if it is not the first one. -/
theorem instanceAt_exact (factor : Rat) (first : Bool) (origin : Point Rat) :
    s.instanceAt commands ((pointsOf commands).map fun p => p.stretch factor factor) first origin =
      .ok ((if first then [] else s.openingOf factor commands origin) ++ s.instanceOf factor commands origin) := by
  have hletters : (s.instanceOf factor commands origin).map Command.letter = commands.map Command.letter :=
    letters_instanceOf factor origin
  have hhead : (s.instanceOf factor commands origin).head?.map Command.letter =
      commands.head?.map Command.letter := by
    rw [← List.head?_map, ← List.head?_map, hletters]
  have hmove (p : Point Rat) : Command.ofChecked (Command.check .move [p.x, p.y]) =
      (.ok (.move p) : Except (Fault Rat) (Command Rat)) := rfl
  unfold instanceAt
  dsimp only
  -- exact points are finite, so the instance is rebuilt from its points as they are
  rw [placed_exact, rebuilt_exact hletters]
  dsimp only [bind, Except.bind]
  rw [hhead]
  cases first with
  | true => rfl
  | false =>
    unfold openingOf
    rw [Bool.false_or, if_neg Bool.false_ne_true]
    by_cases hstart : commands.head?.map Command.letter = some .move
    · rw [if_pos (beq_iff_eq.mpr hstart), if_pos hstart]
      rfl
    · rw [if_neg (by simpa using hstart), if_neg hstart, hmove]
      rfl

theorem instances_exact (factor : Rat) (origins : List (Point Rat)) :
    s.instances commands ((pointsOf commands).map fun p => p.stretch factor factor) true origins =
      .ok (s.blocks factor commands origins).flatten := by
  -- behind the first instance every one is opened, so the induction is on those that are left
  have hrest (os : List (Point Rat)) :
      s.instances commands ((pointsOf commands).map fun p => p.stretch factor factor) false os =
        .ok (os.map fun o => s.openingOf factor commands o ++ s.instanceOf factor commands o).flatten := by
    induction os with
    | nil => rfl
    | cons o os ih =>
      exact bind_eq_ok_iff.mpr ⟨_, instanceAt_exact factor false o, bind_eq_ok_iff.mpr ⟨_, ih, rfl⟩⟩
  cases origins with
  | nil => rfl
  | cons o os =>
    exact bind_eq_ok_iff.mpr ⟨_, instanceAt_exact factor true o, bind_eq_ok_iff.mpr ⟨_, hrest os, rfl⟩⟩

/-! ## Layouts -/

variable [Trig Rat]

/-- A layout whose region and anchor are known has origins. -/
theorem exists_origins (hregion : s.catalog.isValid layout.region = true)
    (hanchor : ∃ a, Anchor.ofName? layout.anchor = some a) :
    ∃ base origins, s.position layout = .ok base ∧ s.positions layout base = .ok origins := by
  have hsides : ∃ sides, s.canvas.sides = .ok sides := ⟨_, rfl⟩
  obtain ⟨base, hbase⟩ := (exists_position_iff hregion hanchor).mpr hsides
  obtain ⟨origins, horigins⟩ := (exists_positions_iff ((exists_regionBox_iff hregion).mpr hsides) base).mpr
    fun _ _ _ => ⟨⟨_, rfl⟩, _, rfl⟩
  exact ⟨base, origins, hbase, horigins⟩

/-- A layout that moves a shape draws the instances at its origins. -/
theorem transform_exact (hregion : s.catalog.isValid layout.region = true) (hmoves : layout.isIdentity = false)
    (hne : commands ≠ []) {base : Point Rat} {origins : List (Point Rat)} (hbase : s.position layout = .ok base)
    (horigins : s.positions layout base = .ok origins) :
    ∃ factor, s.sizeFactor commands layout = .ok factor ∧
      s.transform commands layout = .ok (s.blocks factor commands origins).flatten := by
  obtain ⟨factor, hfactor, hpoints⟩ := sizedPoints_exact commands
    ((exists_regionBox_iff hregion).mpr ⟨_, rfl⟩)
  refine ⟨factor, hfactor, ?_⟩
  unfold transform
  rw [hmoves, if_neg Bool.false_ne_true, if_neg (by simpa using hne)]
  exact bind_eq_ok_iff.mpr ⟨_, hpoints, bind_eq_ok_iff.mpr ⟨base, hbase, bind_eq_ok_iff.mpr ⟨origins, horigins,
    instances_exact factor origins⟩⟩⟩

/-- A layout whose region and anchor are known can be carried out. -/
theorem exists_transform (hregion : s.catalog.isValid layout.region = true)
    (hanchor : ∃ a, Anchor.ofName? layout.anchor = some a) (commands : List (Command Rat)) :
    ∃ drawn, s.transform commands layout = .ok drawn := by
  cases hidentity : layout.isIdentity with
  | true => exact ⟨commands, if_pos hidentity⟩
  | false =>
    by_cases hne : commands = []
    · exact ⟨[], by simp [transform, hidentity, hne]⟩
    · obtain ⟨base, origins, hbase, horigins⟩ := exists_origins hregion hanchor
      obtain ⟨_, -, h⟩ := transform_exact hregion hidentity hne hbase horigins
      exact ⟨_, h⟩

/-- **What a layout draws are the instances of a shape.** A layout that moves a shape, on a region and an anchor that
are known, draws as many instances as it has origins, in order. Each has the letters of the shape, and for each of its
points the point scaled, moved to the origin and kept on the canvas. Each but the first begins with a move: the one
that the shape begins with or, if it begins with something else, one more in front. -/
theorem transform_instances (hregion : s.catalog.isValid layout.region = true)
    (hanchor : ∃ a, Anchor.ofName? layout.anchor = some a) (hmoves : layout.isIdentity = false)
    (hne : commands ≠ []) :
    ∃ factor base origins, s.sizeFactor commands layout = .ok factor ∧ s.position layout = .ok base ∧
      s.positions layout base = .ok origins ∧ origins.length = layout.copies ∧
      s.transform commands layout = .ok (s.blocks factor commands origins).flatten ∧
      (s.blocks factor commands origins).length = origins.length ∧
      (∀ o ∈ origins, (s.instanceOf factor commands o).map Command.letter = commands.map Command.letter ∧
        pointsOf (s.instanceOf factor commands o) = (pointsOf commands).map (s.settle factor o)) ∧
      ∀ b ∈ (s.blocks factor commands origins).tail, b.head?.map Command.letter = some .move := by
  obtain ⟨base, origins, hbase, horigins⟩ := exists_origins hregion hanchor
  obtain ⟨factor, hfactor, h⟩ := transform_exact hregion hmoves hne hbase horigins
  exact ⟨factor, base, origins, hfactor, hbase, horigins, length_positions horigins, h, length_blocks factor origins,
    fun o _ => ⟨letters_instanceOf factor o, pointsOf_instanceOf factor o⟩, head_block⟩

end

/-- Petals around the corner of the canvas, at half the size of its region. -/
def wreath : EffectiveLayout Rat :=
  ⟨"bottom_right", "top_left", ⟨1 / 2, 1 / 3⟩, some (.relative (1 / 2)), some ⟨.radial, .pair 3 1, none, some 400⟩⟩

/-- A shape that begins without a move. -/
def petal : List (Command Rat) := [.line ⟨0, 10⟩, .close, .quadratic ⟨5, 5⟩ ⟨10, 0⟩]

theorem transform_instances_wreath :
    letI := Trig.flat
    letI s : Stage Rat := ⟨.ofAspect .square, .empty⟩
    s.catalog.isValid wreath.region = true ∧ (∃ a, Anchor.ofName? wreath.anchor = some a) ∧
      wreath.isIdentity = false ∧ petal ≠ [] ∧
      ∃ factor base origins, s.sizeFactor petal wreath = .ok factor ∧ s.position wreath = .ok base ∧
        s.positions wreath base = .ok origins ∧ origins.length = 3 ∧
        s.transform petal wreath = .ok (s.blocks factor petal origins).flatten ∧
        ∀ b ∈ (s.blocks factor petal origins).tail, b.head?.map Command.letter = some .move := by
  let _ := Trig.flat
  have hregion : (Catalog.empty : Catalog Rat).isValid wreath.region = true := by decide
  have hanchor : ∃ a, Anchor.ofName? wreath.anchor = some a := ⟨.topLeft, by decide⟩
  have hmoves : wreath.isIdentity = false := by decide
  have hne : petal ≠ [] := List.cons_ne_nil _ _
  obtain ⟨factor, base, origins, hfactor, hbase, horigins, hlength, h, -, -, hhead⟩ :=
    transform_instances (s := ⟨.ofAspect .square, .empty⟩) hregion hanchor hmoves hne
  exact ⟨hregion, hanchor, hmoves, hne, factor, base, origins, hfactor, hbase, horigins, hlength, h, hhead⟩

/-! ## What stays on the canvas -/

section

variable {s : Stage Rat} {commands : List (Command Rat)} {layout : EffectiveLayout Rat}

theorem instanceOf_on (factor : Rat) (origin : Point Rat) :
    CommandsOn (s.canvas.width, s.canvas.height) (s.instanceOf factor commands origin) := by
  intro q hq
  rw [← placed_exact] at hq
  obtain ⟨p, -, rfl⟩ := List.mem_map.mp hq
  exact clamp_on s.canvas _

/-- A move to the first point of an instance is on the canvas as the instance is. -/
theorem opened_on (hpoints : pointsOf commands ≠ []) (factor : Rat) (origin : Point Rat) :
    CommandsOn (s.canvas.width, s.canvas.height)
      (s.openingOf factor commands origin ++ s.instanceOf factor commands origin) := by
  have hinstance : CommandsOn (s.canvas.width, s.canvas.height) (s.instanceOf factor commands origin) :=
    instanceOf_on factor origin
  refine commandsOn_append.mpr ⟨?_, hinstance⟩
  unfold openingOf
  split_ifs
  · exact nofun
  · have hne : pointsOf (s.instanceOf factor commands origin) ≠ [] := by
      rw [pointsOf_instanceOf]
      simpa using hpoints
    rw [List.head?_eq_some_head hne]
    exact List.forall_mem_singleton.mpr (hinstance _ (List.head_mem hne))

/-- An instance without points is opened by a move to its origin: the shape does not begin with a move, which has a
point. -/
theorem pointsOf_opened (hne : commands ≠ []) (hpoints : pointsOf commands = []) (factor : Rat)
    (origin : Point Rat) :
    pointsOf (s.openingOf factor commands origin ++ s.instanceOf factor commands origin) = [origin] := by
  obtain ⟨c, rest, rfl⟩ := List.exists_cons_of_ne_nil hne
  have hmove : c.letter ≠ .move := by
    rintro hletter
    cases c <;> simp_all [Command.letter, pointsOf, Command.points]
  unfold openingOf
  rw [if_neg (by simpa using hmove), pointsOf_append, pointsOf_instanceOf, hpoints]
  rfl

theorem blocks_on (hpoints : pointsOf commands ≠ []) (factor : Rat) (origins : List (Point Rat)) :
    CommandsOn (s.canvas.width, s.canvas.height) (s.blocks factor commands origins).flatten := by
  refine commandsOn_flatten.mpr ?_
  cases origins with
  | nil => exact nofun
  | cons origin rest =>
    refine List.forall_mem_cons.mpr ⟨instanceOf_on factor origin, List.forall_mem_map.mpr fun o _ => ?_⟩
    exact opened_on hpoints factor o

theorem pointsOf_blocks (hne : commands ≠ []) (hpoints : pointsOf commands = []) (factor : Rat)
    (origins : List (Point Rat)) : pointsOf (s.blocks factor commands origins).flatten = origins.tail := by
  cases origins with
  | nil => rfl
  | cons origin rest =>
    have hrest : pointsOf (rest.map fun o =>
        s.openingOf factor commands o ++ s.instanceOf factor commands o).flatten = rest := by
      induction rest with
      | nil => rfl
      | cons o os ih =>
        rw [List.map_cons, List.flatten_cons, pointsOf_append, pointsOf_opened hne hpoints, ih]
        rfl
    rw [blocks, List.flatten_cons, pointsOf_append, hrest, pointsOf_instanceOf, hpoints]
    rfl

variable [Trig Rat]

/-- **When a layout draws on the canvas.** A layout that moves a shape, on a region and an anchor that are known, can be
carried out. All that it draws is on the canvas, the moves in front of instances as well, unless the shape is not empty,
has no points, and is repeated at an origin off the canvas. -/
theorem transform_on_canvas_iff (hregion : s.catalog.isValid layout.region = true)
    (hanchor : ∃ a, Anchor.ofName? layout.anchor = some a) (hmoves : layout.isIdentity = false)
    (commands : List (Command Rat)) :
    ∃ base origins drawn, s.position layout = .ok base ∧ s.positions layout base = .ok origins ∧
      s.transform commands layout = .ok drawn ∧
      (CommandsOn (s.canvas.width, s.canvas.height) drawn ↔
        commands = [] ∨ pointsOf commands ≠ [] ∨ ∀ o ∈ origins.tail, o.On (s.canvas.width, s.canvas.height)) ∧
      (commands ≠ [] → pointsOf commands = [] → pointsOf drawn = origins.tail) := by
  obtain ⟨base, origins, hbase, horigins⟩ := exists_origins hregion hanchor
  refine ⟨base, origins, ?_⟩
  by_cases hne : commands = []
  · exact ⟨[], hbase, horigins, by simp [transform, hmoves, hne], iff_of_true nofun (.inl hne), absurd hne⟩
  obtain ⟨factor, -, h⟩ := transform_exact hregion hmoves hne hbase horigins
  refine ⟨_, hbase, horigins, h, ?_⟩
  by_cases hpoints : pointsOf commands = []
  · have hdrawn : pointsOf (s.blocks factor commands origins).flatten = origins.tail :=
      pointsOf_blocks hne hpoints factor origins
    refine ⟨?_, fun _ _ => hdrawn⟩
    rw [or_iff_right hne, or_iff_right (not_not_intro hpoints), CommandsOn, hdrawn]
  · exact ⟨iff_of_true (blocks_on hpoints factor origins) (.inr (.inl hpoints)), fun _ h => absurd h hpoints⟩

end

/-- Two copies, ten widths of their region apart. -/
def farApart : EffectiveLayout Rat := ⟨"center", "center", ⟨0, 0⟩, none, some ⟨.grid, .one 2, some 10, none⟩⟩

theorem transform_on_canvas_iff_farApart :
    letI := Trig.flat
    letI s : Stage Rat := ⟨.ofAspect .square, .empty⟩
    s.catalog.isValid farApart.region = true ∧ (∃ a, Anchor.ofName? farApart.anchor = some a) ∧
      farApart.isIdentity = false ∧
      ∃ base origins drawn, s.position farApart = .ok base ∧ s.positions farApart base = .ok origins ∧
        s.transform petal farApart = .ok drawn ∧ CommandsOn (512, 512) drawn := by
  let _ := Trig.flat
  have hregion : (Catalog.empty : Catalog Rat).isValid farApart.region = true := by decide
  have hanchor : ∃ a, Anchor.ofName? farApart.anchor = some a := ⟨.center, by decide⟩
  have hmoves : farApart.isIdentity = false := by decide
  obtain ⟨base, origins, drawn, hbase, horigins, h, hon, -⟩ :=
    transform_on_canvas_iff (s := ⟨.ofAspect .square, .empty⟩) hregion hanchor hmoves petal
  exact ⟨hregion, hanchor, hmoves, base, origins, drawn, hbase, horigins, h,
    hon.mpr (.inr (.inl (List.cons_ne_nil _ _)))⟩

/-- A close that is repeated far to the right begins with a move that is off the canvas. -/
theorem transform_off_canvas :
    letI := Trig.flat
    ¬ ∀ (s : Stage Rat) (layout : EffectiveLayout Rat) (commands drawn : List (Command Rat)),
      s.catalog.isValid layout.region = true → (∃ a, Anchor.ofName? layout.anchor = some a) →
        layout.isIdentity = false → s.transform commands layout = .ok drawn →
          CommandsOn (s.canvas.width, s.canvas.height) drawn := by
  let _ := Trig.flat
  intro hall
  have hruns : ((⟨.ofAspect .square, .empty⟩ : Stage Rat).transform [.close] farApart).toOption =
      some [.close, .move ⟨5632 / 5, 256⟩, .close] := by decide +kernel
  have hon := hall ⟨.ofAspect .square, .empty⟩ farApart [.close] _ (by decide) ⟨.center, by decide⟩ (by decide)
    (eq_ok_of_toOption hruns) ⟨5632 / 5, 256⟩ (List.mem_singleton.mpr rfl)
  exact absurd hon (by decide +kernel)

end Stage

/-! ## Documents -/

section

variable [Trig Rat] {d : Document Rat} {catalog : Catalog Rat}

/-- A document whose custom regions make up a catalog can be laid out, if the paths that are moved are put into regions
that are in it. -/
theorem Document.exists_resolve (hcatalog : d.catalog = .ok catalog)
    (hregion : ∀ l ∈ d.layers, ∀ p ∈ l.paths, d.isMoved l p = true →
      catalog.isValid (d.layoutOf l p).region = true) : ∃ r, d.resolve = .ok r := by
  cases hresolved : d.resolved with
  | true => exact ⟨d, Document.resolve_of_resolved hresolved⟩
  | false =>
    refine (exists_resolve_iff hresolved hcatalog).mpr fun l hl p hp => ?_
    unfold resolvePath
    split_ifs with hmoved
    · exact exists_bind_ok (Stage.exists_transform (hregion l hl p hp hmoved) (mergeLayouts_anchor ..) _)
        fun _ => ⟨_, rfl⟩
    · exact ⟨p, rfl⟩

/-- A document that knows its names can be laid out. -/
theorem Document.Named.exists_resolve (hd : d.Named catalog) : ∃ r, d.resolve = .ok r :=
  Document.exists_resolve hd.registered fun _ hl _ hp _ => hd.layoutOf_region hl hp

end

end Drawing
