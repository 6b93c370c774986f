import Drawing.Proofs.Layout.Stretch
import Drawing.Proofs.Number.NotANumber
import Drawing.Proofs.Validation.Names

/-!
# `Drawing/Proofs/Layout/Unclamped.lean` — when doubles can be laid out

A layout scales the points of a path, finds the origins of its instances, adds these up and clamps the sums to the
canvas. The sums may be infinite, since clamping makes them finite, but a sum that is no number has no place on a canvas
and its command is refused.

> **a layout can be carried out** just if all these sums can be made and are numbers.
-/

namespace Drawing

/-! ## Commands with other points -/

section

variable {α : Type} [Scalar α]

/-- Points can be moved just if they are finite behind it. -/
theorem exists_rebuilt_map_iff {commands : List (Command α)} {f : Point α → Point α} :
    (∃ drawn, rebuilt commands ((pointsOf commands).map f) = .ok drawn) ↔
      ∀ p ∈ pointsOf commands, (f p).IsFinite := by
  constructor
  · rintro ⟨drawn, hdrawn⟩
    intro p hp
    exact finite_of_rebuilt hdrawn (f p) (pointsOf_rebuilt_map hdrawn ▸ List.mem_map_of_mem hp)
  · intro h
    refine ⟨commands.map (Command.map f), ?_⟩
    unfold rebuilt
    rw [← pointsOf_map, rebuild_pointsOf (letters_map f commands) fun p hp => ?_]
    · rfl
    · rw [pointsOf_map] at hp
      obtain ⟨q, hq, rfl⟩ := List.mem_map.mp hp
      exact h q hq

namespace Stage

variable {s : Stage α}

/-- The points of all instances of a path, before they are clamped to the canvas. -/
def unclamped [Trig α] (s : Stage α) (commands : List (Command α)) (layout : EffectiveLayout α) :
    Except (Fault α) (List (Point α)) := do
  let points ← s.sizedPoints (pointsOf commands) layout
  let base ← s.position layout
  let origins ← s.positions layout base
  return origins.flatMap fun o => points.map fun p => p.shift o.x o.y

/-! ## Instances -/

/-- An instance can be drawn just if all its points are finite when clamped: what is rebuilt begins with a move as well,
so that no move is put in front of it. -/
theorem exists_instanceAt_iff {target : Point α} {rest : List (Command α)} {f : Point α → Point α} {first : Bool}
    {o : Point α} :
    (∃ drawn, s.instanceAt (.move target :: rest) ((pointsOf (.move target :: rest)).map f) first o = .ok drawn) ↔
      ∀ p ∈ (pointsOf (.move target :: rest)).map f, ((p.shift o.x o.y).clamp s.canvas.w s.canvas.h).IsFinite := by
  have hplaced : s.placed ((pointsOf (.move target :: rest)).map f) o =
      (pointsOf (.move target :: rest)).map fun p => ((f p).shift o.x o.y).clamp s.canvas.w s.canvas.h := by
    unfold placed
    rw [List.map_map]
    rfl
  rw [List.forall_mem_map, ← exists_rebuilt_map_iff]
  unfold instanceAt
  dsimp only
  rw [hplaced]
  constructor
  · rintro ⟨drawn, h⟩
    obtain ⟨body, hbody, -⟩ := bind_eq_ok_iff.mp h
    exact ⟨body, hbody⟩
  · rintro ⟨body, hbody⟩
    have hhead : body.head?.map Command.letter = some .move := by
      rw [← List.head?_map, letter_rebuilt hbody]
      rfl
    refine ⟨body, bind_eq_ok_iff.mpr ⟨body, hbody, ?_⟩⟩
    rw [hhead]
    simp

/-- Instances of commands that begin with a move can be drawn just if all their points are finite when clamped. -/
theorem exists_instances_iff {target : Point α} {rest : List (Command α)} {f : Point α → Point α} {first : Bool}
    {origins : List (Point α)} :
    (∃ drawn, s.instances (.move target :: rest) ((pointsOf (.move target :: rest)).map f) first origins = .ok drawn) ↔
      ∀ o ∈ origins, ∀ p ∈ (pointsOf (.move target :: rest)).map f,
        ((p.shift o.x o.y).clamp s.canvas.w s.canvas.h).IsFinite := by
  induction origins generalizing first with
  | nil => exact iff_of_true ⟨[], rfl⟩ nofun
  | cons o os ih =>
    constructor
    · rintro ⟨drawn, h⟩
      obtain ⟨one, hdrawn, h⟩ := bind_eq_ok_iff.mp h
      obtain ⟨others, hothers, -⟩ := bind_eq_ok_iff.mp h
      exact List.forall_mem_cons.mpr ⟨exists_instanceAt_iff.mp ⟨one, hdrawn⟩, ih.mp ⟨others, hothers⟩⟩
    · intro h
      obtain ⟨ho, hos⟩ := List.forall_mem_cons.mp h
      exact exists_bind_ok (exists_instanceAt_iff.mpr ho) fun _ => exists_bind_ok (ih.mpr hos) fun _ => ⟨_, rfl⟩

/-! ## What can be measured -/

/-- Whether the sides of the canvas and the steps of a grid are scalars. -/
structure Measures (s : Stage α) (layout : EffectiveLayout α) : Prop where
  sides : ∃ sides, s.canvas.sides = .ok sides
  steps : ∀ r, layout.repetition = some r → r.pattern = .grid →
    (∃ x, (Numeral.whole (((gridShape r.count).1 : Int) - 1) : Numeral α).toScalar = .ok x) ∧
      ∃ y, (Numeral.whole (((gridShape r.count).2 : Int) - 1) : Numeral α).toScalar = .ok y

theorem exists_regionBox_iff {region : String} (h : s.catalog.isValid region = true) :
    (∃ box, s.regionBox region = .ok box) ↔ ∃ sides, s.canvas.sides = .ok sides := by
  obtain ⟨b, hb⟩ := Catalog.bounds_of_isValid h
  unfold regionBox Catalog.pixelBounds
  rw [hb]
  constructor
  · rintro ⟨box, h⟩
    obtain ⟨_, -, h⟩ := bind_eq_ok_iff.mp h
    obtain ⟨sides, hsides, -⟩ := bind_eq_ok_iff.mp h
    exact ⟨sides, hsides⟩
  · exact fun h => exists_bind_ok ⟨b, rfl⟩ fun _ => exists_bind_ok h fun _ => ⟨_, rfl⟩

variable {layout : EffectiveLayout α}

theorem exists_position_iff (hregion : s.catalog.isValid layout.region = true)
    (hanchor : ∃ a, Anchor.ofName? layout.anchor = some a) :
    (∃ base, s.position layout = .ok base) ↔ ∃ sides, s.canvas.sides = .ok sides := by
  rw [← s.exists_regionBox_iff hregion]
  constructor
  · rintro ⟨base, h⟩
    obtain ⟨box, h, -⟩ := bind_eq_ok_iff.mp h
    exact ⟨box, h⟩
  · intro h
    obtain ⟨a, ha⟩ := hanchor
    refine exists_bind_ok h fun _ => exists_bind_ok (exists_bind_ok h fun _ => ?_) fun _ => ⟨_, rfl⟩
    rw [ha]
    exact ⟨_, rfl⟩

theorem exists_sizedPoints (h : ∃ box, s.regionBox layout.region = .ok box) (points : List (Point α)) :
    ∃ sized, s.sizedPoints points layout = .ok sized := by
  unfold sizedPoints
  split
  · exact ⟨_, rfl⟩
  · exact ⟨_, rfl⟩
  · exact exists_bind_ok (exists_bind_ok h fun _ => ⟨_, rfl⟩) fun _ => ⟨_, rfl⟩

variable [Trig α]

/-- The steps of a grid are all that the instances of a layout need besides its region. -/
theorem exists_positions_iff (h : ∃ box, s.regionBox layout.region = .ok box) (base : Point α) :
    (∃ origins, s.positions layout base = .ok origins) ↔
      ∀ r, layout.repetition = some r → r.pattern = .grid →
        (∃ x, (Numeral.whole (((gridShape r.count).1 : Int) - 1) : Numeral α).toScalar = .ok x) ∧
          ∃ y, (Numeral.whole (((gridShape r.count).2 : Int) - 1) : Numeral α).toScalar = .ok y := by
  constructor
  · rintro ⟨origins, horigins⟩ r hr hgrid
    unfold positions at horigins
    rw [hr] at horigins
    dsimp only at horigins
    rw [hgrid] at horigins
    obtain ⟨box, -, horigins⟩ := bind_eq_ok_iff.mp horigins
    obtain ⟨startX, hx, horigins⟩ := bind_eq_ok_iff.mp horigins
    obtain ⟨startY, hy, -⟩ := bind_eq_ok_iff.mp horigins
    obtain ⟨x, hx, -⟩ := bind_eq_ok_iff.mp hx
    obtain ⟨y, hy, -⟩ := bind_eq_ok_iff.mp hy
    exact ⟨⟨x, hx⟩, y, hy⟩
  · intro hsteps
    unfold positions
    split
    · exact ⟨_, rfl⟩
    · next r hr =>
      split
      · next hgrid =>
        obtain ⟨hx, hy⟩ := hsteps r hr hgrid
        refine exists_bind_ok h fun box => ?_
        exact exists_bind_ok (exists_bind_ok hx fun _ => ⟨_, rfl⟩) fun _ =>
          exists_bind_ok (exists_bind_ok hy fun _ => ⟨_, rfl⟩) fun _ => ⟨_, rfl⟩
      · exact ⟨_, rfl⟩

/-- **The points of a layout can be made** unless a side or a step is too large, if its region and its anchor are
known. -/
theorem exists_unclamped_iff (hregion : s.catalog.isValid layout.region = true)
    (hanchor : ∃ a, Anchor.ofName? layout.anchor = some a) (commands : List (Command α)) :
    (∃ ps, s.unclamped commands layout = .ok ps) ↔ s.Measures layout := by
  have hbox := s.exists_regionBox_iff hregion
  have hposition := exists_position_iff hregion hanchor
  constructor
  · rintro ⟨ps, h⟩
    obtain ⟨points, -, h⟩ := bind_eq_ok_iff.mp h
    obtain ⟨base, hbase, h⟩ := bind_eq_ok_iff.mp h
    obtain ⟨origins, horigins, -⟩ := bind_eq_ok_iff.mp h
    have hsides := hposition.mp ⟨base, hbase⟩
    exact ⟨hsides, (exists_positions_iff (hbox.mpr hsides) base).mp ⟨origins, horigins⟩⟩
  · rintro ⟨hsides, hsteps⟩
    have hregions := hbox.mpr hsides
    exact exists_bind_ok (exists_sizedPoints hregions _) fun _ => exists_bind_ok (hposition.mpr hsides) fun base =>
      exists_bind_ok ((exists_positions_iff hregions base).mpr hsteps) fun _ => ⟨_, rfl⟩

end Stage

end

/-! ## Doubles -/

/-- Whether both coordinates of a point are numbers, if need be infinite ones. -/
def Point.IsNumber {α : Type} [Scalar α] (p : Point α) : Prop := Scalar.isNaN p.x = false ∧ Scalar.isNaN p.y = false

/-- The sides of a canvas that are doubles are finite ones. -/
theorem Canvas.isFinite_sides {c : Canvas Float} {sides : Float × Float} (h : c.sides = .ok sides) :
    c.w.isFinite = true ∧ c.h.isFinite = true := by
  have hfinite {n : Nat} {x : Float} (h : (Numeral.whole n : Numeral Float).toScalar = .ok x) :
      (Scalar.ofNat n : Float).isFinite = true := by
    unfold Numeral.toScalar Numeral.value? Scalar.ofRat? at h
    rw [← Double.isFinite_iff]
    by_contra hne
    rw [Scalar.ofNat] at hne
    simp [hne] at h
  obtain ⟨w, hw, h⟩ := bind_eq_ok_iff.mp h
  obtain ⟨h', hh, -⟩ := bind_eq_ok_iff.mp h
  exact ⟨hfinite hw, hfinite hh⟩

/-- **A layout can be carried out** on a path that begins with a move just if the points of all instances can be made
and are numbers. -/
theorem Stage.exists_transform_iff [Trig Float] {s : Stage Float} {layout : EffectiveLayout Float}
    (hmoves : layout.isIdentity = false) {target : Point Float} {rest : List (Command Float)} :
    (∃ drawn, s.transform (.move target :: rest) layout = .ok drawn) ↔
      ∃ ps, s.unclamped (.move target :: rest) layout = .ok ps ∧ ∀ p ∈ ps, p.IsNumber := by
  have hclamp {sides : Float × Float} (hsides : s.canvas.sides = .ok sides) (p : Point Float) :
      (p.clamp s.canvas.w s.canvas.h).IsFinite ↔ p.IsNumber :=
    have hfinite := Canvas.isFinite_sides hsides
    and_congr (Double.isFinite_clamp_iff hfinite.1) (Double.isFinite_clamp_iff hfinite.2)
  -- the sums are those of the origins with the sized points, which are moved points of the path
  have hsums {points : List (Point Float)} {base : Point Float} {origins : List (Point Float)}
      (hpoints : s.sizedPoints (pointsOf (.move target :: rest)) layout = .ok points)
      (hbase : s.position layout = .ok base) :
      (∃ drawn, s.instances (.move target :: rest) points true origins = .ok drawn) ↔
        ∀ p ∈ origins.flatMap fun o => points.map fun p => p.shift o.x o.y, p.IsNumber := by
    obtain ⟨sides, hsides⟩ : ∃ sides, s.canvas.sides = .ok sides := by
      obtain ⟨box, hbox, -⟩ := bind_eq_ok_iff.mp hbase
      obtain ⟨_, -, hbox⟩ := bind_eq_ok_iff.mp hbox
      obtain ⟨sides, hsides, -⟩ := bind_eq_ok_iff.mp hbox
      exact ⟨sides, hsides⟩
    obtain ⟨f, rfl⟩ := sizedPoints_eq hpoints
    rw [exists_instances_iff]
    simp only [List.forall_mem_flatMap, List.forall_mem_map, hclamp hsides]
  unfold transform unclamped
  rw [hmoves, if_neg Bool.false_ne_true, List.isEmpty_cons, if_neg Bool.false_ne_true]
  constructor
  · rintro ⟨drawn, h⟩
    obtain ⟨points, hpoints, h⟩ := bind_eq_ok_iff.mp h
    obtain ⟨base, hbase, h⟩ := bind_eq_ok_iff.mp h
    obtain ⟨origins, horigins, h⟩ := bind_eq_ok_iff.mp h
    exact ⟨_, bind_eq_ok_iff.mpr ⟨points, hpoints, bind_eq_ok_iff.mpr ⟨base, hbase,
      bind_eq_ok_iff.mpr ⟨origins, horigins, rfl⟩⟩⟩, (hsums hpoints hbase).mp ⟨drawn, h⟩⟩
  · rintro ⟨ps, h, hnumbers⟩
    obtain ⟨points, hpoints, h⟩ := bind_eq_ok_iff.mp h
    obtain ⟨base, hbase, h⟩ := bind_eq_ok_iff.mp h
    obtain ⟨origins, horigins, h⟩ := bind_eq_ok_iff.mp h
    obtain rfl := pure_eq_ok_iff.mp h
    obtain ⟨drawn, hdrawn⟩ := (hsums hpoints hbase).mpr hnumbers
    exact ⟨drawn, bind_eq_ok_iff.mpr ⟨points, hpoints, bind_eq_ok_iff.mpr ⟨base, hbase,
      bind_eq_ok_iff.mpr ⟨origins, horigins, hdrawn⟩⟩⟩⟩

/-- Whether nothing that a layout works out for a path is too large: neither sides and steps nor points at their size
nor origins, which may be infinite but have to be numbers. -/
structure Stage.Bounded [Trig Float] (s : Stage Float) (commands : List (Command Float))
    (layout : EffectiveLayout Float) : Prop where
  measures : s.Measures layout
  points : ∀ points, s.sizedPoints (pointsOf commands) layout = .ok points → ∀ p ∈ points, p.IsFinite
  origins : ∀ base origins, s.position layout = .ok base → s.positions layout base = .ok origins →
    ∀ o ∈ origins, o.IsNumber

/-- Finite points and origins that are numbers add up to numbers. -/
theorem Stage.Bounded.isNumber_unclamped [Trig Float] {s : Stage Float} {commands : List (Command Float)}
    {layout : EffectiveLayout Float} (h : s.Bounded commands layout) {ps : List (Point Float)}
    (hps : s.unclamped commands layout = .ok ps) : ∀ p ∈ ps, p.IsNumber := by
  obtain ⟨points, hpoints, hps⟩ := bind_eq_ok_iff.mp hps
  obtain ⟨base, hbase, hps⟩ := bind_eq_ok_iff.mp hps
  obtain ⟨origins, horigins, hps⟩ := bind_eq_ok_iff.mp hps
  obtain rfl := pure_eq_ok_iff.mp hps
  rw [List.forall_mem_flatMap]
  intro o ho
  rw [List.forall_mem_map]
  intro p hp
  obtain ⟨hx, hy⟩ := h.points points hpoints p hp
  obtain ⟨hox, hoy⟩ := h.origins base origins hbase horigins o ho
  exact ⟨Double.isNaN_add ((Double.isFinite_iff _).mp hx) hox, Double.isNaN_add ((Double.isFinite_iff _).mp hy) hoy⟩

end Drawing
