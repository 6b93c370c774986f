import Drawing.Layout.Stage
import Drawing.Proofs.Table
import Drawing.Proofs.Validation.Accepts
import Drawing.Proofs.Validation.Names
import Drawing.Proofs.Viewport.Extent
import Mathlib.Data.List.Induction

/-!
# `Drawing/Proofs/Region/Catalog.lean` — what registrations leave behind

A catalog is asked for a region in several ways: whether a name is valid, what its box is, which regions there are. The
answers come from two tables that are looked through in different orders, so they agree only as long as no custom region
has a reserved name. Registration is the one way into the custom table, and it sees to that (`Catalog.IsSound`):

> **whatever was to be registered, and in whatever order, the answers agree.**

Behind a custom name is the box that was accepted for it last, and every box is inside the unit square up to a
billionth. So on any canvas the anchors of a region are in its box, and the box is on the canvas up to a billionth of
its sides.
-/

namespace Drawing

namespace Catalog

section

variable {α : Type} [Scalar α]

/-! ## Histories -/

/-- A catalog after a region was to be registered. One that is refused leaves it as it was. -/
def attempt (c : Catalog α) (r : CustomRegion α) : Catalog α :=
  match c.register r.name r.bounds with
  | .ok c' => c'
  | .error _ => c

/-- A new catalog after some regions were to be registered, one after another. -/
def ofAttempts (regions : List (CustomRegion α)) : Catalog α := regions.foldl attempt .empty

/-- The regions among some that registration accepts. -/
def accepted (regions : List (CustomRegion α)) : List (CustomRegion α) :=
  regions.filter fun r => (defect? r.name r.bounds).isNone

/-- The box that was accepted last for a name. -/
def lastAccepted? (regions : List (CustomRegion α)) (name : String) : Option (Box α) :=
  ((accepted regions).filter (·.name == name)).getLast?.map CustomRegion.bounds

theorem ofAttempts_concat (regions : List (CustomRegion α)) (r : CustomRegion α) :
    ofAttempts (regions ++ [r]) = (ofAttempts regions).attempt r := List.foldl_concat ..

variable {c : Catalog α} {r : CustomRegion α} {name : String} {b : Box α}

/-- What is accepted is put into the table, and nothing else is done to it. -/
theorem custom_attempt : (c.attempt r).custom =
    if defect? r.name r.bounds = none then Table.put r.name r.bounds c.custom else c.custom := by
  unfold attempt register
  cases defect? r.name r.bounds <;> rfl

/-- Whether a region is accepted is told by the region alone. -/
theorem register_eq_ok_iff :
    (∃ c', c.register r.name r.bounds = .ok c') ↔ r.name ∉ reservedNames ∧ r.bounds.InUnitSquare := by
  rw [← defect?_eq_none_iff]
  unfold register
  cases defect? r.name r.bounds with
  | none => exact iff_of_true ⟨_, rfl⟩ rfl
  | some d => exact iff_of_false (fun ⟨_, h⟩ => nomatch h) nofun

theorem attempt_of_error {fault : Fault α} (h : c.register r.name r.bounds = .error fault) : c.attempt r = c := by
  unfold attempt
  rw [h]

/-- A catalog that was made by registering regions without a fault is what registering them leaves behind. -/
theorem eq_ofAttempts {regions : List (CustomRegion α)} (h : registerAll .empty regions = .ok c) :
    c = ofAttempts regions := by
  unfold ofAttempts
  generalize (empty : Catalog α) = start at h ⊢
  induction regions generalizing start with
  | nil => exact (Except.ok.inj h).symm
  | cons r rest ih =>
    unfold registerAll at h
    obtain ⟨next, hnext, h⟩ := bind_eq_ok_iff.mp h
    have hattempt : start.attempt r = next := by
      unfold attempt
      rw [hnext]
    rw [List.foldl_cons, hattempt]
    exact ih next h

/-! ## What every catalog keeps to -/

/-- A catalog in which no name is set twice and none is a reserved one, with boxes inside the unit square. -/
structure IsSound (c : Catalog α) : Prop where
  nodup : (Table.names c.custom).Nodup
  unreserved : ∀ name b, (name, b) ∈ c.custom → name ∉ reservedNames
  inside : ∀ name b, (name, b) ∈ c.custom → b.InUnitSquare

/-- What is in the table after a region was to be registered was there before or is accepted. -/
theorem mem_custom_attempt (hmem : (name, b) ∈ (c.attempt r).custom) :
    (name, b) ∈ c.custom ∨ name ∉ reservedNames ∧ b.InUnitSquare := by
  rw [custom_attempt] at hmem
  split_ifs at hmem with hdefect
  · rcases Table.mem_put hmem with heq | hmem
    · obtain ⟨rfl, rfl⟩ := Prod.mk.inj heq
      exact .inr (defect?_eq_none_iff.mp hdefect)
    · exact .inl hmem
  · exact .inl hmem

theorem IsSound.attempt (h : c.IsSound) (r : CustomRegion α) : (c.attempt r).IsSound where
  nodup := by
    rw [custom_attempt]
    split_ifs
    · exact Table.nodup_names_put h.nodup
    · exact h.nodup
  unreserved name b hmem := (mem_custom_attempt hmem).elim (h.unreserved name b) And.left
  inside name b hmem := (mem_custom_attempt hmem).elim (h.inside name b) And.right

theorem isSound_ofAttempts (regions : List (CustomRegion α)) : (ofAttempts regions).IsSound := by
  induction regions using List.reverseRecOn with
  | nil => exact ⟨List.nodup_nil, nofun, nofun⟩
  | append_singleton regions r ih =>
    rw [ofAttempts_concat]
    exact ih.attempt r

/-! ## What the history tells of a catalog -/

theorem accepted_concat (regions : List (CustomRegion α)) (r : CustomRegion α) : accepted (regions ++ [r]) =
    if defect? r.name r.bounds = none then accepted regions ++ [r] else accepted regions := by
  unfold accepted
  rw [List.filter_append]
  cases hdefect : defect? r.name r.bounds <;> simp [hdefect]

/-- Behind a name is the box that was accepted for it last. -/
theorem get?_custom_ofAttempts (regions : List (CustomRegion α)) (name : String) :
    Table.get? (ofAttempts regions).custom name = lastAccepted? regions name := by
  induction regions using List.reverseRecOn with
  | nil => rfl
  | append_singleton regions r ih =>
    unfold lastAccepted? at ih ⊢
    rw [ofAttempts_concat, custom_attempt, accepted_concat]
    split_ifs with hdefect
    · rw [List.filter_append]
      by_cases hname : r.name = name
      · have hlast : [r].filter (·.name == name) = [r] := by simp [hname]
        rw [hlast, List.getLast?_concat, ← hname, Table.get?_put_self]
        rfl
      · have hnone : [r].filter (·.name == name) = [] := by simp [hname]
        rw [hnone, List.append_nil, Table.get?_put_of_ne (Ne.symm hname), ih]
    · exact ih

/-- The names stand in the order in which they were first accepted. -/
theorem customNames_ofAttempts (regions : List (CustomRegion α)) :
    (ofAttempts regions).customNames = ((accepted regions).map CustomRegion.name).eraseDups := by
  unfold customNames
  induction regions using List.reverseRecOn with
  | nil => rfl
  | append_singleton regions r ih =>
    rw [ofAttempts_concat, custom_attempt, accepted_concat]
    split_ifs with hdefect
    · rw [Table.names_put, ih, List.map_append, List.eraseDups_append]
      by_cases hname : r.name ∈ (accepted regions).map CustomRegion.name
      · have hold : ([r].map CustomRegion.name).removeAll ((accepted regions).map CustomRegion.name) = [] := by
          simpa [List.removeAll] using hname
        rw [if_pos (List.mem_eraseDups.mpr hname), hold]
        exact (List.append_nil _).symm
      · have hnew : ([r].map CustomRegion.name).removeAll ((accepted regions).map CustomRegion.name) = [r.name] := by
          simpa [List.removeAll] using hname
        rw [if_neg (mt List.mem_eraseDups.mp hname), hnew]
        rfl
    · exact ih

/-! ## Asking for a region -/

/-- A custom region is looked up first. -/
theorem bounds_eq_ok_iff : c.bounds name = .ok b ↔
    (Table.get? c.custom name).or (Table.get? reservedRegions name) = some b := by
  unfold bounds
  cases Table.get? c.custom name with
  | some custom => simp
  | none => cases Table.get? (reservedRegions : Table (Box α)) name <;> simp

theorem nodup_reservedNames : reservedNames.Nodup := by decide

variable (α) in
theorem isSome_reserved_iff :
    (Table.get? (reservedRegions : Table (Box α)) name).isSome = true ↔ name ∈ reservedNames := by
  rw [Table.isSome_get?_iff, names_reservedRegions]

/-- A name is valid exactly if there is a box for it. -/
theorem isValid_iff_bounds : c.isValid name = true ↔ ∃ b, c.bounds name = .ok b := by
  refine ⟨bounds_of_isValid, fun ⟨b, hb⟩ => ?_⟩
  have hsome := Option.isSome_iff_exists.mpr ⟨b, bounds_eq_ok_iff.mp hb⟩
  rw [Option.isSome_or, Bool.or_eq_true, isSome_reserved_iff α] at hsome
  unfold isValid
  rw [Bool.or_eq_true, isReserved, List.contains_iff_mem]
  exact hsome.symm

namespace IsSound

theorem get?_custom_of_reserved (h : c.IsSound) (hname : name ∈ reservedNames) :
    Table.get? c.custom name = none := by
  cases hget : Table.get? c.custom name with
  | none => rfl
  | some b => exact absurd hname (h.unreserved name b (Table.mem_of_get? hget))

/-- A reserved name keeps its reserved box. -/
theorem bounds_reserved (h : c.IsSound) (hb : Table.get? reservedRegions name = some b) : c.bounds name = .ok b := by
  have hname : name ∈ reservedNames := (isSome_reserved_iff α).mp (Option.isSome_iff_exists.mpr ⟨b, hb⟩)
  rw [bounds_eq_ok_iff, h.get?_custom_of_reserved hname, hb]
  rfl

/-- The regions that are listed are those that there are boxes for, each with its box. -/
theorem mem_all_iff (h : c.IsSound) : (name, b) ∈ c.all ↔ c.bounds name = .ok b := by
  have hnodup : (Table.names c.all).Nodup :=
    Table.nodup_names_foldl_put (names_reservedRegions (α := α) ▸ nodup_reservedNames) c.custom
  rw [Table.mem_iff_get? hnodup, bounds_eq_ok_iff]
  unfold all
  rw [Table.get?_foldl_put h.nodup]

theorem isValid_iff_listed (h : c.IsSound) : c.isValid name = true ↔ name ∈ Table.names c.all := by
  unfold Table.names
  rw [isValid_iff_bounds, List.mem_map]
  constructor
  · rintro ⟨b, hb⟩
    exact ⟨(name, b), h.mem_all_iff.mpr hb, rfl⟩
  · rintro ⟨⟨_, b⟩, hmem, rfl⟩
    exact ⟨b, h.mem_all_iff.mp hmem⟩

end IsSound

theorem bounds_of_unreserved (hname : name ∉ reservedNames) :
    c.bounds name = .ok b ↔ Table.get? c.custom name = some b := by
  have hnone : Table.get? (reservedRegions : Table (Box α)) name = none :=
    Option.not_isSome_iff_eq_none.mp (mt (isSome_reserved_iff α).mp hname)
  rw [bounds_eq_ok_iff, hnone, Option.or_none]

end

/-! ## Regions on a canvas -/

section

variable {c : Catalog Rat} {name : String} {b : Box Rat}

theorem reservedRegions_inside : ∀ p ∈ (reservedRegions : Table (Box Rat)), p.2.InUnitSquare := by
  have hdefect : ∀ p ∈ (reservedRegions : Table (Box Rat)), boxDefect? p.2 = none := by decide +kernel
  exact fun p hp => boxDefect?_eq_none_iff.mp (hdefect p hp)

/-- Every region is inside the unit square, up to a billionth. -/
theorem IsSound.bounds_inside (h : c.IsSound) (hb : c.bounds name = .ok b) : b.InUnitSquare := by
  rcases Option.or_eq_some_iff.mp (bounds_eq_ok_iff.mp hb) with hcustom | ⟨-, hreserved⟩
  · exact h.inside name b (Table.mem_of_get? hcustom)
  · exact reservedRegions_inside (name, b) (Table.mem_of_get? hreserved)

/-- The box of a region in pixels. -/
theorem pixelBounds_exact (hb : c.bounds name = .ok b) (canvas : Canvas Rat) :
    c.pixelBounds canvas name = .ok (b.scale canvas.width canvas.height) := by
  unfold pixelBounds
  rw [hb]
  rfl

end

end Catalog

theorem Anchor.fractions_mem (a : Anchor) :
    (0 ≤ a.fractions.1 ∧ a.fractions.1 ≤ 1) ∧ 0 ≤ a.fractions.2 ∧ a.fractions.2 ≤ 1 := by
  cases a <;> decide +kernel

/-- The anchors of a box are in it. -/
theorem Anchor.contains_pointOf {box : Box Rat} (hw : 0 ≤ box.width) (hh : 0 ≤ box.height) (a : Anchor) :
    box.contains (a.pointOf box) = true := by
  obtain ⟨⟨hx0, hx1⟩, hy0, hy1⟩ := a.fractions_mem
  rw [Box.contains_iff]
  unfold pointOf
  simp only [Scalar.ofRat_exact, le_add_iff_nonneg_right, add_le_add_iff_left]
  exact ⟨⟨mul_nonneg hw hx0, mul_le_of_le_one_right hw hx1⟩, mul_nonneg hh hy0, mul_le_of_le_one_right hh hy1⟩

/-- A box inside the unit square is on a canvas, up to a billionth of its sides. -/
theorem Box.InUnitSquare.scale_on {b : Box Rat} (h : b.InUnitSquare) {w l : Rat} (hw : 0 ≤ w) (hl : 0 ≤ l) :
    (0 ≤ (b.scale w l).x ∧ (b.scale w l).x + (b.scale w l).width ≤ w + w * 1e-9) ∧
      0 ≤ (b.scale w l).y ∧ (b.scale w l).y + (b.scale w l).height ≤ l + l * 1e-9 := by
  have hright : b.x + b.width ≤ 1 + 1e-9 := not_lt.mp h.right
  have hbottom : b.y + b.height ≤ 1 + 1e-9 := not_lt.mp h.bottom
  have hedge {side lo len : Rat} (hside : 0 ≤ side) (hlen : lo + len ≤ 1 + 1e-9) :
      lo * side + len * side ≤ side + side * 1e-9 := by
    calc lo * side + len * side = (lo + len) * side := (add_mul lo len side).symm
      _ ≤ (1 + 1e-9) * side := mul_le_mul_of_nonneg_right hlen hside
      _ = side + side * 1e-9 := by ring
  exact ⟨⟨mul_nonneg h.left.1 hw, hedge hw hright⟩, mul_nonneg h.top.1 hl, hedge hl hbottom⟩

namespace Catalog

/-- **What every catalog keeps to.** Whatever was to be registered, a region is accepted exactly if its name is not
reserved and its box is inside the unit square, and one that is refused changes nothing. Reserved names have their
reserved boxes and custom names the boxes that were accepted for them last, all inside the unit square. A name is valid
exactly if there is a box for it, and exactly if it is listed, with the same box. On every canvas the anchors of a
region are in its box, and the box is on the canvas up to a billionth of its sides. -/
theorem ofAttempts_consistent (regions : List (CustomRegion Rat)) :
    letI c := ofAttempts regions
    (∀ r : CustomRegion Rat,
      ((∃ c', c.register r.name r.bounds = .ok c') ↔ r.name ∉ reservedNames ∧ r.bounds.InUnitSquare) ∧
        ∀ fault, c.register r.name r.bounds = .error fault → ofAttempts (regions ++ [r]) = c) ∧
    (∀ name b, (name, b) ∈ reservedRegions → c.bounds name = .ok b) ∧
    (∀ name b, (name, b) ∈ c.custom → b.InUnitSquare) ∧
    (∀ name, (c.isValid name = true ↔ ∃ b, c.bounds name = .ok b) ∧ (c.isValid name = true ↔ name ∈ Table.names c.all) ∧
      (∀ b, c.bounds name = .ok b ↔ (name, b) ∈ c.all) ∧
      (name ∉ reservedNames → ∀ b, c.bounds name = .ok b ↔ lastAccepted? regions name = some b)) ∧
    ∀ name b, c.bounds name = .ok b → ∀ (canvas : Canvas Rat) (a : Anchor),
      ∃ box p, (⟨canvas, c⟩ : Stage Rat).regionBox name = .ok box ∧
        (⟨canvas, c⟩ : Stage Rat).anchorPoint name a.name = .ok p ∧ box.contains p = true ∧
        (0 ≤ box.x ∧ box.x + box.width ≤ canvas.width + canvas.width * 1e-9) ∧
        0 ≤ box.y ∧ box.y + box.height ≤ canvas.height + canvas.height * 1e-9 := by
  have hsound : (ofAttempts regions).IsSound := isSound_ofAttempts regions
  refine ⟨fun r => ⟨register_eq_ok_iff, fun fault hfault => ?_⟩, fun name b hmem => ?_, hsound.inside,
    fun name => ⟨isValid_iff_bounds, hsound.isValid_iff_listed, fun b => hsound.mem_all_iff.symm, fun hname b => ?_⟩,
    fun name b hb canvas a => ?_⟩
  · rw [ofAttempts_concat, attempt_of_error hfault]
  · have hnodup : (Table.names (reservedRegions : Table (Box Rat))).Nodup := nodup_reservedNames
    exact hsound.bounds_reserved ((Table.mem_iff_get? hnodup).mp hmem)
  · rw [bounds_of_unreserved hname, get?_custom_ofAttempts]
  · have hbox : (ofAttempts regions).pixelBounds canvas name = .ok (b.scale canvas.width canvas.height) :=
      pixelBounds_exact hb canvas
    have hinside : b.InUnitSquare := hsound.bounds_inside hb
    have hwidth : (0 : Rat) ≤ canvas.width := Nat.cast_nonneg _
    have hheight : (0 : Rat) ≤ canvas.height := Nat.cast_nonneg _
    refine ⟨_, a.pointOf (b.scale canvas.width canvas.height), hbox, ?_, ?_, hinside.scale_on hwidth hheight⟩
    · refine bind_eq_ok_iff.mpr ⟨_, hbox, ?_⟩
      rw [Anchor.ofName?_name]
      rfl
    · exact a.contains_pointOf (mul_nonneg hinside.width.1.le hwidth) (mul_nonneg hinside.height.1.le hheight)

end Catalog

end Drawing
