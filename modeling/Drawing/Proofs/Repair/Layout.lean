import Drawing.Number.Double
import Drawing.Number.Exact
import Drawing.Proofs.Repair.Frame
import Drawing.Repair.Layout

/-!
# `Drawing/Proofs/Repair/Layout.lean` — repaired layouts name what exists

A custom region that is kept could be registered. A layout that is kept refers to a reserved region or to a
kept one, to one of the nine anchors, and its offset does not leave the region. Each of the three fields is
repaired on its own, so each repair leaves the other two as they are.
-/

namespace Drawing

/-! ## The range of offsets -/

/-- Scalars whose order tells minus one from one, and on which being below implies being at most. -/
class UnitOrder (α : Type) [Scalar α] : Prop where
  le_of_lt {a b : α} : a < b → a ≤ b
  one_le_one : (Scalar.one : α) ≤ Scalar.one
  neg_one_le_neg_one : (-Scalar.one : α) ≤ -Scalar.one
  neg_one_lt_one : (-Scalar.one : α) < Scalar.one

instance : UnitOrder Rat where
  le_of_lt := Rat.le_of_lt
  one_le_one := Rat.le_refl
  neg_one_le_neg_one := Rat.le_refl
  neg_one_lt_one := by decide +kernel

instance : UnitOrder Float where
  le_of_lt {a b} h := by
    have hlt : (a.toModel.unpack.compare b.toModel.unpack == some .lt) = true :=
      of_decide_eq_true h
    refine decide_eq_true (p := a.toModel ≤ b.toModel) ?_
    show (a.toModel.unpack.compare b.toModel.unpack).any Ordering.isLE = true
    rw [beq_iff_eq.mp hlt]
    rfl
  one_le_one := by decide +kernel
  neg_one_le_neg_one := by decide +kernel
  neg_one_lt_one := by decide +kernel

section

variable {α : Type} [Scalar α]

/-- A number of `[-1, 1]`. -/
def InUnitRange (x : α) : Prop := -Scalar.one ≤ x ∧ x ≤ Scalar.one

theorem toUnitRange_mem [UnitOrder α] (x : α) : InUnitRange (toUnitRange x) := by
  have hne : (-Scalar.one : α) ≤ Scalar.one := UnitOrder.le_of_lt UnitOrder.neg_one_lt_one
  unfold toUnitRange Scalar.greatest Scalar.least
  by_cases hx : x < Scalar.one
  · rw [if_pos hx]
    by_cases hx' : -Scalar.one < x
    · rw [if_pos hx']
      exact ⟨UnitOrder.le_of_lt hx', UnitOrder.le_of_lt hx⟩
    · rw [if_neg hx']
      exact ⟨UnitOrder.neg_one_le_neg_one, hne⟩
  · rw [if_neg hx, if_pos UnitOrder.neg_one_lt_one]
    exact ⟨hne, UnitOrder.one_le_one⟩

end

/-! ## Repairing one field -/

section

variable {α : Type} {name : String} {Good : Json α → Prop} {before : Fields α}

theorem givenField?_congr {fields fields' : Fields α}
    (h : Table.get? fields name = Table.get? fields' name) :
    givenField? fields name = givenField? fields' name := by
  unfold givenField?
  rw [h]

theorem get?_of_givenField? {fields : Fields α} {v : Json α} (h : givenField? fields name = some v) :
    Table.get? fields name = some v := by
  unfold givenField? at h
  split at h
  · exact nomatch h
  · exact h

theorem givenField?_ne_null {fields : Fields α} : givenField? fields name ≠ some .null := by
  unfold givenField?
  split
  · exact nofun
  · next hnull => exact hnull

/-- Fields after the repair of one of them: that one is good, absent or `null`, and nothing else changed. -/
structure Mended (name : String) (Good : Json α → Prop) (before after : Fields α) : Prop where
  frame : AgreeBeyond [name] before after
  good : ∀ v, givenField? after name = some v → Good v

namespace Mended

theorem absent (h : givenField? before name = none) : Mended name Good before before :=
  ⟨.refl _ _, fun _ hv => nomatch h.symm.trans hv⟩

theorem keep {v : Json α} (h : givenField? before name = some v) (hv : Good v) :
    Mended name Good before before :=
  ⟨.refl _ _, fun _ hw => Option.some.inj (h.symm.trans hw) ▸ hv⟩

theorem remove : Mended name Good before (Table.erase name before) where
  frame := (AgreeBeyond.refl _ _).erase _ List.mem_cons_self
  good v hv := by
    rw [givenField?, Table.get?_erase_self] at hv
    exact nomatch hv

theorem imp {Good' : Json α → Prop} {after : Fields α} (h : Mended name Good before after)
    (hgood : ∀ v, Good v → Good' v) : Mended name Good' before after :=
  ⟨h.frame, fun v hv => hgood v (h.good v hv)⟩

theorem replace {v : Json α} (hv : Good v) : Mended name Good before (Table.put name v before) where
  frame := (AgreeBeyond.refl _ _).put _ List.mem_cons_self _
  good w hw := by
    rw [givenField?, Table.get?_put_self] at hw
    split at hw
    · exact nomatch hw
    · exact Option.some.inj hw ▸ hv

end Mended

/-- A field that is looked up stays if it is found and goes if it is not. -/
theorem mended_of_lookUp {v : Json α} {found : Bool} {actions : List (RepairAction α)}
    {r : Repaired α (Fields α)} (hv : givenField? before name = some v) (hgood : found = true → Good v)
    (h : (do
      if ← lookUp v found then return Repaired.same before
      else return ⟨Table.erase name before, actions⟩ : Except (Fault α) _) = .ok r) :
    Mended name Good before r.value := by
  obtain ⟨b, hfound, h⟩ := bind_eq_ok_iff.mp h
  have hb : found = b := by
    unfold lookUp at hfound
    split at hfound
    · exact nomatch hfound
    · exact Except.ok.inj hfound
  split at h
  · next htrue =>
    obtain rfl := pure_eq_ok_iff.mp h
    exact .keep hv (hgood (hb.trans htrue))
  · obtain rfl := pure_eq_ok_iff.mp h
    exact .remove

theorem anchor_of_isKnown {v : Json α} (h : isKnownAnchor v = true) : ∃ a : Anchor, v = .str a.name := by
  unfold isKnownAnchor at h
  split at h
  · next s =>
    obtain ⟨a, ha⟩ := Option.isSome_iff_exists.mp h
    have hname := List.find?_some (p := fun b : Anchor => b.name == s) ha
    exact ⟨a, congrArg Json.str (beq_iff_eq.mp hname).symm⟩
  · exact nomatch h

theorem repairAnchorName_mended {owner : LayoutOwner} {layout : Fields α} {r : Repaired α (Fields α)}
    (h : repairAnchorName owner layout = .ok r) :
    Mended "anchor" (fun v => ∃ a : Anchor, v = .str a.name) layout r.value := by
  unfold repairAnchorName at h
  split at h
  · next hnone =>
    obtain rfl := Except.ok.inj h
    exact .absent hnone
  · next anchor hanchor => exact mended_of_lookUp hanchor anchor_of_isKnown h

theorem entryField_eq_ok {entry v : Json α} {name : String} (h : entryField entry name = .ok v) :
    ∃ fields, entry = .obj fields ∧ Table.get? fields name = some v := by
  unfold entryField at h
  split at h
  · split at h
    · next hv => exact ⟨_, rfl, hv.trans (congrArg some (Except.ok.inj h))⟩
    · exact nomatch h
  · exact nomatch h

end

variable {α : Type} [Scalar α]

/-! ## Custom regions -/

/-- An entry that may be registered: it has a name that is not reserved, and a box that the catalog takes. -/
def Registrable (entry : Json α) : Prop :=
  ∃ fields name bounds b, entry = .obj fields ∧
    Table.get? fields "name" = some name ∧ (∀ s, name = .str s → isReserved s = false) ∧
    Table.get? fields "bounds" = some (.obj bounds) ∧ Box.readFields bounds = .valid b ∧
    Catalog.boxDefect? b = none

/-- The name of an entry. -/
def regionName? : Json α → Option (Json α)
  | .obj fields => Table.get? fields "name"
  | _ => none

theorem entryBounds_eq_ok {v : Json α} {b : Box α} (h : entryBounds v = .ok b) :
    ∃ bounds, v = .obj bounds ∧ Box.readFields bounds = .valid b := by
  unfold entryBounds at h
  split at h
  · split at h
    · next hb => exact ⟨_, rfl, hb.trans (congrArg Checked.valid (Except.ok.inj h))⟩
    · exact nomatch h
  · exact nomatch h

theorem of_regionDefect?_eq_none {name : Json α} {b : Box α} (h : regionDefect? name b = none) :
    (∀ s, name = .str s → isReserved s = false) ∧ Catalog.boxDefect? b = none := by
  unfold regionDefect? at h
  split at h
  · unfold Catalog.defect? at h
    split at h
    · exact nomatch h
    · next s hs => exact ⟨fun t ht => Json.str.inj ht ▸ Bool.eq_false_iff.mpr hs, h⟩
  · next hname => exact ⟨fun s hs => absurd hs (hname s), h⟩

theorem registrable_of_name {entry name : Json α} (h : registrableName entry = .ok name) :
    Registrable entry ∧ regionName? entry = some name := by
  obtain ⟨n, hn, hrest⟩ := bind_eq_ok_iff.mp h
  obtain ⟨v, hv, hrest⟩ := bind_eq_ok_iff.mp hrest
  obtain ⟨b, hb, hchecks⟩ := bind_eq_ok_iff.mp hrest
  clear h hrest
  obtain ⟨fields, rfl, hname⟩ := entryField_eq_ok hn
  obtain ⟨fields', hfields, hbounds⟩ := entryField_eq_ok hv
  obtain rfl := Json.obj.inj hfields
  obtain ⟨bounds, rfl, hbox⟩ := entryBounds_eq_ok hb
  split at hchecks
  · exact nomatch hchecks
  · split at hchecks
    · exact nomatch hchecks
    · next hdefect =>
      obtain rfl := pure_eq_ok_iff.mp hchecks
      obtain ⟨hreserved, hfits⟩ := of_regionDefect?_eq_none hdefect
      exact ⟨⟨fields, n, bounds, b, rfl, hname, hreserved, hbounds, hbox, hfits⟩, hname⟩

/-- The entries that are kept may be registered, each under the name beside it. -/
theorem keepRegistrable_mem (entries : List (Json α)) :
    ∀ p ∈ (keepRegistrable entries).value, p.1 ∈ entries ∧ Registrable p.1 ∧ regionName? p.1 = some p.2 := by
  induction entries with
  | nil => exact fun _ hp => nomatch hp
  | cons entry rest ih =>
    have hrest : ∀ p ∈ (keepRegistrable rest).value,
        p.1 ∈ entry :: rest ∧ Registrable p.1 ∧ regionName? p.1 = some p.2 :=
      fun p hp => (ih p hp).imp_left (List.mem_cons_of_mem entry)
    rw [keepRegistrable]
    cases h : registrableName entry with
    | ok name => exact List.forall_mem_cons.mpr ⟨⟨List.mem_cons_self, registrable_of_name h⟩, hrest⟩
    | error refusal => exact hrest

/-! ## Layouts -/

/-- Raw data that names a region: a reserved one, or one of the given names. -/
def NamesRegion (names : List (Json α)) (region : Json α) : Prop :=
  (∃ s, region = .str s ∧ isReserved s = true) ∨ ∃ name ∈ names, sameName name region = true

/-- Raw data that is an offset within a region. -/
def IsOffset (v : Json α) : Prop :=
  ∃ x y, v = .arr [.ofReal x, .ofReal y] ∧ InUnitRange x ∧ InUnitRange y

/-- A layout that refers to what exists. Each field may also be absent or `null`. -/
structure RefersTo (names : List (Json α)) (layout : Fields α) : Prop where
  region : ∀ v, givenField? layout "region" = some v → NamesRegion names v
  anchor : ∀ v, givenField? layout "anchor" = some v → ∃ a : Anchor, v = .str a.name
  offset : ∀ v, givenField? layout "offset" = some v → IsOffset v

theorem namesRegion_of_isKnown {names : List (Json α)} {region : Json α}
    (h : isKnownRegion names region = true) : NamesRegion names region := by
  rcases Bool.or_eq_true _ _ ▸ h with h | h
  · split at h
    · exact .inl ⟨_, rfl, h⟩
    · exact nomatch h
  · exact .inr (List.any_eq_true.mp h)

theorem repairRegionName_mended {owner : LayoutOwner} {names : List (Json α)} {layout : Fields α}
    {r : Repaired α (Fields α)} (h : repairRegionName owner names layout = .ok r) :
    Mended "region" (NamesRegion names) layout r.value := by
  unfold repairRegionName at h
  split at h
  · next hnone =>
    obtain rfl := Except.ok.inj h
    exact .absent hnone
  · next region hregion => exact mended_of_lookUp hregion namesRegion_of_isKnown h

theorem repairOffset_mended [UnitOrder α] {owner : LayoutOwner} {layout : Fields α}
    {r : Repaired α (Fields α)} (h : repairOffset owner layout = .ok r) :
    Mended "offset" IsOffset layout r.value := by
  unfold repairOffset at h
  split at h
  · next hnone =>
    obtain rfl := Except.ok.inj h
    exact .absent hnone
  · obtain ⟨pair, -, h⟩ := bind_eq_ok_iff.mp h
    cases pair with
    | none =>
      obtain rfl := pure_eq_ok_iff.mp h
      exact .remove
    | some p =>
      obtain rfl := pure_eq_ok_iff.mp h
      exact .replace ⟨_, _, rfl, toUnitRange_mem p.x, toUnitRange_mem p.y⟩

/-- Raw data that is a layout which refers to what exists. -/
def IsLayout (names : List (Json α)) (v : Json α) : Prop :=
  ∃ layout, v = .obj layout ∧ RefersTo names layout

/-- A layout that is repaired refers to what exists, and keeps what else it asks for. -/
theorem repairLayout_spec [UnitOrder α] {owner : LayoutOwner} {names : List (Json α)}
    {fields : Fields α} {r : Repaired α (Fields α)} (h : repairLayout owner names fields = .ok r) :
    Mended "layout" (fun v => ∃ before after, Table.get? fields "layout" = some (.obj before) ∧
      v = .obj after ∧ RefersTo names after ∧ AgreeBeyond ["region", "anchor", "offset"] before after)
      fields r.value := by
  unfold repairLayout at h
  split at h
  · next hnone =>
    obtain rfl := Except.ok.inj h
    exact .absent hnone
  · next before hbefore =>
    obtain ⟨region, hregion, h⟩ := bind_eq_ok_iff.mp h
    obtain ⟨anchor, hanchor, h⟩ := bind_eq_ok_iff.mp h
    obtain ⟨offset, hoffset, h⟩ := bind_eq_ok_iff.mp h
    obtain rfl := pure_eq_ok_iff.mp h
    obtain ⟨anchor', hanchor', hav⟩ := Repaired.of_andThen hanchor
    obtain ⟨offset', hoffset', hov⟩ := Repaired.of_andThen hoffset
    have hregionMended := repairRegionName_mended hregion
    have hanchorMended := repairAnchorName_mended hanchor'
    have hoffsetMended := repairOffset_mended hoffset'
    rw [← hav] at hanchorMended
    rw [← hov] at hoffsetMended
    refine .replace ⟨before, offset.value, get?_of_givenField? hbefore, rfl,
      ⟨fun v hv => ?_, fun v hv => ?_, hoffsetMended.good⟩, ?_⟩
    -- neither of the later repairs touches the region, and the last one leaves the anchor alone
    · have hframe := (hoffsetMended.frame "region" (by decide)).trans
        (hanchorMended.frame "region" (by decide))
      exact hregionMended.good v ((givenField?_congr hframe).symm.trans hv)
    · have hframe := hoffsetMended.frame "anchor" (by decide)
      exact hanchorMended.good v ((givenField?_congr hframe).symm.trans hv)
    · exact ((hregionMended.frame.mono (by simp)).trans (hanchorMended.frame.mono (by simp))).trans
        (hoffsetMended.frame.mono (by simp))
  · obtain rfl := Except.ok.inj h
    exact .remove

theorem repairLayout_mended [UnitOrder α] {owner : LayoutOwner} {names : List (Json α)}
    {fields : Fields α} {r : Repaired α (Fields α)} (h : repairLayout owner names fields = .ok r) :
    Mended "layout" (IsLayout names) fields r.value :=
  (repairLayout_spec h).imp fun _ ⟨_, after, _, hv, hrefers, _⟩ => ⟨after, hv, hrefers⟩

end Drawing
