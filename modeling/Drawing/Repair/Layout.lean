import Drawing.Json.Key
import Drawing.Repair.Region

/-!
# `Drawing/Repair/Layout.lean` — repairing layouts

A layout loses a region or an anchor that does not exist and an offset that is not two finite numbers; an
offset beyond the region is brought back to it. The names may be of any kind, and naming something that
cannot be looked up is a fault.
-/

namespace Drawing

section

variable {α : Type} [Scalar α]

/-- Whether raw data names a region that is reserved or among the kept ones. -/
def isKnownRegion (kept : List (Json α)) (region : Json α) : Bool :=
  (match region with
    | .str s => isReserved s
    | _ => false) || kept.any fun name => sameName name region

/-- Whether raw data names an anchor. -/
def isKnownAnchor : Json α → Bool
  | .str s => (Anchor.ofName? s).isSome
  | _ => false

/-- The field of a layout, `null` counting as absent. -/
def givenField? (fields : Fields α) (name : String) : Option (Json α) :=
  match Table.get? fields name with
  | some .null => none
  | v => v

/-- Removes a region that does not exist. -/
def repairRegionName (owner : LayoutOwner) (kept : List (Json α)) (layout : Fields α) :
    Except (Fault α) (Repaired α (Fields α)) :=
  match givenField? layout "region" with
  | none => .ok (.same layout)
  | some region => do
    if ← lookUp region (isKnownRegion kept region) then return .same layout
    else return ⟨Table.erase "region" layout, [.removedRegion region owner]⟩

/-- Removes an anchor that does not exist. -/
def repairAnchorName (owner : LayoutOwner) (layout : Fields α) :
    Except (Fault α) (Repaired α (Fields α)) :=
  match givenField? layout "anchor" with
  | none => .ok (.same layout)
  | some anchor => do
    if ← lookUp anchor (isKnownAnchor anchor) then return .same layout
    else return ⟨Table.erase "anchor" layout, [.removedAnchor anchor owner]⟩

/-! ## Offsets -/

/-- Two finite numbers, nothing for anything else. Entries behind the third are not looked at. -/
def offsetPair? (v : Json α) : Except (Fault α) (Option (Point α)) :=
  match entriesOf v with
  | .error _ => .ok none
  | .ok entries => do
    match ← (Json.numbers? (entries.take 3)).mapError Fault.number with
    | some [x, y] => return if Scalar.isFinite x && Scalar.isFinite y then some ⟨x, y⟩ else none
    | _ => return none

/-- A number brought into `[-1, 1]`. -/
def toUnitRange (x : α) : α := Scalar.greatest (-Scalar.one) (Scalar.least Scalar.one x)

/-- Removes an offset that is none and brings one back that goes too far. -/
def repairOffset (owner : LayoutOwner) (layout : Fields α) :
    Except (Fault α) (Repaired α (Fields α)) :=
  match givenField? layout "offset" with
  | none => .ok (.same layout)
  | some v => do
    match ← offsetPair? v with
    | none => return ⟨Table.erase "offset" layout, [.removedOffset owner]⟩
    | some p =>
      let q : Point α := ⟨toUnitRange p.x, toUnitRange p.y⟩
      -- Written anew even where nothing is told of: numbers given as text become numbers.
      return ⟨Table.put "offset" q.json layout, if q == p then [] else [.clampedOffset owner]⟩

/-- Repairs the layout of a layer or a path. -/
def repairLayout (owner : LayoutOwner) (kept : List (Json α)) (fields : Fields α) :
    Except (Fault α) (Repaired α (Fields α)) :=
  match givenField? fields "layout" with
  | none => .ok (.same fields)
  | some (.obj layout) => do
    let region ← repairRegionName owner kept layout
    let anchor ← region.andThen (repairAnchorName owner)
    let offset ← anchor.andThen (repairOffset owner)
    return offset.map fun layout => Table.put "layout" (.obj layout) fields
  | some _ => .ok ⟨Table.erase "layout" fields, [.droppedLayout owner]⟩

end

end Drawing
