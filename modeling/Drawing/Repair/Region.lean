import Drawing.Json.Key
import Drawing.Repair.Action

/-!
# `Drawing/Repair/Region.lean` — repairing custom regions

An entry of the list of custom regions is kept as it is if it has a name that is not reserved and a box
that fits; all others are dropped. The kept names are what layouts may refer to, besides the reserved
ones. A name may be any value that can be looked up.
-/

namespace Drawing

section

variable {α : Type}

/-- The entries of what stands for a list: its items, the characters of a text, or the field names of an
object. -/
def entriesOf : Json α → Except KindFault (List (Json α))
  | .arr items => .ok items
  | .str s => .ok (s.toList.map fun c => .str (String.singleton c))
  | .obj fields => .ok (fields.map fun (name, _) => .str name)
  | v => .error (.notIterable v.kindName)

variable [Scalar α]

def entryField (entry : Json α) (name : String) : Except (RegionRefusal α) (Json α) :=
  match entry with
  | .obj fields =>
    match Table.get? fields name with
    | some v => .ok v
    | none => .error (.missing name)
  | v => .error (.noFields v)

def entryBounds (v : Json α) : Except (RegionRefusal α) (Box α) :=
  match v with
  | .obj fields =>
    match Box.readFields fields with
    | .valid b => .ok b
    | .invalid cs => .error (.bounds cs)
  | v => .error (.boundsKind v.kindName)

/-- What is wrong with a region of any name. -/
def regionDefect? (name : Json α) (b : Box α) : Option RegionDefect :=
  match name with
  | .str s => Catalog.defect? s b
  -- A name that is no text cannot be a reserved one.
  | _ => Catalog.boxDefect? b

/-- The name of an entry that may be registered, or why it may not. -/
def registrableName (entry : Json α) : Except (RegionRefusal α) (Json α) := do
  let name ← entryField entry "name"
  let bounds ← entryBounds (← entryField entry "bounds")
  match nameFault? name with
  | some fault => throw (.unusableName fault)
  | none =>
    match regionDefect? name bounds with
    | some d => throw (.unfit name d)
    | none => return name

/-- The entries that may be registered, each with its name. -/
def keepRegistrable : List (Json α) → Repaired α (List (Json α × Json α))
  | [] => .same []
  | entry :: rest =>
    let kept := keepRegistrable rest
    match registrableName entry with
    | .ok name => kept.map fun ks => (entry, name) :: ks
    | .error refusal => kept.after [.droppedRegion refusal]

/-- Repairs the custom regions of a design and gives the names that are left. -/
def repairRegions (design : Fields α) :
    Except (Fault α) (Repaired α (Fields α × List (Json α))) :=
  match Table.get? design "layout" with
  | some (.obj layout) => do
    let written := (Table.get? layout "regions").getD .null
    let entries ← if written.isTruthy then (entriesOf written).mapError Fault.kind else .ok []
    return (keepRegistrable entries).map fun kept =>
      let layout := Table.put "regions" (.arr (kept.map Prod.fst)) layout
      (Table.put "layout" (.obj layout) design, kept.map Prod.snd)
  | _ => .ok (.same (design, []))

end

end Drawing
