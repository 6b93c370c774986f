import Drawing.Document.Basic
import Drawing.Repair.Canvas
import Drawing.Repair.Commands
import Drawing.Repair.Layout
import Drawing.Text.Casing

/-!
# `Drawing/Repair/Design.lean` — repairing a whole design

A repair is one pass over raw data that is meant to be a document. It restores what a document needs: the
version, a canvas, ids that are all different, names that exist, and commands of the strict grammar.
Layers and paths that are no objects, and paths without a usable command, are dropped. Whatever the pass
does not look at stays as it is.
-/

namespace Drawing

section

variable {α : Type} [Scalar α] [Trig α]

/-- Tells of a new id, unless the data had it already. -/
def renameActions (fields : Fields α) (id : String) (action : RepairAction α) : List (RepairAction α) :=
  match Table.get? fields "id" with
  | some (.str s) => if s = id then [] else [action]
  | _ => [action]

/-! ## Paths -/

/-- A path with its id and a style. -/
def withStyle (id : String) (fields : Fields α) : Fields α :=
  let fields := Table.put "id" (.str id) fields
  match Table.get? fields "style" with
  | some (.obj _) => fields
  | _ => Table.put "style" (.obj []) fields

/-- A path with its commands in place of its path data. -/
def withCommandItems (commands : List (Command α)) (fields : Fields α) : Fields α :=
  Table.erase "d" (Table.put "commands" (.arr (commands.map (Command.json .stored))) fields)

/-- Repairs a path that gets an id; one without a usable command is dropped. -/
def repairPath (kept : List (Json α)) (layer id : String) (fields : Fields α) :
    Except (Fault α) (Repaired α (Option (Fields α))) := do
  let renamed := renameActions fields id (.renamedPath layer id)
  let laidOut ← repairLayout (.path id) kept (withStyle id fields)
  let commands ← repairCommands id laidOut.value
  let actions := renamed ++ laidOut.actions ++ commands.actions
  if commands.value.isEmpty then return ⟨none, actions ++ [.droppedPath id]⟩
  else return ⟨some (withCommandItems commands.value laidOut.value), actions⟩

/-- Repairs the entries of a list of paths, the first of which has a given place. -/
def repairPaths (kept : List (Json α)) (layer : String) (place : Nat) (taken : List String) :
    List (Json α) → Except (Fault α) (Repaired α (List (Json α)))
  | [] => .ok (.same [])
  | .obj fields :: rest => do
    let id := freeId (wantedId (Table.get? fields "id") s!"{layer}_path_{place + 1}") taken
    let path ← repairPath kept layer id fields
    -- The id of a path that was dropped stays taken.
    let others ← repairPaths kept layer (place + 1) (id :: taken) rest
    return (others.map fun ps => path.value.toList.map Json.obj ++ ps).after path.actions
  | _ :: rest => do
    return (← repairPaths kept layer (place + 1) taken rest).after [.droppedPathEntry layer]

/-! ## Layers -/

/-- The label that an id gives rise to. -/
def labelOfId (id : String) : String :=
  titled (String.ofList (id.toList.map fun c => if c = '_' then ' ' else c))

/-- A layer with its id and a label. -/
def withLabel (id : String) (fields : Fields α) : Fields α :=
  let fields := Table.put "id" (.str id) fields
  if ((Table.get? fields "label").getD .null).isTruthy then fields
  else Table.put "label" (.str (labelOfId id)) fields

/-- The entries of a field that is a list, none if it is anything else. -/
def listField (fields : Fields α) (name : String) : List (Json α) :=
  match Table.get? fields name with
  | some (.arr items) => items
  | _ => []

/-- Repairs a layer that gets an id. -/
def repairLayer (kept : List (Json α)) (place : Nat) (id : String) (fields : Fields α) :
    Except (Fault α) (Repaired α (Fields α)) := do
  let renamed := renameActions fields id (.renamedLayer place id)
  let laidOut ← repairLayout (.layer id) kept (withLabel id fields)
  let paths ← repairPaths kept id 0 [] (listField laidOut.value "paths")
  return ⟨Table.put "paths" (.arr paths.value) laidOut.value,
    renamed ++ laidOut.actions ++ paths.actions⟩

/-- Repairs the entries of a list of layers, the first of which has a given place. -/
def repairLayers (kept : List (Json α)) (place : Nat) (taken : List String) :
    List (Json α) → Except (Fault α) (Repaired α (List (Json α)))
  | [] => .ok (.same [])
  | .obj fields :: rest => do
    let id := freeId (wantedId (Table.get? fields "id") s!"layer_{place + 1}") taken
    let layer ← repairLayer kept place id fields
    let others ← repairLayers kept (place + 1) (id :: taken) rest
    return (others.map fun ls => Json.obj layer.value :: ls).after layer.actions
  | _ :: rest => do
    return (← repairLayers kept (place + 1) taken rest).after [.droppedLayer place]

/-! ## Designs -/

/-- Sets the version. -/
def repairVersion (design : Fields α) : Repaired α (Fields α) :=
  match Table.get? design "version" with
  | some (.str s) =>
    if s = schemaVersion then .same design
    else ⟨Table.put "version" (.str schemaVersion) design, [.setVersion]⟩
  | _ => ⟨Table.put "version" (.str schemaVersion) design, [.setVersion]⟩

def layerEntries (design : Fields α) : Repaired α (List (Json α)) :=
  match Table.get? design "layers" with
  | some (.arr items) => .same items
  | _ => ⟨[], [.replacedLayers]⟩

/-- Repairs the layers of a design whose custom regions have the given names. -/
def repairLayerList (kept : List (Json α)) (design : Fields α) :
    Except (Fault α) (Repaired α (Fields α)) := do
  let layers ← (layerEntries design).andThen (repairLayers kept 0 [])
  return layers.map fun ls => Table.put "layers" (.arr ls) design

/-- Repairs a design. -/
def repairDesign (design : Fields α) : Except (Fault α) (Repaired α (Fields α)) := do
  let canvas ← (repairVersion design).andThen repairCanvas
  -- Regions come first, as layouts are checked against those that are left.
  let regions ← canvas.andThen repairRegions
  regions.andThen fun (design, kept) => repairLayerList kept design

/-- Repairs raw data of any kind; what is no object counts as an empty one. -/
def repairData (data : Json α) : Except (Fault α) (Repaired α (Fields α)) :=
  match data with
  | .obj design => repairDesign design
  | _ => repairDesign []

end

end Drawing
