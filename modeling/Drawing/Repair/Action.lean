import Drawing.Canvas.Aspect
import Drawing.Json.Number
import Drawing.Json.Printer
import Drawing.Path.Command
import Drawing.Region.Catalog

/-!
# `Drawing/Repair/Action.lean` — what a repair did

Every change that a repair makes to a design is told as an action. `Repaired` is a value together with the
actions that led to it, in order; a repair may also meet a value it cannot even look at, which is a fault.
-/

namespace Drawing

/-- Whose layout is repaired. -/
inductive LayoutOwner where
  | layer (id : String)
  | path (id : String)
  deriving Repr, DecidableEq

/-- An owner in messages. -/
def LayoutOwner.text : LayoutOwner → String
  | layer id => "layer " ++ quoted id
  | path id => "path " ++ quoted id

/-- Why an entry of the list of custom regions is dropped. -/
inductive RegionRefusal (α : Type) where
  /-- An entry that is no object, asked for a field. -/
  | noFields (entry : Json α)
  /-- An object without a field. -/
  | missing (field : String)
  /-- Bounds that are no object. -/
  | boundsKind (kind : String)
  /-- Bounds that are no box. -/
  | bounds (complaints : List Complaint)
  /-- A name that cannot be looked up. -/
  | unusableName (fault : KindFault)
  /-- A region that may not be registered. -/
  | unfit (name : Json α) (defect : RegionDefect)
  deriving Repr

def RegionRefusal.text {α : Type} [DecimalText α] : RegionRefusal α → String
  | noFields (.arr _) => "list indices must be integers or slices, not str"
  | noFields (.str _) => "string indices must be integers, not 'str'"
  | noFields entry => "'" ++ entry.kindName ++ "' object is not subscriptable"
  | missing field => quoted field
  | boundsKind kind =>
    "layoutsvg.models.document.RegionBox() argument after ** must be a mapping, not " ++ kind
  | bounds complaints => complaintsMessage "RegionBox" complaints
  | unusableName fault => fault.message
  | unfit name defect => "Invalid custom region " ++ name.shown ++ ": " ++ defect.text

/-- A change that a repair made. -/
inductive RepairAction (α : Type) where
  | setVersion
  | addedCanvas
  | setAspect (aspect : Aspect)
  | setCanvasSize
  | droppedRegion (refusal : RegionRefusal α)
  | replacedLayers
  | droppedLayer (place : Nat)
  | renamedLayer (place : Nat) (id : String)
  | droppedPathEntry (layer : String)
  | renamedPath (layer id : String)
  | droppedPath (id : String)
  | droppedLayout (owner : LayoutOwner)
  | removedRegion (region : Json α) (owner : LayoutOwner)
  | removedAnchor (anchor : Json α) (owner : LayoutOwner)
  | removedOffset (owner : LayoutOwner)
  | clampedOffset (owner : LayoutOwner)
  | convertedData (path : String)
  | droppedCommand (path : String)
  | straightened (letter : Char) (path : String)
  | droppedLetter (letter : Char) (path : String)
  | droppedShort (letter : Char) (given : Nat) (path : String)
  | split (letter : Char) (path : String)
  | madeAbsolute (letter : Char) (path : String)
  | startedWithMove (path : String)
  deriving Repr

def RepairAction.text {α : Type} [DecimalText α] : RepairAction α → String
  | setVersion => "Set schema version"
  | addedCanvas => "Added default canvas"
  | setAspect aspect => "Set aspect ratio to " ++ aspect.tag
  | setCanvasSize => "Set canvas size from aspect ratio"
  | droppedRegion refusal => "Dropped invalid custom region: " ++ refusal.text
  | replacedLayers => "Replaced missing layer list"
  | droppedLayer place => s!"Dropped malformed layer at position {place}"
  | renamedLayer place id => s!"Renamed layer at position {place} to " ++ quoted id
  | droppedPathEntry layer => "Dropped malformed path in layer " ++ quoted layer
  | renamedPath layer id => "Renamed path in layer " ++ quoted layer ++ " to " ++ quoted id
  | droppedPath id => "Dropped path " ++ quoted id ++ " with no usable commands"
  | droppedLayout owner => "Dropped malformed layout on " ++ owner.text
  | removedRegion region owner => "Removed unknown region " ++ region.shown ++ " from " ++ owner.text
  | removedAnchor anchor owner => "Removed unknown anchor " ++ anchor.shown ++ " from " ++ owner.text
  | removedOffset owner => "Removed malformed offset from " ++ owner.text
  | clampedOffset owner => "Clamped offset on " ++ owner.text
  | convertedData path => "Converted path data of " ++ quoted path ++ " to commands"
  | droppedCommand path => "Dropped malformed command in " ++ quoted path
  | straightened letter path => s!"Converted {letter} to L in " ++ quoted path
  | droppedLetter letter path =>
    "Dropped unsupported command " ++ quoted (String.singleton letter) ++ " in " ++ quoted path
  | droppedShort letter given path => s!"Dropped {letter} with {given} coordinates in " ++ quoted path
  | split letter path => s!"Split or trimmed {letter} coordinates in " ++ quoted path
  | madeAbsolute letter path => s!"Converted relative {letter} in " ++ quoted path
  | startedWithMove path => "Path " ++ quoted path ++ " now starts with M"

/-- A value and the actions that led to it. -/
structure Repaired (α β : Type) where
  value : β
  actions : List (RepairAction α)
  deriving Repr

namespace Repaired

variable {α β γ : Type}

/-- A value that nothing was done to. -/
def same (value : β) : Repaired α β := ⟨value, []⟩

/-- A further repair, its actions behind the ones before. -/
def andThen (r : Repaired α β) (next : β → Except (Fault α) (Repaired α γ)) :
    Except (Fault α) (Repaired α γ) := do
  let s ← next r.value
  return ⟨s.value, r.actions ++ s.actions⟩

/-- Actions in front of those of a repair. -/
def after (actions : List (RepairAction α)) (r : Repaired α β) : Repaired α β :=
  ⟨r.value, actions ++ r.actions⟩

/-- Changes the repaired value. -/
def map (f : β → γ) (r : Repaired α β) : Repaired α γ := ⟨f r.value, r.actions⟩

end Repaired

/-! ## Ids

Which id a layer or a path gets before anything is known about the data: the one it asks for, or one that
stands in, and in any case one that is still free.
-/

/-- The candidates for an id: the wanted one, then the same with the numbers from two on. -/
def idCandidate (wanted : String) : Nat → String
  | 0 => wanted
  | n + 1 => s!"{wanted}_{n + 2}"

/-- The first candidate that is not taken. One of the first few is free, as many as there are ids taken
and one more. -/
def freeId (wanted : String) (taken : List String) : String :=
  (((List.range (taken.length + 1)).map (idCandidate wanted)).find? fun c => !taken.contains c).getD
    wanted

/-- The id that raw data asks for, or one that stands in where it asks for none. -/
def wantedId {α : Type} (value : Option (Json α)) (fallback : String) : String :=
  match value with
  | some (.str s) => if s = "" then fallback else s
  | _ => fallback

end Drawing
