import Drawing.Analysis.Structure
import Drawing.Document.Codec
import Drawing.Validation.Sanitize

/-!
# `Drawing/Validation/Outcome.lean` — validating documents

A document is accepted if it has layers, if its custom regions can be registered, if its layers fit
together, and if every path that has commands begins with a move. An accepted document is moved to the
canvas that was asked for and its coordinates are made clean; neither can fail a document, and what they
change is told in warnings.
-/

namespace Drawing

/-- Why a document is not accepted. -/
inductive DocumentError where
  /-- A custom region that cannot be registered. -/
  | region (name : String) (defect : RegionDefect)
  /-- Layers that do not fit together. -/
  | layers (error : LayerError)
  /-- A path that does not begin with a move. -/
  | noMove (path : String)
  deriving Repr, DecidableEq

def DocumentError.text : DocumentError → String
  | region name defect => "Invalid custom region " ++ quoted name ++ ": " ++ defect.text
  | layers error => error.text
  | noMove path => "Path " ++ quoted path ++ " must start with M"

/-- The outcome of validating a document. -/
inductive Outcome (α : Type) where
  /-- The data is not a document. -/
  | malformed (complaints : List Complaint)
  /-- There is nothing to draw on. -/
  | noLayers
  /-- The document does not hold together. -/
  | misfit (document : Document α) (errors : List DocumentError) (warnings : List (LayerWarning α))
  /-- The document is fine; what was changed in it, if anything. -/
  | accepted (document : Document α) (warnings : List (LayerWarning α)) (rescale : Option (Rescale α))
      (strays : List (Stray α))

namespace Outcome

variable {α : Type}

def isOk : Outcome α → Bool
  | accepted .. => true
  | _ => false

/-- The document, as far as there is one. -/
def document? : Outcome α → Option (Document α)
  | malformed _ => none
  | noLayers => none
  | misfit d .. => some d
  | accepted d .. => some d

/-- The accepted document. -/
def accepted? : Outcome α → Option (Document α)
  | accepted d .. => some d
  | _ => none

def errors : Outcome α → List String
  | malformed complaints => complaints.map fun c => "Schema validation: " ++ c.text
  | noLayers => ["Document has no layers"]
  | misfit _ errors _ => errors.map DocumentError.text
  | accepted .. => []

/-- Whether the errors are about ids, regions and moves. -/
def isStructural : Outcome α → Bool
  | misfit .. => true
  | _ => false

/-- The points that were not on the canvas. -/
def strays : Outcome α → List (Stray α)
  | accepted _ _ _ strays => strays
  | _ => []

/-- Whether coordinates were changed by more than rounding. -/
def isSanitized : Outcome α → Bool
  | accepted _ _ rescale strays => !strays.isEmpty || rescale.isSome
  | _ => false

def warnings [Scalar α] [DecimalText α] : Outcome α → List String
  | misfit _ _ warnings => warnings.map LayerWarning.text
  | accepted _ warnings rescale strays =>
    warnings.map LayerWarning.text ++ rescale.toList.map Rescale.text ++
      strays.map fun s => s.fault.message
  | _ => []

/-- The errors as a fault. -/
def fault? (o : Outcome α) : Option (Fault α) :=
  if o.isOk then none
  else if o.isStructural then some (.structural o.errors [])
  else some (.schema o.errors)

end Outcome

section

variable {α : Type} [Scalar α]

/-- The catalog of the custom regions that can be registered, and the errors of the others. -/
def registerValid (catalog : Catalog α) : List (CustomRegion α) → Catalog α × List DocumentError
  | [] => (catalog, [])
  | r :: rest =>
    match Catalog.defect? r.name r.bounds with
    | some defect =>
      let (catalog, errors) := registerValid catalog rest
      (catalog, .region r.name defect :: errors)
    | none => registerValid ⟨Table.put r.name r.bounds catalog.custom⟩ rest

/-- Whether a path begins with a move, if it has commands at all. -/
def ShapePath.startsWithMove (p : ShapePath α) : Bool :=
  match p.commands with
  | [] => true
  | c :: _ => c.letter == .move

/-- The errors of the paths that do not begin with a move. -/
def Document.moveErrors (d : Document α) : List DocumentError :=
  (d.paths.filter fun (_, p) => !p.startsWithMove).map fun (_, p) => .noMove p.id

/-- The errors of a document with layers, and what its layers are warned of. -/
def Document.findings (d : Document α) : List DocumentError × List (LayerWarning α) :=
  let (catalog, regionErrors) := registerValid Catalog.empty d.regions
  let report := layerReport catalog d.layers
  (regionErrors ++ report.errors.map .layers ++ d.moveErrors, report.warnings)

/-- A document moved to a canvas if one is asked for. -/
def Document.conformTo (d : Document α) : Option (Canvas α) →
    Except (Fault α) (Document α × Option (Rescale α))
  | none => .ok (d, none)
  | some canvas => d.conform canvas

/-- Validates a document. -/
def Document.validate (d : Document α) (canvas : Option (Canvas α)) :
    Except (Fault α) (Outcome α) :=
  if d.layers.isEmpty then .ok .noLayers
  else
    let (errors, warnings) := d.findings
    if !errors.isEmpty then .ok (.misfit d errors warnings)
    else do
      -- Coordinates are looked at only in a document that holds together.
      let (moved, rescale) ← d.conformTo canvas
      return .accepted moved.sanitize warnings rescale moved.strays

/-- Data without what only a program may say, that all coordinates are final. -/
def withoutResolved (fields : Fields α) : Fields α :=
  (Table.erase "layoutResolved" (Table.erase "layout_resolved" fields))

/-- Validates data as a document. -/
def validateData (fields : Fields α) (canvas : Option (Canvas α)) : Except (Fault α) (Outcome α) :=
  match Document.readFields (withoutResolved fields) with
  | .invalid complaints => .ok (.malformed complaints)
  | .valid d => d.validate canvas

/-- Validates raw data of any kind, which is data only if it is an object. -/
def validateRaw (data : Json α) (canvas : Option (Canvas α)) : Except (Fault α) (Outcome α) :=
  match data with
  | .obj fields => validateData fields canvas
  | v => .error (.kind (.notFielded v.kindName))

end

end Drawing
