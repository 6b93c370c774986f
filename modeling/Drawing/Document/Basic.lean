import Drawing.Layout.Spec
import Drawing.Path.Points
import Drawing.Region.Catalog

/-!
# `Drawing/Document/Basic.lean` — design documents

A design document is a canvas and a stack of layers, each holding styled paths. Layers and paths may
carry layouts, and the document may carry custom regions and defaults for anchor and offset. A document
remembers whether its layouts have been carried out, that is, whether all its coordinates are final.
-/

namespace Drawing

/-- The ends of a stroke. -/
inductive Linecap where
  | butt
  | round
  | square
  deriving Repr, BEq, DecidableEq

/-- The corners of a stroke. -/
inductive Linejoin where
  | miter
  | round
  | bevel
  deriving Repr, BEq, DecidableEq

def Linecap.name : Linecap → String
  | butt => "butt"
  | round => "round"
  | square => "square"

def Linejoin.name : Linejoin → String
  | miter => "miter"
  | round => "round"
  | bevel => "bevel"

/-- How a path is painted. -/
structure PathStyle (α : Type) where
  fill : Option String
  stroke : Option String
  strokeWidth : Option α
  linecap : Option Linecap
  linejoin : Option Linejoin
  opacity : Option α
  deriving Repr, BEq, DecidableEq

/-- A path: its commands, how it is painted, and where it goes. -/
structure ShapePath (α : Type) where
  id : String
  style : PathStyle α
  commands : List (Command α)
  layout : Option (LayoutSpec α)
  deriving Repr, BEq, DecidableEq

/-- A layer: paths that share a layout. -/
structure Layer (α : Type) where
  id : String
  label : String
  paths : List (ShapePath α)
  layout : Option (LayoutSpec α)
  deriving Repr, BEq, DecidableEq

/-- The custom regions of a document, and what its layouts inherit. -/
structure LayoutConfig (α : Type) where
  regions : List (CustomRegion α)
  globalAnchor : Option Anchor
  globalOffset : Option (Point α)
  deriving Repr, BEq, DecidableEq

/-- A design document. -/
structure Document (α : Type) where
  canvas : Canvas α
  layout : Option (LayoutConfig α)
  layers : List (Layer α)
  /-- Whether all coordinates are final. -/
  resolved : Bool
  deriving Repr, BEq, DecidableEq

/-- The version that all documents carry. -/
def schemaVersion : String := "unified-layered-1.0"

variable {α : Type}

/-- The style that leaves everything open. -/
def PathStyle.plain : PathStyle α := ⟨none, none, none, none, none, none⟩

/-- The region a layer names, the centre if it names none. -/
def Layer.region (l : Layer α) : String :=
  match l.layout.bind LayoutSpec.region with
  | some r => if r = "" then "center" else r
  | none => "center"

def Layer.commands (l : Layer α) : List (Command α) := l.paths.flatMap ShapePath.commands

/-- All paths of a document, each with its layer. -/
def Document.paths (d : Document α) : List (Layer α × ShapePath α) :=
  d.layers.flatMap fun l => l.paths.map fun p => (l, p)

def Document.commands (d : Document α) : List (Command α) := d.layers.flatMap Layer.commands

def Document.regions (d : Document α) : List (CustomRegion α) :=
  match d.layout with
  | some l => l.regions
  | none => []

/-- The catalog of a document, or the fault that one of its regions is refused. -/
def Document.catalog [Scalar α] (d : Document α) : Except (Fault α) (Catalog α) :=
  Catalog.empty.registerAll d.regions

def Layer.withPaths (l : Layer α) (paths : List (ShapePath α)) : Layer α := { l with paths }

def ShapePath.withCommands (p : ShapePath α) (commands : List (Command α)) : ShapePath α :=
  { p with commands }

end Drawing
