import Drawing.Document.Basic
import Drawing.Json.Printer
import Drawing.Text.Character

/-!
# `Drawing/Analysis/Structure.lean` — whether layers fit together

Layers fit together if their ids are there and all different, if the ids of the paths of each layer are
all different, and if every region that is named exists. Whatever departs from that is an error; what is
merely odd is a warning, and what could be better a suggestion.
-/

namespace Drawing

/-! ## Findings -/

/-- What makes layers not fit together. -/
inductive LayerError where
  | emptyId (place : Nat)
  | sameId (id : String) (first place : Nat)
  | samePathId (path layer : String)
  | unknownRegion (region owner : String)
  deriving Repr, DecidableEq

namespace LayerError

def text : LayerError → String
  | emptyId place => s!"Layer at position {place} has an empty id"
  | sameId id first place => "Duplicate layer id " ++ quoted id ++ s!" at positions {first} and {place}"
  | samePathId path layer => "Duplicate path id " ++ quoted path ++ " in layer " ++ quoted layer
  | unknownRegion region owner => "Invalid region " ++ quoted region ++ " on " ++ quoted owner

/-- What an error is about, if that has a name. -/
def owner? : LayerError → Option String
  | emptyId _ => none
  | sameId id _ _ => some id
  | samePathId path layer => some (layer ++ "/" ++ path)
  | unknownRegion _ owner => some owner

end LayerError

/-- What is odd about layers. -/
inductive LayerWarning (α : Type) where
  | noLabel (layer : String)
  | noPaths (layer : String)
  | manyPaths (layer : String) (count : Nat)
  | noCommands (path layer : String)
  | largeOffset (offset : Point α) (owner : String)
  | manyLayers (count : Nat)
  deriving Repr

/-- The number of paths that a layer should not exceed. -/
def pathLimit : Nat := 50

/-- The number of layers that a document should not exceed. -/
def layerLimit : Nat := 20

def LayerWarning.text {α : Type} [DecimalText α] : LayerWarning α → String
  | noLabel layer => "Layer " ++ quoted layer ++ " has no label"
  | noPaths layer => "Layer " ++ quoted layer ++ " has no paths"
  | manyPaths layer count => "Layer " ++ quoted layer ++ s!" has {count} paths (over {pathLimit})"
  | noCommands path layer => "Path " ++ quoted path ++ " in layer " ++ quoted layer ++ " has no commands"
  | largeOffset offset owner => "Large offset " ++ offset.json.shown ++ " on " ++ quoted owner
  | manyLayers count => s!"Document has {count} layers (over {layerLimit})"

/-- What could be better about layers. -/
inductive LayerSuggestion where
  | removeEmpty (layer : String)
  | splitLarge (layer : String)
  | nameIt (layer : String)
  deriving Repr, DecidableEq

def LayerSuggestion.text : LayerSuggestion → String
  | removeEmpty layer => "Remove empty layer " ++ quoted layer
  | splitLarge layer => "Split layer " ++ quoted layer ++ " into smaller layers"
  | nameIt layer => "Use a descriptive id instead of " ++ quoted layer

/-- All findings about some layers. -/
structure LayerReport (α : Type) where
  errors : List LayerError
  warnings : List (LayerWarning α)
  suggestions : List LayerSuggestion
  deriving Repr

namespace LayerReport

variable {α : Type}

/-- Whether there is no error. -/
def isValid (r : LayerReport α) : Bool := r.errors.isEmpty

/-- What the errors are about. -/
def owners (r : LayerReport α) : List String := r.errors.filterMap LayerError.owner?

def errorTexts (r : LayerReport α) : List String := r.errors.map LayerError.text

end LayerReport

/-! ## Finding -/

section

variable {α : Type} [Scalar α]

/-- The name of a path in findings: that of its layer, then its own. -/
def pathOwner (layer path : String) : String := layer ++ "/" ++ path

/-- Complains about a region that does not exist. -/
def regionErrors (catalog : Catalog α) (owner : String) (layout : Option (LayoutSpec α)) :
    List LayerError :=
  match layout.bind LayoutSpec.region with
  | some region => if catalog.isValid region then [] else [.unknownRegion region owner]
  | none => []

/-- The errors of the paths of a layer; `seen` are the ids of the paths before them. -/
def pathErrors (catalog : Catalog α) (layer : String) (seen : List String) :
    List (ShapePath α) → List LayerError
  | [] => []
  | p :: rest =>
    (if seen.contains p.id then [.samePathId p.id layer] else []) ++
      regionErrors catalog (pathOwner layer p.id) p.layout ++
      pathErrors catalog layer (p.id :: seen) rest

/-- The error of a layer's id; `seen` are the ids of the layers before it. -/
def idErrors (seen : List String) (id : String) : List LayerError :=
  -- An empty id is told of as empty, and never as a repetition.
  if id = "" then [.emptyId seen.length]
  else if seen.contains id then [.sameId id (seen.idxOf id) seen.length]
  else []

/-- The errors of layers; `seen` are the ids of the layers before them. -/
def layerErrors (catalog : Catalog α) (seen : List String) : List (Layer α) → List LayerError
  | [] => []
  | l :: rest =>
    -- The ids are kept in order, since the error of a repeated one tells the places of both layers.
    idErrors seen l.id ++ regionErrors catalog l.id l.layout ++ pathErrors catalog l.id [] l.paths ++
      layerErrors catalog (seen ++ [l.id]) rest

/-- Warns of an offset of more than the whole region. -/
def offsetWarnings (owner : String) (layout : Option (LayoutSpec α)) : List (LayerWarning α) :=
  match layout.bind LayoutSpec.offset with
  | some p =>
    if Scalar.one < Scalar.abs p.x || Scalar.one < Scalar.abs p.y then [.largeOffset p owner] else []
  | none => []

def pathWarnings (layer : String) (p : ShapePath α) : List (LayerWarning α) :=
  (if p.commands.isEmpty then [.noCommands p.id layer] else []) ++
    offsetWarnings (pathOwner layer p.id) p.layout

def layerWarnings (l : Layer α) : List (LayerWarning α) :=
  (if l.label = "" then [.noLabel l.id] else []) ++
    (if l.paths.isEmpty then [.noPaths l.id] else []) ++
    (if pathLimit < l.paths.length then [.manyPaths l.id l.paths.length] else []) ++
    offsetWarnings l.id l.layout ++ l.paths.flatMap (pathWarnings l.id)

end

/-- Whether a text is a number behind a possible hyphen or underscore. A line break may end it. -/
def isNumbering (cs : List Char) : Bool :=
  let digits := match cs with
    | '_' :: rest => rest
    | '-' :: rest => rest
    | _ => cs
  -- There may be no digit at all: the bare word says as little as the word with a number.
  let left := digits.dropWhile isAnyDigit
  left.isEmpty || left == ['\n']

/-- Whether an id says nothing but what kind of thing it names. -/
def isGenericId (id : String) : Bool :=
  ["layer", "group", "g", "path"].any fun word =>
    (id.toList.take word.length).map Char.toLower == word.toList &&
      isNumbering (id.toList.drop word.length)

def layerSuggestions {α : Type} (l : Layer α) : List LayerSuggestion :=
  (if l.paths.isEmpty then [.removeEmpty l.id] else []) ++
    (if pathLimit < l.paths.length then [.splitLarge l.id] else []) ++
    (if isGenericId l.id then [.nameIt l.id] else [])

/-- Everything there is to say about some layers. -/
def layerReport {α : Type} [Scalar α] (catalog : Catalog α) (layers : List (Layer α)) :
    LayerReport α where
  errors := layerErrors catalog [] layers
  warnings := layers.flatMap layerWarnings ++
    (if layerLimit < layers.length then [.manyLayers layers.length] else [])
  suggestions := layers.flatMap layerSuggestions

/-- The findings about some layers, or the fault that they do not fit together. -/
def checkLayers {α : Type} [Scalar α] (catalog : Catalog α) (layers : List (Layer α)) :
    Except (Fault α) (LayerReport α) :=
  let report := layerReport catalog layers
  if report.isValid then .ok report else .error (.structural report.errorTexts report.owners)

end Drawing
