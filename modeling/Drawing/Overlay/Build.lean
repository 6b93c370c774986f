import Drawing.Analysis.Analyzer
import Drawing.Analysis.Measures
import Drawing.Analysis.Structure
import Drawing.Markup.Page
import Drawing.Overlay.Element
import Drawing.Result.Basic
import Drawing.Viewport.Report

/-!
# `Drawing/Overlay/Build.lean` — building an overlay

An overlay can be built for every document, however badly its layouts fit. Layouts that name a region that
does not exist are told as errors and otherwise passed over; only if there is no such error are the
layouts of the document carried out.
-/

namespace Drawing

/-- An overlay: its elements, what is wrong with the layouts, and some numbers. -/
structure Overlay (α : Type) where
  marks : List (Mark α)
  errors : List String
  layers : Nat
  paths : Nat
  regions : List String
  markup : String
  deriving Repr

section

variable {α : Type} [Scalar α]

/-! ## Layouts -/

/-- The layouts in force of all layers and paths that have one themselves, each with the name of its
owner. -/
def Document.ownedLayouts (d : Document α) : List (String × EffectiveLayout α) :=
  (d.layers.filterMap fun l => l.layout.map fun _ => (l.id, d.layerLayout l)) ++
    d.paths.filterMap fun (l, p) => p.layout.map fun _ => (pathOwner l.id p.id, d.layoutOf l p)

/-- The catalog of a document, and what is wrong with it; with a region that is refused there are no custom
ones. -/
def Document.catalogOrEmpty [DecimalText α] (d : Document α) : Catalog α × List String :=
  match d.catalog with
  | .ok c => (c, [])
  | .error f => (Catalog.empty, [f.message])

/-- The marks of a layout: its anchor, and its offset if it has one. -/
def layoutMarks (stage : Stage α) (o : OverlayOptions α) (colours : ColourScheme) (owner : String)
    (layout : EffectiveLayout α) : Except (Fault α) (List (Mark α)) :=
  if o.anchors || o.offsets then do
    let p ← stage.anchorPoint layout.region layout.anchor
    let dot := if o.anchors then [Mark.anchorDot colours (owner ++ ":" ++ layout.anchor) p] else []
    if o.offsets && !(layout.offset.x == Scalar.zero && layout.offset.y == Scalar.zero) then
      let q ← stage.position layout
      return dot ++ [Mark.offsetLine colours owner p q]
    else return dot
  else .ok []

/-- The boxes of regions. -/
def regionMarks (stage : Stage α) (o : OverlayOptions α) (colours : ColourScheme)
    (regions : List String) : Except (Fault α) (List (Mark α)) :=
  if o.regions then regions.mapM fun name => do
    return Mark.regionBox colours name (← stage.regionBox name)
  else .ok []

/-! ## Bounds -/

/-- The share of the smaller box from which two layers overlap. -/
def overlapThreshold : α := Scalar.ofRat 0.5

/-- What is said of two layers that overlap, if they do. -/
def overlapText? (first second : String × Box α) : Option String :=
  let smaller := Scalar.least first.2.edgeArea second.2.edgeArea
  -- Of a box without area there is no share to speak of.
  if smaller ≤ Scalar.zero then none
  else
    let share := first.2.sharedArea second.2 / smaller
    if overlapThreshold < share then
      some ("Layers " ++ quoted first.1 ++ " and " ++ quoted second.1 ++ " overlap (" ++
        Scalar.percentText share ++ ")")
    else none

/-- What is said of all pairs of layers that overlap. -/
def overlapTexts : List (String × Box α) → List String
  | [] => []
  | b :: rest => rest.filterMap (overlapText? b) ++ overlapTexts rest

/-- The bounds of the layers that have commands, by id, and the analyzer that has measured them. -/
def layerBounds [DecimalText α] (a : Analyzer α) (canvas : Canvas α) :
    List (Layer α) → Except (Fault α) (List (String × Box α) × Analyzer α)
  | [] => .ok ([], a)
  | l :: rest => do
    let (m, a) := a.measure l (.whole canvas.width) (.whole canvas.height)
    let m ← m
    let (others, a) ← layerBounds a canvas rest
    return (if m.commandCount = 0 then others else (l.id, m.bounds) :: others, a)

/-- The problems of the view of a document, save that there is nothing in it. -/
def viewErrors (d : Document α) : Except (Fault α) (List String) := do
  let (w, h) ← d.canvas.sides
  let viewBox := (d.canvas.viewBox.getD ⟨Scalar.zero, Scalar.zero, w, h⟩).toList
  let report ← viewReport d.commands (viewBox.map .real) (.whole d.canvas.width) (.whole d.canvas.height)
  return (report.problems.filter (· != .nothingDrawn)).map ViewProblem.text

/-! ## Text -/

/-- What is told of a result's times. -/
def performanceTexts (m : Metadata α) : List String := [
  "method: " ++ m.method.name,
  "total: " ++ Scalar.fixedText 1 m.timing.total ++ "ms",
  "model: " ++ Scalar.fixedText 1 m.timing.model ++ "ms",
  "processing: " ++ Scalar.fixedText 1 m.timing.processing ++ "ms",
  s!"quality: {m.quality}"]

/-- The lines about errors. -/
def errorMarks (o : OverlayOptions α) (colours : ColourScheme) (errors : List String) : List (Mark α) :=
  if o.errors then Mark.lines .error colours.error (Scalar.ofRat 8) 0 errors else []

/-- The lines about a result's times. -/
def performanceMarks (o : OverlayOptions α) (colours : ColourScheme) (canvas : Canvas α)
    (result : Option (Metadata α)) : List (Mark α) :=
  match o.performance, result with
  | true, some m =>
    Mark.lines .performance colours.text (canvas.w - Scalar.ofRat 140) 0 (performanceTexts m)
  | _, _ => []

/-- The page of an overlay. -/
def overlayMarkup [DecimalText α] (canvas : Canvas α) (opacity : Numeral α) (marks : List (Mark α)) :
    Except (Fault α) String := do
  let opening ← canvas.openTag
  let group := "  <g id=\"debug-overlay\" opacity=\"" ++ Scalar.generalText (← opacity.toScalar) ++
    "\" pointer-events=\"none\">"
  return "\n".intercalate (opening :: group :: marks.map Mark.markup ++ ["  </g>", "</svg>"])

/-! ## Overlays -/

/-- Builds the overlay of a document, with the times of a result if there is one. -/
def buildOverlay [Trig α] [DecimalText α] (a : Analyzer α) (d : Document α)
    (result : Option (Metadata α)) (o : OverlayOptions α) :
    Except (Fault α) (Overlay α × Analyzer α) := do
  let colours ← ColourScheme.ofName o.scheme
  let (catalog, catalogErrors) := d.catalogOrEmpty
  let stage : Stage α := ⟨d.canvas, catalog⟩
  let (known, unknown) := d.ownedLayouts.partition fun (_, l) => catalog.isValid l.region
  let nameErrors := catalogErrors ++ unknown.map fun (owner, l) =>
    (Fault.unknownRegion (α := α) l.region).message ++ " on " ++ quoted owner
  let regions := distinct (known.map fun (_, l) => l.region)
  let layoutMarks ← known.mapM fun (owner, l) => layoutMarks stage o colours owner l
  let regionMarks ← regionMarks stage o colours regions
  -- Where a region is unknown no layout can be carried out, and bounds are those of the coordinates as given.
  let resolved ← if nameErrors.isEmpty then d.resolve else pure d
  let (bounds, a) ← layerBounds a resolved.canvas resolved.layers
  let boundMarks := if o.bounds then bounds.map fun (id, b) => Mark.layerBox colours id b else []
  -- Of several layers of one id the last one stands for all.
  let byId := bounds.foldl (fun t (id, b) => Table.put id b t) []
  let errors := nameErrors ++ overlapTexts byId ++ (← viewErrors resolved)
  let marks := layoutMarks.flatten ++ regionMarks ++ boundMarks ++ errorMarks o colours errors ++
    performanceMarks o colours resolved.canvas result
  let markup ← overlayMarkup resolved.canvas o.opacity marks
  return ({
    marks, errors, regions, markup
    layers := resolved.layers.length
    paths := (resolved.layers.flatMap Layer.paths).length }, a)

/-- An overlay as raw data. -/
def Overlay.fields (o : Overlay α) : Fields α :=
  let kinds := (o.marks.map fun m => m.kind.name).foldl countName []
  [("elements", .arr (o.marks.map Mark.json)),
    ("layout_errors", .arr (o.errors.map .str)),
    ("statistics", .obj [("layers", .ofInt o.layers), ("paths", .ofInt o.paths),
      ("regions_used", .arr (o.regions.map .str)),
      ("elements", .obj (kinds.map fun (name, n) => (name, .ofInt n))),
      ("errors", .ofInt o.errors.length)]),
    ("markup", .str o.markup)]

end

end Drawing
