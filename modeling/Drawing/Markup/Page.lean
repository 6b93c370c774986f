import Drawing.Layout.Stage
import Drawing.Markup.Attribute

/-!
# `Drawing/Markup/Page.lean` — documents as markup

A page is a document with its layouts carried out, one group per layer and one element per path. Layers,
and the paths within a layer, are painted in the order of their `zIndex`; one that has none counts as
zero, and equals keep their order.
-/

namespace Drawing

/-! ## Paint order -/

/-- The place of a layout in the paint order. -/
def paintIndex {α : Type} (layout : Option (LayoutSpec α)) : Int := (layout.bind LayoutSpec.zIndex).getD 0

/-- Things sorted by paint index, equals in their order. -/
def paintOrder {β : Type} (index : β → Int) (things : List β) : List β :=
  things.mergeSort fun a b => index a ≤ index b

/-- The layers of a document in paint order. -/
def Document.paintedLayers {α : Type} (d : Document α) : List (Layer α) :=
  paintOrder (fun l => paintIndex l.layout) d.layers

/-- The paths of a layer in paint order. -/
def Layer.paintedPaths {α : Type} (l : Layer α) : List (ShapePath α) :=
  paintOrder (fun p => paintIndex p.layout) l.paths

/-! ## Elements -/

section

variable {α : Type} [Scalar α] [DecimalText α]

/-- Two hyphens in a row set apart, as a comment may not hold them. -/
def parted : List Char → List Char
  -- Pairs are taken from the left, so of three hyphens the last two stay together.
  | '-' :: '-' :: rest => '-' :: ' ' :: '-' :: parted rest
  | c :: rest => c :: parted rest
  | [] => []

def commentText (s : String) : String := String.ofList (parted (escapeText s.toList))

/-- A text attribute that is left out where the text is empty. -/
def filledValue (s : String) : Json α := if s = "" then .null else .str s

/-- The value of a paint, `none` standing for no paint. -/
def paintValue (s : Option String) : String :=
  match s with
  | some "" => "none"
  | some v => v
  | none => "none"

def ShapePath.attributes (p : ShapePath α) : List (Attribute α) :=
  let placement : List (Attribute α) := match p.layout with
    | some l => [("data-region", .ofOption (l.region.map .str)),
        ("data-anchor", .ofOption (l.anchor.map fun a => .str a.name))]
    | none => []
  [("id", .str p.id),
    ("d", .str (pathData p.commands)),
    ("fill", .str (paintValue p.style.fill)),
    ("stroke", .str (paintValue p.style.stroke)),
    ("stroke-width", .ofOption (p.style.strokeWidth.map .ofReal)),
    ("stroke-linecap", .ofOption (p.style.linecap.map fun c => .str c.name)),
    ("stroke-linejoin", .ofOption (p.style.linejoin.map fun c => .str c.name)),
    ("opacity", .ofOption (p.style.opacity.map .ofReal))] ++ placement

def ShapePath.element (p : ShapePath α) : String := "    <path " ++ attributesText p.attributes ++ "/>"

def Document.layerAttributes (d : Document α) (l : Layer α) : List (Attribute α) :=
  let layout := d.layerLayout l
  [("id", .str l.id),
    ("data-label", filledValue l.label),
    ("data-region", .str layout.region),
    ("data-anchor", .str layout.anchor),
    ("data-z-index", .ofOption ((l.layout.bind LayoutSpec.zIndex).map .ofInt))]

def Document.layerLines (d : Document α) (l : Layer α) : List String :=
  ("  <!-- Layer: " ++ commentText (if l.label = "" then l.id else l.label) ++ " -->") ::
    ("  <g " ++ attributesText (d.layerAttributes l) ++ ">") ::
    l.paintedPaths.map ShapePath.element ++ ["  </g>"]

/-- The text of a canvas's view box: its own, or the whole canvas. -/
def Canvas.viewBoxText (c : Canvas α) : String :=
  match c.viewBox with
  | some v => Drawing.viewBoxText v.toList
  | none => s!"0 0 {c.width} {c.height}"

def Canvas.openTag (c : Canvas α) : Except (Fault α) String := do
  let (w, h) ← c.sides
  return Drawing.openTag (.str c.viewBoxText) w h

/-- A document as a page. -/
def Document.markup [Trig α] (d : Document α) : Except (Fault α) String := do
  let resolved ← d.resolve
  let opening ← d.canvas.openTag
  let lines := opening :: resolved.paintedLayers.flatMap resolved.layerLines ++ ["</svg>"]
  return "\n".intercalate lines

end

end Drawing
