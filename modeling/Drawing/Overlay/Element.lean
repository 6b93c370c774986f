import Drawing.Json.Key
import Drawing.Markup.Attribute
import Drawing.Number.Text

/-!
# `Drawing/Overlay/Element.lean` — the parts of an overlay

An overlay is drawn over a page to show what its layouts did. Its elements mark regions, anchors, offsets
and bounds, and tell errors and times; each kind can be left out, and each has a colour in a scheme.
-/

namespace Drawing

/-- What an element of an overlay shows. -/
inductive MarkKind where
  | region
  | anchor
  | offset
  | bounds
  | error
  | performance
  deriving Repr, DecidableEq, BEq

def MarkKind.name : MarkKind → String
  | region => "region"
  | anchor => "anchor"
  | offset => "offset"
  | bounds => "bounds"
  | error => "error"
  | performance => "performance"

/-- An element of an overlay: a tag with attributes, a label, and text if it is a text. -/
structure Mark (α : Type) where
  kind : MarkKind
  tag : String
  attributes : List (Attribute α)
  label : String
  text : String
  deriving Repr

/-- The colours of an overlay. -/
structure ColourScheme where
  region : String
  anchor : String
  offset : String
  bounds : String
  error : String
  text : String
  deriving Repr, DecidableEq

namespace ColourScheme

def light : ColourScheme := ⟨"#3B82F6", "#EF4444", "#F59E0B", "#10B981", "#DC2626", "#111827"⟩

def dark : ColourScheme := ⟨"#60A5FA", "#F87171", "#FBBF24", "#34D399", "#F87171", "#F9FAFB"⟩

/-- In colours that are far apart. -/
def highContrast : ColourScheme := ⟨"#0000FF", "#FF0000", "#FF8C00", "#008000", "#FF0000", "#000000"⟩

/-- The schemes by name. -/
def named : Table ColourScheme := [("light", light), ("dark", dark), ("high_contrast", highContrast)]

/-- The scheme that raw data names, or the fault that there is none. -/
def ofName {α : Type} [DecimalText α] (name : Json α) : Except (Fault α) ColourScheme := do
  match ← lookUp name (named.find? fun (n, _) => isText n name) with
  | some (_, s) => return s
  | none => .error (.unknownScheme name.shown)

end ColourScheme

/-- What an overlay shows, and how. -/
structure OverlayOptions (α : Type) where
  regions : Bool
  anchors : Bool
  offsets : Bool
  bounds : Bool
  errors : Bool
  performance : Bool
  /-- The name of a colour scheme. -/
  scheme : Json α
  opacity : Numeral α
  deriving Repr

/-- Everything but times is shown, in light colours. -/
def OverlayOptions.standard {α : Type} [Scalar α] : OverlayOptions α where
  regions := true
  anchors := true
  offsets := true
  bounds := true
  errors := true
  performance := false
  scheme := .str "light"
  opacity := .real (Scalar.ofRat 0.6)

/-- The options that some fields name; all others are the usual ones. -/
def OverlayOptions.ofFields {α : Type} [Scalar α] (fields : Fields α) : OverlayOptions α :=
  let std : OverlayOptions α := .standard
  let flag (name : String) (fallback : Bool) : Bool := ((Table.get? fields name).map Json.isTruthy).getD fallback
  { regions := flag "show_regions" std.regions
    anchors := flag "show_anchors" std.anchors
    offsets := flag "show_offsets" std.offsets
    bounds := flag "show_bounds" std.bounds
    errors := flag "show_errors" std.errors
    performance := flag "show_performance" std.performance
    scheme := (Table.get? fields "color_scheme").getD std.scheme
    opacity := (fields.numeral? "opacity").getD std.opacity }

/-! ## Elements -/

namespace Mark

variable {α : Type} [Scalar α]

def number (name : String) (x : α) : Attribute α := (name, .ofReal x)

def word (name text : String) : Attribute α := (name, .str text)

def boxAttributes (b : Box α) : List (Attribute α) :=
  [number "x" b.x, number "y" b.y, number "width" b.width, number "height" b.height]

/-- A dashed box around a region. -/
def regionBox (colours : ColourScheme) (name : String) (b : Box α) : Mark α :=
  ⟨.region, "rect", boxAttributes b ++
    [word "fill" "none", word "stroke" colours.region, word "stroke-dasharray" "6 4"], name, ""⟩

def anchorDot (colours : ColourScheme) (label : String) (p : Point α) : Mark α :=
  ⟨.anchor, "circle", [number "cx" p.x, number "cy" p.y, number "r" (Scalar.ofRat 3),
    word "fill" colours.anchor], label, ""⟩

/-- A line from an anchor to where an offset leads. -/
def offsetLine (colours : ColourScheme) (label : String) (p q : Point α) : Mark α :=
  ⟨.offset, "line", [number "x1" p.x, number "y1" p.y, number "x2" q.x, number "y2" q.y,
    word "stroke" colours.offset, number "stroke-width" (Scalar.ofRat 1.5)], label, ""⟩

def layerBox (colours : ColourScheme) (layer : String) (b : Box α) : Mark α :=
  ⟨.bounds, "rect", boxAttributes b ++
    [word "fill" "none", word "stroke" colours.bounds, number "stroke-width" Scalar.one], layer, ""⟩

/-- The height of a line of text, counted from zero. -/
def lineHeight (index : Nat) : α := Scalar.ofRat 16 + Scalar.ofNat (14 * index)

def line (kind : MarkKind) (colour : String) (x : α) (index : Nat) (text : String) : Mark α :=
  ⟨kind, "text", [number "x" x, number "y" (lineHeight index), word "fill" colour,
    number "font-size" (Scalar.ofRat 11)], "", text⟩

/-- Lines of text, the first of which has a given index. -/
def lines (kind : MarkKind) (colour : String) (x : α) (index : Nat) : List String → List (Mark α)
  | [] => []
  | text :: rest => line kind colour x index text :: lines kind colour x (index + 1) rest

def markup [DecimalText α] (m : Mark α) : String :=
  let attributes := attributesText (if m.label = "" then m.attributes
    else Table.put "data-label" (.str m.label) m.attributes)
  if m.tag = "text" then
    "    <text " ++ attributes ++ ">" ++ String.ofList (escapeValue m.text.toList) ++ "</text>"
  else "    <" ++ m.tag ++ " " ++ attributes ++ "/>"

def json (m : Mark α) : Json α :=
  .obj [("kind", .str m.kind.name), ("tag", .str m.tag), ("attrs", .obj m.attributes),
    ("label", .str m.label), ("text", .str m.text)]

end Mark

end Drawing
