import Drawing.Document.Basic

/-!
# `Drawing/Layout/Effective.lean` — the layout that is in force

A path inherits what its own layout leaves open: first from its layer, then, for anchor and offset only,
from the document, and last from the identity layout, which is the centre of the central region with
nothing else. A path whose layout in force is the identity keeps its coordinates; so does one for which
neither path nor layer has a layout at all, whatever the document says (`isMoved`).
-/

namespace Drawing

/-- A layout with nothing left open. The names are looked up when the layout is carried out. -/
structure EffectiveLayout (α : Type) where
  region : String
  anchor : String
  offset : Point α
  size : Option (SizeSpec α)
  repetition : Option (Repetition α)
  deriving Repr, BEq, DecidableEq

/-- The name of the region and of the anchor that stand for no movement. -/
def centerName : String := "center"

section

variable {α : Type} [Scalar α]

/-- Whether a layout leaves coordinates as they are. -/
def EffectiveLayout.isIdentity (l : EffectiveLayout α) : Bool :=
  l.region == centerName && l.anchor == centerName &&
    (l.offset.x == Scalar.zero && l.offset.y == Scalar.zero) && l.size.isNone && l.repetition.isNone

def EffectiveLayout.json (l : EffectiveLayout α) : Json α :=
  .obj [("region", .str l.region), ("anchor", .str l.anchor), ("offset", l.offset.json),
    ("size", .ofOption (l.size.map (SizeSpec.json .stored))),
    ("repeat", .ofOption (l.repetition.map (Repetition.json .stored))),
    ("is_identity", .bool l.isIdentity)]

/-- The layouts that a path takes its parts from, the most specific one first. -/
def ownLayouts (layer : Option (Layer α)) (path : Option (ShapePath α)) : List (LayoutSpec α) :=
  (path.bind ShapePath.layout).toList ++ (layer.bind Layer.layout).toList

/-- The layout in force for a path, a layer, or a document as a whole. An empty region name counts as
the centre, but it is a name, so it hides that of the layer. -/
def mergeLayouts (document : Option (Document α)) (layer : Option (Layer α))
    (path : Option (ShapePath α)) : EffectiveLayout α :=
  let specs := ownLayouts layer path
  let config := document.bind Document.layout
  let region := (specs.findSome? LayoutSpec.region).getD centerName
  -- Only anchor and offset have defaults for the whole document.
  let anchor := (specs.findSome? LayoutSpec.anchor).or (config.bind LayoutConfig.globalAnchor)
  let offset := (specs.findSome? LayoutSpec.offset).or (config.bind LayoutConfig.globalOffset)
  { region := if region = "" then centerName else region
    anchor := (anchor.map Anchor.name).getD centerName
    offset := offset.getD ⟨Scalar.zero, Scalar.zero⟩
    size := specs.findSome? LayoutSpec.size
    repetition := specs.findSome? LayoutSpec.repetition }

/-- The layout in force for a path of a layer of a document. -/
def Document.layoutOf (d : Document α) (layer : Layer α) (path : ShapePath α) : EffectiveLayout α :=
  mergeLayouts (some d) (some layer) (some path)

/-- The layout in force for a layer as such. -/
def Document.layerLayout (d : Document α) (layer : Layer α) : EffectiveLayout α :=
  mergeLayouts (some d) (some layer) none

/-- Whether a path holds local coordinates that a layout will move. -/
def Document.isMoved (d : Document α) (layer : Layer α) (path : ShapePath α) : Bool :=
  -- The defaults of the document complete a layout; on their own they move nothing.
  (path.layout.isSome || layer.layout.isSome) && !(d.layoutOf layer path).isIdentity

end

end Drawing
