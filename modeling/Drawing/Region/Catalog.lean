import Drawing.Canvas.Basic
import Drawing.Canvas.Box
import Drawing.Region.Anchor

/-!
# `Drawing/Region/Catalog.lean` — the regions of a document

A catalog knows the reserved regions and the custom ones of a document. Registration is the only way
in, and it refuses reserved names and boxes that leave the unit square; a name that is registered again
takes its new box and keeps its place.
-/

namespace Drawing

/-! ## Reserved regions

Nine cells that divide the canvas into thirds, and the canvas as a whole. The cells are 0.33, 0.34 and
0.33 wide and high, so that neighbours share an edge and the last ones end at the canvas.
-/

/-- The box of four rationals. -/
def Box.ofRats {α : Type} [Scalar α] (x y w h : Rat) : Box α :=
  ⟨Scalar.ofRat x, Scalar.ofRat y, Scalar.ofRat w, Scalar.ofRat h⟩

/-- The name of the region that is the whole canvas. -/
def wholeCanvas : String := "full_canvas"

/-- The reserved regions as fractions of the canvas. -/
def reservedRegions {α : Type} [Scalar α] : Table (Box α) := [
  ("top_left", .ofRats 0 0 0.33 0.33),
  ("top_center", .ofRats 0.33 0 0.34 0.33),
  ("top_right", .ofRats 0.67 0 0.33 0.33),
  ("middle_left", .ofRats 0 0.33 0.33 0.34),
  ("center", .ofRats 0.33 0.33 0.34 0.34),
  ("middle_right", .ofRats 0.67 0.33 0.33 0.34),
  ("bottom_left", .ofRats 0 0.67 0.33 0.33),
  ("bottom_center", .ofRats 0.33 0.67 0.34 0.33),
  ("bottom_right", .ofRats 0.67 0.67 0.33 0.33),
  (wholeCanvas, .ofRats 0 0 1 1)]

/-- The names of the reserved regions, in order. -/
def reservedNames : List String := [
  "top_left", "top_center", "top_right", "middle_left", "center", "middle_right", "bottom_left",
  "bottom_center", "bottom_right", wholeCanvas]

def isReserved (name : String) : Bool := reservedNames.contains name

/-- The names in the table are the reserved names. -/
theorem names_reservedRegions {α : Type} [Scalar α] :
    Table.names (reservedRegions (α := α)) = reservedNames := rfl

/-! ## Catalogs -/

/-- A custom region: a name for a part of the canvas. -/
structure CustomRegion (α : Type) where
  name : String
  bounds : Box α
  deriving Repr, BEq, DecidableEq

/-- The custom regions of a document, each with its box as fractions of the canvas. -/
structure Catalog (α : Type) where
  custom : Table (Box α)
  deriving Repr

/-- Why a custom region is refused. -/
inductive RegionDefect where
  | reservedName
  | originOutside
  | sizeOutside
  | pastCanvas
  deriving Repr, DecidableEq

def RegionDefect.text : RegionDefect → String
  | reservedName => "name is reserved"
  | originOutside => "origin must lie within [0, 1]"
  | sizeOutside => "width and height must lie within (0, 1]"
  | pastCanvas => "box extends past the canvas"

namespace Catalog

variable {α : Type}

/-- The catalog without custom regions. -/
def empty : Catalog α := ⟨[]⟩

section

variable [Scalar α]

/-- The edge that a box may reach, a billionth past one, so that rounded thirds still fit. -/
def edgeLimit : α := Scalar.one + Scalar.ofRat 1e-9

/-- What is wrong with the box of a custom region. -/
def boxDefect? (b : Box α) : Option RegionDefect :=
  let inUnit (v : α) : Bool := Scalar.zero ≤ v && v ≤ Scalar.one
  let isSide (v : α) : Bool := Scalar.zero < v && v ≤ Scalar.one
  if !(inUnit b.x && inUnit b.y) then some .originOutside
  else if !(isSide b.width && isSide b.height) then some .sizeOutside
  else if edgeLimit < b.right || edgeLimit < b.bottom then some .pastCanvas
  else none

/-- What is wrong with a custom region. -/
def defect? (name : String) (b : Box α) : Option RegionDefect :=
  if isReserved name then some .reservedName else boxDefect? b

/-- Registers a custom region. -/
def register (c : Catalog α) (name : String) (b : Box α) : Except (Fault α) (Catalog α) :=
  match defect? name b with
  | some d => .error (.invalidRegion name d.text)
  | none => .ok ⟨Table.put name b c.custom⟩

/-- Registers custom regions in order, up to the first that is refused. -/
def registerAll (c : Catalog α) : List (CustomRegion α) → Except (Fault α) (Catalog α)
  | [] => .ok c
  | r :: rest => do registerAll (← c.register r.name r.bounds) rest

/-- Whether a name is reserved or registered. -/
def isValid (c : Catalog α) (name : String) : Bool := isReserved name || Table.has c.custom name

/-- The box of a region as fractions of the canvas. -/
def bounds (c : Catalog α) (name : String) : Except (Fault α) (Box α) :=
  match Table.get? c.custom name with
  | some b => .ok b
  | none => match Table.get? reservedRegions name with
    | some b => .ok b
    | none => .error (.unknownRegion name)

/-- The box of a region in pixels of a canvas. -/
def pixelBounds (c : Catalog α) (canvas : Canvas α) (name : String) : Except (Fault α) (Box α) := do
  let b ← c.bounds name
  let (w, h) ← canvas.sides
  return b.scale w h

/-- The middle of a region in pixels of a canvas. -/
def center (c : Catalog α) (canvas : Canvas α) (name : String) : Except (Fault α) (Point α) := do
  return (← c.pixelBounds canvas name).center

/-- All regions: the reserved ones, then the custom ones in the order of registration. -/
def all (c : Catalog α) : Table (Box α) :=
  c.custom.foldl (fun t (name, b) => Table.put name b t) reservedRegions

/-- The names of the custom regions, in the order of registration. -/
def customNames (c : Catalog α) : List String := Table.names c.custom

/-- The first of some regions whose box contains a point. -/
def firstContaining (c : Catalog α) (canvas : Canvas α) (p : Point α) :
    List String → Except (Fault α) (Option String)
  | [] => .ok none
  | name :: rest => do
    let b ← c.pixelBounds canvas name
    if b.contains p then return some name else firstContaining c canvas p rest

/-- The most specific region at a place: a custom one before a cell of the grid, a cell before the whole canvas.
Boxes have scalar edges, so it is the nearest point that they contain; the canvas is compared with the place
itself. -/
def findAt (c : Catalog α) (canvas : Canvas α) (x y : Numeral α) : Except (Fault α) (Option String) := do
  let cells := reservedNames.filter (· != wholeCanvas)
  match ← c.firstContaining canvas ⟨x.value, y.value⟩ (c.customNames ++ cells) with
  | some name => return some name
  | none =>
    return if canvas.covers x y then some wholeCanvas else none

/-- The area two regions share, as a part of the area they cover together. -/
def overlap (c : Catalog α) (first second : String) : Except (Fault α) α := do
  let a ← c.bounds first
  let b ← c.bounds second
  let shared := a.sharedArea b
  let covered := a.edgeArea + b.edgeArea - shared
  return if covered ≤ Scalar.zero then Scalar.zero else shared / covered

end

end Catalog

namespace CustomRegion

variable {α : Type}

def readFields [Scalar α] (fields : Fields α) : Checked (CustomRegion α) :=
  CustomRegion.mk <$> Schema.required (.same "name") Schema.filledText fields <*>
    Schema.required (.same "bounds") Box.read fields

def read [Scalar α] : Json α → Checked (CustomRegion α) := Schema.record "CustomRegion" readFields

def json (sp : Schema.Spelling) (r : CustomRegion α) : Json α :=
  Schema.write sp [(.same "name", .str r.name), (.same "bounds", r.bounds.json sp)]

end CustomRegion

end Drawing
