import Drawing.Document.Basic

/-!
# `Drawing/Document/Codec.lean` — documents as raw data

The reader and the writer of each part of a document. A document is stored under aliases and without
its `null` fields (`Document.text`); whether it is resolved is never stored.
-/

namespace Drawing

variable {α : Type}

/-! ## Styles -/

namespace Linecap

/-- Reads the name of a cap. -/
def read : Json α → Checked Linecap :=
  Schema.oneOf ["butt", "round", "square"] fun s => [butt, round, square].find? fun c => c.name == s

end Linecap

namespace Linejoin

/-- Reads the name of a corner. -/
def read : Json α → Checked Linejoin :=
  Schema.oneOf ["miter", "round", "bevel"] fun s => [miter, round, bevel].find? fun c => c.name == s

end Linejoin

namespace PathStyle

def readFields [Scalar α] (fields : Fields α) : Checked (PathStyle α) :=
  PathStyle.mk <$> Schema.optional (.same "fill") none (Schema.nullable Schema.text) fields <*>
    Schema.optional (.same "stroke") none (Schema.nullable Schema.text) fields <*>
    Schema.optional ⟨"strokeWidth", "stroke_width"⟩ none
      (Schema.nullable Schema.nonnegative) fields <*>
    Schema.optional ⟨"strokeLinecap", "stroke_linecap"⟩ none (Schema.nullable Linecap.read) fields <*>
    Schema.optional ⟨"strokeLinejoin", "stroke_linejoin"⟩ none (Schema.nullable Linejoin.read) fields <*>
    Schema.optional (.same "opacity") none (Schema.nullable Schema.unitNumber) fields

def read [Scalar α] : Json α → Checked (PathStyle α) := Schema.record "PathStyle" readFields

def json (sp : Schema.Spelling) (s : PathStyle α) : Json α :=
  Schema.write sp [
    (.same "fill", .ofOption (s.fill.map .str)),
    (.same "stroke", .ofOption (s.stroke.map .str)),
    (⟨"strokeWidth", "stroke_width"⟩, .ofOption (s.strokeWidth.map .ofReal)),
    (⟨"strokeLinecap", "stroke_linecap"⟩, .ofOption (s.linecap.map fun c => .str c.name)),
    (⟨"strokeLinejoin", "stroke_linejoin"⟩, .ofOption (s.linejoin.map fun c => .str c.name)),
    (.same "opacity", .ofOption (s.opacity.map .ofReal))]

end PathStyle

/-! ## Paths and layers -/

namespace ShapePath

def readFields [Scalar α] (fields : Fields α) : Checked (ShapePath α) :=
  ShapePath.mk <$> Schema.required (.same "id") Schema.filledText fields <*>
    Schema.optional (.same "style") PathStyle.plain PathStyle.read fields <*>
    Schema.optional (.same "commands") [] (Schema.list Command.read) fields <*>
    Schema.optional (.same "layout") none (Schema.nullable LayoutSpec.read) fields

def read [Scalar α] : Json α → Checked (ShapePath α) := Schema.record "ShapePath" readFields

def json (sp : Schema.Spelling) (p : ShapePath α) : Json α :=
  Schema.write sp [
    (.same "id", .str p.id),
    (.same "style", p.style.json sp),
    (.same "commands", .arr (p.commands.map (Command.json sp))),
    (.same "layout", .ofOption (p.layout.map (LayoutSpec.json sp)))]

end ShapePath

namespace Layer

def readFields [Scalar α] (fields : Fields α) : Checked (Layer α) :=
  Layer.mk <$> Schema.required (.same "id") Schema.text fields <*>
    Schema.optional (.same "label") "" Schema.text fields <*>
    Schema.optional (.same "paths") [] (Schema.list ShapePath.read) fields <*>
    Schema.optional (.same "layout") none (Schema.nullable LayoutSpec.read) fields

def read [Scalar α] : Json α → Checked (Layer α) := Schema.record "Layer" readFields

def json (sp : Schema.Spelling) (l : Layer α) : Json α :=
  Schema.write sp [
    (.same "id", .str l.id),
    (.same "label", .str l.label),
    (.same "paths", .arr (l.paths.map (ShapePath.json sp))),
    (.same "layout", .ofOption (l.layout.map (LayoutSpec.json sp)))]

end Layer

/-! ## Documents -/

namespace LayoutConfig

/-- Reads the fields of a document's layout. -/
def readFields [Scalar α] (fields : Fields α) : Checked (LayoutConfig α) :=
  LayoutConfig.mk <$> Schema.optional (.same "regions") [] (Schema.list CustomRegion.read) fields <*>
    Schema.optional ⟨"globalAnchor", "global_anchor"⟩ none (Schema.nullable Anchor.read) fields <*>
    Schema.optional ⟨"globalOffset", "global_offset"⟩ none (Schema.nullable Point.read) fields

/-- Reads a document's layout. -/
def read [Scalar α] : Json α → Checked (LayoutConfig α) := Schema.record "LayoutConfig" readFields

def json (sp : Schema.Spelling) (l : LayoutConfig α) : Json α :=
  Schema.write sp [
    (.same "regions", .arr (l.regions.map (CustomRegion.json sp))),
    (⟨"globalAnchor", "global_anchor"⟩, .ofOption (l.globalAnchor.map fun a => .str a.name)),
    (⟨"globalOffset", "global_offset"⟩, .ofOption (l.globalOffset.map Point.json))]

end LayoutConfig

namespace Document

/-- Reads the version, of which there is one. -/
def readVersion : Json α → Checked Unit :=
  Schema.oneOf [schemaVersion] fun s => if s = schemaVersion then some () else none

def readFields [Scalar α] (fields : Fields α) : Checked (Document α) :=
  -- The version is checked and forgotten, as there is only one.
  (fun _ canvas layout layers resolved => Document.mk canvas layout layers resolved) <$>
    Schema.optional (.same "version") () readVersion fields <*>
    Schema.optional (.same "canvas") (Canvas.ofAspect .square) Canvas.read fields <*>
    Schema.optional (.same "layout") none (Schema.nullable LayoutConfig.read) fields <*>
    Schema.optional (.same "layers") [] (Schema.list Layer.read) fields <*>
    Schema.optional ⟨"layoutResolved", "layout_resolved"⟩ false Schema.truth fields

def read [Scalar α] : Json α → Checked (Document α) := Schema.record "Document" readFields

def json (sp : Schema.Spelling) (d : Document α) : Json α :=
  Schema.write sp [
    -- That layouts have been carried out is not written, so what was stored is read as if they had not.
    (.same "version", .str schemaVersion),
    (.same "canvas", d.canvas.json sp),
    (.same "layout", .ofOption (d.layout.map (LayoutConfig.json sp))),
    (.same "layers", .arr (d.layers.map (Layer.json sp)))]

/-- A document as it is stored. -/
def text [DecimalText α] (d : Document α) : String := (d.json .stored).text

end Document

end Drawing
