import Drawing.Analysis.Measures
import Drawing.Layout.Effective

/-!
# `Drawing/Result/Layer.lean` — what a result tells about a layer

A short account of each layer goes with every result: what it is called, where it lies, and how much it
holds.
-/

namespace Drawing

/-- An account of a layer. -/
structure LayerSummary (α : Type) where
  id : String
  label : String
  region : String
  anchor : String
  pathCount : Int
  commandCount : Int
  complexity : Complexity
  bounds : Box α
  deriving Repr, BEq

namespace LayerSummary

variable {α : Type}

/-- Reads a box of four numbers of any kind. -/
def readBounds [Scalar α] (v : Json α) : Checked (Box α) :=
  (Schema.quadruple Schema.number v).map fun (x, y, w, h) => ⟨x, y, w, h⟩

def readFields [Scalar α] (fields : Fields α) : Checked (LayerSummary α) :=
  LayerSummary.mk <$> Schema.required (.same "id") Schema.text fields <*>
    Schema.required (.same "label") Schema.text fields <*>
    Schema.required (.same "region") Schema.text fields <*>
    Schema.required (.same "anchor") Schema.text fields <*>
    Schema.optional ⟨"pathCount", "path_count"⟩ 0 Schema.whole fields <*>
    Schema.optional ⟨"commandCount", "command_count"⟩ 0 Schema.whole fields <*>
    Schema.optional (.same "complexity") Complexity.low
      (Schema.oneOf (Complexity.all.map Complexity.name) Complexity.ofName?) fields <*>
    Schema.optional (.same "bounds") ⟨Scalar.zero, Scalar.zero, Scalar.zero, Scalar.zero⟩ readBounds
      fields

def read [Scalar α] : Json α → Checked (LayerSummary α) := Schema.record "LayerMetadata" readFields

def json (sp : Schema.Spelling) (s : LayerSummary α) : Json α :=
  Schema.write sp [
    (.same "id", .str s.id),
    (.same "label", .str s.label),
    (.same "region", .str s.region),
    (.same "anchor", .str s.anchor),
    (⟨"pathCount", "path_count"⟩, .ofInt s.pathCount),
    (⟨"commandCount", "command_count"⟩, .ofInt s.commandCount),
    (.same "complexity", .str s.complexity.name),
    (.same "bounds", s.bounds.jsonList)]

/-- The account of a measured layer of a document. -/
def ofMeasures [Scalar α] (d : Document α) (l : Layer α) (m : LayerMeasures α) : LayerSummary α :=
  let layout := d.layerLayout l
  { id := l.id
    label := if l.label = "" then l.id else l.label
    region := layout.region
    anchor := layout.anchor
    pathCount := m.pathCount
    commandCount := m.commandCount
    complexity := m.complexity
    bounds := m.bounds }

end LayerSummary

end Drawing
