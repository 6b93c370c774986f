import Drawing.Result.Layer

/-!
# `Drawing/Result/Basic.lean` — results

A result is markup together with an account of how it came about: which way of drawing made it and why,
what is in it, how well it is laid out, and what went wrong on the way.
-/

namespace Drawing

/-- The ways of drawing, from the most to the least able. -/
inductive Method where
  | unified
  | ruleBased
  | basic
  deriving Repr, DecidableEq, BEq

namespace Method

def all : List Method := [unified, ruleBased, basic]

def name : Method → String
  | unified => "unified"
  | ruleBased => "rule-based-fallback"
  | basic => "basic-geometric"

def ofName? (s : String) : Option Method := all.find? fun m => m.name == s

end Method

/-- Times in milliseconds. -/
structure Timing (α : Type) where
  total : α
  /-- Time spent waiting for the model. -/
  model : α
  processing : α
  deriving Repr

/-- How a drawing came about. -/
structure Metadata (α : Type) where
  method : Method
  fallbackUsed : Bool
  fallbackReason : Option String
  layers : List (LayerSummary α)
  quality : Int
  /-- Whether coordinates were changed on the way. -/
  repaired : Bool
  regions : List String
  anchors : List String
  canvas : Int × Int
  attempts : Int
  timing : Timing α
  deriving Repr

/-- A drawing and how it came about. -/
structure Generation (α : Type) where
  success : Bool
  markup : String
  metadata : Metadata α
  errors : List String
  warnings : List String
  debug : Option (Fields α)
  deriving Repr

variable {α : Type}

namespace Timing

/-- No time at all. -/
def none [Scalar α] : Timing α := ⟨Scalar.zero, Scalar.zero, Scalar.zero⟩

def read [Scalar α] : Json α → Checked (Timing α) :=
  Schema.record "PerformanceInfo" fun fields =>
    Timing.mk <$>
      Schema.optional ⟨"generationTimeMs", "generation_time_ms"⟩ Scalar.zero Schema.number fields <*>
      Schema.optional ⟨"externalCallTimeMs", "external_call_time_ms"⟩ Scalar.zero Schema.number fields <*>
      Schema.optional ⟨"processingTimeMs", "processing_time_ms"⟩ Scalar.zero Schema.number fields

def json (sp : Schema.Spelling) (t : Timing α) : Json α :=
  Schema.write sp [
    (⟨"generationTimeMs", "generation_time_ms"⟩, .ofReal t.total),
    (⟨"externalCallTimeMs", "external_call_time_ms"⟩, .ofReal t.model),
    (⟨"processingTimeMs", "processing_time_ms"⟩, .ofReal t.processing)]

end Timing

namespace Metadata

def readFields [Scalar α] (fields : Fields α) : Checked (Metadata α) :=
  Metadata.mk <$>
    Schema.required (.same "method") (Schema.oneOf (Method.all.map Method.name) Method.ofName?) fields <*>
    Schema.optional ⟨"fallbackUsed", "fallback_used"⟩ false Schema.truth fields <*>
    Schema.optional ⟨"fallbackReason", "fallback_reason"⟩ none (Schema.nullable Schema.text) fields <*>
    Schema.optional (.same "layers") [] (Schema.list LayerSummary.read) fields <*>
    Schema.optional ⟨"layoutQuality", "layout_quality"⟩ 0 Schema.whole fields <*>
    Schema.optional ⟨"coordinatesRepaired", "coordinates_repaired"⟩ false Schema.truth fields <*>
    Schema.optional ⟨"regionsUsed", "regions_used"⟩ [] (Schema.list Schema.text) fields <*>
    Schema.optional ⟨"anchorsUsed", "anchors_used"⟩ [] (Schema.list Schema.text) fields <*>
    Schema.optional (.same "canvas") (512, 512) (Schema.pair Schema.whole) fields <*>
    Schema.optional (.same "attempts") 0 Schema.whole fields <*>
    Schema.optional (.same "performance") Timing.none Timing.read fields

def read [Scalar α] : Json α → Checked (Metadata α) := Schema.record "GenerationMetadata" readFields

/-- The fields of an account up to its times. -/
def untimedFields (sp : Schema.Spelling) (m : Metadata α) : List (Schema.Key × Json α) := [
  (.same "method", .str m.method.name),
  (⟨"fallbackUsed", "fallback_used"⟩, .bool m.fallbackUsed),
  (⟨"fallbackReason", "fallback_reason"⟩, .ofOption (m.fallbackReason.map .str)),
  (.same "layers", .arr (m.layers.map (LayerSummary.json sp))),
  (⟨"layoutQuality", "layout_quality"⟩, .ofInt m.quality),
  (⟨"coordinatesRepaired", "coordinates_repaired"⟩, .bool m.repaired),
  (⟨"regionsUsed", "regions_used"⟩, .arr (m.regions.map .str)),
  (⟨"anchorsUsed", "anchors_used"⟩, .arr (m.anchors.map .str)),
  (.same "canvas", .arr [.ofInt m.canvas.1, .ofInt m.canvas.2]),
  (.same "attempts", .ofInt m.attempts)]

def json (sp : Schema.Spelling) (m : Metadata α) : Json α :=
  Schema.write sp (m.untimedFields sp ++ [(.same "performance", m.timing.json sp)])

end Metadata

namespace Generation

def readFields [Scalar α] (fields : Fields α) : Checked (Generation α) :=
  Generation.mk <$> Schema.optional (.same "success") true Schema.truth fields <*>
    Schema.required (.same "markup") Schema.text fields <*>
    Schema.required (.same "metadata") Metadata.read fields <*>
    Schema.optional (.same "errors") [] (Schema.list Schema.text) fields <*>
    Schema.optional (.same "warnings") [] (Schema.list Schema.text) fields <*>
    Schema.optional (.same "debug") none (Schema.nullable Schema.object) fields

def read [Scalar α] : Json α → Checked (Generation α) := Schema.record "GenerationResult" readFields

/-- A result as raw data, its account given. -/
def jsonWith (sp : Schema.Spelling) (metadata : Json α) (g : Generation α) : Json α :=
  Schema.write sp [
    (.same "success", .bool g.success),
    (.same "markup", .str g.markup),
    (.same "metadata", metadata),
    (.same "errors", .arr (g.errors.map .str)),
    (.same "warnings", .arr (g.warnings.map .str)),
    (.same "debug", .ofOption (g.debug.map .obj))]

def json (sp : Schema.Spelling) (g : Generation α) : Json α := g.jsonWith sp (g.metadata.json sp)

end Generation

end Drawing
