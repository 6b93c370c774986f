import Drawing.Canvas.Aspect
import Drawing.Request.Grounding

/-!
# `Drawing/Request/Basic.lean` — requests

A request says what to draw, in words, and how: the aspect ratio, a palette, a seed, what the drawing is
grounded in, and which of the ways of drawing may be used. A sized request is what is left of it for the
way that needs no model: words, size, palette and seed.
-/

namespace Drawing

/-- What may be used for a request. -/
structure FeatureFlags where
  /-- Whether a model may be asked. -/
  unified : Bool
  debugMode : Bool
  deriving Repr, DecidableEq

/-- A request for a drawing. -/
structure DrawingRequest (α : Type) where
  prompt : String
  aspect : Aspect
  /-- The way of drawing that is asked for. -/
  model : String
  palette : List String
  seed : Option Int
  context : String
  grounding : List (GroundingItem α)
  features : FeatureFlags
  testGroup : Option String
  debug : Bool
  deriving Repr

/-- A request with the size of its canvas. -/
structure SizedRequest where
  prompt : String
  width : Int
  height : Int
  palette : List String
  seed : Option Int
  deriving Repr, DecidableEq

namespace FeatureFlags

variable {α : Type}

/-- A model may be asked, and nothing is debugged. -/
def standard : FeatureFlags := ⟨true, false⟩

def read [Scalar α] : Json α → Checked FeatureFlags :=
  Schema.record "FeatureFlags" fun fields =>
    FeatureFlags.mk <$>
      Schema.optional ⟨"unifiedGeneration", "unified_generation"⟩ true Schema.truth fields <*>
      Schema.optional ⟨"debugMode", "debug_mode"⟩ false Schema.truth fields

def json (sp : Schema.Spelling) (f : FeatureFlags) : Json α :=
  Schema.write sp [
    (⟨"unifiedGeneration", "unified_generation"⟩, .bool f.unified),
    (⟨"debugMode", "debug_mode"⟩, .bool f.debugMode)]

end FeatureFlags

namespace DrawingRequest

variable {α : Type}

def readFields [Scalar α] [DecimalText α] (fields : Fields α) : Checked (DrawingRequest α) :=
  DrawingRequest.mk <$> Schema.required (.same "prompt") Schema.filledText fields <*>
    Schema.optional ⟨"aspectRatio", "aspect_ratio"⟩ Aspect.square Aspect.read fields <*>
    Schema.optional (.same "model") "unified" Schema.text fields <*>
    Schema.optional (.same "palette") [] (Schema.list Schema.text) fields <*>
    Schema.optional (.same "seed") none (Schema.nullable Schema.whole) fields <*>
    Schema.optional (.same "context") "" Schema.text fields <*>
    Schema.optional (.same "grounding") [] (Schema.list GroundingItem.read) fields <*>
    Schema.optional (.same "features") .standard FeatureFlags.read fields <*>
    Schema.optional ⟨"abTestGroup", "ab_test_group"⟩ none (Schema.nullable Schema.text) fields <*>
    Schema.optional (.same "debug") false Schema.truth fields

def read [Scalar α] [DecimalText α] : Json α → Checked (DrawingRequest α) :=
  Schema.record "GenerationRequest" readFields

def json (sp : Schema.Spelling) (r : DrawingRequest α) : Json α :=
  Schema.write sp [
    (.same "prompt", .str r.prompt),
    (⟨"aspectRatio", "aspect_ratio"⟩, .str r.aspect.tag),
    (.same "model", .str r.model),
    (.same "palette", .arr (r.palette.map .str)),
    (.same "seed", .ofOption (r.seed.map .ofInt)),
    (.same "context", .str r.context),
    (.same "grounding", .arr (r.grounding.map (GroundingItem.json sp))),
    (.same "features", r.features.json sp),
    (⟨"abTestGroup", "ab_test_group"⟩, .ofOption (r.testGroup.map .str)),
    (.same "debug", .bool r.debug)]

end DrawingRequest

namespace SizedRequest

variable {α : Type}

def read [Scalar α] : Json α → Checked SizedRequest :=
  Schema.record "SizedRequest" fun fields =>
    SizedRequest.mk <$> Schema.required (.same "prompt") Schema.text fields <*>
      Schema.optional (.same "width") 512 Schema.whole fields <*>
      Schema.optional (.same "height") 512 Schema.whole fields <*>
      Schema.optional (.same "palette") [] (Schema.list Schema.text) fields <*>
      Schema.optional (.same "seed") none (Schema.nullable Schema.whole) fields

def json (sp : Schema.Spelling) (r : SizedRequest) : Json α :=
  Schema.write sp [
    (.same "prompt", .str r.prompt), (.same "width", .ofInt r.width), (.same "height", .ofInt r.height),
    (.same "palette", .arr (r.palette.map .str)), (.same "seed", .ofOption (r.seed.map .ofInt))]

end SizedRequest

end Drawing
