import Drawing.Analysis.Quality
import Drawing.Fault
import Drawing.Schema.Shape
import Drawing.Viewport.Fit

/-!
# `Drawing/Service/Settings.lean` — settings

The settings of the service, each with a default. They are read like a record, but strictly: a setting
that does not exist is a complaint, told behind those about the ones that do. What concerns the drawing of
requests is their `Config`.
-/

namespace Drawing

/-- How requests are drawn. -/
structure Config (α : Type) where
  /-- How often a model is asked at most; at least once in any case. -/
  maxAttempts : Int
  /-- The wait behind the first failure, in milliseconds. -/
  backoff : Numeral α
  /-- How long a model may take, in seconds. -/
  timeout : Numeral α
  /-- The padding of the view box as a share of the longer side of the content. -/
  padding : Numeral α
  weights : QualityWeights α

/-- The settings of the service. -/
structure Settings (α : Type) where
  /-- The key of the model's service, empty where there is none. -/
  apiKey : String
  environment : String
  logLevel : String
  /-- Where requests may come from. -/
  origins : List String
  model : String
  maxTokens : Int
  temperature : α
  timeout : α
  maxAttempts : Int
  backoff : Int
  padding : α
  /-- How many results an analyzer remembers. -/
  cacheSize : Int
  mergeThreshold : α
  deriving Repr

namespace Settings

variable {α : Type}

/-- The settings by name, in order. -/
def names : List String := [
  "anthropic_api_key", "layoutsvg_env", "layoutsvg_log_level", "cors_origins", "model_generate",
  "model_max_tokens", "model_temperature", "generation_timeout_s", "generation_max_retries",
  "retry_backoff_ms", "autofit_padding", "layer_cache_size", "merge_similarity_threshold"]

section

variable [Scalar α]

/-- The settings where nothing is set. -/
def standard : Settings α where
  apiKey := ""
  environment := "development"
  logLevel := "debug"
  origins := ["http://localhost:3000"]
  model := "claude-sonnet-4-5-20250929"
  maxTokens := 4096
  temperature := Scalar.ofRat 0.7
  timeout := Scalar.ofRat 30
  maxAttempts := 3
  backoff := 1000
  padding := defaultPadding
  cacheSize := 256
  mergeThreshold := Scalar.ofRat 0.7

def readFields (fields : Fields α) : Checked (Settings α) :=
  let std : Settings α := standard
  Settings.mk <$> Schema.optional (.same "anthropic_api_key") std.apiKey Schema.text fields <*>
    Schema.optional (.same "layoutsvg_env") std.environment Schema.text fields <*>
    Schema.optional (.same "layoutsvg_log_level") std.logLevel Schema.text fields <*>
    Schema.optional (.same "cors_origins") std.origins (Schema.list Schema.text) fields <*>
    Schema.optional (.same "model_generate") std.model Schema.text fields <*>
    Schema.optional (.same "model_max_tokens") std.maxTokens Schema.whole fields <*>
    Schema.optional (.same "model_temperature") std.temperature Schema.number fields <*>
    Schema.optional (.same "generation_timeout_s") std.timeout Schema.number fields <*>
    Schema.optional (.same "generation_max_retries") std.maxAttempts Schema.whole fields <*>
    Schema.optional (.same "retry_backoff_ms") std.backoff Schema.whole fields <*>
    Schema.optional (.same "autofit_padding") std.padding Schema.number fields <*>
    Schema.optional (.same "layer_cache_size") std.cacheSize Schema.whole fields <*>
    Schema.optional (.same "merge_similarity_threshold") std.mergeThreshold Schema.number fields

/-- Complains about each setting that does not exist. -/
def refuseOthers (fields : Fields α) : Checked Unit :=
  match ((Table.names fields).filter fun n => !names.contains n) with
  | [] => .valid ()
  | others => .invalid (others.map fun n => ⟨[.field n], .extraField⟩)

def read (fields : Fields α) : Checked (Settings α) :=
  (fun s _ => s) <$> readFields fields <*> refuseOthers fields

/-- How requests are drawn under some settings. -/
def config (s : Settings α) : Config α where
  maxAttempts := s.maxAttempts
  backoff := .whole s.backoff
  timeout := .real s.timeout
  padding := .real s.padding
  weights := .standard

end

/-- Settings as raw data. -/
def fields (s : Settings α) : Fields α := [
  ("anthropic_api_key", .str s.apiKey),
  ("layoutsvg_env", .str s.environment),
  ("layoutsvg_log_level", .str s.logLevel),
  ("cors_origins", .arr (s.origins.map .str)),
  ("model_generate", .str s.model),
  ("model_max_tokens", .ofInt s.maxTokens),
  ("model_temperature", .ofReal s.temperature),
  ("generation_timeout_s", .ofReal s.timeout),
  ("generation_max_retries", .ofInt s.maxAttempts),
  ("retry_backoff_ms", .ofInt s.backoff),
  ("autofit_padding", .ofReal s.padding),
  ("layer_cache_size", .ofInt s.cacheSize),
  ("merge_similarity_threshold", .ofReal s.mergeThreshold)]

end Settings

namespace Config

variable {α : Type}

/-- How requests are drawn unless something else is asked for. -/
def standard [Scalar α] : Config α := (Settings.standard : Settings α).config

/-- More attempts than are ever made. -/
def endless : Int := 1000000000000

/-- How many attempts have a number below a limit. -/
def attemptsBelow [Scalar α] (limit : Numeral α) : Int :=
  match limit.toRat? with
  | some q => q.ceil
  -- Infinity sets no limit; below minus infinity and what is no number there is no attempt.
  | none => if limit.isPositive then endless else 0

/-- The configuration that some fields name; everything else is as usual. -/
def ofFields [Scalar α] (fields : Fields α) : Config α :=
  let std : Config α := standard
  { maxAttempts := ((fields.numeral? "max_retries").map attemptsBelow).getD std.maxAttempts
    backoff := (fields.numeral? "retry_backoff_ms").getD std.backoff
    timeout := (fields.numeral? "timeout_s").getD std.timeout
    padding := (fields.numeral? "autofit_padding").getD std.padding
    weights := match Table.get? fields "quality" with
      | some (.obj weights) => .ofFields weights
      | _ => std.weights }

def json (c : Config α) : Json α :=
  .obj [("max_retries", .ofInt c.maxAttempts), ("retry_backoff_ms", .num c.backoff),
    ("timeout_s", .num c.timeout), ("autofit_padding", .num c.padding), ("quality", c.weights.json)]

end Config

end Drawing
