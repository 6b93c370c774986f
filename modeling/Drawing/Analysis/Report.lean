import Drawing.Analysis.Analyzer
import Drawing.Analysis.Measures
import Drawing.Analysis.Structure

/-!
# `Drawing/Analysis/Report.lean` — analyses as raw data

What the analyses find is answered as objects whose fields are named after what they tell.
-/

namespace Drawing

variable {α : Type}

def textsJson (texts : List String) : Json α := .arr (texts.map .str)

def countsJson (counts : Table Nat) : Json α := .obj (counts.map fun (name, n) => (name, .ofInt n))

def LayerMeasures.json (m : LayerMeasures α) : Json α :=
  .obj [("layer_id", .str m.layer), ("path_count", .ofInt m.pathCount),
    ("command_count", .ofInt m.commandCount), ("bounds", m.bounds.jsonList),
    ("complexity", .str m.complexity.name), ("estimated_render_ms", .ofReal m.renderTime),
    ("estimated_memory_bytes", .num m.memory), ("regions", textsJson m.regions),
    ("anchors", textsJson m.anchors), ("coverage", .ofReal m.coverage)]

/-- The findings about some layers as raw data. -/
def LayerReport.json [Scalar α] [DecimalText α] (r : LayerReport α) : Json α :=
  .obj [("valid", .bool r.isValid), ("errors", textsJson r.errorTexts),
    ("warnings", textsJson (r.warnings.map LayerWarning.text)),
    ("suggestions", textsJson (r.suggestions.map LayerSuggestion.text)),
    ("offending_ids", textsJson r.owners)]

/-- The result of merging layers as raw data. -/
def Optimization.json (o : Optimization α) : Json α :=
  .obj [("layers", .arr (o.layers.map (Layer.json .stored))), ("removed_layers", textsJson o.removed),
    ("merged_layers", .arr (o.merged.map fun (target, own) => textsJson [target, own])),
    ("original_count", .ofInt o.givenCount), ("optimized_count", .ofInt o.layers.length),
    ("performance_gain", .ofReal o.gain)]

/-- The numbers of some layers as raw data. -/
def Census.json (c : Census α) : Json α :=
  .obj [("total_layers", .ofInt c.layers), ("total_paths", .ofInt c.paths),
    ("total_commands", .ofInt c.commands), ("average_paths_per_layer", .ofReal c.meanPaths),
    ("complexity_distribution", countsJson c.complexities),
    ("region_distribution", countsJson c.regions)]

/-- How much an analyzer remembers, and how often that was of use, as raw data. -/
def Analyzer.usageJson (a : Analyzer α) : Json α :=
  .obj [("analysis_entries", .ofInt a.measures.size), ("analysis_hits", .ofInt a.measures.hits),
    ("analysis_misses", .ofInt a.measures.misses),
    ("optimization_entries", .ofInt a.optimizations.size)]

end Drawing
