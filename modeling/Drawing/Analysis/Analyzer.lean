import Drawing.Analysis.Cache
import Drawing.Analysis.Merge
import Drawing.Result.Layer

/-!
# `Drawing/Analysis/Analyzer.lean` — an analyzer that remembers

An analyzer keeps the measures of layers and the results of merging in two caches. Their keys are made of
layer signatures, so what is remembered is what would be computed, as long as the digest tells the
contents of layers apart. Each question is answered together with the analyzer that has remembered it; one
that has no answer is remembered as a question.
-/

namespace Drawing

/-- An analyzer: how alike layers have to be to be merged, and what it remembers. -/
structure Analyzer (α : Type) where
  /-- The regions that layers may name. -/
  catalog : Catalog α
  threshold : α
  measures : Cache (LayerMeasures α)
  optimizations : Cache (Optimization α)
  /-- How the contents of layers are told apart. -/
  digest : String → String

namespace Analyzer

variable {α : Type}

/-- The share of common styles from which layers are merged, unless another is asked for. -/
def defaultThreshold [Scalar α] : α := Scalar.ofRat 0.7

/-- The number of results remembered, unless another is asked for. -/
def defaultCapacity : Nat := 256

/-- An analyzer that remembers nothing yet, or the fault that it could not remember anything. -/
def create [Scalar α] (catalog : Catalog α) (capacity : Numeral α) (threshold : α) :
    Except (Fault α) (Analyzer α) := do
  return ⟨catalog, threshold, ← Cache.create capacity, ← Cache.create capacity, shortDigest⟩

/-- An analyzer of the usual capacity. -/
def standard [Scalar α] : Analyzer α :=
  ⟨Catalog.empty, defaultThreshold, .ofCapacity 256 (by decide), .ofCapacity 256 (by decide),
    shortDigest⟩

/-- An analyzer that has forgotten everything. -/
def clear (a : Analyzer α) : Analyzer α :=
  { a with measures := a.measures.clear, optimizations := a.optimizations.clear }

section

variable [Scalar α] [DecimalText α]

/-- The signature of a layer. -/
def signature (a : Analyzer α) (l : Layer α) : String := l.signature a.digest

/-- The key of a layer's measures on a canvas. -/
def measureKey (a : Analyzer α) (l : Layer α) (width height : Numeral α) : String :=
  a.signature l ++ ":" ++ width.text ++ "x" ++ height.text

/-- The measures of a layer on a canvas. -/
def measure (a : Analyzer α) (l : Layer α) (width height : Numeral α) :
    Except (Fault α) (LayerMeasures α) × Analyzer α :=
  let key := a.measureKey l width height
  match a.measures.get key with
  | (some m, measures) => (.ok m, { a with measures })
  | (none, measures) =>
    match l.measure width height with
    | .ok m => (.ok m, { a with measures := measures.put key m })
    -- A failure is not remembered, but the question counts as missed.
    | .error fault => (.error fault, { a with measures })

/-- The key of the result of merging layers. -/
def optimizationKey (a : Analyzer α) (layers : List (Layer α)) : String :=
  "opt:" ++ "|".intercalate (layers.map a.signature)

def optimize (a : Analyzer α) (layers : List (Layer α)) : Optimization α × Analyzer α :=
  let key := a.optimizationKey layers
  match a.optimizations.get key with
  | (some o, optimizations) => (o, { a with optimizations })
  | (none, optimizations) =>
    let o := optimizeLayers a.threshold layers
    (o, { a with optimizations := optimizations.put key o })

/-- The accounts of some layers of a document. -/
def summarizeLayers (a : Analyzer α) (d : Document α) :
    List (Layer α) → Except (Fault α) (List (LayerSummary α)) × Analyzer α
  | [] => (.ok [], a)
  | l :: rest =>
    match a.measure l (.whole d.canvas.width) (.whole d.canvas.height) with
    | (.error fault, a) => (.error fault, a)
    | (.ok m, a) =>
      let (summaries, a) := summarizeLayers a d rest
      (summaries.map (LayerSummary.ofMeasures d l m :: ·), a)

/-- The accounts of all layers of a document. -/
def summarize (a : Analyzer α) (d : Document α) :
    Except (Fault α) (List (LayerSummary α)) × Analyzer α :=
  a.summarizeLayers d d.layers

end

end Analyzer

end Drawing
