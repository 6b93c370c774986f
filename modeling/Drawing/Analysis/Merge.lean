import Drawing.Analysis.Measures

/-!
# `Drawing/Analysis/Merge.lean` — merging layers

Empty layers are dropped, and a layer is merged into the first kept one that it is like: one of the same
region, of about as many paths, with enough paths in the same style. The paths of a merged layer follow
those of its target.
-/

namespace Drawing

/-- The result of merging layers. -/
structure Optimization (α : Type) where
  layers : List (Layer α)
  /-- The ids of the layers that had no paths. -/
  removed : List String
  /-- For each merged layer the id of its target and its own. -/
  merged : List (String × String)
  givenCount : Nat
  /-- By how many percent there are fewer layers. -/
  gain : α
  deriving Repr

section

variable {α : Type} [DecimalText α]

/-- A style as text, the same for equal styles only. -/
def PathStyle.key (s : PathStyle α) : String := (s.json .bare).text

/-- How many paths of the first layer are in a style that the second one has too. -/
def commonStyles (first second : Layer α) : Nat :=
  let keys := second.paths.map fun p => p.style.key
  -- Only the paths of the first layer are counted, so the order of the two matters.
  first.paths.countP fun p => keys.contains p.style.key

variable [Scalar α]

/-- The share of common styles in the longer of two layers, none if both are empty. -/
def styleSimilarity (first second : Layer α) : α :=
  let longest := max first.paths.length second.paths.length
  if longest = 0 then Scalar.zero else Scalar.ofRat (mkRat (commonStyles first second) longest)

/-- The difference in the number of paths up to which layers are alike. -/
def mergePathDelta : Nat := 5

/-- Whether a layer may be merged into another. -/
def canMerge (threshold : α) (first second : Layer α) : Bool :=
  first.region == second.region &&
    (((first.paths.length : Int) - second.paths.length).natAbs ≤ mergePathDelta &&
      threshold ≤ styleSimilarity first second)

/-- Merges a layer into the first kept one that takes it and tells which; `none` if none does. -/
def mergeInto (threshold : α) (layer : Layer α) : List (Layer α) → Option (List (Layer α) × String)
  | [] => none
  | kept :: rest =>
    -- The kept layer is compared as it has grown by now, with all that was merged into it.
    if canMerge threshold kept layer then
      some (kept.withPaths (kept.paths ++ layer.paths) :: rest, kept.id)
    else (mergeInto threshold layer rest).map fun (rest, target) => (kept :: rest, target)

/-- Merges layers one by one into the ones kept so far. -/
def mergeAll (threshold : α) (kept : List (Layer α)) (merged : List (String × String)) :
    List (Layer α) → List (Layer α) × List (String × String)
  | [] => (kept, merged)
  | layer :: rest =>
    match mergeInto threshold layer kept with
    | some (kept, target) => mergeAll threshold kept (merged ++ [(target, layer.id)]) rest
    | none => mergeAll threshold (kept ++ [layer]) merged rest

/-- By how many percent a number is below another, with two decimals. -/
def gainPercent (given left : Nat) : α :=
  if given = 0 then Scalar.roundTo 2 Scalar.zero
  -- The quotient is rounded before it is taken times a hundred, and the product once more.
  else Scalar.roundTo 2
    (Scalar.ofRat (mkRat ((given : Int) - left) given) * Scalar.ofRat 100)

/-- Drops empty layers and merges alike ones. -/
def optimizeLayers (threshold : α) (layers : List (Layer α)) : Optimization α :=
  let (kept, merged) := mergeAll threshold [] [] (layers.filter fun l => !l.paths.isEmpty)
  { layers := kept
    removed := (layers.filter fun l => l.paths.isEmpty).map Layer.id
    merged
    givenCount := layers.length
    -- Empty layers count as saved, like the merged ones.
    gain := gainPercent layers.length kept.length }

end

end Drawing
