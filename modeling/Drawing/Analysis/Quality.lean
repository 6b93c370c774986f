import Drawing.Analysis.Measures

/-!
# `Drawing/Analysis/Quality.lean` — the quality of a layout

A layout starts from a base score. Each point near an edge of the canvas and each point outside of it
costs; a moderate number of layers and the use of more than one region earn. What remains, between zero
and a hundred, is cut to a whole number. Weights are as the caller wrote them, and one that is too large for a
scalar stands in the way only where it counts.
-/

namespace Drawing

/-- What points and structure count for in the score of a layout. -/
structure QualityWeights (α : Type) where
  base : Numeral α
  /-- The distance from an edge within which a point is near it. -/
  margin : Numeral α
  /-- What a point near an edge costs. -/
  edgePenalty : Numeral α
  /-- What a point outside the canvas costs. -/
  outsidePenalty : Numeral α
  layerBonus : Numeral α
  /-- The number of layers up to which the bonus is earned. -/
  layerLimit : Numeral α
  regionBonus : Numeral α
  deriving Repr

section

variable {α : Type} [Scalar α]

/-- The weights that are used unless others are given. -/
def QualityWeights.standard : QualityWeights α where
  base := .real (Scalar.ofRat 100)
  margin := .real (Scalar.ofRat 10)
  edgePenalty := .real (Scalar.ofRat 2)
  outsidePenalty := .real (Scalar.ofRat 10)
  layerBonus := .real (Scalar.ofRat 5)
  layerLimit := .whole 10
  regionBonus := .real (Scalar.ofRat 10)

namespace QualityWeights

/-- The weights that some fields name; all others are the usual ones. -/
def ofFields (fields : Fields α) : QualityWeights α :=
  let std : QualityWeights α := .standard
  let number (name : String) (fallback : Numeral α) : Numeral α := (fields.numeral? name).getD fallback
  { base := number "base_score" std.base
    margin := number "edge_margin_px" std.margin
    edgePenalty := number "edge_penalty" std.edgePenalty
    outsidePenalty := number "out_of_bounds_penalty" std.outsidePenalty
    layerBonus := number "layer_bonus" std.layerBonus
    layerLimit := number "max_layers_for_bonus" std.layerLimit
    regionBonus := number "region_bonus" std.regionBonus }

def json {α : Type} (w : QualityWeights α) : Json α :=
  .obj [("base_score", .num w.base), ("edge_margin_px", .num w.margin),
    ("edge_penalty", .num w.edgePenalty), ("out_of_bounds_penalty", .num w.outsidePenalty),
    ("layer_bonus", .num w.layerBonus), ("max_layers_for_bonus", .num w.layerLimit),
    ("region_bonus", .num w.regionBonus)]

/-- Whether a number is near an end of a side, or beyond it. -/
def isNearEnd (w : QualityWeights α) (side : Nat) (x : α) : Except (Fault α) Bool := do
  if (Numeral.real x).isBelow w.margin then return true
  -- A whole margin is taken off exactly, however large the side is.
  else return (← (Numeral.whole side).minus w.margin).isBelow (.real x)

/-- Whether a point is near an edge of a canvas, or beyond it. -/
def isNearEdge (w : QualityWeights α) (canvas : Canvas α) (p : Point α) : Except (Fault α) Bool := do
  if ← w.isNearEnd canvas.width p.x then return true else w.isNearEnd canvas.height p.y

/-- Takes from a score what a point costs. -/
def charge (w : QualityWeights α) (canvas : Canvas α) (score : α) (p : Point α) : Except (Fault α) α := do
  let score ← if ← w.isNearEdge canvas p then do pure (score - (← w.edgePenalty.toScalar)) else pure score
  -- With a margin of zero or more a point outside is near an edge as well, and pays for both.
  if canvas.isOutside p then return score - (← w.outsidePenalty.toScalar) else return score

/-- Whether a number of layers earns the bonus. -/
def earnsLayerBonus (w : QualityWeights α) (layers : Nat) : Bool :=
  1 < layers && (Numeral.whole layers).isAtMost w.layerLimit

end QualityWeights

/-- A score with a bonus, if it is earned. -/
def withBonus (earned : Bool) (bonus : Numeral α) (score : α) : Except (Fault α) α :=
  if earned then do return score + (← bonus.toScalar) else .ok score

/-- The score of a document's layout, from zero to a hundred. There is none where a weight that counts is too
large, or the canvas is too large to take a fractional margin off. -/
def Document.score (d : Document α) (w : QualityWeights α) : Except (Fault α) Int := do
  let score ← (pointsOf d.commands).foldlM (w.charge d.canvas) (← w.base.toScalar)
  let score ← withBonus (w.earnsLayerBonus d.layers.length) w.layerBonus score
  let score ← withBonus (1 < d.regionsNamed.length) w.regionBonus score
  -- The score is cut off, not rounded.
  return Scalar.truncate (Scalar.greatest Scalar.zero (Scalar.least (Scalar.ofRat 100) score))

end

end Drawing
