import Drawing.Document.Codec
import Drawing.Number.Arithmetic
import Drawing.Text.Digest

/-!
# `Drawing/Analysis/Measures.lean` — the measures of a layer

What can be said about a layer without looking at others: how much it holds, how much of the canvas it
covers, and which regions and anchors it names. The signature of a layer is a text that is the same for
equal layers; it ends in a digest of everything the layer holds.
-/

namespace Drawing

/-! ## Complexity

Three bands of complexity by the number of paths and commands, and estimates of the time and memory that
drawing them takes. Counts may be estimates themselves, so they need not be whole.
-/

/-- How much there is to draw. -/
inductive Complexity where
  | low
  | medium
  | high
  deriving Repr, DecidableEq, BEq

namespace Complexity

def name : Complexity → String
  | low => "low"
  | medium => "medium"
  | high => "high"

def all : List Complexity := [low, medium, high]

def ofName? (s : String) : Option Complexity := all.find? fun c => c.name == s

/-- The band of a number of paths and commands: low up to five and twenty, medium up to fifteen and one
hundred. -/
def ofCounts {α : Type} [Scalar α] (paths commands : Numeral α) : Complexity :=
  if paths.isAtMost (.whole 5) && commands.isAtMost (.whole 20) then low
  else if paths.isAtMost (.whole 15) && commands.isAtMost (.whole 100) then medium
  else high

end Complexity

/-- The estimated time to draw in milliseconds: a tenth for each path, a hundredth for each command. -/
def renderTime {α : Type} [Scalar α] (paths commands : α) : α :=
  paths * Scalar.ofRat 0.1 + commands * Scalar.ofRat 0.01

/-- The estimated memory in bytes: a hundred, fifty for each path, twenty for each command. -/
def memoryBytes {α : Type} [Scalar α] (paths commands : Numeral α) : Except (Fault α) (Numeral α) := do
  (← (Numeral.whole 100).plus (← paths.times (.whole 50))).plus (← commands.times (.whole 20))

section

/-- Texts without repetitions, each at its first place. -/
def distinct : List String → List String
  | [] => []
  | s :: rest => s :: (distinct rest).filter (· != s)

@[simp] theorem mem_distinct {name : String} {names : List String} : name ∈ distinct names ↔ name ∈ names := by
  induction names with
  | nil => simp [distinct]
  | cons n names ih =>
    by_cases h : name = n
    · simp [distinct, h]
    · simp [distinct, h, ih]

theorem nodup_distinct (names : List String) : (distinct names).Nodup := by
  induction names with
  | nil => exact .nil
  | cons n names ih =>
    refine List.nodup_cons.mpr ⟨?_, List.Pairwise.filter _ ih⟩
    intro h
    simp at h

variable {α : Type}

/-! ## Names -/

/-- The layouts that a layer and its paths have themselves. -/
def Layer.specs (l : Layer α) : List (LayoutSpec α) := l.layout.toList ++ l.paths.filterMap ShapePath.layout

/-- The regions that layouts name, without repetitions. An empty name does not count. -/
def regionsNamed (specs : List (LayoutSpec α)) : List String :=
  distinct ((specs.filterMap LayoutSpec.region).filter (· != ""))

/-- The anchors that layouts name, without repetitions. -/
def anchorsNamed (specs : List (LayoutSpec α)) : List String :=
  distinct ((specs.filterMap LayoutSpec.anchor).map Anchor.name)

/-- The regions that the layers and paths of a document name. -/
def Document.regionsNamed (d : Document α) : List String :=
  Drawing.regionsNamed (d.layers.flatMap Layer.specs)

/-- The anchors that the layers and paths of a document name. -/
def Document.anchorsNamed (d : Document α) : List String :=
  Drawing.anchorsNamed (d.layers.flatMap Layer.specs)

/-! ## Measures -/

/-- The measures of a layer on a canvas. -/
structure LayerMeasures (α : Type) where
  layer : String
  pathCount : Nat
  commandCount : Nat
  bounds : Box α
  complexity : Complexity
  renderTime : α
  memory : Numeral α
  regions : List String
  anchors : List String
  /-- The area of the bounds as a part of that of the canvas, at most one. -/
  coverage : α
  deriving Repr

/-- The part of a canvas that a box covers by area, at most one; none of a canvas without area. -/
def coverage [Scalar α] (bounds : Box α) (width height : Numeral α) : Except (Fault α) α := do
  let area ← width.times height
  -- Two sides above zero can have an area of zero, so it is the area that is asked about.
  if area.isPositive then return Scalar.least (bounds.area / (← area.toScalar)) Scalar.one
  else return Scalar.zero

/-- The band of complexity of a layer. -/
def Layer.complexity [Scalar α] (l : Layer α) : Complexity :=
  .ofCounts (.whole l.paths.length : Numeral α) (.whole l.commands.length)

/-- Measures a layer on a canvas. -/
def Layer.measure [Scalar α] (l : Layer α) (width height : Numeral α) :
    Except (Fault α) (LayerMeasures α) := do
  let paths := l.paths.length
  let commands := l.commands.length
  let bounds := boundsOf l.commands
  return {
    layer := l.id
    pathCount := paths
    commandCount := commands
    bounds
    complexity := l.complexity
    renderTime := Drawing.renderTime (Scalar.ofNat paths) (Scalar.ofNat commands)
    memory := ← memoryBytes (.whole paths) (.whole commands)
    regions := Drawing.regionsNamed l.specs
    anchors := Drawing.anchorsNamed l.specs
    coverage := ← coverage bounds width height }

/-! ## Signatures -/

section

variable [DecimalText α]

/-- Everything a layer holds as text. -/
def Layer.contents (l : Layer α) : String := (l.json .full).text

/-- The text of a layer's own layout. -/
def Layer.layoutText (l : Layer α) : String :=
  match l.layout with
  | some s => (s.json .bare).text
  -- A layer without a layout is signed like one whose layout says nothing.
  | none => (Json.obj [] : Json α).text

/-- The signature of a layer, its contents told apart by a digest. -/
def Layer.signature (digest : String → String) (l : Layer α) : String :=
  s!"layer:{l.id}:{l.layoutText}:{l.paths.length}:{digest l.contents}"

end

end

/-! ## Layers counted and grouped

Layers are grouped by region, the groups in the order in which their regions first occur. A census counts
the layers of each region and of each band of complexity, and all paths and commands.
-/

section

variable {α : Type}

/-- Adds a layer to the group of its region. -/
def addToGroup (groups : Table (List (Layer α))) (l : Layer α) : Table (List (Layer α)) :=
  Table.update l.region [] (fun group => group ++ [l]) groups

/-- Layers grouped by region. -/
def groupByRegion (layers : List (Layer α)) : Table (List (Layer α)) := layers.foldl addToGroup []

def countName (counts : Table Nat) (name : String) : Table Nat := Table.update name 0 (· + 1) counts

/-- The numbers of some layers. -/
structure Census (α : Type) where
  layers : Nat
  paths : Nat
  commands : Nat
  /-- The mean number of paths of a layer, none if there are no layers. -/
  meanPaths : α
  complexities : Table Nat
  regions : Table Nat
  deriving Repr

def census [Scalar α] (layers : List (Layer α)) : Census α :=
  let paths := (layers.flatMap Layer.paths).length
  { layers := layers.length
    paths
    commands := (layers.flatMap Layer.commands).length
    meanPaths := if layers.isEmpty then Scalar.zero else Scalar.ofRat (mkRat paths layers.length)
    complexities := (layers.map fun l => l.complexity.name).foldl countName []
    regions := (layers.map Layer.region).foldl countName [] }

end

end Drawing
