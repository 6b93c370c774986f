import Drawing.Sketch.Page
import Drawing.Studio.Draft

/-!
# `Drawing/Studio/Delivery.lean` — delivering requests

A request is tried in three ways. The model comes first, with its retries, unless the request rules it out;
then a sketch from the words of the request; and last a plain circle. Each way is less able than the one
before it and less likely to fail, and the last one cannot fail, so every request gets a drawing. Its
account tells which way was taken and why.
-/

namespace Drawing

/-- Why the model is not asked for a request. -/
inductive Exemption where
  | modelRuledOut
  | switchedOff
  | testGroup
  deriving Repr, DecidableEq

def Exemption.text : Exemption → String
  | modelRuledOut => "Rule-based model requested"
  | switchedOff => "Unified generation disabled by feature flag"
  | testGroup => "A/B test group uses traditional generation"

/-- Why the model is not asked for a request, if it is not. -/
def DrawingRequest.exemption? {α : Type} (r : DrawingRequest α) : Option Exemption :=
  if r.model = "rule-based" then some .modelRuledOut
  else if !r.features.unified then some .switchedOff
  else if r.testGroup = some "traditional" then some .testGroup
  else none

def DrawingRequest.wantsOverlay {α : Type} (r : DrawingRequest α) : Bool := r.debug || r.features.debugMode

/-- The request with the canonical size of its canvas. -/
def DrawingRequest.sized {α : Type} (r : DrawingRequest α) : SizedRequest :=
  ⟨r.prompt, r.aspect.size.1, r.aspect.size.2, r.palette, r.seed⟩

/-- A delivered request: the result, and how the run for it went if there was one. -/
structure Delivery (α : Type) where
  result : Generation α
  history : List Phase
  delays : List α
  /-- How often the model was asked. -/
  asked : Nat

namespace Studio

variable {α : Type} [Scalar α]

/-- The account that says nothing of a drawing but its way, its canvas and the attempts before it. -/
def emptyAccount (method : Method) (reason : Option String) (canvas : Int × Int) (attempts : Int) :
    Metadata α where
  method
  fallbackUsed := reason.isSome
  fallbackReason := reason
  layers := []
  quality := 0
  repaired := false
  regions := []
  anchors := []
  canvas
  attempts
  timing := .none

def canvasSize (r : DrawingRequest α) : Int × Int := (r.aspect.size.1, r.aspect.size.2)

/-- A result with its overlay, if one is asked for and can be built. -/
def withOverlay (s : Studio α) (m : Memory α) (r : DrawingRequest α) (document : Document α)
    (g : Generation α) : Generation α × Memory α :=
  if r.wantsOverlay then
    match s.inspect m.analyzer document g.metadata with
    | .ok (overlay, analyzer) => ({ g with debug := some overlay }, { m with analyzer })
    -- No drawing is lost for want of its overlay.
    | .error _ => (g, m)
  else (g, m)

/-! ## The ways of drawing -/

/-- The account of a finished draft. -/
def draftAccount (d : Draft α) (attempts : Int) : Metadata α :=
  { emptyAccount .unified none (d.document.canvas.width, d.document.canvas.height) attempts with
    layers := d.layers
    quality := d.quality
    repaired := d.repaired
    regions := d.document.regionsNamed
    anchors := d.document.anchorsNamed }

/-- The errors of a run, in order. -/
def runErrors [DecimalText α] (run : Run (Draft α) (Fault α) α) : List String :=
  run.failures.map fun f => s!"Attempt {f.attempt} ({f.task.name}): " ++ f.cause.message

/-- The result of a run that came through. -/
def draftResult [DecimalText α] (s : Studio α) (r : DrawingRequest α)
    (run : Run (Draft α) (Fault α) α) : Generation α × Memory α :=
  let d := run.state
  s.withOverlay d.memory r d.document {
    success := true
    markup := d.markup
    metadata := draftAccount d run.attempt
    errors := runErrors run
    warnings := d.warnings
    debug := none }

/-- The account of a sketch with its layouts carried out, if it has one, and the memory of what was measured for
it. -/
def sketchAccount [DecimalText α] (s : Studio α) (m : Memory α) (document : Document α)
    (account : Metadata α) : Except (Fault α) (Metadata α) × Memory α :=
  let (layers, analyzer) := m.analyzer.summarize document
  (do
    return { account with
      layers := ← layers
      quality := ← document.score s.config.weights
      regions := document.regionsNamed
      anchors := document.anchorsNamed },
    { m with analyzer })

/-- The result of sketching a request, if it has one, and the memory of what was done for it. -/
def sketchResult [DecimalText α] [Trig α] (s : Studio α) (m : Memory α) (r : DrawingRequest α)
    (reason : String) (attempts : Int) : Except (Fault α) (Generation α) × Memory α :=
  match s.sketch (s.paint m.painted) r.sized with
  | .error fault => (.error fault, m)
  | .ok page =>
    let account : Metadata α := emptyAccount .ruleBased (some reason) (canvasSize r) attempts
    let result (metadata : Metadata α) : Generation α := ⟨true, page.markup, metadata, [], page.warnings, none⟩
    match page.document with
    | none => (.ok (result account), m)
    | some document =>
      let m := { m with painted := m.painted + 1 }
      match document.resolve with
      | .error fault => (.error fault, m)
      | .ok resolved =>
        match s.sketchAccount m resolved account with
        | (.error fault, m) => (.error fault, m)
        | (.ok account, m) =>
          let (g, m) := s.withOverlay m r resolved (result account)
          (.ok g, m)

/-- The plain drawing for a request, which could not be sketched either. -/
def plainResult [DecimalText α] (r : DrawingRequest α) (reason : String) (attempts : Int)
    (fault : Fault α) : Generation α where
  success := true
  markup := plainMarkup (Scalar.ofNat r.aspect.size.1 : α) (Scalar.ofNat r.aspect.size.2)
  metadata := emptyAccount .basic (some (reason ++ ", rule-based also failed: " ++ fault.message))
    (canvasSize r) attempts
  errors := [fault.message]
  warnings := []
  debug := none

/-- The result of drawing a request without a model. -/
def fallBack [DecimalText α] [Trig α] (s : Studio α) (m : Memory α) (r : DrawingRequest α)
    (reason : String) (attempts : Int) : Generation α × Memory α :=
  match s.sketchResult m r reason attempts with
  | (.ok g, m) => (g, m)
  | (.error fault, m) => (plainResult r reason attempts fault, m)

/-! ## Requests -/

/-- Why a run did not come through. -/
def exhaustedReason [DecimalText α] (run : Run (Draft α) (Fault α) α) : String :=
  "Unified generation failed: " ++ (run.failures.getLast?.map fun f => f.cause.message).getD ""

/-- The result of a run that has ended. -/
def runResult [DecimalText α] [Trig α] (s : Studio α) (r : DrawingRequest α)
    (run : Run (Draft α) (Fault α) α) : Generation α × Memory α :=
  if run.phase = .fallback then
    let (g, m) := s.fallBack run.state.memory r (exhaustedReason run) run.attempt
    ({ g with errors := runErrors run ++ g.errors }, m)
  else s.draftResult r run

/-- Delivers a request. All that can stand in the way of it is a wait that is no number. -/
def deliver [DecimalText α] [Trig α] (s : Studio α) (m : Memory α) (r : DrawingRequest α) :
    Except (Fault α) (Delivery α × Memory α) :=
  match r.exemption? with
  | some exemption =>
    let (g, m) := s.fallBack m r exemption.text 0
    .ok (⟨g, [], [], 0⟩, m)
  | none => do
    let run ← s.run m r
    let (g, after) := s.runResult r run
    return (⟨g, run.history, run.delays, after.asked - m.asked⟩, after)

end Studio

end Drawing
