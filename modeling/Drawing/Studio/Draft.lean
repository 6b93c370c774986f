import Drawing.Analysis.Quality
import Drawing.Layout.Stage
import Drawing.Markup.Check
import Drawing.Repair.Design
import Drawing.Studio.Basic
import Drawing.Studio.Run
import Drawing.Validation.Outcome
import Drawing.Validation.Payload

/-!
# `Drawing/Studio/Draft.lean` — drafts

A draft is a drawing in the making. Each task takes it a step further: the prompt, the model's reply, the
document in it (repaired if need be), its layouts carried out, and finally its page, framed, measured and
checked. A task that fails leaves behind what it has changed up to there. Of that, later attempts set anew
all but the warnings and the memory.
-/

namespace Drawing

/-- A drawing in the making. -/
structure Draft (α : Type) where
  memory : Memory α
  prompt : Prompt
  reply : String
  document : Document α
  markup : String
  /-- Whether coordinates were changed on the way. -/
  repaired : Bool
  quality : Int
  layers : List (LayerSummary α)
  warnings : List String

namespace Draft

variable {α : Type}

/-- An empty sheet. -/
def blank (memory : Memory α) (aspect : Aspect) : Draft α where
  memory
  prompt := ⟨"", ""⟩
  reply := ""
  document := ⟨.ofAspect aspect, none, [], false⟩
  markup := ""
  repaired := false
  quality := 0
  layers := []
  warnings := []

/-- A draft whose memory counts another question. -/
def countQuestion (d : Draft α) : Draft α :=
  { d with memory := { d.memory with asked := d.memory.asked + 1 } }

/-- A draft with further warnings. -/
def warn (d : Draft α) (warnings : List String) : Draft α := { d with warnings := d.warnings ++ warnings }

end Draft

namespace Studio

variable {α : Type} [Scalar α] [DecimalText α] [Trig α]

/-! ## Tasks -/

/-- Builds the prompt. -/
def buildPrompt (r : DrawingRequest α) (d : Draft α) : Draft α × Option (Fault α) :=
  ({ d with prompt := Prompt.ofRequest r (.whole r.aspect.size.1) (.whole r.aspect.size.2) }, none)

/-- Asks the model. Without any time to answer, or with a time too large to be measured, it is not asked at
all. -/
def askModel (s : Studio α) (d : Draft α) : Draft α × Option (Fault α) :=
  if s.config.timeout.atMostZero then (d, some (.late s.config.timeout))
  else if s.config.timeout.value?.isNone then (d, some (.service NumberFault.wholeTooLarge.message))
  else match s.model d.memory.asked d.prompt with
    | .text text => ({ d.countQuestion with reply := text }, none)
    | .failure reason => (d.countQuestion, some (.service reason))
    | .fault fault => (d.countQuestion, some fault)
    | .late => (d.countQuestion, some (.late s.config.timeout))

/-- Validates a design and, if it is not accepted, repairs it and validates it again; with what was
repaired. -/
def examine (design : Fields α) (canvas : Canvas α) :
    Except (Fault α) (Outcome α × List (RepairAction α)) := do
  let outcome ← validateData design (some canvas)
  if outcome.isOk then return (outcome, [])
  else
    let repaired ← repairDesign design
    return (← validateData repaired.value (some canvas), repaired.actions)

/-- Takes the document out of the reply. -/
def readDocument (aspect : Aspect) (d : Draft α) : Draft α × Option (Fault α) :=
  match readReply d.reply with
  | .error fault => (d, some fault)
  | .ok design =>
    match examine design (.ofAspect aspect) with
    | .error fault => (d, some fault)
    | .ok (outcome, actions) =>
      -- What was repaired is told of even if the repair was not enough.
      let d := d.warn (actions.map RepairAction.text)
      match outcome.fault? with
      | some fault => (d, some fault)
      | none => ({ d.warn outcome.warnings with
          repaired := !actions.isEmpty || outcome.isSanitized
          document := outcome.document?.getD d.document }, none)

/-- Carries out the layouts. -/
def carryOut (d : Draft α) : Draft α × Option (Fault α) :=
  match d.document.resolve with
  | .error fault => (d, some fault)
  | .ok document => ({ d with document }, none)

/-- What is said of content that was scaled. -/
def rescaleTexts (f : Framing α) : List String :=
  if f.factor.isSome then ["Content rescaled to fit the canvas: " ++ f.transformText] else []

/-- Paints the document and checks its page. -/
def paintChecked (s : Studio α) (d : Draft α) : Draft α × Option (Fault α) :=
  let page := s.paint d.memory.painted d.document
  -- The page counts whether or not it comes out.
  let d := { d with memory := { d.memory with painted := d.memory.painted + 1 } }
  match page with
  | .error fault => (d, some fault)
  | .ok markup =>
    let report := checkMarkup markup
    ({ d with markup }, if report.isValid then none else some (.markup report.errors))

/-- Frames the document, measures it and paints it. -/
def finish (s : Studio α) (d : Draft α) : Draft α × Option (Fault α) :=
  match d.document.fit s.config.padding with
  | .error fault => (d, some fault)
  | .ok (document, framing) =>
    let d := { d.warn (rescaleTexts framing) with document }
    match document.score s.config.weights with
    | .error fault => (d, some fault)
    | .ok quality =>
      let (layers, analyzer) := d.memory.analyzer.summarize document
      -- What was measured is remembered even if a layer could not be.
      let d := { d with quality, memory := { d.memory with analyzer } }
      match layers with
      | .error fault => (d, some fault)
      | .ok layers => s.paintChecked { d with layers }

/-- Carries out a task for a request. -/
def act (s : Studio α) (r : DrawingRequest α) : Task → Draft α → Draft α × Option (Fault α)
  | .idle, d => (d, none)
  | .buildingPrompt, d => buildPrompt r d
  | .awaitingModel, d => s.askModel d
  | .validating, d => readDocument r.aspect d
  | .resolvingLayout, d => carryOut d
  | .autoFitting, d => s.finish d

/-- How a run for a request goes. -/
def course (s : Studio α) (r : DrawingRequest α) : Course (Draft α) (Fault α) α (Fault α) where
  act := s.act r
  wait := fun attempt => backoff (.whole attempt) s.config.backoff
  limit := s.config.maxAttempts

/-- The run for a request. -/
def run (s : Studio α) (memory : Memory α) (r : DrawingRequest α) :
    Except (Fault α) (Run (Draft α) (Fault α) α) :=
  (s.course r).drive (.start (.blank memory r.aspect))

end Studio

end Drawing
