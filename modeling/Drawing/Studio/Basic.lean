import Drawing.Overlay.Build
import Drawing.Prompt.Basic
import Drawing.Service.Chat
import Drawing.Sketch.Page

/-!
# `Drawing/Studio/Basic.lean` — studios

A studio turns requests into drawings. It has a model that can be asked, someone who paints documents and
someone who sketches from words alone; what these do is left open, so that whatever is proved about a
studio holds for every model. Beside them it has a memory, which outlives its requests: the layers it has
measured, how often the model was asked, and how many pages were painted.
-/

namespace Drawing

/-- What a model does when it is asked. -/
inductive Reply (α : Type) where
  | text (text : String)
  /-- It fails for a reason of its own. -/
  | failure (reason : String)
  /-- It fails with a fault that is already one of this library. -/
  | fault (fault : Fault α)
  /-- It does not answer in time. -/
  | late

/-- A model: what it replies when it is asked for the n-th time, counted from zero. -/
abbrev Model (α : Type) := Nat → Prompt → Reply α

/-- A painter: the markup of the n-th document, counted from zero. -/
abbrev Painter (α : Type) := Nat → Document α → Except (Fault α) String

/-- A sketcher, who has documents painted by someone else. -/
abbrev Sketcher (α : Type) :=
  (Document α → Except (Fault α) String) → SizedRequest → Except (Fault α) (SketchPage α)

/-- Someone who builds the overlay of a document and its account. -/
abbrev Inspector (α : Type) :=
  Analyzer α → Document α → Metadata α → Except (Fault α) (Fields α × Analyzer α)

/-- A studio. -/
structure Studio (α : Type) where
  config : Config α
  model : Model α
  paint : Painter α
  sketch : Sketcher α
  inspect : Inspector α

/-- What outlives a request. -/
structure Memory (α : Type) where
  analyzer : Analyzer α
  /-- How often the model was asked. -/
  asked : Nat
  /-- How many pages were painted. -/
  painted : Nat

section

variable {α : Type} [Scalar α] [DecimalText α] [Trig α]

/-- Builds overlays that show times as well. -/
def inspectTimed : Inspector α := fun a d m => do
  let (overlay, a) ← buildOverlay a d (some m) { (OverlayOptions.standard : OverlayOptions α) with
    performance := true }
  return (overlay.fields, a)

/-- The studio of a model. -/
def Studio.ofModel (config : Config α) (model : Model α) : Studio α where
  config
  model
  paint := fun _ d => d.markup
  sketch := sketchPage
  inspect := inspectTimed

/-- The memory of a studio that has done nothing yet. -/
def Memory.fresh (analyzer : Analyzer α) : Memory α := ⟨analyzer, 0, 0⟩

/-- The model behind a chat service. -/
def chatModel (s : Settings α) (service : Nat → ChatSetup α → Prompt → ChatReply α) : Model α :=
  fun n prompt =>
    match askChat s prompt (service n) with
    | .ok exchange => .text exchange.text
    | .error fault => .fault fault

end

end Drawing
