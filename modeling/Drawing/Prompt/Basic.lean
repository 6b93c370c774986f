import Drawing.Prompt.Template
import Drawing.Region.Anchor
import Drawing.Region.Catalog
import Drawing.Request.Basic
import Drawing.Text.Character

/-!
# `Drawing/Prompt/Basic.lean` — prompts

What a model is asked for a request: instructions that explain the canvas, the regions, the anchors, the
form of a document and what the drawing is grounded in, and the task in the words of the request.
-/

namespace Drawing

/-- What a model is asked. -/
structure Prompt where
  system : String
  user : String
  deriving Repr, DecidableEq

variable {α : Type} [Scalar α]

/-! ## What a model is told -/

/-- The reserved regions, one on each line. -/
def regionLines (regions : Table (Box α)) : String :=
  textOfLines <| regions.map fun (name, b) =>
    "- " ++ name ++ ": " ++ ", ".intercalate (b.toList.map Scalar.generalText)

/-- The anchors, one on each line. -/
def anchorLines (α : Type) [Scalar α] : String :=
  let fraction (q : Rat) : String := Scalar.generalText (Scalar.ofRat q : α)
  textOfLines <| Anchor.all.map fun a =>
    "- " ++ a.name ++ ": (" ++ fraction a.fractions.1 ++ ", " ++ fraction a.fractions.2 ++ ")"

/-- How binding a rule is, as a heading. -/
def Priority.heading : Priority → String
  | .must => "MUST"
  | .should => "SHOULD"

/-- A text before which something is put, nothing if the text is empty. -/
def after (opening text closing : String) : String := if text = "" then "" else opening ++ text ++ closing

/-- What a model is told of an item. -/
def GroundingItem.line : GroundingItem α → String
  | .stylePack name palette strokeWidth notes =>
    let colours := ", ".intercalate palette
    let width := match strokeWidth with
      | some w => ", stroke width " ++ Scalar.generalText w
      | none => ""
    s!"- Style pack '{name}': palette " ++ (if colours = "" then "free choice" else colours) ++ width ++
      after ". " notes ""
  | .motif name description commandsHint =>
    s!"- Motif '{name}': {description}" ++ after " (commands: " commandsHint ")"
  | .glossary term definition => s!"- '{term}' means {definition}"
  | .rule text priority => s!"- {priority.heading}: {text}"
  | .fewShot prompt document => s!"- Example for \"{prompt}\":\n{document}"

/-- What a model is told of all items, nothing if there are none. -/
def groundingText (items : List (GroundingItem α)) : String :=
  if items.isEmpty then "" else textOfLines (["", "GROUNDING:"] ++ items.map GroundingItem.line ++ [""])

/-! ## Prompts -/

namespace Prompt

/-- The size and aspect ratio of a canvas by the names of their places. -/
def canvasValues [DecimalText α] (width height : Numeral α) (aspect : Aspect) : Table String :=
  [("width", width.text), ("height", height.text), ("aspect_ratio", aspect.tag)]

/-- The prompt for a request on a canvas of a size. -/
def ofRequest [DecimalText α] (r : DrawingRequest α) (width height : Numeral α) : Prompt :=
  let canvas := canvasValues width height r.aspect
  { system := fill systemTemplate <| [
      ("regions", regionLines (reservedRegions (α := α))),
      ("anchors", anchorLines α),
      ("grounding", groundingText r.grounding),
      ("schema", fill exampleTemplate canvas)] ++ canvas
    user := fill userTemplate <| [
      ("prompt", stripBlank r.prompt),
      ("context", after "Context: " (stripBlank r.context) "\n"),
      ("palette", if r.palette.isEmpty then "" else
        "Palette: " ++ ", ".intercalate r.palette ++ "\n")] ++ canvas }

end Prompt

end Drawing
