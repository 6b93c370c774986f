import Drawing.Table

/-!
# `Drawing/Prompt/Template.lean` — the texts that a model is asked with

A text template names the places to be filled in between braces; a brace that is meant as such is written
twice. Three templates are in use: the instructions, the task, and the example of a document that the
instructions end with. `fill` puts values into a template; values are taken as they are, so braces in them
mean nothing.
-/

namespace Drawing

/-- A text of lines. -/
def textOfLines (lines : List String) : String := "\n".intercalate lines

/-- The example of a document. -/
def exampleTemplate : String := textOfLines [
  "\x7b\x7b",
  "  \"version\": \"unified-layered-1.0\",",
  "  \"canvas\": \x7b\x7b\"width\": \x7bwidth\x7d, \"height\": \x7bheight\x7d, \"aspectRatio\": \"\x7baspect_ratio\x7d\"\x7d\x7d,",
  "  \"layers\": [",
  "    \x7b\x7b",
  "      \"id\": \"sun\",",
  "      \"label\": \"Sun\",",
  "      \"layout\": \x7b\x7b\"region\": \"top_right\", \"anchor\": \"center\"\x7d\x7d,",
  "      \"paths\": [",
  "        \x7b\x7b",
  "          \"id\": \"sun_disc\",",
  "          \"style\": \x7b\x7b\"fill\": \"#FDB813\", \"stroke\": \"#F59E0B\", \"strokeWidth\": 2\x7d\x7d,",
  "          \"commands\": [",
  "            \x7b\x7b\"cmd\": \"M\", \"coords\": [0, -30]\x7d\x7d,",
  "            \x7b\x7b\"cmd\": \"C\", \"coords\": [17, -30, 30, -17, 30, 0]\x7d\x7d,",
  "            \x7b\x7b\"cmd\": \"C\", \"coords\": [30, 17, 17, 30, 0, 30]\x7d\x7d,",
  "            \x7b\x7b\"cmd\": \"C\", \"coords\": [-17, 30, -30, 17, -30, 0]\x7d\x7d,",
  "            \x7b\x7b\"cmd\": \"C\", \"coords\": [-30, -17, -17, -30, 0, -30]\x7d\x7d,",
  "            \x7b\x7b\"cmd\": \"Z\", \"coords\": []\x7d\x7d",
  "          ]",
  "        \x7d\x7d",
  "      ]",
  "    \x7d\x7d",
  "  ]",
  "\x7d\x7d"]

/-- The instructions. -/
def systemTemplate : String := textOfLines [
  "You are a vector illustrator that answers with a layered design document in JSON. You never write SVG markup yourself; a layout engine turns your document into SVG.",
  "",
  "CANVAS:",
  "- Width \x7bwidth\x7dpx, height \x7bheight\x7dpx, aspect ratio \x7baspect_ratio\x7d.",
  "- Origin (0, 0) is the top-left corner; y grows downward.",
  "",
  "REGIONS (fractions of the canvas: x, y, width, height):",
  "\x7bregions\x7d",
  "",
  "ANCHORS (point inside the region the shape's local origin snaps to):",
  "\x7banchors\x7d",
  "",
  "LAYOUT RULES:",
  "- Give each layer (or path) a \"layout\" with \"region\" and \"anchor\". Draw the path around its own local origin (0, 0); the engine moves it into place.",
  "- Exception: region \"center\" with anchor \"center\" and no offset, size or repeat is the identity layout. Paths under it are NOT moved and must use absolute canvas coordinates. To center a locally drawn shape, give it a \"size\".",
  "- \"offset\": [dx, dy] shifts the anchor point by a fraction of the region size, each within [-1, 1].",
  "- \"size\": exactly one of \x7b\x7b\"absolute\": \x7b\x7b\"width\", \"height\"\x7d\x7d\x7d\x7d, \x7b\x7b\"relative\": 0-1\x7d\x7d, \x7b\x7b\"aspect_constrained\": \x7b\x7b\"width\", \"aspect\"\x7d\x7d\x7d\x7d.",
  "- \"repeat\": \x7b\x7b\"type\": \"grid\", \"count\": [cols, rows], \"spacing\": 0.1\x7d\x7d or \x7b\x7b\"type\": \"radial\", \"count\": n, \"radius\": px\x7d\x7d.",
  "- \"zIndex\" orders layers back to front.",
  "- A layer or path without a layout uses absolute pixel coordinates; keep them inside the canvas.",
  "",
  "PATH COMMANDS (absolute values only):",
  "- M x y  (2 numbers)      move",
  "- L x y  (2 numbers)      line",
  "- Q cx cy x y  (4)        quadratic curve",
  "- C c1x c1y c2x c2y x y (6)  cubic curve",
  "- Z      (0)              close",
  "Every path starts with M. No other letters, no relative commands.",
  "",
  "STRUCTURE:",
  "- Layer ids are unique. Path ids are unique inside their layer. Use descriptive ids, not \"layer1\".",
  "- Order layers back to front.",
  "\x7bgrounding\x7d",
  "OUTPUT FORMAT:",
  "Respond with ONLY the JSON document, matching this example:",
  "\x7bschema\x7d"]

/-- The task. -/
def userTemplate : String := textOfLines [
  "Create: \x7bprompt\x7d",
  "\x7bcontext\x7d\x7bpalette\x7dCanvas: \x7bwidth\x7dx\x7bheight\x7d (\x7baspect_ratio\x7d)."]

/-- All templates by name. -/
def promptTemplates : Table String :=
  [("system", systemTemplate), ("user", userTemplate), ("schema", exampleTemplate)]

/-! ## Filling in -/

/-- A template with its places filled in. Inside a place, `name` is the part of its name that has been read,
reversed; a name without a value stands for nothing. -/
def fillFrom (values : Table String) : (name : Option (List Char)) → List Char → List Char
  | _, [] => []
  | none, '\x7b' :: '\x7b' :: cs => '\x7b' :: fillFrom values none cs
  | none, '\x7d' :: '\x7d' :: cs => '\x7d' :: fillFrom values none cs
  | none, '\x7b' :: cs => fillFrom values (some []) cs
  | none, c :: cs => c :: fillFrom values none cs
  | some name, '\x7d' :: cs =>
    ((Table.get? values (String.ofList name.reverse)).getD "").toList ++ fillFrom values none cs
  | some name, c :: cs => fillFrom values (some (c :: name)) cs

/-- A template with its places filled in. -/
def fill (template : String) (values : Table String) : String :=
  String.ofList (fillFrom values none template.toList)

end Drawing
