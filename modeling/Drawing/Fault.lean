import Drawing.Json.Basic
import Drawing.Number.Numeral
import Drawing.Schema.Checked
import Drawing.Text.Quoted

/-!
# `Drawing/Fault.lean` — what can go wrong

Everything that the layout engine refuses to do has a cause here, and each cause one wording
(`Fault.message`). Names of regions and anchors, ids and tags are quoted; what a caller passed as a
reason is repeated as it is.
-/

namespace Drawing

/-- Arithmetic that has no result. -/
inductive NumberFault where
  /-- A whole number beyond every finite scalar. -/
  | wholeTooLarge
  /-- A quotient of whole numbers beyond every finite scalar. -/
  | quotientTooLarge
  /-- Division by zero, of whole numbers or of scalars. -/
  | divisionByZero (whole : Bool)
  /-- A text that is no number. -/
  | unreadable (text : String)
  /-- A value of a kind that no number can be made of. -/
  | notNumeric (kind : String)
  /-- An angle that has no sine and cosine. -/
  | endlessAngle
  deriving Repr, DecidableEq

def NumberFault.message : NumberFault → String
  | wholeTooLarge => "int too large to convert to float"
  | quotientTooLarge => "integer division result too large for a float"
  | divisionByZero true => "division by zero"
  | divisionByZero false => "float division by zero"
  | unreadable text => "could not convert string to float: " ++ quoted text
  | notNumeric kind => s!"float() argument must be a string or a real number, not '{kind}'"
  | endlessAngle => "math domain error"

/-- Values that are asked for something that values of their kind do not have. -/
inductive KindFault where
  /-- A value that cannot be looked up in a set. -/
  | notComparable (kind : String)
  /-- A value without items. -/
  | notIterable (kind : String)
  /-- A value without fields. -/
  | notFielded (kind : String)
  /-- A value that nothing can be counted with. -/
  | notCountable (kind : String)
  /-- A value among texts to be joined, at an index. -/
  | notJoinable (index : Nat) (kind : String)
  deriving Repr, DecidableEq

def KindFault.message : KindFault → String
  | notComparable kind => s!"unhashable type: '{kind}'"
  | notIterable kind => s!"'{kind}' object is not iterable"
  | notFielded kind => s!"'{kind}' object has no attribute 'items'"
  | notCountable kind => s!"'{kind}' object cannot be interpreted as an integer"
  | notJoinable index kind => s!"sequence item {index}: expected str instance, {kind} found"

/-- What the layout engine and its surroundings refuse. -/
inductive Fault (α : Type) where
  /-- A fault of no particular kind. -/
  | general (message : String)
  /-- A region name that is neither reserved nor registered. -/
  | unknownRegion (name : String)
  /-- An anchor name that is not one of the nine. -/
  | unknownAnchor (name : String)
  /-- A custom region whose name is taken or whose box does not fit. -/
  | invalidRegion (name reason : String)
  /-- Ids that are used twice, or regions that do not exist. -/
  | structural (errors owners : List String)
  /-- Text that is not a design document. -/
  | schema (errors : List String)
  /-- Text that is beyond what is read. -/
  | limit (fault : Json.LimitFault)
  /-- A coordinate pair outside the canvas. -/
  | outside (path : String) (x y : Numeral α)
  /-- Path data that breaks the rules of its grammar. -/
  | pathCommand (reason path : String)
  /-- Markup that did not pass its check. -/
  | markup (errors : List String)
  /-- A service that did not answer in time. -/
  | timeout (seconds : Numeral α)
  /-- A service that failed or is not configured. -/
  | service (reason : String)
  /-- An aspect ratio that has no canvas. -/
  | unknownAspect (tag : String)
  /-- A colour scheme that does not exist, as it is shown. -/
  | unknownScheme (shown : String)
  /-- A phase that does not exist, as it is shown. -/
  | unknownPhase (shown : String)
  /-- A phase behind which there is no other. -/
  | noSuccessor (phase : String)
  /-- A text that names no level of a log. -/
  | unknownLevel (text : String)
  /-- Something that is no level of a log, as it is shown. -/
  | notLevel (shown : String)
  /-- A cache with no room. -/
  | emptyCache
  /-- A polygon without vertices. -/
  | noVertices
  /-- Some numbers of which there are too few or too many. -/
  | wrongCount (expected actual : Nat)
  /-- Arithmetic that has no result. -/
  | number (fault : NumberFault)
  /-- Values that do not make up a record of a model. -/
  | record (model : String) (complaints : List Complaint)
  /-- A value of a kind that an operation cannot use. -/
  | kind (fault : KindFault)
  deriving Repr

/-- The fault of a service that did not answer within a time. A time that is too large cannot even be told. -/
def Fault.late {α : Type} [Scalar α] (seconds : Numeral α) : Fault α :=
  if seconds.value?.isSome then .timeout seconds else .number .wholeTooLarge

/-- Several messages as one, or a stand-in where there are none. -/
def joinedOr (fallback : String) (errors : List String) : String :=
  let text := "; ".intercalate errors
  if text = "" then fallback else text

def Fault.message {α : Type} [Scalar α] [DecimalText α] : Fault α → String
  | general message => message
  | unknownRegion name => "Unknown region: " ++ quoted name
  | unknownAnchor name => "Unknown anchor: " ++ quoted name
  | invalidRegion name reason => "Invalid custom region " ++ quoted name ++ ": " ++ reason
  | structural errors _ => joinedOr "Structural validation failed" errors
  | schema errors => joinedOr "Schema validation failed" errors
  | limit fault => fault.message
  | outside path x y =>
    "Path " ++ quoted path ++ " has coordinate (" ++ x.text ++ ", " ++ y.text ++ ") outside the canvas"
  | pathCommand reason _ => reason
  | markup errors => joinedOr "Invalid markup" errors
  | timeout seconds => "Generation timed out after " ++ Scalar.generalText seconds.value ++ "s"
  | service reason => reason
  | unknownAspect tag => "Unknown aspect ratio: " ++ quoted tag
  | unknownScheme shown => shown
  | unknownPhase shown => shown ++ " is not a valid GenerationState"
  | noSuccessor phase => "No successor for terminal or error state " ++ quoted phase
  | unknownLevel text => "Unknown level: " ++ quoted text
  | notLevel shown => "Level not an integer or a valid string: " ++ shown
  | emptyCache => "maxsize must be positive"
  | noVertices => "list index out of range"
  | wrongCount expected actual =>
    if actual < expected then s!"not enough values to unpack (expected {expected}, got {actual})"
    else s!"too many values to unpack (expected {expected})"
  | number fault => fault.message
  | record model complaints => complaintsMessage model complaints
  | kind fault => fault.message

end Drawing
