/-!
# `Drawing/Schema/Checked.lean` — readings that collect their complaints

Reading a record does not stop at its first bad field: all fields are read, and all complaints are
reported, in the order of the fields. `Checked` is that applicative. It is deliberately not a monad;
what may only be looked at once everything before it is fine says so with `Checked.refine`.

A `Complaint` is a cause and the place of the offending value inside the tree that was read. The
wording of causes is in one function, `Cause.text`.
-/

namespace Drawing

/-- One step from a value to a part of it. -/
inductive Step where
  | field (name : String)
  | item (index : Nat)
  deriving Repr, DecidableEq

def Step.text : Step → String
  | field name => name
  | item index => toString index

/-- Why a value does not fit. -/
inductive Cause where
  | missing
  | notText
  | brokenText
  | emptyText
  | notWhole
  | fractional
  | notFinite
  | wholeTooLong
  | unreadableWhole
  | notNumber
  | unreadableNumber
  | notPositive
  | negative
  | aboveOne
  | notBool
  | unreadableBool
  | notOneOf (options : List String)
  | notList
  | notTuple
  | tupleTooLong (most actual : Nat)
  | notRecord (model : String)
  | notObject
  | noTag
  | unknownTag (tag : String) (options : List String)
  | notTagged
  | extraField
  | refused (reason : String)
  deriving Repr, DecidableEq

/-- Options as a phrase: between single quotes, the last one set off by a word. -/
def optionsPhrase : List String → String
  | [] => ""
  | [a] => s!"'{a}'"
  | [a, b] => s!"'{a}' or '{b}'"
  | a :: rest => s!"'{a}', " ++ optionsPhrase rest

def Cause.text : Cause → String
  | missing => "Field required"
  | notText => "Input should be a valid string"
  | brokenText => "Input should be a valid string, unable to parse raw data as a unicode string"
  | emptyText => "String should have at least 1 character"
  | notWhole => "Input should be a valid integer"
  | fractional => "Input should be a valid integer, got a number with a fractional part"
  | notFinite => "Input should be a finite number"
  | wholeTooLong => "Unable to parse input string as an integer, exceeded maximum size"
  | unreadableWhole => "Input should be a valid integer, unable to parse string as an integer"
  | notNumber => "Input should be a valid number"
  | unreadableNumber => "Input should be a valid number, unable to parse string as a number"
  | notPositive => "Input should be greater than 0"
  | negative => "Input should be greater than or equal to 0"
  | aboveOne => "Input should be less than or equal to 1"
  | notBool => "Input should be a valid boolean"
  | unreadableBool => "Input should be a valid boolean, unable to interpret input"
  | notOneOf options => "Input should be " ++ optionsPhrase options
  | notList => "Input should be a valid list"
  | notTuple => "Input should be a valid tuple"
  | tupleTooLong most actual =>
    s!"Tuple should have at most {most} items after validation, not {actual}"
  | notRecord model => s!"Input should be a valid dictionary or instance of {model}"
  | notObject => "Input should be a valid dictionary"
  | noTag => "Unable to extract tag using discriminator 'kind'"
  | unknownTag tag options =>
    s!"Input tag '{tag}' found using 'kind' does not match any of the expected tags: " ++
      ", ".intercalate (options.map fun o => s!"'{o}'")
  | notTagged => "Input should be a valid dictionary or object to extract fields from"
  | extraField => "Extra inputs are not permitted"
  | refused reason => s!"Value error, {reason}"

/-- A cause at a place. -/
structure Complaint where
  place : List Step
  cause : Cause
  deriving Repr, DecidableEq

/-- The place of a complaint, its steps joined by points. -/
def Complaint.placeText (c : Complaint) : String := ".".intercalate (c.place.map Step.text)

/-- A complaint on one line. -/
def Complaint.text (c : Complaint) : String := c.placeText ++ ": " ++ c.cause.text

/-- All complaints about a record of a model, as one message. -/
def complaintsMessage (model : String) (cs : List Complaint) : String :=
  let count := cs.length
  let noun := if count = 1 then "validation error" else "validation errors"
  s!"{count} {noun} for {model}" ++
    String.join (cs.map fun c => "\n" ++ c.placeText ++ "\n  " ++ c.cause.text)

/-- A value that was read, or all the complaints there are. -/
inductive Checked (β : Type) where
  | valid (value : β)
  | invalid (complaints : List Complaint)
  deriving Repr

namespace Checked

variable {β γ : Type}

/-- A single complaint about the value itself. -/
def refuse (cause : Cause) : Checked β := .invalid [⟨[], cause⟩]

/-- Applies a function to the value read. -/
def map (f : β → γ) : Checked β → Checked γ
  | valid v => valid (f v)
  | invalid cs => invalid cs

/-- Applies a function read from one part to a value read from a later one, collecting the complaints of
both. -/
def apply (f : Checked (β → γ)) (x : Checked β) : Checked γ :=
  match f, x with
  | valid f, valid v => valid (f v)
  | valid _, invalid cs => invalid cs
  | invalid cs, valid _ => invalid cs
  | invalid cs, invalid ds => invalid (cs ++ ds)

instance : Functor Checked where
  map := map

instance : Applicative Checked where
  pure := valid
  seq f x := apply f (x ())

/-- A further check that is made only of a value without complaints. -/
def refine (x : Checked β) (check : β → Checked γ) : Checked γ :=
  match x with
  | valid v => check v
  | invalid cs => invalid cs

/-- Places the complaints about a part. -/
def within (step : Step) : Checked β → Checked β
  | valid v => valid v
  | invalid cs => invalid (cs.map fun c => ⟨step :: c.place, c.cause⟩)

/-- The value read, if there are no complaints. -/
def value? : Checked β → Option β
  | valid v => some v
  | invalid _ => none

/-- The complaints, none for a value. -/
def complaints : Checked β → List Complaint
  | valid _ => []
  | invalid cs => cs

/-- Whether there are no complaints. -/
def isValid : Checked β → Bool
  | valid _ => true
  | invalid _ => false

/-- Reads items in order, all complaints collected, each placed at its index. -/
def items {δ : Type} (read : δ → Checked β) (index : Nat) : List δ → Checked (List β)
  | [] => valid []
  | d :: ds => apply ((within (.item index) (read d)).map List.cons) (items read (index + 1) ds)

end Checked

end Drawing
