import Drawing.Json.Basic
import Drawing.Json.Printer
import Drawing.Number.Reading
import Drawing.Schema.Checked
import Drawing.Text.Character

/-!
# `Drawing/Schema/Shape.lean` — how raw data is taken for typed data

The reading of raw data is lenient about form and strict about content. A number may come as text, a
whole number as a float without a fraction, a truth value as one of several words; but text is only ever
text, and a list only ever a list. Each function here reads one kind of value; records are put together
from `Schema.required` and `Schema.optional`.

A field may be given under its *alias* (camel case) or its *name* (snake case). The alias wins where
both are present; a complaint is placed under whichever was used, and under the alias where the field is
missing.
-/

namespace Drawing.Schema

variable {α β : Type}

/-! ## Single values -/

/-- Reads a text that is made of characters only. -/
def ofText (read : String → Checked β) (s : String) : Checked β :=
  if isWellFormed s then read s else .refuse .brokenText

/-- Text. -/
def text : Json α → Checked String
  | .str s => ofText .valid s
  | _ => .refuse .notText

/-- Text that is not empty. -/
def filledText (v : Json α) : Checked String :=
  (text v).refine fun s => if s = "" then .refuse .emptyText else .valid s

/-! ### Whole numbers in text

A whole number is read as it stands or, failing that, once it is cleaned: white space, a plus sign, leading
zeros, a point with zeros behind it and lone underscores go. Both times what is read has to be in plain
form, and has at most `Json.digitLimit` digits. -/

/-- What a text in plain form reads as. -/
inductive PlainWhole where
  | value (n : Int)
  | tooLong
  | malformed

/-- Reads a whole number in plain form: a minus sign or none, and digits that begin with a zero only if
there is no other. More digits than may be read count, whatever stands behind them. -/
def plainWhole (cs : List Char) : PlainWhole :=
  let (negative, unsigned) := match cs with
    | '-' :: r => (true, r)
    | r => (false, r)
  let digits := unsigned.takeWhile Char.isDigit
  let leads := digits.head? == some '0'
  if !leads && Json.digitLimit < digits.length then .tooLong
  else if digits.isEmpty || digits.length != unsigned.length || (leads && 1 < digits.length) then
    .malformed
  else
    let n : Int := digits.foldl (fun n d => n * 10 + (d.toNat - 0x30)) 0
    .value (if negative then -n else n)

/-- What stands behind leading zeros and underscores, from a minus sign or a digit other than zero on, or
from the character before a point; of nothing but zeros and underscores the last stays. -/
def afterZeros (last : Char) : List Char → Option (List Char)
  | [] => some [last]
  | c :: rest =>
    if c = '0' ∨ c = '_' then afterZeros c rest
    else if c = '.' then some (last :: c :: rest)
    else if c.isDigit ∨ c = '-' then some (c :: rest)
    else none

def withoutLeadingZeros : List Char → Option (List Char)
  | [] => none
  | c :: rest =>
    if c = '0' then afterZeros c rest
    else if c.isDigit ∨ c = '-' then some (c :: rest)
    else none

/-- A text without a point that only zeros stand behind. -/
def withoutPoint (cs : List Char) : List Char :=
  match cs.dropWhile (· != '.') with
  | _ :: zero :: zeros => if (zero :: zeros).all (· == '0') then cs.takeWhile (· != '.') else cs
  | _ => cs

/-- Digits in plain form, if they can be brought to it. -/
def cleanedDigits (cs : List Char) : Option (List Char) :=
  (withoutLeadingZeros cs).map fun digits =>
    let digits := withoutPoint digits
    (withoutLoneUnderscores digits).getD digits

/-- The text of a whole number in plain form, if it can be brought to it. A minus sign stands aside while the
digits are cleaned. -/
def cleanedWhole (cs : List Char) : Option (List Char) :=
  match trimChars isSpaceChar cs with
  | '+' :: '-' :: _ => none
  | '+' :: r => cleanedDigits r
  | '-' :: r => (cleanedDigits r).map ('-' :: ·)
  | r => cleanedDigits r

/-- A whole number given as text. -/
def wholeOfText (s : String) : Checked Int :=
  match plainWhole s.toList with
  | .value n => .valid n
  | .tooLong => .refuse .wholeTooLong
  | .malformed =>
    match (cleanedWhole s.toList).map plainWhole with
    | some (.value n) => .valid n
    | _ => .refuse .unreadableWhole

section Numbers

variable [Scalar α]

/-- A whole number: whole, or a truth value, or a number or a text with nothing behind the point. -/
def whole : Json α → Checked Int
  | .num (.whole n) => .valid n
  | .num (.real x) =>
    match Scalar.toRat? x with
    | none => .refuse .notFinite
    | some q =>
      if q.den ≠ 1 then .refuse .fractional
      -- A number with a point or an exponent is taken for a whole one within 64 bits only.
      else if q.num.natAbs < twoTo 63 then .valid q.num
      else .refuse .wholeTooLong
  | .bool b => .valid (if b then 1 else 0)
  | .str s => ofText wholeOfText s
  | _ => .refuse .notWhole

def numberOfText (s : String) : Checked α :=
  match NumberGrammar.asciiDigits.read? s with
  | some x => .valid x
  | none => .refuse .unreadableNumber

/-- A number of any kind, also one that is not finite. -/
def number : Json α → Checked α
  | .num (.real x) => .valid x
  | .num (.whole n) =>
    match Scalar.ofRat? n with
    | some x => .valid x
    | none => .refuse .notNumber
  | .bool b => .valid (if b then Scalar.one else Scalar.zero)
  | .str s => ofText numberOfText s
  | _ => .refuse .notNumber

def finite (v : Json α) : Checked α :=
  (number v).refine fun x => if Scalar.isFinite x then .valid x else .refuse .notFinite

/-- A number above zero. -/
def positive (v : Json α) : Checked α :=
  (number v).refine fun x => if Scalar.zero < x then .valid x else .refuse .notPositive

/-- A number that is not below zero. -/
def nonnegative (v : Json α) : Checked α :=
  (number v).refine fun x => if Scalar.zero ≤ x then .valid x else .refuse .negative

/-- A number above zero and at most one. -/
def share (v : Json α) : Checked α :=
  (number v).refine fun x =>
    -- The upper bound is checked first, which matters for what is no number and fails both.
    if x ≤ Scalar.one then (if Scalar.zero < x then .valid x else .refuse .notPositive)
    else .refuse .aboveOne

/-- A number from zero to one. -/
def unitNumber (v : Json α) : Checked α :=
  (number v).refine fun x =>
    if x ≤ Scalar.one then (if Scalar.zero ≤ x then .valid x else .refuse .negative)
    else .refuse .aboveOne

/-- The truth value of a whole number: zero and one have one, and others are taken for none while they fit
into 64 bits. -/
def truthOfWhole (n : Int) : Checked Bool :=
  if n = 1 then .valid true
  else if n = 0 then .valid false
  else if -twoTo 63 ≤ n ∧ n < twoTo 63 then .refuse .unreadableBool
  else .refuse .notBool

/-- The truth value of a word, in letters of either case. -/
def truthOfText (s : String) : Checked Bool :=
  let w := String.ofList (s.toList.map Char.toLower)
  if ["1", "true", "t", "yes", "y", "on"].contains w then .valid true
  else if ["0", "false", "f", "no", "n", "off"].contains w then .valid false
  else .refuse .unreadableBool

/-- A truth value: zero and one and the usual words are taken for one. -/
def truth : Json α → Checked Bool
  | .bool b => .valid b
  | .num (.whole n) => truthOfWhole n
  | .num (.real x) =>
    match Scalar.toRat? x with
    | some q => if q.den = 1 ∧ q.num.natAbs < twoTo 63 then truthOfWhole q.num else .refuse .notBool
    | none => .refuse .notBool
  | .str s => ofText truthOfText s
  | _ => .refuse .notBool

end Numbers

/-- One of a fixed choice of texts. -/
def oneOf (options : List String) (ofText? : String → Option β) : Json α → Checked β
  | .str s =>
    ofText (fun s => match ofText? s with
      | some b => .valid b
      | none => .refuse (.notOneOf options)) s
  | _ => .refuse (.notOneOf options)

/-- A value that may be `null`. -/
def nullable (read : Json α → Checked β) : Json α → Checked (Option β)
  | .null => .valid none
  | v => (read v).map some

/-! ## Lists and tuples -/

/-- A list of values of one kind. -/
def list (read : Json α → Checked β) : Json α → Checked (List β)
  | .arr items => Checked.items read 0 items
  | _ => .refuse .notList

def tupleItem (read : Json α → Checked β) (items : List (Json α)) (index : Nat) : Checked β :=
  (match items[index]? with
    | some v => read v
    | none => .refuse .missing).within (.item index)

/-- A pair of values of one kind. -/
def pair (read : Json α → Checked β) : Json α → Checked (β × β)
  | .arr items =>
    if 2 < items.length then .refuse (.tupleTooLong 2 items.length)
    else (fun a b => (a, b)) <$> tupleItem read items 0 <*> tupleItem read items 1
  | _ => .refuse .notTuple

/-- Four values of one kind. -/
def quadruple (read : Json α → Checked β) : Json α → Checked (β × β × β × β)
  | .arr items =>
    if 4 < items.length then .refuse (.tupleTooLong 4 items.length)
    else (fun a b c d => (a, b, c, d)) <$> tupleItem read items 0 <*> tupleItem read items 1 <*>
      tupleItem read items 2 <*> tupleItem read items 3
  | _ => .refuse .notTuple

/-- The values of an object, each under its own name. -/
def table (read : Json α → Checked β) : Json α → Checked (Table β)
  | .obj fields => go fields
  | _ => .refuse .notObject
where
  /-- Reads the fields one by one. -/
  go : List (String × Json α) → Checked (Table β)
    | [] => .valid []
    | (name, v) :: rest =>
      (fun b bs => (name, b) :: bs) <$> (read v).within (.field name) <*> go rest

/-- An object of any fields. -/
def object : Json α → Checked (Fields α)
  | .obj fields => .valid fields
  | _ => .refuse .notObject

/-! ## Records -/

/-- The two spellings of a field, its alias in camel case and its name. -/
structure Key where
  camel : String
  name : String
  deriving Repr, DecidableEq

/-- A field with one spelling. -/
def Key.same (name : String) : Key := ⟨name, name⟩

/-- The spelling a field is given under, and its value. -/
def Key.find? (key : Key) (fields : Fields α) : Option (String × Json α) :=
  match Table.get? fields key.camel with
  | some v => some (key.camel, v)
  | none => (Table.get? fields key.name).map fun v => (key.name, v)

/-- A field that has to be present. -/
def required (key : Key) (read : Json α → Checked β) (fields : Fields α) : Checked β :=
  match key.find? fields with
  | some (spelling, v) => (read v).within (.field spelling)
  -- What is missing is complained about under its alias.
  | none => (Checked.refuse .missing).within (.field key.camel)

/-- A field with a default. -/
def optional (key : Key) (fallback : β) (read : Json α → Checked β) (fields : Fields α) : Checked β :=
  match key.find? fields with
  | some (spelling, v) => (read v).within (.field spelling)
  | none => .valid fallback

/-- The fields of a record of a model. -/
def record (model : String) (read : Fields α → Checked β) : Json α → Checked β
  | .obj fields => read fields
  | _ => .refuse (.notRecord model)

/-! ## Writing records -/

/-- How records are written: under aliases or names, with or without the fields that are `null`. -/
structure Spelling where
  aliases : Bool
  nulls : Bool

namespace Spelling

/-- Aliases, `null` fields left out: how documents are stored. -/
def stored : Spelling := ⟨true, false⟩

/-- Aliases, `null` fields kept: how results are answered. -/
def answered : Spelling := ⟨true, true⟩

/-- Names, `null` fields kept: every field of a record. -/
def full : Spelling := ⟨false, true⟩

/-- Names, `null` fields left out. -/
def bare : Spelling := ⟨false, false⟩

end Spelling

/-- Whether raw data is `null`. -/
def isNull : Json α → Bool
  | .null => true
  | _ => false

/-- The record of some fields in a spelling. -/
def write (sp : Spelling) (fields : List (Key × Json α)) : Json α :=
  .obj <| (if sp.nulls then fields else fields.filter fun (_, v) => !isNull v).map fun (k, v) =>
    (if sp.aliases then k.camel else k.name, v)

end Drawing.Schema
