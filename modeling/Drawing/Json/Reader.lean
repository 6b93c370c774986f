import Drawing.Json.Basic
import Drawing.Text.Character

/-!
# `Drawing/Json/Reader.lean` — reading raw data

A reader for the data language of design documents. It accepts the three words `NaN`, `Infinity` and
`-Infinity` besides the standard grammar, and of two fields with one name it keeps the place of the
first and the value of the last. A fault names its cause and the place where reading stopped, counted in
characters from zero; `SyntaxFault.text` adds line and column. What goes beyond a limit is refused where the
limit is passed, whatever stands behind it.

Every function takes a `Cursor`, the text still ahead together with the number of characters already
read, so that places are right by construction.
-/

namespace Drawing.Json

/-- Why a text is not raw data. -/
inductive SyntaxCause where
  | expectedValue
  | expectedName
  | expectedColon
  | expectedComma
  | unterminatedString
  | controlCharacter
  | invalidEscape
  | invalidCodePoint
  | extraData
  | byteOrderMark
  deriving Repr, DecidableEq

/-- A fault in the text: its cause and its place. -/
structure SyntaxFault where
  cause : SyntaxCause
  place : Nat
  deriving Repr, DecidableEq

/-- Why a text is not read. -/
inductive ReadFault where
  | malformed (fault : SyntaxFault)
  | limit (fault : LimitFault)
  deriving Repr, DecidableEq

/-- What is read of a text, or why it is not. -/
abbrev Reading (β : Type) := Except ReadFault β

def SyntaxCause.text : SyntaxCause → String
  | expectedValue => "Expecting value"
  | expectedName => "Expecting property name enclosed in double quotes"
  | expectedColon => "Expecting ':' delimiter"
  | expectedComma => "Expecting ',' delimiter"
  | unterminatedString => "Unterminated string starting at"
  | controlCharacter => "Invalid control character at"
  | invalidEscape => "Invalid \\escape"
  | invalidCodePoint => "Invalid \\uXXXX escape"
  | extraData => "Extra data"
  | byteOrderMark => "Unexpected UTF-8 BOM (decode using utf-8-sig)"

/-- The wording of a fault in a text: cause, line, column and place. Lines and columns count from one. -/
def SyntaxFault.text (source : List Char) (f : SyntaxFault) : String :=
  let before := source.take f.place
  let line := before.count '\n' + 1
  let column := (before.reverse.takeWhile (· != '\n')).length + 1
  s!"{f.cause.text}: line {line} column {column} (char {f.place})"

/-- A place in a text: what is ahead, and how many characters are behind. -/
structure Cursor where
  ahead : List Char
  place : Nat

namespace Cursor

/-- Passes over blanks. -/
def skipBlanks (c : Cursor) : Cursor :=
  let isBlank := fun (ch : Char) => ch == ' ' || ch == '\t' || ch == '\n' || ch == '\r'
  ⟨c.ahead.dropWhile isBlank, c.place + (c.ahead.takeWhile isBlank).length⟩

/-- Passes over `n` characters. -/
def advance (c : Cursor) (n : Nat) : Cursor := ⟨c.ahead.drop n, c.place + n⟩

/-- Passes over a word if it is ahead. -/
def word? (c : Cursor) (w : String) : Option Cursor :=
  let cs := w.toList
  if cs.isPrefixOf c.ahead then some (c.advance cs.length) else none

/-- The digits ahead, and the cursor behind them. -/
def digits (c : Cursor) : List Char × Cursor :=
  let ds := c.ahead.takeWhile Char.isDigit
  (ds, c.advance ds.length)

end Cursor

/-- A fault of grammar at a place. -/
def malformed {β : Type} (cause : SyntaxCause) (place : Nat) : Reading β := .error (.malformed ⟨cause, place⟩)

/-- A fault of grammar at the cursor. -/
def Cursor.fault {β : Type} (c : Cursor) (cause : SyntaxCause) : Reading β := malformed cause c.place

/-- The value of a text of digits. -/
def digitsValue (ds : List Char) : Nat := ds.foldl (fun n d => n * 10 + (d.toNat - 0x30)) 0

/-- The value of a hexadecimal digit. -/
def hexValue? (c : Char) : Option Nat :=
  if c.isDigit then some (c.toNat - 0x30)
  else if 'a' ≤ c ∧ c ≤ 'f' then some (c.toNat - 0x61 + 10)
  else if 'A' ≤ c ∧ c ≤ 'F' then some (c.toNat - 0x41 + 10)
  else none

/-- The value of four hexadecimal digits. -/
def hex4? (a b c d : Char) : Option Nat := do
  let a ← hexValue? a
  let b ← hexValue? b
  let c ← hexValue? c
  let d ← hexValue? d
  return ((a * 16 + b) * 16 + c) * 16 + d

/-- The character of an escape of one letter. -/
def simpleEscape? (c : Char) : Option Char :=
  if c = '"' ∨ c = '\\' ∨ c = '/' then some c
  else if c = 'b' then some '\x08'
  else if c = 'f' then some '\x0c'
  else if c = 'n' then some '\n'
  else if c = 'r' then some '\r'
  else if c = 't' then some '\t'
  else none

/-- The rest of a string whose opening mark stands at `start`, up to its closing mark. `read` is what
has been read of it so far, in reverse. -/
def stringBody (start : Nat) (read : List Char) (place : Nat) :
    List Char → Reading (List Char × Cursor)
  | [] => malformed .unterminatedString start
  | '"' :: rest => .ok (read.reverse, ⟨rest, place + 1⟩)
  -- Two escapes in a row may be the halves of a pair. Here and below something has to follow the digits:
  -- an escape that ends the text is cut off.
  | '\\' :: 'u' :: a :: b :: c :: d :: '\\' :: 'u' :: e :: f :: g :: h :: x :: rest =>
    match hex4? a b c d with
    | none => malformed .invalidCodePoint (place + 1)
    | some n =>
      if isHighSurrogate n then
        match hex4? e f g h with
        | none => malformed .invalidCodePoint (place + 7)
        | some m =>
          if isLowSurrogate m then
            stringBody start (surrogatePair n m :: read) (place + 12) (x :: rest)
          else
            -- The second escape is no second half and is read again on its own.
            stringBody start (codeUnit n :: read) (place + 6)
              ('\\' :: 'u' :: e :: f :: g :: h :: x :: rest)
      else
        stringBody start (codeUnit n :: read) (place + 6)
          ('\\' :: 'u' :: e :: f :: g :: h :: x :: rest)
  | '\\' :: 'u' :: a :: b :: c :: d :: x :: rest =>
    match hex4? a b c d with
    | none => malformed .invalidCodePoint (place + 1)
    | some n => stringBody start (codeUnit n :: read) (place + 6) (x :: rest)
  | '\\' :: 'u' :: _ => malformed .invalidCodePoint (place + 1)
  | ['\\'] => malformed .unterminatedString start
  | '\\' :: e :: rest =>
    match simpleEscape? e with
    | none => malformed .invalidEscape place
    | some ch => stringBody start (ch :: read) (place + 2) rest
  | ch :: rest =>
    if ch.toNat < 0x20 then malformed .controlCharacter place
    else stringBody start (ch :: read) (place + 1) rest

/-- Reads the rest of a string, the cursor being just behind its opening mark. -/
def readString (c : Cursor) : Reading (String × Cursor) :=
  (stringBody (c.place - 1) [] c.place c.ahead).map fun (cs, rest) => (String.ofList cs, rest)

section

variable {α : Type} [Scalar α]

/-- The decimals of a number, if a point with a digit is ahead. -/
def readDecimals (c : Cursor) : Option (List Char × Cursor) :=
  match c.ahead with
  | '.' :: _ =>
    let (ds, rest) := (c.advance 1).digits
    -- A point without a digit behind it is no part of the number.
    if ds.isEmpty then none else some (ds, rest)
  | _ => none

/-- The exponent of a number, if one is ahead. -/
def readExponent (c : Cursor) : Option (Int × Cursor) :=
  match c.ahead with
  | e :: _ =>
    if e = 'e' ∨ e = 'E' then
      let afterLetter := c.advance 1
      let (negative, afterSign) := match afterLetter.ahead with
        | '-' :: _ => (true, afterLetter.advance 1)
        | '+' :: _ => (false, afterLetter.advance 1)
        | _ => (false, afterLetter)
      let (ds, rest) := afterSign.digits
      let n : Int := digitsValue ds
      if ds.isEmpty then none else some (if negative then -n else n, rest)
    else none
  | [] => none

/-- Reads a number. One with neither decimals nor exponent is whole. -/
def readNumber (start : Cursor) : Reading (Numeral α × Cursor) :=
  let (negative, c) := match start.ahead with
    | '-' :: _ => (true, start.advance 1)
    | _ => (false, start)
  let (whole, c) := match c.ahead with
    -- A leading zero stands alone, so digits behind it are no part of the number.
    | '0' :: _ => (['0'], c.advance 1)
    | _ => c.digits
  if whole.isEmpty then start.fault .expectedValue
  else
    let (decimals, afterDecimals) := match readDecimals c with
      | some (ds, rest) => (ds, rest)
      | none => ([], c)
    match decimals.isEmpty, readExponent afterDecimals with
    | true, none =>
      if digitLimit < whole.length then .error (.limit (.digits whole.length))
      else
        let n : Int := digitsValue whole
        .ok (.whole (if negative then -n else n), c)
    | _, found =>
      let (e, rest) := found.getD (0, afterDecimals)
      let x : α := Scalar.ofDecimal (digitsValue (whole ++ decimals)) (e - decimals.length)
      .ok (.real (if negative then -x else x), rest)

/-- Reads a number or one of the words for values that are not finite. -/
def readNumeric (c : Cursor) : Reading (Json α × Cursor) :=
  match c.word? "NaN", c.word? "Infinity", c.word? "-Infinity" with
  | some rest, _, _ => .ok (ofReal (Scalar.zero / Scalar.zero), rest)
  | _, some rest, _ => .ok (ofReal (Scalar.one / Scalar.zero), rest)
  | _, _, some rest => .ok (ofReal (-(Scalar.one / Scalar.zero)), rest)
  | none, none, none => (readNumber c).map fun (n, rest) => (.num n, rest)

/-- Reads a value that is neither a string nor a list nor an object. -/
def readAtom (c : Cursor) : Reading (Json α × Cursor) :=
  match c.word? "null", c.word? "true", c.word? "false" with
  | some rest, _, _ => .ok (.null, rest)
  | _, some rest, _ => .ok (.bool true, rest)
  | _, _, some rest => .ok (.bool false, rest)
  | none, none, none => readNumeric c

/-- What follows an item: the end of its list or object, or a comma and the next item. -/
inductive Continuation where
  | closed (rest : Cursor)
  | next (rest : Cursor)

/-- Reads what follows an item. -/
def readContinuation (close : Char) (c : Cursor) : Reading Continuation :=
  let c := c.skipBlanks
  match c.ahead with
  | ch :: _ =>
    if ch = close then .ok (.closed (c.advance 1))
    else if ch = ',' then .ok (.next (c.advance 1).skipBlanks)
    else c.fault .expectedComma
  | [] => c.fault .expectedComma

/-- Reads the name of a field and its colon. -/
def readName (c : Cursor) : Reading (String × Cursor) :=
  match c.ahead with
  | '"' :: _ => do
    let (name, rest) ← readString (c.advance 1)
    let rest := rest.skipBlanks
    match rest.ahead with
    | ':' :: _ => return (name, (rest.advance 1).skipBlanks)
    | _ => rest.fault .expectedColon
  | _ => c.fault .expectedName

mutual

/-- Reads one value, inside of which lists and objects may be nested `depth` times. The fuel bounds the
nesting and the number of items on the way to any one value, both of which cost characters, so twice the
length of the text suffices. -/
def readValue (fuel depth : Nat) (c : Cursor) : Reading (Json α × Cursor) :=
  match fuel with
  | 0 => c.fault .expectedValue
  | fuel + 1 =>
    match c.ahead with
    | '"' :: _ => (readString (c.advance 1)).map fun (s, rest) => (.str s, rest)
    | '[' :: _ =>
      match depth with
      | 0 => .error (.limit .nestedList)
      | depth + 1 =>
        let c := (c.advance 1).skipBlanks
        match c.ahead with
        | ']' :: _ => .ok (.arr [], c.advance 1)
        | _ => (readItems fuel depth [] c).map fun (items, rest) => (.arr items, rest)
    | '\x7b' :: _ =>
      match depth with
      | 0 => .error (.limit .nestedObject)
      | depth + 1 =>
        let c := (c.advance 1).skipBlanks
        match c.ahead with
        | '\x7d' :: _ => .ok (.obj [], c.advance 1)
        | _ => (readFields fuel depth [] c).map fun (fields, rest) => (.obj fields, rest)
    | _ => readAtom c

/-- Reads the items of a list up to its end; `read` holds the items so far, in reverse. -/
def readItems (fuel depth : Nat) (read : List (Json α)) (c : Cursor) :
    Reading (List (Json α) × Cursor) :=
  match fuel with
  | 0 => c.fault .expectedValue
  | fuel + 1 => do
    let (item, rest) ← readValue fuel depth c
    match ← readContinuation ']' rest with
    | .closed rest => return ((item :: read).reverse, rest)
    | .next rest => readItems fuel depth (item :: read) rest

/-- Reads the fields of an object up to its end; `read` holds the fields so far. -/
def readFields (fuel depth : Nat) (read : Fields α) (c : Cursor) :
    Reading (Fields α × Cursor) :=
  match fuel with
  | 0 => c.fault .expectedValue
  | fuel + 1 => do
    let (name, rest) ← readName c
    let (value, rest) ← readValue fuel depth rest
    -- A name that comes again keeps its place and takes the later value.
    let read := Table.put name value read
    match ← readContinuation '\x7d' rest with
    | .closed rest => return (read, rest)
    | .next rest => readFields fuel depth read rest

end

/-- Reads a whole text as one value. -/
def read (source : List Char) : Reading (Json α) :=
  let start : Cursor := ⟨source, 0⟩
  match source with
  | '\ufeff' :: _ => start.fault .byteOrderMark
  | _ => do
    let (value, rest) ← readValue (2 * source.length + 2) depthLimit start.skipBlanks
    let rest := rest.skipBlanks
    if rest.ahead.isEmpty then return value else rest.fault .extraData

end

end Drawing.Json
