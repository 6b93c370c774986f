import Drawing.Fault
import Drawing.Json.Reader
import Drawing.Text.Character

/-!
# `Drawing/Validation/Payload.lean` — the document inside a reply

A reply may wrap its document in prose or in a code fence. What counts is the text from the first opening
to the last closing brace; a reply without a pair of braces is taken as a whole, without its fence.
-/

namespace Drawing

/-- The mark of a code fence. -/
def fence : List Char := ['\x60', '\x60', '\x60']

/-- A text without the word it begins with, if it does. -/
def dropWord (word cs : List Char) : List Char := if word.isPrefixOf cs then cs.drop word.length else cs

/-- A text without an opening fence, its tag and the blanks behind it. -/
def dropOpeningFence (cs : List Char) : List Char :=
  if fence.isPrefixOf cs then (dropWord "json".toList (cs.drop fence.length)).dropWhile isBlank else cs

/-- A text without a closing fence, the line break before it and the blanks behind it. -/
def dropClosingFence (cs : List Char) : List Char :=
  let backwards := cs.reverse.dropWhile isBlank
  if fence.isPrefixOf backwards then
    match backwards.drop fence.length with
    | '\n' :: rest => rest.reverse
    | rest => rest.reverse
  else cs

/-- The text from the first opening to the last closing brace, if there are such. -/
def bracedPart? (cs : List Char) : Option (List Char) :=
  let fromOpening := cs.dropWhile (· != '\x7b')
  let toClosing := (fromOpening.reverse.dropWhile (· != '\x7d')).reverse
  if toClosing.isEmpty then none else some toClosing

/-- The part of a reply that is read. -/
def payload (reply : List Char) : List Char :=
  let cleaned := trimChars isBlank (dropClosingFence (dropOpeningFence (trimChars isBlank reply)))
  (bracedPart? cleaned).getD cleaned

/-- The object in a reply. -/
def readReply {α : Type} [Scalar α] (reply : String) : Except (Fault α) (Fields α) :=
  let cs := payload reply.toList
  match Json.read cs with
  | .error (.limit f) => .error (.limit f)
  | .error (.malformed f) => .error (.schema ["Response is not valid JSON: " ++ f.text cs])
  | .ok (.obj fields) => .ok fields
  | .ok _ => .error (.schema ["Response JSON is not an object"])

end Drawing
