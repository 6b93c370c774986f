import Drawing.Number.Reading
import Drawing.Path.Lexeme
import Drawing.Table
import Drawing.Text.Word

/-!
# `Drawing/Markup/Reader.lean` — reading markup back

Just enough reading to check our own markup: the attributes inside a tag, the tags of paths, and the
view box. Nothing here knows about nesting or entities.
-/

namespace Drawing

/-- Whether a character may stand in the name of an attribute. -/
def isNameChar (c : Char) : Bool := isWordChar c || c == ':' || c == '-'

/-- The quoted value behind an equals sign, and the rest. Blanks may surround the sign. -/
def quotedValue? (cs : List Char) : Option (List Char × List Char) :=
  match cs.dropWhile isBlank with
  | '=' :: rest =>
    match rest.dropWhile isBlank with
    | '"' :: rest =>
      match spanChars (· != '"') rest with
      | (value, '"' :: rest) => some (value, rest)
      | _ => none
    | _ => none
  | _ => none

/-- The attributes in a text, in order. -/
def attributePairs (fuel : Nat) (cs : List Char) : List (String × String) :=
  match fuel, cs with
  | 0, _ => []
  | _, [] => []
  | fuel + 1, c :: rest =>
    if isNameChar c then
      let (name, rest) := spanChars isNameChar (c :: rest)
      match quotedValue? rest with
      | some (value, rest) =>
        (String.ofList name, String.ofList value) :: attributePairs fuel rest
      -- A name without a value is passed over as a whole.
      | none => attributePairs fuel rest
    else attributePairs fuel rest

/-- The attributes in a text as a table; of several of one name the last one counts. -/
def readAttributes (cs : List Char) : Table String :=
  (attributePairs cs.length cs).foldl (fun t (name, value) => Table.put name value t) []

/-- The text behind a word in any case. -/
def afterWord? (word cs : List Char) : Option (List Char) :=
  if (cs.take word.length).map Char.toLower = word then some (cs.drop word.length) else none

/-- The inside of a path tag that begins here, and the rest. The name of the tag has to end there. -/
def pathTag? (cs : List Char) : Option (List Char × List Char) :=
  match afterWord? "<path".toList cs with
  | none => none
  | some rest =>
    if rest.head?.any isWordChar then none
    else match spanChars (· != '>') rest with
      | (inside, '>' :: rest) =>
        some (if inside.getLast? = some '/' then inside.dropLast else inside, rest)
      | _ => none

/-- The insides of all path tags. -/
def pathTags (fuel : Nat) (cs : List Char) : List (List Char) :=
  match fuel, cs with
  | 0, _ => []
  | _, [] => []
  | fuel + 1, c :: rest =>
    match pathTag? (c :: rest) with
    | some (inside, rest) => inside :: pathTags fuel rest
    | none => pathTags fuel rest

/-- The attributes of all path tags, in order. -/
def readPathTags (markup : String) : List (Table String) :=
  (pathTags markup.length markup.toList).map readAttributes

/-- The text of the first view box. -/
def viewBoxValue? : List Char → Option (List Char)
  | [] => none
  | c :: rest =>
    let here := "viewBox".toList
    match if here.isPrefixOf (c :: rest) then quotedValue? ((c :: rest).drop here.length) else none with
    | some (value, _) => some value
    | none => viewBoxValue? rest

/-- The numbers in a text, set off by blanks or commas; `none` if a word is no number. -/
def readNumbers? {α : Type} [Scalar α] (cs : List Char) : Option (List α) :=
  (blankWords (cs.map fun c => if c = ',' then ' ' else c)).mapM fun w =>
    NumberGrammar.anyScript.read? (String.ofList w)

/-- The four numbers of the first view box. -/
def readViewBox? {α : Type} [Scalar α] (markup : String) : Option (List α) :=
  match (viewBoxValue? markup.toList).bind readNumbers? with
  | some [x, y, w, h] => some [x, y, w, h]
  | _ => none

end Drawing
