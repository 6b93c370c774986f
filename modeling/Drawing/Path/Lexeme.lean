import Drawing.Number.Reading

/-!
# `Drawing/Path/Lexeme.lean` — numbers inside path data

Path data holds numbers back to back: `10-5.5.5` is three of them. A number is the longest text of an
optional sign, digits with an optional point, and an optional exponent. Two grammars differ in one
place: our own also takes a point that no digit follows, foreign data leaves it.
-/

namespace Drawing

/-- The characters of a class at the front of a text, and the rest. -/
def spanChars (p : Char → Bool) (cs : List Char) : List Char × List Char := (cs.takeWhile p, cs.dropWhile p)

/-- Which digits and points a number may have. -/
structure LexemeGrammar where
  isDigit : Char → Bool
  /-- Whether a point may end a number. -/
  trailingPoint : Bool

namespace LexemeGrammar

/-- Numbers in foreign path data. -/
def foreign : LexemeGrammar := ⟨Char.isDigit, false⟩

/-- Numbers in path data of our own, with digits of every script. -/
def own : LexemeGrammar := ⟨isAnyDigit, true⟩

/-- The exponent at the front of a text, empty if there is none, and the rest. -/
def exponent (g : LexemeGrammar) (cs : List Char) : List Char × List Char :=
  match cs with
  | e :: rest =>
    if e = 'e' ∨ e = 'E' then
      let (sign, digits) := match rest with
        | '-' :: r => (['-'], r)
        | '+' :: r => (['+'], r)
        | r => ([], r)
      match spanChars g.isDigit digits with
      | ([], _) => ([], cs)
      | (ds, after) => (e :: sign ++ ds, after)
    else ([], cs)
  | [] => ([], [])

/-- The digits and the point at the front of a text. -/
def digits? (g : LexemeGrammar) (cs : List Char) : Option (List Char × List Char) :=
  let (whole, rest) := spanChars g.isDigit cs
  match rest with
  | '.' :: after =>
    match spanChars g.isDigit after, whole with
    | ([], _), [] => none
    | ([], _), _ :: _ => if g.trailingPoint then some (whole ++ ['.'], after) else some (whole, rest)
    | (ds, after), _ => some (whole ++ '.' :: ds, after)
  | _ => if whole.isEmpty then none else some (whole, rest)

/-- The number at the front of a text, and the rest. -/
def number? (g : LexemeGrammar) (cs : List Char) : Option (List Char × List Char) :=
  let (sign, unsigned) := match cs with
    | '-' :: r => (['-'], r)
    | '+' :: r => (['+'], r)
    | r => ([], r)
  (g.digits? unsigned).map fun (ds, rest) =>
    let (e, rest) := g.exponent rest
    (sign ++ ds ++ e, rest)

end LexemeGrammar

/-- The value of a number's text. -/
def lexemeValue {α : Type} [Scalar α] (cs : List Char) : α :=
  (NumberGrammar.anyScript.read? (String.ofList cs)).getD Scalar.zero

end Drawing
