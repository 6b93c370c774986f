import Drawing.Path.Command
import Drawing.Path.Lexeme
import Drawing.Text.Quoted

/-!
# `Drawing/Path/Check.lean` — the strict grammar of path data

Path data of our own begins with a move and gives every letter exactly the numbers it takes. The check
reads a text as letters and numbers and lists everything that departs from that; what is neither letter
nor number nor separator is reported once, in front of all else.
-/

namespace Drawing

/-- A piece of path data: a letter or the text of a number. -/
inductive DataToken where
  | letter (c : Char)
  | number (text : String)
  deriving Repr, BEq, DecidableEq

namespace DataToken

def isLetter : DataToken → Bool
  | letter _ => true
  | number _ => false

def text : DataToken → String
  | letter c => String.singleton c
  | number s => s

/-- The command letter that a token is, if it is one. -/
def command? : DataToken → Option Letter
  | letter c => Letter.ofChar? c
  | number _ => none

end DataToken

/-- The tokens of a text. Other characters are passed over. -/
def dataTokens (fuel : Nat) (cs : List Char) : List DataToken :=
  match fuel, cs with
  | 0, _ => []
  | _, [] => []
  | fuel + 1, c :: rest =>
    if c.isAlpha then .letter c :: dataTokens fuel rest
    else match LexemeGrammar.own.number? (c :: rest) with
      | some (number, rest) => .number (String.ofList number) :: dataTokens fuel rest
      | none => dataTokens fuel rest

def tokensOf (s : String) : List DataToken := dataTokens s.length s.toList

/-- Whether a character has no business in path data. -/
def isDataJunk (c : Char) : Bool :=
  !(isBlank c || c.isAlphanum || c == '.' || c == ',' || c == '+' || c == '-')

/-- What is wrong with path data. -/
inductive DataProblem where
  | junk
  | empty
  | unexpected (token : String)
  | noMove
  | tooFew (letter : Letter)
  | tooMany (letter : Letter)
  deriving Repr, BEq, DecidableEq

def DataProblem.text : DataProblem → String
  | junk => "unexpected characters in path data"
  | empty => "empty path data"
  | unexpected token => "unexpected token " ++ quoted token
  | noMove => "path data must start with M"
  | tooFew l => l.text ++ s!" expects {l.arity} coordinates"
  | tooMany l => l.text ++ " has extra coordinates"

/-- The tokens from the next letter on. -/
def fromNextLetter (ts : List DataToken) : List DataToken := ts.dropWhile fun t => !t.isLetter

/-- The problems of a list of tokens; `first` says that no command has been met yet. -/
def tokenProblems (fuel : Nat) (first : Bool) (ts : List DataToken) : List DataProblem :=
  match fuel, ts with
  | 0, _ => []
  | _, [] => []
  | fuel + 1, t :: rest =>
    match t.command? with
    | none => .unexpected t.text :: tokenProblems fuel first rest
    | some l =>
      let opening := if first && l != .move then [DataProblem.noMove] else []
      -- Behind a wrong number of coordinates reading goes on with the next letter.
      let args := rest.take l.arity
      let (problems, rest) :=
        if args.length != l.arity || args.any DataToken.isLetter then
          ([DataProblem.tooFew l], fromNextLetter rest)
        else
          let after := rest.drop l.arity
          match after with
          | [] => ([], [])
          | next :: _ => if next.isLetter then ([], after) else ([.tooMany l], fromNextLetter after)
      opening ++ problems ++ tokenProblems fuel false rest

/-- All problems of path data. -/
def dataProblems (s : String) : List DataProblem :=
  let ts := tokensOf s
  (if s.toList.any isDataJunk then [.junk] else []) ++
    (if ts.isEmpty then [.empty] else tokenProblems ts.length true ts)

end Drawing
