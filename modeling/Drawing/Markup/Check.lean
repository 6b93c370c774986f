import Drawing.Markup.Attribute
import Drawing.Markup.Reader
import Drawing.Path.Check
import Drawing.Text.Word

/-!
# `Drawing/Markup/Check.lean` — checking markup

Markup is fine if it has a root with the right name space and a view box, and if the data of every path
follows the strict grammar. The check reads text only, so it can be made of markup of any origin.
-/

namespace Drawing

/-- A problem with the data of one path. -/
structure PathIssue where
  path : String
  problem : String
  deriving Repr, BEq, DecidableEq

def PathIssue.text (i : PathIssue) : String := "Invalid path data in " ++ quoted i.path ++ ": " ++ i.problem

def PathIssue.fault {α : Type} (i : PathIssue) : Fault α := .pathCommand i.text i.path

/-- What a check of markup found. -/
structure MarkupReport where
  /-- What the root lacks. -/
  lacking : List String
  issues : List PathIssue
  deriving Repr

namespace MarkupReport

/-- All findings as messages. -/
def errors (r : MarkupReport) : List String := r.lacking ++ r.issues.map PathIssue.text

/-- Whether nothing was found. -/
def isValid (r : MarkupReport) : Bool := r.lacking.isEmpty && r.issues.isEmpty

end MarkupReport

/-- The marks that markup has to contain, each with what to say if it does not. -/
def rootMarks : List (String × String) := [
  ("<svg", "Missing <svg> root element"),
  ("</svg>", "Missing closing </svg> tag"),
  ("xmlns=\"" ++ svgNamespace ++ "\"", "Missing SVG namespace"),
  ("viewBox=", "Missing viewBox attribute")]

/-- The problems of the path with an index, which names it if it has no id. -/
def pathIssues (index : Nat) (attributes : Table String) : List PathIssue :=
  let path := (Table.get? attributes "id").getD s!"#{index}"
  match Table.get? attributes "d" with
  | none => [⟨path, "missing d attribute"⟩]
  | some d => (dataProblems d).map fun p => ⟨path, p.text⟩

/-- The problems of paths, the first of which has a given index. -/
def allPathIssues (index : Nat) : List (Table String) → List PathIssue
  | [] => []
  | t :: rest => pathIssues index t ++ allPathIssues (index + 1) rest

def checkMarkup (markup : String) : MarkupReport where
  lacking := rootMarks.filterMap fun (mark, message) =>
    if containsText markup mark then none else some message
  issues := allPathIssues 0 (readPathTags markup)

end Drawing
