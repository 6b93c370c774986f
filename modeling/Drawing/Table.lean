/-!
# `Drawing/Table.lean` — named values in order

A table is a list of named values in the order in which the names were first set. Setting a name that
is already there keeps its place, so no name occurs twice in a table built by `put`.
-/

namespace Drawing

/-- Named values, in the order in which the names were first set. -/
abbrev Table (β : Type) := List (String × β)

namespace Table

variable {β : Type}

def get? (t : Table β) (name : String) : Option β := t.lookup name

def has (t : Table β) (name : String) : Bool := (t.lookup name).isSome

/-- Sets a name: in place if it is set already, at the end otherwise. -/
def put (name : String) (value : β) : Table β → Table β
  | [] => [(name, value)]
  | (n, v) :: rest => if n = name then (n, value) :: rest else (n, v) :: put name value rest

def erase (name : String) (t : Table β) : Table β := t.filter fun (n, _) => n != name

/-- The names, in order. -/
def names (t : Table β) : List String := t.map Prod.fst

/-- Changes the value of a name, or sets it from a default. -/
def update (name : String) (fallback : β) (change : β → β) (t : Table β) : Table β :=
  put name (change ((get? t name).getD fallback)) t

end Table

end Drawing
