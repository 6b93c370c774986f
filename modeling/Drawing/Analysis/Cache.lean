import Drawing.Number.Arithmetic

/-!
# `Drawing/Analysis/Cache.lean` — a bounded memory of results

A cache holds the results of the keys used last, at most as many as its capacity. To put a result and to
get one that is there are both uses; to ask whether one is there is not. Entries are kept in the order of
their last use, so the one to give up is always the first.
-/

namespace Drawing

/-- Results by key, the one used longest ago first. -/
structure Cache (β : Type) where
  capacity : Nat
  entries : List (String × β)
  /-- How often a result was asked for and there. -/
  hits : Nat
  /-- How often a result was asked for and not there. -/
  misses : Nat
  capacity_pos : 0 < capacity

namespace Cache

variable {β : Type}

/-- An empty cache of some capacity. -/
def ofCapacity (n : Nat) (h : 0 < n) : Cache β := ⟨n, [], 0, 0, h⟩

/-- More room than is ever used. -/
def endlessRoom : Nat := 1000000000000

/-- How many results there is room for in a cache of at least one; what is no number limits nothing. -/
def roomOf {α : Type} [Scalar α] (capacity : Numeral α) : Nat :=
  if capacity.isBelow (.whole 1) then 0
  else match capacity.toRat? with
    | some q => q.floor.toNat
    | none => endlessRoom

/-- An empty cache, or the fault that it would have no room. -/
def create {α : Type} [Scalar α] (capacity : Numeral α) : Except (Fault α) (Cache β) :=
  if h : 0 < roomOf capacity then .ok (ofCapacity (roomOf capacity) h) else .error .emptyCache

/-- The number of results held. -/
def size (c : Cache β) : Nat := c.entries.length

def contains (c : Cache β) (key : String) : Bool := (c.entries.lookup key).isSome

/-- Entries with a result as the one used last. -/
def touch (key : String) (value : β) (entries : List (String × β)) : List (String × β) :=
  entries.filter (fun (k, _) => k != key) ++ [(key, value)]

/-- Keeps a result, giving up the ones used longest ago if there are too many. -/
def put (c : Cache β) (key : String) (value : β) : Cache β :=
  let entries := touch key value c.entries
  -- The entry used longest ago stands first, so what is too much goes from the front.
  { c with entries := entries.drop (entries.length - c.capacity) }

/-- The result of a key, and the cache that has counted the question. -/
def get (c : Cache β) (key : String) : Option β × Cache β :=
  match c.entries.lookup key with
  | some value =>
    (some value, { c with entries := touch key value c.entries, hits := c.hits + 1 })
  | none => (none, { c with misses := c.misses + 1 })

/-- Forgets everything, counts included. -/
def clear (c : Cache β) : Cache β := { c with entries := [], hits := 0, misses := 0 }

end Cache

end Drawing
