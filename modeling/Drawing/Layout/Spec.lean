import Drawing.Region.Anchor

/-!
# `Drawing/Layout/Spec.lean` — what a layout asks for

A layout says where a shape goes instead of giving coordinates: a region, a point of that region, an
offset in fractions of it, a size and a repetition. Every part may be left out, to be inherited from the
layer or the document (`Drawing/Layout/Effective.lean`).
-/

namespace Drawing

/-- A requested size: in pixels, as a share of the region, or by width and aspect. -/
inductive SizeSpec (α : Type) where
  | absolute (width height : α)
  | relative (share : α)
  | constrained (width aspect : α)
  deriving Repr, BEq, DecidableEq

/-- The two patterns of repetition. -/
inductive Pattern where
  | grid
  | radial
  deriving Repr, BEq, DecidableEq

/-- How often a shape is repeated: a number, or columns and rows. -/
inductive RepeatCount where
  | one (n : Nat)
  | pair (columns rows : Nat)
  deriving Repr, BEq, DecidableEq

/-- A repetition: its pattern and count, the spacing of a grid, the radius of a circle. -/
structure Repetition (α : Type) where
  pattern : Pattern
  count : RepeatCount
  spacing : Option α
  radius : Option α
  deriving Repr, BEq, DecidableEq

/-- The layout of a layer or of a path. -/
structure LayoutSpec (α : Type) where
  region : Option String
  anchor : Option Anchor
  offset : Option (Point α)
  size : Option (SizeSpec α)
  repetition : Option (Repetition α)
  zIndex : Option Int
  deriving Repr, BEq, DecidableEq

/-! ## Sizes -/

namespace SizeSpec

variable {α : Type}

/-- Puts the three forms of a size together, of which exactly one may be given. -/
def choose : Option (SizeSpec α) → Option (SizeSpec α) → Option (SizeSpec α) → Checked (SizeSpec α)
  | some s, none, none => .valid s
  | none, some s, none => .valid s
  | none, none, some s => .valid s
  | _, _, _ =>
    .refuse (.refused "size needs exactly one of absolute, relative, aspect_constrained")

section

variable [Scalar α]

/-- Reads a width and a height. -/
def readAbsolute : Json α → Checked (SizeSpec α) :=
  Schema.record "AbsoluteSize" fun fields =>
    absolute <$> Schema.required (.same "width") Schema.positive fields <*>
      Schema.required (.same "height") Schema.positive fields

/-- Reads a width and an aspect. -/
def readConstrained : Json α → Checked (SizeSpec α) :=
  Schema.record "AspectConstrainedSize" fun fields =>
    constrained <$> Schema.required (.same "width") Schema.positive fields <*>
      Schema.required (.same "aspect") Schema.positive fields

def readFields (fields : Fields α) : Checked (SizeSpec α) :=
  ((fun a b c => (a, b, c)) <$>
    Schema.optional (.same "absolute") none (Schema.nullable readAbsolute) fields <*>
    Schema.optional (.same "relative") none
      (Schema.nullable fun v => (Schema.share v).map relative) fields <*>
    Schema.optional ⟨"aspectConstrained", "aspect_constrained"⟩ none
      (Schema.nullable readConstrained) fields).refine fun (a, b, c) => choose a b c

def read : Json α → Checked (SizeSpec α) := Schema.record "SizeSpec" readFields

end

def pairJson (sp : Schema.Spelling) (second : String) (width other : α) : Json α :=
  Schema.write sp [(.same "width", .ofReal width), (.same second, .ofReal other)]

/-- The measures of a size on their own as raw data. -/
def formJson (sp : Schema.Spelling) : SizeSpec α → Json α
  | absolute w h => pairJson sp "height" w h
  | relative share => .ofReal share
  | constrained w aspect => pairJson sp "aspect" w aspect

def json (sp : Schema.Spelling) (s : SizeSpec α) : Json α :=
  let form := s.formJson sp
  let (a, b, c) : Json α × Json α × Json α := match s with
    | absolute .. => (form, .null, .null)
    | relative _ => (.null, form, .null)
    | constrained .. => (.null, .null, form)
  Schema.write sp [(.same "absolute", a), (.same "relative", b),
    (⟨"aspectConstrained", "aspect_constrained"⟩, c)]

end SizeSpec

/-! ## Repetitions -/

namespace Pattern

def name : Pattern → String
  | grid => "grid"
  | radial => "radial"

def ofName? (s : String) : Option Pattern := [grid, radial].find? fun p => p.name == s

def read {α : Type} : Json α → Checked Pattern := Schema.oneOf ["grid", "radial"] ofName?

end Pattern

namespace RepeatCount

variable {α : Type}

/-- Accepts counts of at least one. -/
def check (values : List Int) (count : RepeatCount) : Checked RepeatCount :=
  if values.any (· < 1) then .refuse (.refused "repeat count must be positive") else .valid count

/-- Reads a number, or columns and rows. If it is neither, the complaints of both readings stand side by
side. -/
def read [Scalar α] (v : Json α) : Checked RepeatCount :=
  match Schema.whole v, Schema.pair Schema.whole v with
  | .valid n, _ => check [n] (.one n.toNat)
  | .invalid _, .valid (a, b) => check [a, b] (.pair a.toNat b.toNat)
  | number@(.invalid _), columnsAndRows@(.invalid _) =>
    .invalid <| (number.within (.field "int")).complaints ++
      (columnsAndRows.within (.field "tuple[int, int]")).complaints

def json : RepeatCount → Json α
  | one n => .ofInt n
  | pair a b => .arr [.ofInt a, .ofInt b]

end RepeatCount

namespace Repetition

variable {α : Type}

def readFields [Scalar α] (fields : Fields α) : Checked (Repetition α) :=
  Repetition.mk <$> Schema.required (.same "type") Pattern.read fields <*>
    Schema.required (.same "count") RepeatCount.read fields <*>
    Schema.optional (.same "spacing") none (Schema.nullable Schema.positive) fields <*>
    Schema.optional (.same "radius") none (Schema.nullable Schema.positive) fields

def read [Scalar α] : Json α → Checked (Repetition α) := Schema.record "RepetitionSpec" readFields

def json (sp : Schema.Spelling) (r : Repetition α) : Json α :=
  Schema.write sp [
    (.same "type", .str r.pattern.name),
    (.same "count", r.count.json),
    (.same "spacing", .ofOption (r.spacing.map .ofReal)),
    (.same "radius", .ofOption (r.radius.map .ofReal))]

end Repetition

/-! ## Layouts -/

namespace LayoutSpec

variable {α : Type}

def readFields [Scalar α] (fields : Fields α) : Checked (LayoutSpec α) :=
  LayoutSpec.mk <$> Schema.optional (.same "region") none (Schema.nullable Schema.text) fields <*>
    Schema.optional (.same "anchor") none (Schema.nullable Anchor.read) fields <*>
    Schema.optional (.same "offset") none (Schema.nullable Point.read) fields <*>
    Schema.optional (.same "size") none (Schema.nullable SizeSpec.read) fields <*>
    Schema.optional (.same "repeat") none (Schema.nullable Repetition.read) fields <*>
    Schema.optional ⟨"zIndex", "z_index"⟩ none (Schema.nullable Schema.whole) fields

def read [Scalar α] : Json α → Checked (LayoutSpec α) := Schema.record "LayoutSpec" readFields

def json (sp : Schema.Spelling) (l : LayoutSpec α) : Json α :=
  Schema.write sp [
    (.same "region", .ofOption (l.region.map .str)),
    (.same "anchor", .ofOption (l.anchor.map fun a => .str a.name)),
    (.same "offset", .ofOption (l.offset.map Point.json)),
    (.same "size", .ofOption (l.size.map (SizeSpec.json sp))),
    (.same "repeat", .ofOption (l.repetition.map (Repetition.json sp))),
    (⟨"zIndex", "z_index"⟩, .ofOption (l.zIndex.map .ofInt))]

end LayoutSpec

end Drawing
