import Drawing.Region.Anchor
import Drawing.Region.Catalog

/-!
# `Drawing/Service/Listing.lean` — what the service tells about itself

Two answers of the service that do not depend on a request: that it is well, and which regions and anchors
it knows.
-/

namespace Drawing

/-- How the service is. -/
structure Health where
  status : String
  version : String
  regions : Int
  deriving Repr, DecidableEq

/-- A region with its name. -/
structure RegionEntry (α : Type) where
  name : String
  box : Box α
  deriving Repr

/-- The regions and anchors that the service knows. -/
structure Listing (α : Type) where
  regions : List (RegionEntry α)
  anchors : Table (α × α)
  deriving Repr

variable {α : Type} [Scalar α]

namespace Health

/-- The version of the service. -/
def currentVersion : String := "0.1.0"

/-- The service is well. -/
def well : Health := ⟨"ok", currentVersion, reservedNames.length⟩

/-- Reads how the service is. -/
def read : Json α → Checked Health :=
  Schema.record "HealthResponse" fun fields =>
    Health.mk <$> Schema.optional (.same "status") "ok" Schema.text fields <*>
      Schema.optional (.same "version") currentVersion Schema.text fields <*>
      Schema.optional ⟨"regionsAvailable", "regions_available"⟩ 0 Schema.whole fields

def json {α : Type} (sp : Schema.Spelling) (h : Health) : Json α :=
  Schema.write sp [
    (.same "status", .str h.status), (.same "version", .str h.version),
    (⟨"regionsAvailable", "regions_available"⟩, .ofInt h.regions)]

end Health

namespace RegionEntry

/-- Reads a region with its name. Its box may be of numbers of any kind. -/
def read : Json α → Checked (RegionEntry α) :=
  Schema.record "RegionInfo" fun fields =>
    (fun name x y w h => ⟨name, x, y, w, h⟩) <$> Schema.required (.same "name") Schema.text fields <*>
      Schema.required (.same "x") Schema.number fields <*>
      Schema.required (.same "y") Schema.number fields <*>
      Schema.required (.same "width") Schema.number fields <*>
      Schema.required (.same "height") Schema.number fields

def json {α : Type} (sp : Schema.Spelling) (e : RegionEntry α) : Json α :=
  Schema.write sp [
    (.same "name", .str e.name),
    (.same "x", .ofReal e.box.x), (.same "y", .ofReal e.box.y),
    (.same "width", .ofReal e.box.width), (.same "height", .ofReal e.box.height)]

end RegionEntry

namespace Listing

/-- The reserved regions and the anchors. -/
def ofReserved : Listing α where
  regions := reservedRegions.map fun (name, box) => ⟨name, box⟩
  anchors := Anchor.all.map fun a =>
    (a.name, Scalar.ofRat a.fractions.1, Scalar.ofRat a.fractions.2)

def read : Json α → Checked (Listing α) :=
  Schema.record "RegionsResponse" fun fields =>
    Listing.mk <$> Schema.optional (.same "regions") [] (Schema.list RegionEntry.read) fields <*>
      Schema.optional (.same "anchors") [] (Schema.table (Schema.pair Schema.number)) fields

def json {α : Type} (sp : Schema.Spelling) (l : Listing α) : Json α :=
  Schema.write sp [
    (.same "regions", .arr (l.regions.map (RegionEntry.json sp))),
    (.same "anchors", .obj (l.anchors.map fun (name, x, y) => (name, .arr [.ofReal x, .ofReal y])))]

end Listing

end Drawing
