import Drawing.Schema.Shape

/-!
# `Drawing/Request/Grounding.lean` — what a request is grounded in

A request may bring along what its drawing should follow: styles, motifs, terms, rules, and examples. An
item says by its kind which of them it is; an unknown kind is refused.
-/

namespace Drawing

/-- How binding a rule is. -/
inductive Priority where
  | must
  | should
  deriving Repr, DecidableEq, BEq

def Priority.name : Priority → String
  | must => "must"
  | should => "should"

def Priority.read {α : Type} : Json α → Checked Priority :=
  Schema.oneOf ["must", "should"] fun s => [must, should].find? fun p => p.name == s

/-- Something a drawing should follow. -/
inductive GroundingItem (α : Type) where
  | stylePack (name : String) (palette : List String) (strokeWidth : Option α) (notes : String)
  | motif (name description commandsHint : String)
  | glossary (term definition : String)
  | rule (text : String) (priority : Priority)
  | fewShot (prompt document : String)
  deriving Repr

namespace GroundingItem

/-- The kinds of items. -/
def kinds : List String := ["style_pack", "motif", "glossary", "rule", "few_shot"]

variable {α : Type}

def kind : GroundingItem α → String
  | stylePack .. => "style_pack"
  | motif .. => "motif"
  | glossary .. => "glossary"
  | rule .. => "rule"
  | fewShot .. => "few_shot"

/-- Reads the kind of an item whose kind is known. -/
def readKind (kind : String) (fields : Fields α) : Checked Unit :=
  Schema.optional (.same "kind") () (Schema.oneOf [kind] fun s => if s = kind then some () else none) fields

def readStylePack [Scalar α] : Json α → Checked (GroundingItem α) :=
  Schema.record "StylePack" fun fields =>
    (fun _ => stylePack) <$> readKind "style_pack" fields <*>
      Schema.required (.same "name") Schema.text fields <*>
      Schema.optional (.same "palette") [] (Schema.list Schema.text) fields <*>
      Schema.optional (.same "stroke_width") none (Schema.nullable Schema.number) fields <*>
      Schema.optional (.same "notes") "" Schema.text fields

/-- Reads a motif. -/
def readMotif : Json α → Checked (GroundingItem α) :=
  Schema.record "Motif" fun fields =>
    (fun _ => motif) <$> readKind "motif" fields <*>
      Schema.required (.same "name") Schema.text fields <*>
      Schema.required (.same "description") Schema.text fields <*>
      Schema.optional (.same "commands_hint") "" Schema.text fields

/-- Reads a term with its definition. -/
def readGlossary : Json α → Checked (GroundingItem α) :=
  Schema.record "GlossaryEntry" fun fields =>
    (fun _ => glossary) <$> readKind "glossary" fields <*>
      Schema.required (.same "term") Schema.text fields <*>
      Schema.required (.same "definition") Schema.text fields

def readRule : Json α → Checked (GroundingItem α) :=
  Schema.record "DesignRule" fun fields =>
    (fun _ => rule) <$> readKind "rule" fields <*>
      Schema.required (.same "rule") Schema.text fields <*>
      Schema.optional (.same "priority") Priority.should Priority.read fields

def readFewShot : Json α → Checked (GroundingItem α) :=
  Schema.record "FewShotExample" fun fields =>
    (fun _ => fewShot) <$> readKind "few_shot" fields <*>
      Schema.required (.same "prompt") Schema.text fields <*>
      Schema.required (.same "document") Schema.text fields

/-- A kind that is none, as it is shown. -/
def tagText [DecimalText α] : Json α → String
  | .str s => s
  | v => v.shown

/-- Reads an item by its kind. Complaints about its fields are placed under the kind. -/
def read [Scalar α] [DecimalText α] (v : Json α) : Checked (GroundingItem α) :=
  match v with
  | .obj fields =>
    match Table.get? fields "kind" with
    | none => .refuse .noTag
    | some (.str "style_pack") => (readStylePack v).within (.field "style_pack")
    | some (.str "motif") => (readMotif v).within (.field "motif")
    | some (.str "glossary") => (readGlossary v).within (.field "glossary")
    | some (.str "rule") => (readRule v).within (.field "rule")
    | some (.str "few_shot") => (readFewShot v).within (.field "few_shot")
    | some tag => .refuse (.unknownTag (tagText tag) kinds)
  | _ => .refuse .notTagged

/-- The fields of an item behind its kind. -/
def fields : GroundingItem α → List (Schema.Key × Json α)
  | stylePack name palette strokeWidth notes => [
      (.same "name", .str name), (.same "palette", .arr (palette.map .str)),
      (.same "stroke_width", .ofOption (strokeWidth.map .ofReal)), (.same "notes", .str notes)]
  | motif name description commandsHint => [
      (.same "name", .str name), (.same "description", .str description),
      (.same "commands_hint", .str commandsHint)]
  | glossary term definition => [(.same "term", .str term), (.same "definition", .str definition)]
  | rule text priority => [(.same "rule", .str text), (.same "priority", .str priority.name)]
  | fewShot prompt document => [(.same "prompt", .str prompt), (.same "document", .str document)]

def json (sp : Schema.Spelling) (i : GroundingItem α) : Json α :=
  Schema.write sp ((.same "kind", .str i.kind) :: i.fields)

end GroundingItem

end Drawing
