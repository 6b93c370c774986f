import Drawing.Proofs.Document.Stored
import Drawing.Proofs.Json.ReadBack
import Drawing.Proofs.Number.NotANumber

/-!
# `Drawing/Proofs/Document/Text.lean` — documents read back from their text

What is stored of a document is written without infinities, and a reader has its limits. Reading bounds most of a
document: points, boxes and opacities are finite, and texts hold nothing but characters. The other numbers
(`Document.numerals`) are those of sizes, repetitions, strokes and the stack. Where they are finite and do not have too
many digits, the text of the document is the text of what is stored.

> **a document is read back from its text as it was**, its layouts not yet carried out.
-/

namespace Drawing

open Schema

/-! ## Numbers that reading does not bound -/

section

variable {α : Type}

/-- The numbers of a size. -/
def SizeSpec.numerals : SizeSpec α → List (Numeral α)
  | absolute w h => [.real w, .real h]
  | relative share => [.real share]
  | constrained w aspect => [.real w, .real aspect]

/-- The numbers of a count. -/
def RepeatCount.numerals : RepeatCount → List (Numeral α)
  | one n => [.whole n]
  | pair a b => [.whole a, .whole b]

/-- The count, the spacing and the radius of a repetition. -/
def Repetition.numerals (r : Repetition α) : List (Numeral α) :=
  r.count.numerals ++ r.spacing.toList.map .real ++ r.radius.toList.map .real

/-- The numbers of a layout without its offset. -/
def LayoutSpec.numerals (s : LayoutSpec α) : List (Numeral α) :=
  s.size.toList.flatMap SizeSpec.numerals ++ s.repetition.toList.flatMap Repetition.numerals ++
    s.zIndex.toList.map .whole

/-- The width of the stroke. -/
def PathStyle.numerals (s : PathStyle α) : List (Numeral α) := s.strokeWidth.toList.map .real

/-- The numbers of a path without its points. -/
def ShapePath.numerals (p : ShapePath α) : List (Numeral α) :=
  p.style.numerals ++ p.layout.toList.flatMap LayoutSpec.numerals

/-- The numbers of a layer without its points. -/
def Layer.numerals (l : Layer α) : List (Numeral α) :=
  l.paths.flatMap ShapePath.numerals ++ l.layout.toList.flatMap LayoutSpec.numerals

/-- The numbers of a document that reading does not bound: those of sizes and repetitions, the widths of strokes, the
places of layouts in the stack, and the sides of the canvas. -/
def Document.numerals (d : Document α) : List (Numeral α) :=
  .whole d.canvas.width :: .whole d.canvas.height :: d.layers.flatMap Layer.numerals

end

/-! ## Readable records -/

namespace Schema

variable {α β : Type} [Scalar α]

/-- What is written of a value that was read is read back from its text, if the value is as it should be. -/
def WritesReadable (depth : Nat) (read : Json α → Checked β) (write : β → Json α) (P : β → Prop) : Prop :=
  ∀ ⦃v : Json α⦄ ⦃b : β⦄, read v = .valid b → P b → Json.IsReadable depth (write b)

/-- A stored record is readable if its fields are. -/
theorem isReadable_write {depth : Nat} {fields : List (Key × Json α)} (names : List String)
    (hkeys : (fields.map fun f => f.1.camel) = names) (hnames : names.Nodup ∧ ∀ n ∈ names, isWellFormed n = true)
    (hfields : fields.Forall fun f => Json.IsReadable depth f.2) :
    Json.IsReadable (depth + 1) (write .stored fields) := by
  rw [List.forall_iff_forall_mem] at hfields
  rw [write_stored]
  have hmem {f : String × Json α} (hf : f ∈ storedFields fields) : ∃ g ∈ fields, f = (g.1.camel, g.2) := by
    obtain ⟨g, hg, rfl⟩ := List.mem_map.mp hf
    exact ⟨g, (List.mem_filter.mp hg).1, rfl⟩
  subst hkeys
  refine .obj ?_ (fun f hf => ?_) fun f hf => ?_
  · refine hnames.1.sublist ?_
    unfold Table.names storedFields
    rw [List.map_map]
    exact List.filter_sublist.map _
  · obtain ⟨g, hg, rfl⟩ := hmem hf
    exact hnames.2 _ (List.mem_map_of_mem hg)
  · obtain ⟨g, hg, rfl⟩ := hmem hf
    exact hfields g hg

/-- A value that may be missing is readable if it is where it is not missing. -/
theorem isReadable_ofOption {depth : Nat} {b : Option β} {write : β → Json α}
    (h : ∀ x ∈ b.toList, Json.IsReadable depth (write x)) : Json.IsReadable depth (.ofOption (b.map write)) := by
  cases b with
  | none => exact .null
  | some x => exact h x List.mem_cons_self

section Fields

variable {depth : Nat} {key : Key} {read : Json α → Checked β} {write : β → Json α} {P : β → Prop} {given : Fields α}

theorem WritesReadable.required (hread : WritesReadable depth read write P) {b : β}
    (h : required key read given = .valid b) (hb : P b) : Json.IsReadable depth (write b) := by
  obtain ⟨_, v, -, hv⟩ := required_eq_valid_iff.mp h
  exact hread hv hb

theorem WritesReadable.optional (hread : WritesReadable depth read write P) {b fallback : β} {v : Json α}
    (hfallback : read v = .valid fallback) (h : Schema.optional key fallback read given = .valid b)
    (hb : P b) : Json.IsReadable depth (write b) := by
  rcases optional_eq_valid_iff.mp h with ⟨-, rfl⟩ | ⟨_, v, -, hv⟩
  · exact hread hfallback hb
  · exact hread hv hb

theorem WritesReadable.nullable (hread : WritesReadable depth read write P) {b : Option β}
    (h : Schema.optional key none (Schema.nullable read) given = .valid b) (hb : ∀ x ∈ b.toList, P x) :
    Json.IsReadable depth (.ofOption (b.map write)) := by
  have hvalid := forall_of_optional_nullable (P := fun x => P x → Json.IsReadable depth (write x)) h hread
  exact isReadable_ofOption fun x hx => hvalid x (Option.mem_toList.mp hx) (hb x hx)

theorem WritesReadable.list (hread : WritesReadable depth read write P) :
    WritesReadable (depth + 1) (Schema.list read) (fun bs => .arr (bs.map write)) fun bs => ∀ b ∈ bs, P b := by
  intro v bs h hbs
  obtain ⟨items, -, hitems⟩ := list_eq_valid_iff.mp h
  refine .arr fun w hw => ?_
  obtain ⟨b, hb, rfl⟩ := List.mem_map.mp hw
  obtain ⟨item, -, hitem⟩ := exists_left_of_mem hitems hb
  exact hread hitem (hbs b hb)

end Fields

theorem writesReadable_text (depth : Nat) : WritesReadable (α := α) depth text .str fun _ => True := by
  intro v s h _
  obtain rfl := text_eq_valid h
  have hs : (text (.str s : Json α)).isValid = true := by
    rw [h]
    rfl
  rw [isValid_text_str] at hs
  exact .str hs

theorem writesReadable_filledText (depth : Nat) : WritesReadable (α := α) depth filledText .str fun _ => True := by
  intro v s h _
  obtain ⟨s', htext, hs⟩ := Checked.refine_eq_valid_iff.mp h
  split_ifs at hs
  · exact nomatch hs
  · obtain rfl := Checked.valid.inj hs
    exact writesReadable_text depth htext trivial

/-- The names of a choice are read back if they hold nothing but characters. -/
theorem writesReadable_oneOf {options : List String} {ofText? : String → Option β} {name : β → String}
    (hname : ∀ b, isWellFormed (name b) = true) (depth : Nat) :
    WritesReadable (α := α) depth (oneOf options ofText?) (fun b => .str (name b)) fun _ => True :=
  fun _ b _ _ => .str (hname b)

theorem writesReadable_finite (depth : Nat) : WritesReadable (α := α) depth finite .ofReal fun _ => True :=
  fun _ _ h _ => .num ⟨finite_eq_valid h, trivial⟩

end Schema

variable {α : Type} [Scalar α]

/-! ## Points, boxes and commands -/

theorem Point.writesReadable : WritesReadable (α := α) 1 Point.read Point.json fun _ => True := by
  intro v p h _
  obtain ⟨hx, hy⟩ := read_isFinite h
  exact .arr (List.forall_mem_cons.mpr ⟨.num ⟨hx, trivial⟩, List.forall_mem_singleton.mpr (.num ⟨hy, trivial⟩)⟩)

theorem Box.writesReadable_list : WritesReadable (α := α) 1 Box.readList Box.jsonList fun _ => True := by
  intro v b h _
  refine .arr fun w hw => ?_
  obtain ⟨x, hx, rfl⟩ := List.mem_map.mp hw
  exact .num ⟨read_isFinite h x hx, trivial⟩

theorem Box.writesReadable : WritesReadable (α := α) 1 Box.read (Box.json .stored) fun _ => True := by
  intro v b h _
  obtain ⟨fields, -, h⟩ := record_eq_valid_iff.mp h
  obtain ⟨hx, hy, hwidth, hheight⟩ := readFields_eq_valid_iff.mp h
  have hfinite := writesReadable_finite (α := α) 0
  exact isReadable_write ["x", "y", "width", "height"] rfl (by decide) ⟨hfinite.required hx trivial,
    hfinite.required hy trivial, hfinite.required hwidth trivial, hfinite.required hheight trivial⟩

theorem Command.writesReadable : WritesReadable (α := α) 2 Command.read (Command.json .stored) fun _ => True := by
  intro v c h _
  have hletter : ∀ l : Letter, isWellFormed l.text = true := by
    intro l
    cases l <;> decide
  refine isReadable_write ["cmd", "coords"] rfl (by decide) ⟨.str (hletter c.letter), .arr fun w hw => ?_⟩
  obtain ⟨x, hx, rfl⟩ := List.mem_map.mp hw
  exact .num ⟨isFinite_of_mem_coords (read_isFinite h) hx, trivial⟩

/-! ## Canvas and regions -/

theorem Canvas.writesReadable : WritesReadable (α := α) 2 Canvas.read (Canvas.json .stored) fun c =>
    (Numeral.whole c.width : Numeral α).IsReadable ∧ (Numeral.whole c.height : Numeral α).IsReadable := by
  rintro v c h ⟨hwidth, hheight⟩
  obtain ⟨fields, -, h⟩ := record_eq_valid_iff.mp h
  obtain ⟨-, -, -, hviewBox⟩ := readFields_eq_valid_iff.mp h
  have htag : ∀ a : Aspect, isWellFormed a.tag = true := by
    intro a
    cases a <;> decide
  exact isReadable_write ["width", "height", "aspectRatio", "viewBox"] rfl (by decide)
    ⟨.num hwidth, .num hheight, .str (htag c.aspect), Box.writesReadable_list.nullable hviewBox fun _ _ => trivial⟩

theorem CustomRegion.writesReadable :
    WritesReadable (α := α) 2 CustomRegion.read (CustomRegion.json .stored) fun _ => True := by
  intro v r h _
  obtain ⟨fields, -, h⟩ := record_eq_valid_iff.mp h
  obtain ⟨hname, hbounds⟩ := readFields_eq_valid_iff.mp h
  exact isReadable_write ["name", "bounds"] rfl (by decide)
    ⟨(writesReadable_filledText 1).required hname trivial, Box.writesReadable.required hbounds trivial⟩

/-! ## Layouts -/

omit [Scalar α] in
theorem Anchor.isWellFormed_name (a : Anchor) : isWellFormed a.name = true := by
  cases a <;> decide

theorem SizeSpec.isReadable_json {z : SizeSpec α} (h : ∀ n ∈ z.numerals, n.IsReadable) :
    Json.IsReadable 2 (z.json .stored) := by
  cases z with
  | absolute w height =>
    obtain ⟨hw, hheight⟩ := List.forall_mem_cons.mp h
    have hheight := List.forall_mem_singleton.mp hheight
    exact isReadable_write ["absolute", "relative", "aspectConstrained"] rfl (by decide)
      ⟨isReadable_write ["width", "height"] rfl (by decide) ⟨.num hw, .num hheight⟩, .null, .null⟩
  | relative share =>
    have hshare := List.forall_mem_singleton.mp h
    exact isReadable_write ["absolute", "relative", "aspectConstrained"] rfl (by decide) ⟨.null, .num hshare, .null⟩
  | constrained w aspect =>
    obtain ⟨hw, haspect⟩ := List.forall_mem_cons.mp h
    have haspect := List.forall_mem_singleton.mp haspect
    exact isReadable_write ["absolute", "relative", "aspectConstrained"] rfl (by decide)
      ⟨.null, .null, isReadable_write ["width", "aspect"] rfl (by decide) ⟨.num hw, .num haspect⟩⟩

theorem RepeatCount.isReadable_json {c : RepeatCount} (h : ∀ n ∈ (c.numerals : List (Numeral α)), n.IsReadable) :
    Json.IsReadable 1 (c.json : Json α) := by
  cases c with
  | one n => exact .num (List.forall_mem_singleton.mp h)
  | pair a b =>
    obtain ⟨ha, hb⟩ := List.forall_mem_cons.mp h
    have hb := List.forall_mem_singleton.mp hb
    exact .arr (List.forall_mem_cons.mpr ⟨.num ha, List.forall_mem_singleton.mpr (.num hb)⟩)

theorem Repetition.isReadable_json {r : Repetition α} (h : ∀ n ∈ r.numerals, n.IsReadable) :
    Json.IsReadable 2 (r.json .stored) := by
  obtain ⟨h, hradius⟩ := List.forall_mem_append.mp h
  obtain ⟨hcount, hspacing⟩ := List.forall_mem_append.mp h
  have hname : ∀ p : Pattern, isWellFormed p.name = true := by
    intro p
    cases p <;> decide
  exact isReadable_write ["type", "count", "spacing", "radius"] rfl (by decide) ⟨.str (hname r.pattern),
    RepeatCount.isReadable_json hcount, isReadable_ofOption fun x hx => .num (hspacing _ (List.mem_map_of_mem hx)),
    isReadable_ofOption fun x hx => .num (hradius _ (List.mem_map_of_mem hx))⟩

theorem LayoutSpec.writesReadable : WritesReadable (α := α) 3 LayoutSpec.read (LayoutSpec.json .stored) fun s =>
    ∀ n ∈ s.numerals, n.IsReadable := by
  intro v s h hs
  obtain ⟨fields, -, h⟩ := record_eq_valid_iff.mp h
  obtain ⟨hregion, hanchor, hoffset, -, -, -⟩ := readFields_eq_valid_iff.mp h
  obtain ⟨hs, hzIndex⟩ := List.forall_mem_append.mp hs
  obtain ⟨hsize, hrepetition⟩ := List.forall_mem_append.mp hs
  have hanchors : WritesReadable (α := α) 2 Anchor.read (fun a => .str a.name) fun _ => True :=
    writesReadable_oneOf Anchor.isWellFormed_name 2
  exact isReadable_write ["region", "anchor", "offset", "size", "repeat", "zIndex"] rfl (by decide)
    ⟨(writesReadable_text 2).nullable hregion fun _ _ => trivial, hanchors.nullable hanchor fun _ _ => trivial,
      (Point.writesReadable.nullable hoffset fun _ _ => trivial).mono (by decide),
      isReadable_ofOption fun z hz => SizeSpec.isReadable_json fun n hn => hsize n (List.mem_flatMap.mpr ⟨z, hz, hn⟩),
      isReadable_ofOption fun r hr =>
        Repetition.isReadable_json fun n hn => hrepetition n (List.mem_flatMap.mpr ⟨r, hr, hn⟩),
      isReadable_ofOption fun n hn => .num (hzIndex _ (List.mem_map_of_mem hn))⟩

theorem LayoutConfig.writesReadable :
    WritesReadable (α := α) 4 LayoutConfig.read (LayoutConfig.json .stored) fun _ => True := by
  intro v l h _
  obtain ⟨fields, -, h⟩ := record_eq_valid_iff.mp h
  obtain ⟨hregions, hanchor, hoffset⟩ := readFields_eq_valid_iff.mp h
  have hanchors : WritesReadable (α := α) 3 Anchor.read (fun a => .str a.name) fun _ => True :=
    writesReadable_oneOf Anchor.isWellFormed_name 3
  have hempty : list CustomRegion.read (.arr [] : Json α) = .valid [] := rfl
  exact isReadable_write ["regions", "globalAnchor", "globalOffset"] rfl (by decide)
    ⟨CustomRegion.writesReadable.list.optional hempty hregions fun _ _ => trivial,
      hanchors.nullable hanchor fun _ _ => trivial,
      (Point.writesReadable.nullable hoffset fun _ _ => trivial).mono (by decide)⟩

/-! ## Paths and layers -/

theorem PathStyle.writesReadable : WritesReadable 1 PathStyle.read (PathStyle.json (α := Float) .stored) fun s =>
    ∀ n ∈ s.numerals, n.IsReadable := by
  intro v s h hs
  obtain ⟨fields, -, h⟩ := record_eq_valid_iff.mp h
  obtain ⟨hfill, hstroke, -, -, -, hopacity⟩ := readFields_eq_valid_iff.mp h
  have hcap : ∀ c : Linecap, isWellFormed c.name = true := by
    intro c
    cases c <;> decide
  have hjoin : ∀ c : Linejoin, isWellFormed c.name = true := by
    intro c
    cases c <;> decide
  have htext := writesReadable_text (α := Float) 0
  have hunit : WritesReadable (α := Float) 0 unitNumber .ofReal fun _ => True := by
    intro v x h _
    obtain ⟨y, -, h⟩ := Checked.refine_eq_valid_iff.mp h
    split_ifs at h with hone hzero
    · obtain rfl := Checked.valid.inj h
      exact .num ⟨(Double.isFinite_iff y).mpr (Double.isFinite_of_unit hzero hone), trivial⟩
    · exact nomatch h
    · exact nomatch h
  exact isReadable_write ["fill", "stroke", "strokeWidth", "strokeLinecap", "strokeLinejoin", "opacity"] rfl (by decide)
    ⟨htext.nullable hfill fun _ _ => trivial, htext.nullable hstroke fun _ _ => trivial,
      isReadable_ofOption fun x hx => .num (hs _ (List.mem_map_of_mem hx)),
      isReadable_ofOption fun c _ => .str (hcap c), isReadable_ofOption fun c _ => .str (hjoin c),
      hunit.nullable hopacity fun _ _ => trivial⟩

theorem ShapePath.writesReadable : WritesReadable 4 ShapePath.read (ShapePath.json (α := Float) .stored) fun p =>
    ∀ n ∈ p.numerals, n.IsReadable := by
  intro v p h hp
  obtain ⟨fields, -, h⟩ := record_eq_valid_iff.mp h
  obtain ⟨hid, hstyle, hcommands, hlayout⟩ := readFields_eq_valid_iff.mp h
  obtain ⟨hstroke, hnumerals⟩ := List.forall_mem_append.mp hp
  have hplain : PathStyle.read (.obj [] : Json Float) = .valid .plain := rfl
  have hempty : list Command.read (.arr [] : Json Float) = .valid [] := rfl
  exact isReadable_write ["id", "style", "commands", "layout"] rfl (by decide)
    ⟨(writesReadable_filledText 3).required hid trivial,
      (PathStyle.writesReadable.optional hplain hstyle hstroke).mono (by decide),
      Command.writesReadable.list.optional hempty hcommands fun _ _ => trivial,
      LayoutSpec.writesReadable.nullable hlayout fun s hs n hn => hnumerals n (List.mem_flatMap.mpr ⟨s, hs, hn⟩)⟩

theorem Layer.writesReadable : WritesReadable 6 Layer.read (Layer.json (α := Float) .stored) fun l =>
    ∀ n ∈ l.numerals, n.IsReadable := by
  intro v l h hl
  obtain ⟨fields, -, h⟩ := record_eq_valid_iff.mp h
  obtain ⟨hid, hlabel, hpaths, hlayout⟩ := readFields_eq_valid_iff.mp h
  obtain ⟨hpath, hnumerals⟩ := List.forall_mem_append.mp hl
  have hblank : text (.str "" : Json Float) = .valid "" := rfl
  have hempty : list ShapePath.read (.arr [] : Json Float) = .valid [] := rfl
  exact isReadable_write ["id", "label", "paths", "layout"] rfl (by decide)
    ⟨(writesReadable_text 5).required hid trivial, (writesReadable_text 5).optional hblank hlabel trivial,
      ShapePath.writesReadable.list.optional hempty hpaths fun p hp n hn => hpath n (List.mem_flatMap.mpr ⟨p, hp, hn⟩),
      (LayoutSpec.writesReadable.nullable hlayout fun s hs n hn =>
        hnumerals n (List.mem_flatMap.mpr ⟨s, hs, hn⟩)).mono (by decide)⟩

/-! ## Documents -/

theorem Document.isReadable_json {v : Json Float} {d : Document Float} (h : read v = .valid d)
    (hd : ∀ n ∈ d.numerals, n.IsReadable) : Json.IsReadable 8 (d.json .stored) := by
  obtain ⟨fields, -, h⟩ := record_eq_valid_iff.mp h
  obtain ⟨-, hcanvas, hlayout, hlayers, -⟩ := readFields_eq_valid_iff.mp h
  obtain ⟨hwidth, hd⟩ := List.forall_mem_cons.mp hd
  obtain ⟨hheight, hd⟩ := List.forall_mem_cons.mp hd
  have hsquare : Canvas.read (.obj [] : Json Float) = .valid (Canvas.ofAspect .square) := rfl
  have hempty : list Layer.read (.arr [] : Json Float) = .valid [] := rfl
  exact isReadable_write ["version", "canvas", "layout", "layers"] rfl (by decide)
    ⟨.str (by decide), (Canvas.writesReadable.optional hsquare hcanvas ⟨hwidth, hheight⟩).mono (by decide),
      (LayoutConfig.writesReadable.nullable hlayout fun _ _ => trivial).mono (by decide),
      Layer.writesReadable.list.optional hempty hlayers fun l hl n hn => hd n (List.mem_flatMap.mpr ⟨l, hl, hn⟩)⟩

theorem Document.read_text {v : Json Float} {d : Document Float} (h : read v = .valid d)
    (hd : ∀ n ∈ d.numerals, n.IsReadable) : Json.read d.text.toList = .ok (d.json .stored) :=
  Json.read_text ((isReadable_json h hd).mono (by decide))

/-- **A document is read back as it was stored**, its layouts not yet carried out, and what is stored of it is what its
text is read as. -/
theorem Document.read_stored {v : Json Float} {d : Document Float} (h : read v = .valid d)
    (hfinite : ∀ n ∈ d.numerals, n.isFinite = true) :
    read (d.json .stored) = .valid { d with resolved := false } ∧
      ((∀ n ∈ d.numerals, n.IsShort) → Json.read d.text.toList = .ok (d.json .stored)) :=
  ⟨read_json_stored h, fun hshort => read_text h fun n hn => ⟨hfinite n hn, hshort n hn⟩⟩

/-- A document with every kind of size and both kinds of count. -/
def samplerData : Json Float := .obj [
  ("canvas", .obj [("width", .ofInt 330), ("height", .ofInt 220), ("aspectRatio", .str "3:2"),
    ("viewBox", .arr [.ofReal (-0.5), .ofInt 0, .ofInt 330, .ofReal 99.5])]),
  ("layout", .obj [("regions", .arr [.obj [("name", .str "shelf"), ("bounds", .obj [("x", .ofReal 0.1),
    ("y", .ofInt 0), ("width", .ofReal 0.5), ("height", .ofReal 0.25)])]]), ("global_anchor", .str "top_left")]),
  ("layers", .arr [.obj [("id", .str "a"), ("layout", .obj [("region", .str "shelf"), ("z_index", .ofInt (-2)),
      ("size", .obj [("aspectConstrained", .obj [("width", .ofInt 4), ("aspect", .ofReal 1.5)])])]),
    ("paths", .arr [
      .obj [("id", .str "p"), ("style", .obj [("fill", .str "none"), ("stroke_width", .ofReal 0.1)]),
        ("layout", .obj [("size", .obj [("relative", .ofReal 0.5)]), ("repeat", .obj [("type", .str "grid"),
          ("count", .arr [.ofInt 3, .ofInt 2])])]),
        ("commands", .arr [.obj [("cmd", .str "M"), ("coords", .arr [.ofInt 1, .ofReal 2.5])],
          .obj [("cmd", .str "Z")]])],
      .obj [("id", .str "q"), ("layout", .obj [("offset", .arr [.ofInt 0, .ofReal 0.25]),
        ("size", .obj [("absolute", .obj [("width", .ofInt 4), ("height", .ofInt 3)])]),
        ("repeat", .obj [("type", .str "radial"), ("count", .ofInt 5), ("radius", .ofInt 40)])]),
        ("commands", .arr [])]])]]),
  ("layoutResolved", .bool true)]

theorem read_stored_sampler : ∃ d, Document.read samplerData = .valid d ∧
    (∀ n ∈ d.numerals, n.isFinite = true ∧ n.IsShort) ∧
    Document.read (d.json .stored) = .valid { d with resolved := false } ∧
    Json.read d.text.toList = .ok (d.json .stored) := by
  have hread : (match Document.read samplerData with
      | .valid d => decide (∀ n ∈ d.numerals, n.isFinite = true ∧ n.IsShort)
      | .invalid _ => false) = true := by
    decide +kernel
  cases h : Document.read samplerData with
  | valid d =>
    rw [h] at hread
    have hnumerals := of_decide_eq_true hread
    obtain ⟨hstored, htext⟩ := Document.read_stored h fun n hn => (hnumerals n hn).1
    exact ⟨d, rfl, hnumerals, hstored, htext fun n hn => (hnumerals n hn).2⟩
  | invalid cs =>
    rw [h] at hread
    exact nomatch hread

end Drawing
