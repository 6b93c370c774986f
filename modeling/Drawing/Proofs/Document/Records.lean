import Drawing.Document.Codec
import Drawing.Proofs.Schema

/-!
# `Drawing/Proofs/Document/Records.lean` — records and their fields

A record was read if each of its fields was; this says which those are, record by record. All that is ever used
of a record's reading is here, so a record that gains a field changes one of these and its readers.
-/

namespace Drawing

variable {α : Type} [Scalar α] {fields : Fields α}

open Schema

theorem Box.readFields_eq_valid_iff {b : Box α} :
    readFields fields = .valid b ↔
      required (.same "x") finite fields = .valid b.x ∧ required (.same "y") finite fields = .valid b.y ∧
        required (.same "width") finite fields = .valid b.width ∧
          required (.same "height") finite fields = .valid b.height := by
  simp only [readFields, Checked.seq_eq_valid_iff, Checked.functor_map_eq_valid_iff]
  constructor
  · rintro ⟨_, height, ⟨_, width, ⟨_, y, ⟨x, hx, rfl⟩, hy, rfl⟩, hwidth, rfl⟩, hheight, rfl⟩
    exact ⟨hx, hy, hwidth, hheight⟩
  · rintro ⟨hx, hy, hwidth, hheight⟩
    exact ⟨_, _, ⟨_, _, ⟨_, _, ⟨_, hx, rfl⟩, hy, rfl⟩, hwidth, rfl⟩, hheight, rfl⟩

theorem CustomRegion.readFields_eq_valid_iff {r : CustomRegion α} :
    readFields fields = .valid r ↔
      required (.same "name") filledText fields = .valid r.name ∧
        required (.same "bounds") Box.read fields = .valid r.bounds := by
  simp only [readFields, Checked.seq_eq_valid_iff, Checked.functor_map_eq_valid_iff]
  constructor
  · rintro ⟨_, bounds, ⟨name, hname, rfl⟩, hbounds, rfl⟩
    exact ⟨hname, hbounds⟩
  · rintro ⟨hname, hbounds⟩
    exact ⟨_, _, ⟨_, hname, rfl⟩, hbounds, rfl⟩

theorem Canvas.readFields_eq_valid_iff {c : Canvas α} :
    readFields fields = .valid c ↔
      optional (.same "width") ⟨512, by decide⟩ readSide fields = .valid ⟨c.width, c.width_pos⟩ ∧
        optional (.same "height") ⟨512, by decide⟩ readSide fields = .valid ⟨c.height, c.height_pos⟩ ∧
          optional ⟨"aspectRatio", "aspect_ratio"⟩ Aspect.square Aspect.read fields = .valid c.aspect ∧
            optional ⟨"viewBox", "view_box"⟩ none (nullable Box.readList) fields = .valid c.viewBox := by
  simp only [readFields, Checked.seq_eq_valid_iff, Checked.functor_map_eq_valid_iff]
  constructor
  · rintro ⟨_, viewBox, ⟨_, aspect, ⟨_, height, ⟨width, hwidth, rfl⟩, hheight, rfl⟩, haspect, rfl⟩,
      hviewBox, rfl⟩
    exact ⟨hwidth, hheight, haspect, hviewBox⟩
  · rintro ⟨hwidth, hheight, haspect, hviewBox⟩
    exact ⟨_, _, ⟨_, _, ⟨_, _, ⟨_, hwidth, rfl⟩, hheight, rfl⟩, haspect, rfl⟩, hviewBox, rfl⟩

theorem Repetition.readFields_eq_valid_iff {r : Repetition α} :
    readFields fields = .valid r ↔
      required (.same "type") Pattern.read fields = .valid r.pattern ∧
        required (.same "count") RepeatCount.read fields = .valid r.count ∧
          optional (.same "spacing") none (nullable positive) fields = .valid r.spacing ∧
            optional (.same "radius") none (nullable positive) fields = .valid r.radius := by
  simp only [readFields, Checked.seq_eq_valid_iff, Checked.functor_map_eq_valid_iff]
  constructor
  · rintro ⟨_, radius, ⟨_, spacing, ⟨_, count, ⟨pattern, hpattern, rfl⟩, hcount, rfl⟩, hspacing, rfl⟩,
      hradius, rfl⟩
    exact ⟨hpattern, hcount, hspacing, hradius⟩
  · rintro ⟨hpattern, hcount, hspacing, hradius⟩
    exact ⟨_, _, ⟨_, _, ⟨_, _, ⟨_, hpattern, rfl⟩, hcount, rfl⟩, hspacing, rfl⟩, hradius, rfl⟩

theorem SizeSpec.readAbsolute_eq_valid_iff {v : Json α} {z : SizeSpec α} :
    readAbsolute v = .valid z ↔ ∃ fields w h, v = .obj fields ∧ required (.same "width") positive fields = .valid w ∧
      required (.same "height") positive fields = .valid h ∧ z = .absolute w h := by
  simp only [readAbsolute, record_eq_valid_iff, Checked.seq_eq_valid_iff, Checked.functor_map_eq_valid_iff]
  constructor
  · rintro ⟨fields, rfl, _, h, ⟨w, hw, rfl⟩, hh, rfl⟩
    exact ⟨fields, w, h, rfl, hw, hh, rfl⟩
  · rintro ⟨fields, w, h, rfl, hw, hh, rfl⟩
    exact ⟨fields, rfl, _, _, ⟨_, hw, rfl⟩, hh, rfl⟩

theorem SizeSpec.readConstrained_eq_valid_iff {v : Json α} {z : SizeSpec α} :
    readConstrained v = .valid z ↔ ∃ fields w a, v = .obj fields ∧
      required (.same "width") positive fields = .valid w ∧ required (.same "aspect") positive fields = .valid a ∧
        z = .constrained w a := by
  simp only [readConstrained, record_eq_valid_iff, Checked.seq_eq_valid_iff, Checked.functor_map_eq_valid_iff]
  constructor
  · rintro ⟨fields, rfl, _, a, ⟨w, hw, rfl⟩, ha, rfl⟩
    exact ⟨fields, w, a, rfl, hw, ha, rfl⟩
  · rintro ⟨fields, w, a, rfl, hw, ha, rfl⟩
    exact ⟨fields, rfl, _, _, ⟨_, hw, rfl⟩, ha, rfl⟩

theorem SizeSpec.readFields_eq_valid_iff {z : SizeSpec α} :
    readFields fields = .valid z ↔ ∃ a b c,
      optional (.same "absolute") none (nullable readAbsolute) fields = .valid a ∧
        optional (.same "relative") none (nullable fun v => (share v).map relative) fields = .valid b ∧
          optional ⟨"aspectConstrained", "aspect_constrained"⟩ none (nullable readConstrained) fields = .valid c ∧
            choose a b c = .valid z := by
  simp only [readFields, Checked.refine_eq_valid_iff, Checked.seq_eq_valid_iff, Checked.functor_map_eq_valid_iff]
  constructor
  · rintro ⟨_, ⟨_, c, ⟨_, b, ⟨a, ha, rfl⟩, hb, rfl⟩, hc, rfl⟩, hchoose⟩
    exact ⟨a, b, c, ha, hb, hc, hchoose⟩
  · rintro ⟨a, b, c, ha, hb, hc, hchoose⟩
    exact ⟨_, ⟨_, _, ⟨_, _, ⟨_, ha, rfl⟩, hb, rfl⟩, hc, rfl⟩, hchoose⟩

theorem LayoutSpec.readFields_eq_valid_iff {spec : LayoutSpec α} :
    readFields fields = .valid spec ↔
      optional (.same "region") none (nullable text) fields = .valid spec.region ∧
        optional (.same "anchor") none (nullable Anchor.read) fields = .valid spec.anchor ∧
          optional (.same "offset") none (nullable Point.read) fields = .valid spec.offset ∧
            optional (.same "size") none (nullable SizeSpec.read) fields = .valid spec.size ∧
              optional (.same "repeat") none (nullable Repetition.read) fields = .valid spec.repetition ∧
                optional ⟨"zIndex", "z_index"⟩ none (nullable whole) fields = .valid spec.zIndex := by
  simp only [readFields, Checked.seq_eq_valid_iff, Checked.functor_map_eq_valid_iff]
  constructor
  · rintro ⟨_, zIndex, ⟨_, repetition, ⟨_, size, ⟨_, offset, ⟨_, anchor, ⟨region, hregion, rfl⟩, hanchor,
      rfl⟩, hoffset, rfl⟩, hsize, rfl⟩, hrepetition, rfl⟩, hzIndex, rfl⟩
    exact ⟨hregion, hanchor, hoffset, hsize, hrepetition, hzIndex⟩
  · rintro ⟨hregion, hanchor, hoffset, hsize, hrepetition, hzIndex⟩
    exact ⟨_, _, ⟨_, _, ⟨_, _, ⟨_, _, ⟨_, _, ⟨_, hregion, rfl⟩, hanchor, rfl⟩, hoffset, rfl⟩, hsize, rfl⟩,
      hrepetition, rfl⟩, hzIndex, rfl⟩

theorem Command.readFields_eq_valid_iff {c : Command α} :
    readFields fields = .valid c ↔ ∃ l coords, required (.same "cmd") readLetter fields = .valid l ∧
      optional (.same "coords") [] (list finite) fields = .valid coords ∧ ofCoords l coords = .valid c := by
  simp only [readFields, Checked.refine_eq_valid_iff, Checked.seq_eq_valid_iff, Checked.functor_map_eq_valid_iff]
  constructor
  · rintro ⟨_, ⟨_, coords, ⟨l, hl, rfl⟩, hcoords, rfl⟩, hc⟩
    exact ⟨l, coords, hl, hcoords, hc⟩
  · rintro ⟨l, coords, hl, hcoords, hc⟩
    exact ⟨_, ⟨_, _, ⟨_, hl, rfl⟩, hcoords, rfl⟩, hc⟩

theorem PathStyle.readFields_eq_valid_iff {s : PathStyle α} :
    readFields fields = .valid s ↔
      optional (.same "fill") none (nullable text) fields = .valid s.fill ∧
        optional (.same "stroke") none (nullable text) fields = .valid s.stroke ∧
          optional ⟨"strokeWidth", "stroke_width"⟩ none (nullable nonnegative) fields = .valid s.strokeWidth ∧
            optional ⟨"strokeLinecap", "stroke_linecap"⟩ none (nullable Linecap.read) fields = .valid s.linecap ∧
              optional ⟨"strokeLinejoin", "stroke_linejoin"⟩ none (nullable Linejoin.read) fields =
                  .valid s.linejoin ∧
                optional (.same "opacity") none (nullable unitNumber) fields = .valid s.opacity := by
  simp only [readFields, Checked.seq_eq_valid_iff, Checked.functor_map_eq_valid_iff]
  constructor
  · rintro ⟨_, opacity, ⟨_, linejoin, ⟨_, linecap, ⟨_, width, ⟨_, stroke, ⟨fill, hfill, rfl⟩, hstroke, rfl⟩,
      hwidth, rfl⟩, hlinecap, rfl⟩, hlinejoin, rfl⟩, hopacity, rfl⟩
    exact ⟨hfill, hstroke, hwidth, hlinecap, hlinejoin, hopacity⟩
  · rintro ⟨hfill, hstroke, hwidth, hlinecap, hlinejoin, hopacity⟩
    exact ⟨_, _, ⟨_, _, ⟨_, _, ⟨_, _, ⟨_, _, ⟨_, hfill, rfl⟩, hstroke, rfl⟩, hwidth, rfl⟩, hlinecap, rfl⟩,
      hlinejoin, rfl⟩, hopacity, rfl⟩

theorem ShapePath.readFields_eq_valid_iff {p : ShapePath α} :
    readFields fields = .valid p ↔
      required (.same "id") filledText fields = .valid p.id ∧
        optional (.same "style") PathStyle.plain PathStyle.read fields = .valid p.style ∧
          optional (.same "commands") [] (list Command.read) fields = .valid p.commands ∧
            optional (.same "layout") none (nullable LayoutSpec.read) fields = .valid p.layout := by
  simp only [readFields, Checked.seq_eq_valid_iff, Checked.functor_map_eq_valid_iff]
  constructor
  · rintro ⟨_, layout, ⟨_, commands, ⟨_, style, ⟨id, hid, rfl⟩, hstyle, rfl⟩, hcommands, rfl⟩, hlayout, rfl⟩
    exact ⟨hid, hstyle, hcommands, hlayout⟩
  · rintro ⟨hid, hstyle, hcommands, hlayout⟩
    exact ⟨_, _, ⟨_, _, ⟨_, _, ⟨_, hid, rfl⟩, hstyle, rfl⟩, hcommands, rfl⟩, hlayout, rfl⟩

theorem Layer.readFields_eq_valid_iff {l : Layer α} :
    readFields fields = .valid l ↔
      required (.same "id") text fields = .valid l.id ∧
        optional (.same "label") "" text fields = .valid l.label ∧
          optional (.same "paths") [] (list ShapePath.read) fields = .valid l.paths ∧
            optional (.same "layout") none (nullable LayoutSpec.read) fields = .valid l.layout := by
  simp only [readFields, Checked.seq_eq_valid_iff, Checked.functor_map_eq_valid_iff]
  constructor
  · rintro ⟨_, layout, ⟨_, paths, ⟨_, label, ⟨id, hid, rfl⟩, hlabel, rfl⟩, hpaths, rfl⟩, hlayout, rfl⟩
    exact ⟨hid, hlabel, hpaths, hlayout⟩
  · rintro ⟨hid, hlabel, hpaths, hlayout⟩
    exact ⟨_, _, ⟨_, _, ⟨_, _, ⟨_, hid, rfl⟩, hlabel, rfl⟩, hpaths, rfl⟩, hlayout, rfl⟩

theorem LayoutConfig.readFields_eq_valid_iff {c : LayoutConfig α} :
    readFields fields = .valid c ↔
      optional (.same "regions") [] (list CustomRegion.read) fields = .valid c.regions ∧
        optional ⟨"globalAnchor", "global_anchor"⟩ none (nullable Anchor.read) fields =
            .valid c.globalAnchor ∧
          optional ⟨"globalOffset", "global_offset"⟩ none (nullable Point.read) fields =
            .valid c.globalOffset := by
  simp only [readFields, Checked.seq_eq_valid_iff, Checked.functor_map_eq_valid_iff]
  constructor
  · rintro ⟨_, offset, ⟨_, anchor, ⟨regions, hregions, rfl⟩, hanchor, rfl⟩, hoffset, rfl⟩
    exact ⟨hregions, hanchor, hoffset⟩
  · rintro ⟨hregions, hanchor, hoffset⟩
    exact ⟨_, _, ⟨_, _, ⟨_, hregions, rfl⟩, hanchor, rfl⟩, hoffset, rfl⟩

theorem Document.readFields_eq_valid_iff {d : Document α} :
    readFields fields = .valid d ↔
      optional (.same "version") () readVersion fields = .valid () ∧
        optional (.same "canvas") (Canvas.ofAspect .square) Canvas.read fields = .valid d.canvas ∧
          optional (.same "layout") none (nullable LayoutConfig.read) fields = .valid d.layout ∧
            optional (.same "layers") [] (list Layer.read) fields = .valid d.layers ∧
              optional ⟨"layoutResolved", "layout_resolved"⟩ false truth fields = .valid d.resolved := by
  simp only [readFields, Checked.seq_eq_valid_iff, Checked.functor_map_eq_valid_iff]
  constructor
  · rintro ⟨_, resolved, ⟨_, layers, ⟨_, layout, ⟨_, canvas, ⟨version, hversion, rfl⟩, hcanvas, rfl⟩,
      hlayout, rfl⟩, hlayers, rfl⟩, hresolved, rfl⟩
    exact ⟨hversion, hcanvas, hlayout, hlayers, hresolved⟩
  · rintro ⟨hversion, hcanvas, hlayout, hlayers, hresolved⟩
    exact ⟨_, _, ⟨_, _, ⟨_, _, ⟨_, _, ⟨_, hversion, rfl⟩, hcanvas, rfl⟩, hlayout, rfl⟩, hlayers, rfl⟩,
      hresolved, rfl⟩

end Drawing
