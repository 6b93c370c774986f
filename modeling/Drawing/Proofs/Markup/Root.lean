import Drawing.Markup.Page
import Drawing.Number.Exact
import Drawing.Proofs.Fallible
import Drawing.Sketch.Page

/-!
# `Drawing/Proofs/Markup/Root.lean` — the root of a page

Two programs write pages, one for documents and one for the plain circle. Both begin with a root element that
carries the size of the canvas:

> **the root says how large the page is** — `width` and `height` are the sides of the canvas, written as whole
> numbers without a point.
-/

namespace Drawing

/-- The opening tag of a root element. -/
def rootTag (viewBox : String) (width height : Nat) : String :=
  s!"<svg xmlns=\"{svgNamespace}\" viewBox=\"{viewBox}\" width=\"{width}\" height=\"{height}\">"

/-- Markup that begins with a root of a size. No quotation mark ends its view box early. -/
def HasRoot (markup : String) (size : Nat × Nat) : Prop :=
  ∃ viewBox rest, '"' ∉ viewBox.toList ∧ markup = rootTag viewBox size.1 size.2 ++ rest

theorem HasRoot.append {markup rest : String} {size : Nat × Nat} (h : HasRoot markup size) :
    HasRoot (markup ++ rest) size := by
  obtain ⟨viewBox, rest', hq, rfl⟩ := h
  exact ⟨viewBox, rest' ++ rest, hq, String.append_assoc⟩

/-- Scalars that hold the sides of the canonical canvases exactly. -/
class HoldsSides (α : Type) [Scalar α] : Prop where
  toRat?_sides (a : Aspect) :
    Scalar.toRat? (Scalar.ofNat a.size.1 : α) = some (a.size.1 : Rat) ∧
      Scalar.toRat? (Scalar.ofNat a.size.2 : α) = some (a.size.2 : Rat)

instance : HoldsSides Float where
  toRat?_sides
    | .square | .fourThree | .sixteenNine | .threeTwo | .twoThree | .nineSixteen => by decide +kernel

instance : HoldsSides Rat where
  toRat?_sides _ := ⟨rfl, rfl⟩

/-! ## Escaping -/

theorem quote_not_mem_escapeValueChar (c : Char) : '"' ∉ escapeValueChar c := by
  unfold escapeValueChar escapeTextChar
  split_ifs with h
  all_goals first | decide | exact fun hm => h (List.mem_singleton.mp hm).symm

theorem quote_not_mem_escapeValue (cs : List Char) : '"' ∉ escapeValue cs := by
  intro h
  obtain ⟨c, -, hc⟩ := List.mem_flatMap.mp h
  exact quote_not_mem_escapeValueChar c hc

/-! ## Sides -/

section

variable {α : Type} [Scalar α]

/-- A whole number that is held exactly is written as it is. -/
theorem coordinateText_ofNat [DecimalText α] {n : Nat}
    (h : Scalar.toRat? (Scalar.ofNat n : α) = some (n : Rat)) :
    coordinateText (Scalar.ofNat n : α) = toString n := by
  have hnum : (n : Rat).num = (n : Int) := Rat.num_natCast n
  have hden : (n : Rat).den = 1 := Rat.den_natCast n
  unfold coordinateText
  rw [h]
  simp only [hnum, hden, if_pos]
  rfl

theorem Scalar.eq_of_ofRat? {q : Rat} {x : α} (h : ofRat? q = some x) : x = ofRat q := by
  simp only [ofRat?] at h
  split_ifs at h
  exact (Option.some.inj h).symm

theorem Numeral.eq_of_toScalar {n : Nat} {x : α} (h : (whole n : Numeral α).toScalar = .ok x) :
    x = Scalar.ofNat n := by
  cases hv : (whole n : Numeral α).value? with
  | none => simp [toScalar, hv] at h
  | some y =>
    obtain rfl : y = x := by simpa [toScalar, hv] using h
    exact Scalar.eq_of_ofRat? hv

theorem Canvas.sides_eq_ok {c : Canvas α} {w h : α} (hs : c.sides = .ok (w, h)) :
    w = Scalar.ofNat c.width ∧ h = Scalar.ofNat c.height := by
  unfold Canvas.sides at hs
  obtain ⟨w', hw, hs⟩ := bind_eq_ok_iff.mp hs
  obtain ⟨h', hh, hs⟩ := bind_eq_ok_iff.mp hs
  obtain ⟨rfl, rfl⟩ := Prod.mk.inj (pure_eq_ok_iff.mp hs)
  exact ⟨Numeral.eq_of_toScalar hw, Numeral.eq_of_toScalar hh⟩

end

/-! ## Pages -/

/-- **A page** is the opening tag of the canvas, the lines of what is laid out, and the closing tag. -/
theorem Document.markup_eq_ok_iff {α : Type} [Scalar α] [DecimalText α] [Trig α] {d : Document α} {markup : String} :
    d.markup = .ok markup ↔ ∃ r width height, d.resolve = .ok r ∧ d.canvas.sides = .ok (width, height) ∧
      markup = "\n".intercalate (openTag (.str d.canvas.viewBoxText) width height ::
        r.paintedLayers.flatMap r.layerLines ++ ["</svg>"]) := by
  constructor
  · intro h
    obtain ⟨r, hr, h⟩ := bind_eq_ok_iff.mp h
    obtain ⟨opening, ho, h⟩ := bind_eq_ok_iff.mp h
    obtain ⟨⟨width, height⟩, hsides, ho⟩ := bind_eq_ok_iff.mp ho
    obtain rfl := pure_eq_ok_iff.mp ho
    exact ⟨r, width, height, hr, hsides, (pure_eq_ok_iff.mp h).symm⟩
  · rintro ⟨r, width, height, hr, hsides, rfl⟩
    unfold markup Canvas.openTag
    rw [hr, hsides]
    rfl

section

variable {α : Type} [Scalar α] [DecimalText α] [HoldsSides α]

/-- The sides of a canonical canvas hold no character that is escaped. -/
theorem escapeValue_side (a : Aspect) :
    escapeValue (toString a.size.1).toList = (toString a.size.1).toList ∧
      escapeValue (toString a.size.2).toList = (toString a.size.2).toList := by
  cases a <;> decide +kernel

/-- The mark between two attributes and the name of the second as one text. -/
theorem attribute_mark {name mark : String} (h : "\"" ++ " " ++ name ++ "=\"" = mark) (r : String) :
    "\"" ++ (" " ++ (name ++ ("=\"" ++ r))) = mark ++ r := by
  rw [← h]
  simp only [String.append_assoc]

theorem openTag_eq_rootTag (a : Aspect) (v : String) :
    openTag (.str v) (Scalar.ofNat a.size.1 : α) (Scalar.ofNat a.size.2) =
      rootTag (String.ofList (escapeValue v.toList)) a.size.1 a.size.2 := by
  obtain ⟨hw, hh⟩ := HoldsSides.toRat?_sides (α := α) a
  have hns : escapeValue svgNamespace.toList = svgNamespace.toList := by decide +kernel
  have hspaced (a b c d : String) :
      " ".intercalate [a, b, c, d] = a ++ " " ++ b ++ " " ++ c ++ " " ++ d := rfl
  have hstr (x : String) : toString x = x := rfl
  have hopen (r : String) : "<svg " ++ ("xmlns" ++ ("=\"" ++ r)) = "<svg xmlns=\"" ++ r := by
    rw [← String.append_assoc, ← String.append_assoc,
      show "<svg " ++ "xmlns" ++ "=\"" = "<svg xmlns=\"" by decide +kernel]
  have hviewBox := attribute_mark
    (show "\"" ++ " " ++ "viewBox" ++ "=\"" = "\" viewBox=\"" by decide +kernel)
  have hwidth := attribute_mark
    (show "\"" ++ " " ++ "width" ++ "=\"" = "\" width=\"" by decide +kernel)
  have hheight := attribute_mark
    (show "\"" ++ " " ++ "height" ++ "=\"" = "\" height=\"" by decide +kernel)
  have hclose : "\"" ++ ">" = "\">" := by decide +kernel
  simp only [openTag, attributesText, attributeText?, attributeValue?, Json.ofReal,
    List.filterMap_cons, List.filterMap_nil, Option.map_some, coordinateText_ofNat hw,
    coordinateText_ofNat hh, hns, (escapeValue_side a).1, (escapeValue_side a).2, String.ofList_toList]
  rw [hspaced]
  unfold rootTag
  simp only [hstr, String.append_assoc]
  simp only [hopen, hviewBox, hwidth, hheight, hclose]

/-- **Pages of documents**: markup of a document on a canvas of canonical size has a root of that size. -/
theorem Document.markup_hasRoot [Trig α] {d : Document α} {a : Aspect} {markup : String}
    (hc : (d.canvas.width, d.canvas.height) = a.size) (hm : d.markup = .ok markup) :
    HasRoot markup a.size := by
  obtain ⟨r, w, h, -, hs, rfl⟩ := markup_eq_ok_iff.mp hm
  obtain ⟨rfl, rfl⟩ := Canvas.sides_eq_ok hs
  rw [show d.canvas.width = a.size.1 from congrArg Prod.fst hc,
    show d.canvas.height = a.size.2 from congrArg Prod.snd hc, openTag_eq_rootTag]
  refine ⟨String.ofList (escapeValue d.canvas.viewBoxText.toList), _, ?_,
    (String.intercalate_cons_of_ne_nil (by simp)).trans String.append_assoc⟩
  rw [String.toList_ofList]
  exact quote_not_mem_escapeValue _

/-- **The plain circle**: so does its markup. -/
theorem plainMarkup_hasRoot (a : Aspect) :
    HasRoot (plainMarkup (Scalar.ofNat a.size.1 : α) (Scalar.ofNat a.size.2)) a.size := by
  obtain ⟨hw, hh⟩ := HoldsSides.toRat?_sides (α := α) a
  unfold plainMarkup
  simp only [coordinateText_ofNat hw, coordinateText_ofNat hh]
  have hquote : '"' ∉ s!"0 0 {a.size.1} {a.size.2}".toList := by cases a <;> decide +kernel
  let line (w h : Nat) : String :=
    s!"<svg xmlns=\"{svgNamespace}\" viewBox=\"0 0 {w} {h}\" width=\"{w}\" height=\"{h}\">\n"
  have hline : line a.size.1 a.size.2 =
      rootTag s!"0 0 {a.size.1} {a.size.2}" a.size.1 a.size.2 ++ "\n" := by
    cases a <;> decide +kernel
  exact .append (.append ⟨_, _, hquote, hline⟩)

end

end Drawing
