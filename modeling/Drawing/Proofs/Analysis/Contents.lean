import Drawing.Analysis.Measures
import Drawing.Proofs.Document.Reading
import Drawing.Proofs.Json.Outline

/-!
# `Drawing/Proofs/Analysis/Contents.lean` — what the contents of a layer tell

The contents of a layer are its text with every field in it, and texts tell raw data up to numbers that are not finite.
A document may have such numbers in few places: a stroke may be infinitely wide, and so may be the spacing of a grid,
the radius of a circle and a requested size. The first three may also be missing, which is written the same. So the
contents tell a layer up to these (`Layer.written`):

> **layers with equal contents are equal where they are written**, if they are as reading leaves them, and **they have
> equal measures** if the points of one of them are finite.
-/

namespace Drawing

/-! ## What is written -/

section

variable {α : Type} [Scalar α]

/-- A repetition without the numbers that are not written. -/
def Repetition.written (r : Repetition α) : Repetition α :=
  { r with spacing := r.spacing.filter Scalar.isFinite, radius := r.radius.filter Scalar.isFinite }

/-- A layout without the numbers that are not written. -/
def LayoutSpec.written (s : LayoutSpec α) : LayoutSpec α :=
  { s with repetition := s.repetition.map Repetition.written }

/-- A style without the numbers that are not written. -/
def PathStyle.written (s : PathStyle α) : PathStyle α :=
  { s with strokeWidth := s.strokeWidth.filter Scalar.isFinite, opacity := s.opacity.filter Scalar.isFinite }

/-- A path without the numbers that are not written. -/
def ShapePath.written (p : ShapePath α) : ShapePath α :=
  { p with style := p.style.written, layout := p.layout.map LayoutSpec.written }

/-- A layer without the numbers that are not written. -/
def Layer.written (l : Layer α) : Layer α :=
  { l with paths := l.paths.map ShapePath.written, layout := l.layout.map LayoutSpec.written }

/-! Numbers in other places have to be told by their texts. -/

/-- A number that is told by its text wherever it cannot be missing. -/
def Legible (x : α) : Prop := Scalar.isFinite x = true ∨ Scalar.zero < x

/-- A layout with a finite offset and a legible size. -/
structure LayoutSpec.IsLegible (s : LayoutSpec α) : Prop where
  offset : ∀ p, s.offset = some p → p.IsFinite
  size : ∀ z, s.size = some z → ∀ x ∈ z.numbers, Legible x

/-- A path with finite points and a legible layout. -/
structure ShapePath.IsLegible (p : ShapePath α) : Prop where
  points : CommandsFinite p.commands
  layout : ∀ s, p.layout = some s → s.IsLegible

/-- A layer of legible paths and with a legible layout. -/
structure Layer.IsLegible (l : Layer α) : Prop where
  paths : ∀ p ∈ l.paths, p.IsLegible
  layout : ∀ s, l.layout = some s → s.IsLegible

end

/-! ## What is measured -/

/-- The region and the anchor that a layout names. -/
def LayoutSpec.names {α : Type} (s : LayoutSpec α) : Option String × Option Anchor := (s.region, s.anchor)

/-- What is measured of a path: its commands and the names in its layout. -/
def ShapePath.measured {α : Type} (p : ShapePath α) : List (Command α) × Option (Option String × Option Anchor) :=
  (p.commands, p.layout.map LayoutSpec.names)

/-! ## What reading leaves -/

section

variable {α : Type} [Scalar α]

theorem SizeSpec.read_legible {v : Json α} {z : SizeSpec α} (h : read v = .valid z) : ∀ x ∈ z.numbers, Legible x :=
  fun x hx => .inr (read_isPositive h x hx)

theorem LayoutSpec.read_legible {v : Json α} {s : LayoutSpec α} (h : read v = .valid s) : s.IsLegible := by
  obtain ⟨fields, -, h⟩ := Schema.record_eq_valid_iff.mp h
  obtain ⟨-, -, hoffset, hsize, -, -⟩ := readFields_eq_valid_iff.mp h
  exact ⟨Schema.forall_of_optional_nullable hoffset fun _ _ h => Point.read_isFinite h,
    Schema.forall_of_optional_nullable hsize fun _ _ h => SizeSpec.read_legible h⟩

theorem ShapePath.read_legible {v : Json α} {p : ShapePath α} (h : read v = .valid p) : p.IsLegible := by
  have hpoints := (read_sound h).finite
  obtain ⟨fields, -, h⟩ := Schema.record_eq_valid_iff.mp h
  obtain ⟨-, -, -, hlayout⟩ := readFields_eq_valid_iff.mp h
  exact ⟨hpoints, Schema.forall_of_optional_nullable hlayout fun _ _ h => LayoutSpec.read_legible h⟩

/-- **A layer that was read is legible.** -/
theorem Layer.read_legible {v : Json α} {l : Layer α} (h : read v = .valid l) : l.IsLegible := by
  obtain ⟨fields, -, h⟩ := Schema.record_eq_valid_iff.mp h
  obtain ⟨-, -, hpaths, hlayout⟩ := readFields_eq_valid_iff.mp h
  exact ⟨Schema.forall_of_optional_list hpaths fun _ _ h => ShapePath.read_legible h,
    Schema.forall_of_optional_nullable hlayout fun _ _ h => LayoutSpec.read_legible h⟩

end

/-! ## Outlines of parts -/

namespace Json

variable {α β γ : Type} [DecimalText α]

theorem outline_write_full (fields : List (Schema.Key × Json α)) :
    (Schema.write .full fields).outline = .obj (fields.map fun f => (f.1.name, f.2.outline)) := by
  show (Json.obj (fields.map fun f => (f.1.name, f.2))).outline = _
  rw [outline, fieldOutlines_eq_map, List.map_map]
  rfl

/-- Records with the same keys are told field by field. -/
theorem outline_write_cons_inj {key : Schema.Key} {v w : Json α} {fields fields' : List (Schema.Key × Json α)} :
    (Schema.write .full ((key, v) :: fields)).outline = (Schema.write .full ((key, w) :: fields')).outline ↔
      v.outline = w.outline ∧ (Schema.write .full fields).outline = (Schema.write .full fields').outline := by
  simp only [outline_write_full, List.map_cons, Json.obj.injEq, List.cons.injEq, Prod.mk.injEq, true_and]

theorem outline_arr_map (f : β → Json α) (xs : List β) :
    (Json.arr (xs.map f)).outline = .arr (xs.map fun x => (f x).outline) := by
  rw [outline, itemOutlines_eq_map, List.map_map]
  rfl

theorem outline_obj_ne_null (fields : List (String × Json α)) : (Json.obj fields).outline ≠ .null := nofun

theorem outline_arr_ne_null (items : List (Json α)) : (Json.arr items).outline ≠ .null := nofun

/-- A part that may be missing is told by its outline, if there is one that tells it and is not `null`. -/
theorem ofOption_outline_inj {f : β → Json α} {g : β → γ} {x y : Option β}
    (hnull : ∀ b, (f b).outline ≠ .null)
    (hinj : ∀ b c, x = some b → y = some c → (f b).outline = (f c).outline → g b = g c)
    (h : (ofOption (x.map f)).outline = (ofOption (y.map f)).outline) : x.map g = y.map g := by
  cases x with
  | none =>
    cases y with
    | none => rfl
    | some c => exact absurd h.symm (hnull c)
  | some b =>
    cases y with
    | none => exact absurd h (hnull b)
    | some c => exact congrArg some (hinj b c rfl rfl h)

/-- The items of a list are told by their outlines, if each of them is. -/
theorem map_outline_inj {f : β → Json α} {g : β → γ} {xs ys : List β}
    (hinj : ∀ b ∈ xs, ∀ c ∈ ys, (f b).outline = (f c).outline → g b = g c)
    (h : (Json.arr (xs.map f)).outline = (Json.arr (ys.map f)).outline) : xs.map g = ys.map g := by
  rw [outline_arr_map, outline_arr_map] at h
  replace h := Json.arr.inj h
  induction xs generalizing ys with
  | nil => rw [List.map_eq_nil_iff.mp h.symm]
  | cons b xs ih =>
    cases ys with
    | nil => exact absurd h (List.cons_ne_nil _ _)
    | cons c ys =>
      obtain ⟨hbc, hrest⟩ := List.cons.inj h
      rw [List.map_cons, List.map_cons, hinj b List.mem_cons_self c List.mem_cons_self hbc,
        ih (fun b hb c hc => hinj b (List.mem_cons_of_mem _ hb) c (List.mem_cons_of_mem _ hc)) hrest]

theorem outline_ofInt (n : Int) : (ofInt n : Json α).outline = .num (.real (toString n)) := by
  refine if_neg ?_
  intro hnull
  have hmem : 'n' ∈ (toString n).toList := by
    have : toString n = "null" := hnull
    rw [this]
    decide
  exact absurd (isDigit_or_minus_of_mem_toString hmem) (by decide)

theorem ofInt_outline_inj {m n : Int} (h : (ofInt m : Json α).outline = (ofInt n : Json α).outline) : m = n := by
  rw [outline_ofInt, outline_ofInt] at h
  exact toString_int_inj (Numeral.real.inj (Json.num.inj h))

/-! A scalar is written as `null` exactly if it is not finite. -/

section

variable [Scalar α] [ToldByDigits α]

theorem outline_ofReal (x : α) : (ofReal x).outline = if Scalar.isFinite x = true then
    .num (.real ((DecimalText.shortest x).text .document)) else .null := by
  have houtline : (ofReal x).outline = if (DecimalText.shortest x).text .document = "null" then .null
      else .num (.real ((DecimalText.shortest x).text .document)) := rfl
  rw [houtline]
  by_cases hx : Scalar.isFinite x = true
  · obtain ⟨negative, digits, exponent, hs⟩ := ToldByDigits.isFinite_iff.mp hx
    rw [if_pos hx, hs, if_neg (Shortest.text_finite_ne (by decide))]
  · rw [if_neg hx]
    refine if_pos ?_
    cases hs : DecimalText.shortest x with
    | finite negative digits exponent => exact absurd (ToldByDigits.isFinite_iff.mpr ⟨_, _, _, hs⟩) hx
    | notANumber => rfl
    | infinite negative => cases negative <;> rfl

theorem eq_of_outline_ofReal {x y : α} (hx : Scalar.isFinite x = true)
    (h : (ofReal x).outline = (ofReal y).outline) : x = y := by
  rw [outline_ofReal, outline_ofReal, if_pos hx] at h
  split_ifs at h with hy
  obtain ⟨negative, digits, exponent, hs⟩ := ToldByDigits.isFinite_iff.mp hx
  obtain ⟨negative', digits', exponent', ht⟩ := ToldByDigits.isFinite_iff.mp hy
  have htext := Numeral.real.inj (Json.num.inj h)
  rw [hs, ht] at htext
  refine eq_of_alike ?_
  rw [hs, ht]
  exact Shortest.alike_of_text_finite htext

theorem eq_of_legible {x y : α} (hx : Legible x) (hy : Legible y) (h : (ofReal x).outline = (ofReal y).outline) :
    x = y := by
  by_cases hfinite : Scalar.isFinite x = true
  · exact eq_of_outline_ofReal hfinite h
  by_cases hfinite' : Scalar.isFinite y = true
  · exact (eq_of_outline_ofReal hfinite' h.symm).symm
  · have hx0 := hx.resolve_left hfinite
    have hy0 := hy.resolve_left hfinite'
    rw [Bool.not_eq_true] at hfinite hfinite'
    refine ToldByDigits.eq_of_word hfinite ?_
    rw [ToldByDigits.shortest_of_unbounded hfinite hx0, ToldByDigits.shortest_of_unbounded hfinite' hy0]

theorem outline_filter_isFinite (x : Option α) :
    (ofOption ((x.filter Scalar.isFinite).map ofReal)).outline = (ofOption (x.map ofReal)).outline := by
  cases x with
  | none => rfl
  | some a =>
    by_cases ha : Scalar.isFinite a = true
    · rw [Option.filter_some_pos ha]
    · rw [Option.filter_some_neg (Bool.eq_false_iff.mpr ha)]
      show .null = (ofReal a).outline
      rw [outline_ofReal, if_neg ha]

/-- A number that may be missing is told by its outline as far as it is finite. -/
theorem filter_isFinite_inj {x y : Option α}
    (h : (ofOption (x.map ofReal)).outline = (ofOption (y.map ofReal)).outline) :
    x.filter Scalar.isFinite = y.filter Scalar.isFinite := by
  rw [← outline_filter_isFinite x, ← outline_filter_isFinite y] at h
  have hfinite {z : Option α} {a : α} (ha : z.filter Scalar.isFinite = some a) : Scalar.isFinite a = true :=
    (Option.filter_eq_some_iff.mp ha).2
  have hnull {a : α} (ha : Scalar.isFinite a = true) : (ofReal a).outline ≠ .null := by
    rw [outline_ofReal, if_pos ha]
    exact nofun
  cases hx : x.filter Scalar.isFinite with
  | none =>
    cases hy : y.filter Scalar.isFinite with
    | none => rfl
    | some b =>
      rw [hx, hy] at h
      exact absurd h.symm (hnull (hfinite hy))
  | some a =>
    cases hy : y.filter Scalar.isFinite with
    | none =>
      rw [hx, hy] at h
      exact absurd h (hnull (hfinite hx))
    | some b =>
      rw [hx, hy] at h
      exact congrArg some (eq_of_outline_ofReal (hfinite hx) h)

end

end Json

/-! ## Records -/

section

variable {α : Type} [Scalar α] [DecimalText α] [ToldByDigits α]

open Json

omit [Scalar α] [ToldByDigits α] in
theorem text_outline_inj {x y : Option String}
    (h : (ofOption (x.map str) : Json α).outline = (ofOption (y.map str) : Json α).outline) : x = y := by
  have hmap := ofOption_outline_inj (f := (str : String → Json α)) (g := id) nofun
    (fun _ _ _ _ h => Json.str.inj h) h
  simpa using hmap

omit [Scalar α] [ToldByDigits α] in
/-- A named choice that may be missing is told by its outline, as names are different. -/
theorem name_outline_inj {β : Type} {name : β → String} (hname : ∀ b c, name b = name c → b = c) {x y : Option β}
    (h : (ofOption (x.map fun b => str (name b)) : Json α).outline =
      (ofOption (y.map fun b => str (name b)) : Json α).outline) : x = y := by
  have hmap := ofOption_outline_inj (f := fun b => (str (name b) : Json α)) (g := id) nofun
    (fun b c _ _ h => hname b c (Json.str.inj h)) h
  simpa using hmap

theorem PathStyle.written_inj {s t : PathStyle α} (h : (s.json .full).outline = (t.json .full).outline) :
    s.written = t.written := by
  unfold json at h
  simp only [outline_write_cons_inj, and_true] at h
  obtain ⟨hfill, hstroke, hwidth, hcap, hjoin, hopacity⟩ := h
  have hcaps : ∀ b c : Linecap, b.name = c.name → b = c := by intro b c; cases b <;> cases c <;> decide
  have hjoins : ∀ b c : Linejoin, b.name = c.name → b = c := by intro b c; cases b <;> cases c <;> decide
  unfold written
  rw [text_outline_inj hfill, text_outline_inj hstroke, filter_isFinite_inj hwidth, name_outline_inj hcaps hcap,
    name_outline_inj hjoins hjoin, filter_isFinite_inj hopacity]

theorem Point.eq_of_outline {p q : Point α} (hp : p.IsFinite) (h : p.json.outline = q.json.outline) : p = q := by
  simp only [json, outline, itemOutlines, Json.arr.injEq, List.cons.injEq, and_true] at h
  exact congrArg₂ Point.mk (eq_of_outline_ofReal hp.1 h.1) (eq_of_outline_ofReal hp.2 h.2)

theorem Command.eq_of_outline {c d : Command α} (hc : ∀ p ∈ c.points, p.IsFinite)
    (h : (c.json .full).outline = (d.json .full).outline) : c = d := by
  unfold json at h
  simp only [outline_write_cons_inj, and_true] at h
  obtain ⟨hletter, hcoords⟩ := h
  have hletters : ∀ l m : Letter, l.text = m.text → l = m := by intro l m; cases l <;> cases m <;> decide
  have hletter := hletters _ _ (Json.str.inj hletter)
  have hcoords : c.coords.map id = d.coords.map id := by
    exact map_outline_inj (fun x hx y _ h => eq_of_outline_ofReal (isFinite_of_mem_coords hc hx) h) hcoords
  rw [List.map_id, List.map_id] at hcoords
  -- a command is what its letter makes of its coordinates
  have hmade (c : Command α) : ofCoords c.letter c.coords = .valid c := by cases c <;> rfl
  exact Checked.valid.inj ((hmade c).symm.trans (hletter ▸ hcoords ▸ hmade d))

omit [Scalar α] [ToldByDigits α] in
theorem RepeatCount.eq_of_outline {a b : RepeatCount}
    (h : (a.json : Json α).outline = (b.json : Json α).outline) : a = b := by
  have hint {m n : Nat} (h : (ofInt m : Json α).outline = (ofInt n : Json α).outline) : m = n :=
    Int.ofNat.inj (ofInt_outline_inj h)
  cases a with
  | one m =>
    cases b with
    | one n => exact congrArg one (hint h)
    | pair => simp [json, outline_ofInt, outline] at h
  | pair m m' =>
    cases b with
    | one => simp [json, outline_ofInt, outline] at h
    | pair n n' =>
      simp only [json, outline, itemOutlines, Json.arr.injEq, List.cons.injEq, and_true] at h
      exact congrArg₂ pair (hint h.1) (hint h.2)

theorem Repetition.written_inj {r s : Repetition α} (h : (r.json .full).outline = (s.json .full).outline) :
    r.written = s.written := by
  unfold json at h
  simp only [outline_write_cons_inj, and_true] at h
  obtain ⟨hpattern, hcount, hspacing, hradius⟩ := h
  have hpatterns : ∀ p q : Pattern, p.name = q.name → p = q := by intro p q; cases p <;> cases q <;> decide
  unfold written
  rw [hpatterns _ _ (Json.str.inj hpattern), RepeatCount.eq_of_outline hcount, filter_isFinite_inj hspacing,
    filter_isFinite_inj hradius]

/-- The outlines of the three fields that a size is written as, of which two are `null`. -/
def SizeSpec.formOutlines (z : SizeSpec α) : Json String × Json String × Json String :=
  match z with
  | absolute .. => ((z.formJson .full).outline, .null, .null)
  | relative _ => (.null, (z.formJson .full).outline, .null)
  | constrained .. => (.null, .null, (z.formJson .full).outline)

omit [Scalar α] [ToldByDigits α] in
theorem SizeSpec.formOutlines_inj {z w : SizeSpec α} (h : (z.json .full).outline = (w.json .full).outline) :
    z.formOutlines = w.formOutlines := by
  have hjson (z : SizeSpec α) : (z.json .full).outline = .obj [("absolute", z.formOutlines.1),
      ("relative", z.formOutlines.2.1), ("aspect_constrained", z.formOutlines.2.2)] := by
    unfold json
    cases z <;> rw [outline_write_full] <;> rfl
  rw [hjson, hjson] at h
  simp only [Json.obj.injEq, List.cons.injEq, Prod.mk.injEq, true_and, and_true] at h
  exact Prod.ext h.1 (Prod.ext h.2.1 h.2.2)

theorem SizeSpec.pairJson_inj {x x' y y' : α} {second : String} (hx : ∀ a ∈ [x, y], Legible a)
    (hx' : ∀ a ∈ [x', y'], Legible a)
    (h : (pairJson .full second x y).outline = (pairJson .full second x' y').outline) : x = x' ∧ y = y' := by
  unfold pairJson at h
  simp only [outline_write_cons_inj, and_true] at h
  exact ⟨eq_of_legible (hx x (by simp)) (hx' x' (by simp)) h.1, eq_of_legible (hx y (by simp)) (hx' y' (by simp)) h.2⟩

theorem SizeSpec.eq_of_outline {z w : SizeSpec α} (hz : ∀ x ∈ z.numbers, Legible x)
    (hw : ∀ x ∈ w.numbers, Legible x) (h : (z.json .full).outline = (w.json .full).outline) : z = w := by
  have hnull {second : String} {x y : α} : (pairJson .full second x y).outline ≠ .null := outline_obj_ne_null _
  -- sizes of two forms differ in which of the three fields is there
  obtain ⟨hfirst, hothers⟩ := Prod.mk.inj (formOutlines_inj h)
  obtain ⟨hsecond, hthird⟩ := Prod.mk.inj hothers
  cases z with
  | absolute x y =>
    cases w with
    | absolute x' y' =>
      obtain ⟨rfl, rfl⟩ := pairJson_inj hz hw hfirst
      rfl
    | relative | constrained => exact absurd hfirst hnull
  | relative share =>
    cases w with
    | absolute => exact absurd hfirst.symm hnull
    | relative share' =>
      exact congrArg relative (eq_of_legible (hz _ List.mem_cons_self) (hw _ List.mem_cons_self) hsecond)
    | constrained => exact absurd hthird.symm hnull
  | constrained x y =>
    cases w with
    | absolute => exact absurd hfirst.symm hnull
    | relative => exact absurd hthird hnull
    | constrained x' y' =>
      obtain ⟨rfl, rfl⟩ := pairJson_inj hz hw hthird
      rfl

omit [Scalar α] [ToldByDigits α] in
theorem LayoutSpec.names_inj {s t : LayoutSpec α} (h : (s.json .full).outline = (t.json .full).outline) :
    s.names = t.names := by
  unfold json at h
  simp only [outline_write_cons_inj, and_true] at h
  obtain ⟨hregion, hanchor, -⟩ := h
  have hanchors : ∀ a b : Anchor, a.name = b.name → a = b := by intro a b; cases a <;> cases b <;> decide
  exact Prod.ext (text_outline_inj hregion) (name_outline_inj hanchors hanchor)

theorem LayoutSpec.written_inj {s t : LayoutSpec α} (hs : s.IsLegible) (ht : t.IsLegible)
    (h : (s.json .full).outline = (t.json .full).outline) : s.written = t.written := by
  have hwhole (n : Int) : (ofInt n : Json α).outline ≠ .null := by
    rw [outline_ofInt]
    exact nofun
  obtain ⟨hregion, hanchor⟩ := Prod.mk.inj (names_inj h)
  unfold json at h
  simp only [outline_write_cons_inj, and_true] at h
  obtain ⟨-, -, hoffset, hsize, hrepetition, hzIndex⟩ := h
  have hoffset : s.offset.map id = t.offset.map id :=
    ofOption_outline_inj (fun _ => outline_arr_ne_null _)
      (fun p _ hp _ h => Point.eq_of_outline (hs.offset p hp) h) hoffset
  have hsize : s.size.map id = t.size.map id :=
    ofOption_outline_inj (fun _ => outline_obj_ne_null _)
      (fun z w hz hw h => SizeSpec.eq_of_outline (hs.size z hz) (ht.size w hw) h) hsize
  have hrepetition : s.repetition.map Repetition.written = t.repetition.map Repetition.written :=
    ofOption_outline_inj (fun _ => outline_obj_ne_null _) (fun _ _ _ _ h => Repetition.written_inj h) hrepetition
  have hzIndex : s.zIndex.map id = t.zIndex.map id :=
    ofOption_outline_inj hwhole (fun _ _ _ _ h => ofInt_outline_inj h) hzIndex
  rw [Option.map_id_fun, id, id] at hoffset hsize hzIndex
  unfold written
  rw [hregion, hanchor, hoffset, hsize, hrepetition, hzIndex]

omit [Scalar α] [ToldByDigits α] in
theorem ShapePath.outlines_eq {p q : ShapePath α} (h : (p.json .full).outline = (q.json .full).outline) :
    p.id = q.id ∧ (p.style.json .full).outline = (q.style.json .full).outline ∧
      (Json.arr (p.commands.map (Command.json .full))).outline =
        (Json.arr (q.commands.map (Command.json .full))).outline ∧
      (ofOption (p.layout.map (LayoutSpec.json .full))).outline =
        (ofOption (q.layout.map (LayoutSpec.json .full))).outline := by
  unfold json at h
  simp only [outline_write_cons_inj, and_true] at h
  exact h.imp_left Json.str.inj

theorem ShapePath.commands_inj {p q : ShapePath α} (hp : CommandsFinite p.commands)
    (h : (p.json .full).outline = (q.json .full).outline) : p.commands = q.commands := by
  obtain ⟨-, -, hcommands, -⟩ := outlines_eq h
  have hcommands : p.commands.map (fun c => c) = q.commands.map fun c => c := by
    refine Json.map_outline_inj (fun c hc d _ h => Command.eq_of_outline ?_ h) hcommands
    exact fun r hr => hp r (List.mem_flatMap.mpr ⟨c, hc, hr⟩)
  rwa [List.map_id', List.map_id'] at hcommands

theorem ShapePath.written_inj {p q : ShapePath α} (hp : p.IsLegible) (hq : q.IsLegible)
    (h : (p.json .full).outline = (q.json .full).outline) : p.written = q.written := by
  obtain ⟨hid, hstyle, -, hlayout⟩ := outlines_eq h
  have hlayout : p.layout.map LayoutSpec.written = q.layout.map LayoutSpec.written :=
    ofOption_outline_inj (fun _ => outline_obj_ne_null _)
      (fun s t hs ht h => LayoutSpec.written_inj (hp.layout s hs) (hq.layout t ht) h) hlayout
  unfold written
  rw [hid, PathStyle.written_inj hstyle, commands_inj hp.points h, hlayout]

omit [Scalar α] [ToldByDigits α] in
theorem Layer.outlines_eq {l m : Layer α} (h : (l.json .full).outline = (m.json .full).outline) :
    l.id = m.id ∧ l.label = m.label ∧
      (Json.arr (l.paths.map (ShapePath.json .full))).outline =
        (Json.arr (m.paths.map (ShapePath.json .full))).outline ∧
      (ofOption (l.layout.map (LayoutSpec.json .full))).outline =
        (ofOption (m.layout.map (LayoutSpec.json .full))).outline := by
  unfold json at h
  simp only [outline_write_cons_inj, and_true] at h
  exact h.imp Json.str.inj (And.imp_left Json.str.inj)

theorem Layer.written_inj {l m : Layer α} (hl : l.IsLegible) (hm : m.IsLegible)
    (h : (l.json .full).outline = (m.json .full).outline) : l.written = m.written := by
  obtain ⟨hid, hlabel, hpaths, hlayout⟩ := outlines_eq h
  have hpaths : l.paths.map ShapePath.written = m.paths.map ShapePath.written :=
    map_outline_inj (fun p hp q hq h => ShapePath.written_inj (hl.paths p hp) (hm.paths q hq) h) hpaths
  have hlayout : l.layout.map LayoutSpec.written = m.layout.map LayoutSpec.written :=
    ofOption_outline_inj (fun _ => outline_obj_ne_null _)
      (fun s t hs ht h => LayoutSpec.written_inj (hl.layout s hs) (hm.layout t ht) h) hlayout
  unfold written
  rw [hid, hlabel, hpaths, hlayout]

/-- **Layers with equal contents are equal where they are written.** -/
theorem Layer.written_eq_of_contents {l m : Layer α} (hl : l.IsLegible) (hm : m.IsLegible)
    (h : l.contents = m.contents) : l.written = m.written :=
  written_inj hl hm (outline_eq_of_text h)

end

/-! ## Measures

Sizes, styles and repetitions are not measured, so that the contents of two layers tell their measures apart as soon as
the points of one of them are finite. -/

section

variable {α : Type}

theorem regionsNamed_congr {s t : List (LayoutSpec α)} (h : s.map LayoutSpec.names = t.map LayoutSpec.names) :
    regionsNamed s = regionsNamed t := by
  have hregions (s : List (LayoutSpec α)) :
      s.filterMap LayoutSpec.region = (s.map LayoutSpec.names).filterMap Prod.fst := by
    rw [List.filterMap_map]
    rfl
  unfold regionsNamed
  rw [hregions, hregions, h]

theorem anchorsNamed_congr {s t : List (LayoutSpec α)} (h : s.map LayoutSpec.names = t.map LayoutSpec.names) :
    anchorsNamed s = anchorsNamed t := by
  have hanchors (s : List (LayoutSpec α)) :
      s.filterMap LayoutSpec.anchor = (s.map LayoutSpec.names).filterMap Prod.snd := by
    rw [List.filterMap_map]
    rfl
  unfold anchorsNamed
  rw [hanchors, hanchors, h]

theorem Layer.names_specs (l : Layer α) : l.specs.map LayoutSpec.names =
    (l.layout.map LayoutSpec.names).toList ++ (l.paths.map ShapePath.measured).filterMap Prod.snd := by
  unfold specs
  rw [List.map_append, List.filterMap_map, List.map_filterMap]
  congr 1
  cases l.layout <;> rfl

theorem Layer.measure_congr [Scalar α] {l m : Layer α} (hid : l.id = m.id)
    (hpaths : l.paths.map ShapePath.measured = m.paths.map ShapePath.measured)
    (hlayout : l.layout.map LayoutSpec.names = m.layout.map LayoutSpec.names) (width height : Numeral α) :
    l.measure width height = m.measure width height := by
  have hcommands (l : Layer α) : l.commands = (l.paths.map ShapePath.measured).flatMap Prod.fst := by
    rw [List.flatMap_map]
    rfl
  have hnames : l.specs.map LayoutSpec.names = m.specs.map LayoutSpec.names := by
    rw [names_specs, names_specs, hpaths, hlayout]
  have hlength : l.paths.length = m.paths.length := by simpa using congrArg List.length hpaths
  replace hcommands : l.commands = m.commands := by rw [hcommands, hcommands, hpaths]
  unfold measure complexity
  rw [hid, hlength, hcommands, regionsNamed_congr hnames, anchorsNamed_congr hnames]

end

section

variable {α : Type} [Scalar α] [DecimalText α] [ToldByDigits α]

open Json

theorem ShapePath.measured_inj {p q : ShapePath α} (hp : CommandsFinite p.commands)
    (h : (p.json .full).outline = (q.json .full).outline) : p.measured = q.measured := by
  obtain ⟨-, -, -, hlayout⟩ := outlines_eq h
  have hlayout : p.layout.map LayoutSpec.names = q.layout.map LayoutSpec.names :=
    ofOption_outline_inj (fun _ => outline_obj_ne_null _) (fun _ _ _ _ h => LayoutSpec.names_inj h) hlayout
  exact Prod.ext (commands_inj hp h) hlayout

/-- **Layers with equal contents have equal measures.** -/
theorem Layer.measure_eq_of_contents {l m : Layer α} (hl : ∀ p ∈ l.paths, CommandsFinite p.commands)
    (h : l.contents = m.contents) (width height : Numeral α) : l.measure width height = m.measure width height := by
  obtain ⟨hid, -, hpaths, hlayout⟩ := outlines_eq (outline_eq_of_text h)
  exact measure_congr hid
    (map_outline_inj (fun p hp _ _ h => ShapePath.measured_inj (hl p hp) h) hpaths)
    (ofOption_outline_inj (fun _ => outline_obj_ne_null _) (fun _ _ _ _ h => LayoutSpec.names_inj h) hlayout) _ _

end

end Drawing
