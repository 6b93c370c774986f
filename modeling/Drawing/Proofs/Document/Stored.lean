import Drawing.Proofs.Document.Reading
import Drawing.Proofs.Table

/-!
# `Drawing/Proofs/Document/Stored.lean` — stored documents read back

A document is stored under the aliases of its fields, and what is missing is left out. Reading looks for a field
under its alias first, so it finds what was written there, and takes a field that was left out for missing. So each
part of a document reads back, provided that it is as reading leaves it, from the letters of its commands to the three
forms of a size and the two of a count.

> **a stored document reads back as it was**, its layouts not yet carried out.
-/

namespace Drawing

open Schema

variable {α β : Type}

/-! ## Fields that were written -/

namespace Schema

/-- The fields of a stored record. -/
def storedFields (fields : List (Key × Json α)) : Fields α :=
  (fields.filter fun (_, v) => !isNull v).map fun (k, v) => (k.camel, v)

theorem write_stored (fields : List (Key × Json α)) : write .stored fields = .obj (storedFields fields) := rfl

/-- Keys that cannot be taken for each other, under whichever spelling they are looked for. -/
def Key.Apart (k k' : Key) : Prop := k.camel ≠ k'.camel ∧ k.name ≠ k'.camel ∧ k.camel ≠ k'.name

instance : DecidableRel Key.Apart := fun _ _ => inferInstanceAs (Decidable (_ ∧ _ ∧ _))

theorem get?_storedFields_eq_none {fields : List (Key × Json α)} {name : String}
    (h : ∀ k ∈ fields.map Prod.fst, k.camel ≠ name) : Table.get? (storedFields fields) name = none := by
  rw [← Option.not_isSome_iff_eq_none, Table.isSome_get?_iff]
  intro hmem
  obtain ⟨f, hf, rfl⟩ := List.mem_map.mp hmem
  obtain ⟨f', hf', rfl⟩ := List.mem_map.mp hf
  exact h f'.1 (List.mem_map_of_mem (List.mem_filter.mp hf').1) rfl

/-- A field that is not among those that are written is not found. -/
theorem find?_storedFields_eq_none {fields : List (Key × Json α)} {key : Key}
    (h : ∀ k ∈ fields.map Prod.fst, k.camel ≠ key.camel ∧ k.camel ≠ key.name) :
    key.find? (storedFields fields) = none := by
  unfold Key.find?
  rw [get?_storedFields_eq_none fun k hk => (h k hk).1, get?_storedFields_eq_none fun k hk => (h k hk).2]
  rfl

/-- A field that was written is found under its alias, unless it was left out. -/
theorem find?_storedFields {fields : List (Key × Json α)} (hkeys : (fields.map Prod.fst).Pairwise Key.Apart)
    {key : Key} {v : Json α} (h : (key, v) ∈ fields) :
    key.find? (storedFields fields) = if isNull v then none else some (key.camel, v) := by
  induction fields with
  | nil => exact absurd h List.not_mem_nil
  | cons f rest ih =>
    obtain ⟨k, w⟩ := f
    obtain ⟨hapart, hrest⟩ := List.pairwise_cons.mp hkeys
    have hskip (hnull : isNull w = true) : storedFields ((k, w) :: rest) = storedFields rest := by
      simp [storedFields, hnull]
    have hkeep (hnull : ¬ isNull w = true) :
        storedFields ((k, w) :: rest) = (k.camel, w) :: storedFields rest := by
      simp [storedFields, hnull]
    rcases List.mem_cons.mp h with heq | hmem
    · obtain ⟨rfl, rfl⟩ := Prod.mk.inj heq
      split_ifs with hnull
      · have hcamel : Table.get? (storedFields rest) key.camel = none :=
          get?_storedFields_eq_none fun k hk => (hapart k hk).1.symm
        have hname : Table.get? (storedFields rest) key.name = none :=
          get?_storedFields_eq_none fun k hk => (hapart k hk).2.1.symm
        unfold Key.find?
        rw [hskip hnull, hcamel, hname]
        rfl
      · unfold Key.find?
        rw [hkeep hnull, Table.get?_cons, if_pos rfl]
    · obtain ⟨hcamel, -, hname⟩ := hapart key (List.mem_map_of_mem (f := Prod.fst) hmem)
      rw [← ih hrest hmem]
      by_cases hnull : isNull w = true
      · rw [hskip hnull]
      · unfold Key.find?
        rw [hkeep hnull, Table.get?_cons, Table.get?_cons, if_neg hcamel.symm, if_neg hname.symm]

/-! ## Reading back -/

/-- What is written of a value that was read is not missing and reads as that value. -/
def ReadsBack (read : Json α → Checked β) (write : β → Json α) : Prop :=
  ∀ ⦃v : Json α⦄ ⦃b : β⦄, read v = .valid b → isNull (write b) = false ∧ read (write b) = .valid b

theorem ReadsBack.nullable {read : Json α → Checked β} {write : β → Json α} (hread : ReadsBack read write)
    {v : Json α} {b : Option β} (h : nullable read v = .valid b) :
    Schema.nullable read (.ofOption (b.map write)) = .valid b ∧
      (isNull (.ofOption (b.map write)) = true → b = none) := by
  rcases nullable_eq_valid_iff.mp h with ⟨-, rfl⟩ | ⟨-, x, hx, rfl⟩
  · exact ⟨rfl, fun _ => rfl⟩
  · obtain ⟨hnull, hback⟩ := hread hx
    refine ⟨nullable_eq_valid_iff.mpr (.inr ⟨?_, x, hback, rfl⟩), fun h => ?_⟩
    · rintro heq
      rw [show write x = .null from heq] at hnull
      exact nomatch hnull
    · exact nomatch hnull.symm.trans h

theorem ReadsBack.list {read : Json α → Checked β} {write : β → Json α} (hread : ReadsBack read write) :
    ReadsBack (list read) fun bs => .arr (bs.map write) := by
  intro v bs h
  obtain ⟨items, -, hitems⟩ := list_eq_valid_iff.mp h
  refine ⟨rfl, list_eq_valid_iff.mpr ⟨_, rfl, ?_⟩⟩
  rw [List.forall₂_map_left_iff, List.forall₂_same]
  intro b hb
  obtain ⟨item, -, hitem⟩ := exists_left_of_mem hitems hb
  exact (hread hitem).2

theorem readsBack_text : ReadsBack (text (α := α)) .str := fun _ _ h => ⟨rfl, text_eq_valid h ▸ h⟩

theorem readsBack_filledText : ReadsBack (filledText (α := α)) .str := fun _ _ h => ⟨rfl, filledText_eq_valid h ▸ h⟩

theorem readsBack_record {model : String} {read : Fields α → Checked β} {write : β → List (Key × Json α)}
    (h : ∀ ⦃fields : Fields α⦄ ⦃b : β⦄, read fields = .valid b → read (storedFields (write b)) = .valid b) :
    ReadsBack (record model read) fun b => Schema.write .stored (write b) := by
  intro v b hv
  obtain ⟨fields, -, hfields⟩ := record_eq_valid_iff.mp hv
  exact ⟨rfl, h hfields⟩

section Fields

variable {fields : List (Key × Json α)} {given : Fields α} {key : Key} {read : Json α → Checked β}
  {write : β → Json α}

theorem required_storedFields {b : β} (hread : ReadsBack read write) (h : required key read given = .valid b)
    (hkeys : (fields.map Prod.fst).Pairwise Key.Apart) (i : Nat) (hi : fields[i]? = some (key, write b)) :
    required key read (storedFields fields) = .valid b := by
  obtain ⟨s, v, -, hv⟩ := required_eq_valid_iff.mp h
  obtain ⟨hnull, hback⟩ := hread hv
  refine required_eq_valid_iff.mpr ⟨key.camel, write b, ?_, hback⟩
  rw [find?_storedFields hkeys (List.mem_of_getElem? hi), hnull, if_neg Bool.false_ne_true]

/-- A field with a default reads back if there is something that reads as the default. -/
theorem optional_storedFields {b fallback : β} {v : Json α} (hread : ReadsBack read write)
    (hfallback : read v = .valid fallback) (h : optional key fallback read given = .valid b)
    (hkeys : (fields.map Prod.fst).Pairwise Key.Apart) (i : Nat) (hi : fields[i]? = some (key, write b)) :
    optional key fallback read (storedFields fields) = .valid b := by
  obtain ⟨hnull, hback⟩ : isNull (write b) = false ∧ read (write b) = .valid b := by
    rcases optional_eq_valid_iff.mp h with ⟨-, rfl⟩ | ⟨_, v, -, hv⟩
    · exact hread hfallback
    · exact hread hv
  refine optional_eq_valid_iff.mpr (.inr ⟨key.camel, write b, ?_, hback⟩)
  rw [find?_storedFields hkeys (List.mem_of_getElem? hi), hnull, if_neg Bool.false_ne_true]

/-- A field that may be missing reads back, also if it is. -/
theorem nullable_storedFields {b : Option β} (hread : ReadsBack read write)
    (h : optional key none (nullable read) given = .valid b) (hkeys : (fields.map Prod.fst).Pairwise Key.Apart)
    (i : Nat) (hi : fields[i]? = some (key, .ofOption (b.map write))) :
    optional key none (nullable read) (storedFields fields) = .valid b := by
  obtain ⟨hback, hnone⟩ : nullable read (.ofOption (b.map write)) = .valid b ∧
      (isNull (.ofOption (b.map write)) = true → b = none) := by
    rcases optional_eq_valid_iff.mp h with ⟨-, rfl⟩ | ⟨_, v, -, hv⟩
    · exact ⟨rfl, fun _ => rfl⟩
    · exact hread.nullable hv
  have hfind := find?_storedFields hkeys (List.mem_of_getElem? hi)
  split_ifs at hfind with hnull
  · exact optional_eq_valid_iff.mpr (.inl ⟨hfind, (hnone hnull).symm⟩)
  · exact optional_eq_valid_iff.mpr (.inr ⟨_, _, hfind, hback⟩)

end Fields

/-! ## Single values -/

/-- A choice reads back if each name is the name of what it was chosen for. -/
theorem readsBack_oneOf {options : List String} {ofText? : String → Option β} {name : β → String}
    (hname : ∀ b, oneOf options ofText? (.str (name b) : Json α) = .valid b) :
    ReadsBack (α := α) (oneOf options ofText?) fun b => .str (name b) := fun _ b _ => ⟨rfl, hname b⟩

section Numbers

variable [Scalar α]

/-- A number reads back, whatever it was checked for. -/
theorem readsBack_number {check : α → Checked α} (hcheck : ∀ x y, check x = .valid y → x = y) :
    ReadsBack (fun v => (number v).refine check) .ofReal := by
  intro v y h
  obtain ⟨x, -, hx⟩ := Checked.refine_eq_valid_iff.mp h
  obtain rfl := hcheck x y hx
  exact ⟨rfl, hx⟩

omit [Scalar α] in
/-- A check that may refuse a number keeps what the rest of the check keeps. -/
theorem eq_of_ite_refuse {c : Prop} [Decidable c] {rest : Checked α} {cause : Cause} {x y : α}
    (hrest : rest = .valid y → x = y) (h : (if c then rest else .refuse cause) = .valid y) : x = y := by
  split_ifs at h
  · exact hrest h
  · exact nomatch h

theorem readsBack_finite : ReadsBack (α := α) finite .ofReal :=
  readsBack_number fun _ _ => eq_of_ite_refuse Checked.valid.inj

theorem readsBack_positive : ReadsBack (α := α) positive .ofReal :=
  readsBack_number fun _ _ => eq_of_ite_refuse Checked.valid.inj

theorem readsBack_nonnegative : ReadsBack (α := α) nonnegative .ofReal :=
  readsBack_number fun _ _ => eq_of_ite_refuse Checked.valid.inj

theorem readsBack_share : ReadsBack (α := α) share .ofReal :=
  readsBack_number fun _ _ => eq_of_ite_refuse (eq_of_ite_refuse Checked.valid.inj)

theorem readsBack_unitNumber : ReadsBack (α := α) unitNumber .ofReal :=
  readsBack_number fun _ _ => eq_of_ite_refuse (eq_of_ite_refuse Checked.valid.inj)

theorem readsBack_whole : ReadsBack (α := α) whole .ofInt := fun _ _ _ => ⟨rfl, rfl⟩

end Numbers

end Schema

variable [Scalar α]

/-! ## Points, boxes and commands -/

theorem Point.readsBack : ReadsBack (α := α) Point.read Point.json := by
  intro v p h
  obtain ⟨hx, hy⟩ := read_isFinite h
  refine ⟨rfl, Checked.map_eq_valid_iff.mpr ⟨(p.x, p.y), ?_, rfl⟩⟩
  simp only [json, pair, tupleItem, List.length_cons, List.length_nil, List.getElem?_cons_zero,
    List.getElem?_cons_succ, finite_ofReal hx, finite_ofReal hy]
  rfl

theorem Box.read_isFinite {v : Json α} {b : Box α} (h : readList v = .valid b) :
    ∀ x ∈ b.toList, Scalar.isFinite x = true := by
  obtain ⟨⟨x, y, w, h⟩, hread, rfl⟩ := Checked.map_eq_valid_iff.mp h
  cases v with
  | arr items =>
    unfold quadruple at hread
    dsimp only at hread
    split_ifs at hread
    · cases hread
    · simp only [Checked.seq_eq_valid_iff, Checked.functor_map_eq_valid_iff] at hread
      obtain ⟨_, _, ⟨_, _, ⟨_, _, ⟨_, hx, rfl⟩, hy, rfl⟩, hw, rfl⟩, hh, heq⟩ := hread
      cases heq
      obtain ⟨_, hx⟩ := tupleItem_eq_valid hx
      obtain ⟨_, hy⟩ := tupleItem_eq_valid hy
      obtain ⟨_, hw⟩ := tupleItem_eq_valid hw
      obtain ⟨_, hh⟩ := tupleItem_eq_valid hh
      simp [toList, finite_eq_valid hx, finite_eq_valid hy, finite_eq_valid hw, finite_eq_valid hh]
  | null | bool | num | str | obj => cases hread

theorem Box.readsBack_list : ReadsBack (α := α) Box.readList Box.jsonList := by
  intro v b h
  have hfinite := read_isFinite h
  refine ⟨rfl, Checked.map_eq_valid_iff.mpr ⟨(b.x, b.y, b.width, b.height), ?_, rfl⟩⟩
  simp only [toList, List.forall_mem_cons] at hfinite
  obtain ⟨hx, hy, hw, hh, -⟩ := hfinite
  simp only [jsonList, toList, List.map_cons, List.map_nil, quadruple, tupleItem, List.length_cons, List.length_nil,
    List.getElem?_cons_zero, List.getElem?_cons_succ, finite_ofReal hx, finite_ofReal hy, finite_ofReal hw,
    finite_ofReal hh]
  rfl

theorem Box.readsBack : ReadsBack (α := α) Box.read (Box.json .stored) := by
  have hkeys : [Key.same "x", .same "y", .same "width", .same "height"].Pairwise Key.Apart := by decide
  refine readsBack_record fun fields b h => ?_
  obtain ⟨hx, hy, hwidth, hheight⟩ := readFields_eq_valid_iff.mp h
  exact readFields_eq_valid_iff.mpr ⟨required_storedFields readsBack_finite hx hkeys 0 rfl,
    required_storedFields readsBack_finite hy hkeys 1 rfl, required_storedFields readsBack_finite hwidth hkeys 2 rfl,
    required_storedFields readsBack_finite hheight hkeys 3 rfl⟩

theorem Command.readsBack : ReadsBack (α := α) Command.read (Command.json .stored) :=
  fun _ _ h => ⟨rfl, read_json (read_isFinite h)⟩

/-! ## Canvas and regions -/

theorem Canvas.readsBack_side : ReadsBack (α := α) readSide fun n => .ofInt n := fun _ n _ =>
  ⟨rfl, Checked.refine_eq_valid_iff.mpr ⟨n, rfl, dif_pos n.2⟩⟩

theorem Canvas.readsBack : ReadsBack (α := α) Canvas.read (Canvas.json .stored) := by
  have hkeys : [Key.same "width", .same "height", ⟨"aspectRatio", "aspect_ratio"⟩,
      ⟨"viewBox", "view_box"⟩].Pairwise Key.Apart := by decide
  refine readsBack_record fun fields c h => ?_
  obtain ⟨hwidth, hheight, haspect, hviewBox⟩ := readFields_eq_valid_iff.mp h
  have hside : readSide (.ofInt 512 : Json α) = .valid ⟨512, by decide⟩ := rfl
  have hsquare : Aspect.read (.str "1:1" : Json α) = .valid .square := rfl
  have htag : ReadsBack (α := α) Aspect.read fun a => .str a.tag := readsBack_oneOf fun a => by cases a <;> rfl
  exact readFields_eq_valid_iff.mpr ⟨optional_storedFields readsBack_side hside hwidth hkeys 0 rfl,
    optional_storedFields readsBack_side hside hheight hkeys 1 rfl,
    optional_storedFields htag hsquare haspect hkeys 2 rfl,
    nullable_storedFields Box.readsBack_list hviewBox hkeys 3 rfl⟩

theorem CustomRegion.readsBack : ReadsBack (α := α) CustomRegion.read (CustomRegion.json .stored) := by
  have hkeys : [Key.same "name", .same "bounds"].Pairwise Key.Apart := by decide
  refine readsBack_record fun fields r h => ?_
  obtain ⟨hname, hbounds⟩ := readFields_eq_valid_iff.mp h
  exact readFields_eq_valid_iff.mpr ⟨required_storedFields readsBack_filledText hname hkeys 0 rfl,
    required_storedFields Box.readsBack hbounds hkeys 1 rfl⟩

/-! ## Layouts -/

omit [Scalar α] in
theorem Anchor.readsBack : ReadsBack (α := α) Anchor.read fun a => .str a.name :=
  readsBack_oneOf fun a => by cases a <;> rfl

theorem SizeSpec.readsBack_absolute : ReadsBack (α := α) readAbsolute (formJson .stored) := by
  intro v z h
  have hkeys : [Key.same "width", .same "height"].Pairwise Key.Apart := by decide
  obtain ⟨fields, width, height, -, hwidth, hheight, rfl⟩ := readAbsolute_eq_valid_iff.mp h
  exact ⟨rfl, readAbsolute_eq_valid_iff.mpr ⟨_, width, height, rfl,
    required_storedFields readsBack_positive hwidth hkeys 0 rfl,
    required_storedFields readsBack_positive hheight hkeys 1 rfl, rfl⟩⟩

theorem SizeSpec.readsBack_constrained : ReadsBack (α := α) readConstrained (formJson .stored) := by
  intro v z h
  have hkeys : [Key.same "width", .same "aspect"].Pairwise Key.Apart := by decide
  obtain ⟨fields, width, aspect, -, hwidth, haspect, rfl⟩ := readConstrained_eq_valid_iff.mp h
  exact ⟨rfl, readConstrained_eq_valid_iff.mpr ⟨_, width, aspect, rfl,
    required_storedFields readsBack_positive hwidth hkeys 0 rfl,
    required_storedFields readsBack_positive haspect hkeys 1 rfl, rfl⟩⟩

theorem SizeSpec.readsBack_relative :
    ReadsBack (α := α) (fun v => (share v).map relative) (formJson .stored) := by
  intro v z h
  obtain ⟨x, hx, rfl⟩ := Checked.map_eq_valid_iff.mp h
  obtain ⟨-, hback⟩ := readsBack_share hx
  exact ⟨rfl, Checked.map_eq_valid_iff.mpr ⟨x, hback, rfl⟩⟩

omit [Scalar α] in
/-- Each form of a size is written in its own place. -/
theorem SizeSpec.json_of_choose {a b c : Option (SizeSpec α)} {z : SizeSpec α}
    (ha : ∀ x, a = some x → ∃ w h, x = absolute w h) (hb : ∀ x, b = some x → ∃ share, x = relative share)
    (hc : ∀ x, c = some x → ∃ w aspect, x = constrained w aspect) (h : choose a b c = .valid z) :
    z.json .stored = write .stored [(.same "absolute", .ofOption (a.map (formJson .stored))),
      (.same "relative", .ofOption (b.map (formJson .stored))),
      (⟨"aspectConstrained", "aspect_constrained"⟩, .ofOption (c.map (formJson .stored)))] := by
  unfold choose at h
  split at h
  · obtain ⟨w, h', rfl⟩ := ha _ rfl
    obtain rfl := Checked.valid.inj h
    rfl
  · obtain ⟨share, rfl⟩ := hb _ rfl
    obtain rfl := Checked.valid.inj h
    rfl
  · obtain ⟨w, aspect, rfl⟩ := hc _ rfl
    obtain rfl := Checked.valid.inj h
    rfl
  · exact nomatch h

theorem SizeSpec.readsBack : ReadsBack (α := α) SizeSpec.read (SizeSpec.json .stored) := by
  intro v z h
  have hkeys : [Key.same "absolute", .same "relative", ⟨"aspectConstrained", "aspect_constrained"⟩].Pairwise
      Key.Apart := by decide
  obtain ⟨fields, -, h⟩ := record_eq_valid_iff.mp h
  obtain ⟨a, b, c, ha, hb, hc, hchoose⟩ := readFields_eq_valid_iff.mp h
  have hjson := json_of_choose
    (forall_of_optional_nullable ha fun v z h => by
      obtain ⟨_, w, height, -, -, -, rfl⟩ := readAbsolute_eq_valid_iff.mp h
      exact ⟨w, height, rfl⟩)
    (forall_of_optional_nullable hb fun v z h => by
      obtain ⟨x, -, rfl⟩ := Checked.map_eq_valid_iff.mp h
      exact ⟨x, rfl⟩)
    (forall_of_optional_nullable hc fun v z h => by
      obtain ⟨_, w, a, -, -, -, rfl⟩ := readConstrained_eq_valid_iff.mp h
      exact ⟨w, a, rfl⟩) hchoose
  rw [hjson]
  exact ⟨rfl, readFields_eq_valid_iff.mpr ⟨a, b, c, nullable_storedFields readsBack_absolute ha hkeys 0 rfl,
    nullable_storedFields readsBack_relative hb hkeys 1 rfl,
    nullable_storedFields readsBack_constrained hc hkeys 2 rfl, hchoose⟩⟩

/-- One number reads back as one, and columns and rows as columns and rows. -/
theorem RepeatCount.readsBack : ReadsBack (α := α) RepeatCount.read RepeatCount.json := by
  intro v count h
  have hpos := read_isPositive h
  cases count with
  | one n =>
    have hn : 0 < n := hpos
    refine ⟨rfl, ?_⟩
    have hcheck : check [(n : Int)] (.one n) = .valid (.one n) := if_neg (by simp; omega)
    exact hcheck
  | pair a b =>
    obtain ⟨ha, hb⟩ := hpos
    refine ⟨rfl, ?_⟩
    have hcheck : check [(a : Int), (b : Int)] (.pair a b) = .valid (.pair a b) := if_neg (by simp; omega)
    exact hcheck

theorem Repetition.readsBack : ReadsBack (α := α) Repetition.read (Repetition.json .stored) := by
  have hkeys : [Key.same "type", .same "count", .same "spacing", .same "radius"].Pairwise Key.Apart := by decide
  refine readsBack_record fun fields r h => ?_
  obtain ⟨hpattern, hcount, hspacing, hradius⟩ := readFields_eq_valid_iff.mp h
  have hname : ReadsBack (α := α) Pattern.read fun p => .str p.name := readsBack_oneOf fun p => by cases p <;> rfl
  exact readFields_eq_valid_iff.mpr ⟨required_storedFields hname hpattern hkeys 0 rfl,
    required_storedFields RepeatCount.readsBack hcount hkeys 1 rfl,
    nullable_storedFields readsBack_positive hspacing hkeys 2 rfl,
    nullable_storedFields readsBack_positive hradius hkeys 3 rfl⟩

theorem LayoutSpec.readsBack : ReadsBack (α := α) LayoutSpec.read (LayoutSpec.json .stored) := by
  have hkeys : [Key.same "region", .same "anchor", .same "offset", .same "size", .same "repeat",
      ⟨"zIndex", "z_index"⟩].Pairwise Key.Apart := by decide
  refine readsBack_record fun fields l h => ?_
  obtain ⟨hregion, hanchor, hoffset, hsize, hrepetition, hzIndex⟩ := readFields_eq_valid_iff.mp h
  exact readFields_eq_valid_iff.mpr ⟨nullable_storedFields readsBack_text hregion hkeys 0 rfl,
    nullable_storedFields Anchor.readsBack hanchor hkeys 1 rfl,
    nullable_storedFields Point.readsBack hoffset hkeys 2 rfl,
    nullable_storedFields SizeSpec.readsBack hsize hkeys 3 rfl,
    nullable_storedFields Repetition.readsBack hrepetition hkeys 4 rfl,
    nullable_storedFields readsBack_whole hzIndex hkeys 5 rfl⟩

theorem LayoutConfig.readsBack : ReadsBack (α := α) LayoutConfig.read (LayoutConfig.json .stored) := by
  have hkeys : [Key.same "regions", ⟨"globalAnchor", "global_anchor"⟩,
      ⟨"globalOffset", "global_offset"⟩].Pairwise Key.Apart := by decide
  refine readsBack_record fun fields l h => ?_
  obtain ⟨hregions, hanchor, hoffset⟩ := readFields_eq_valid_iff.mp h
  have hempty : list CustomRegion.read (.arr [] : Json α) = .valid [] := rfl
  exact readFields_eq_valid_iff.mpr ⟨optional_storedFields CustomRegion.readsBack.list hempty hregions hkeys 0 rfl,
    nullable_storedFields Anchor.readsBack hanchor hkeys 1 rfl,
    nullable_storedFields Point.readsBack hoffset hkeys 2 rfl⟩

/-! ## Paths and layers -/

theorem PathStyle.readsBack : ReadsBack (α := α) PathStyle.read (PathStyle.json .stored) := by
  have hkeys : [Key.same "fill", .same "stroke", ⟨"strokeWidth", "stroke_width"⟩, ⟨"strokeLinecap", "stroke_linecap"⟩,
      ⟨"strokeLinejoin", "stroke_linejoin"⟩, .same "opacity"].Pairwise Key.Apart := by decide
  refine readsBack_record fun fields s h => ?_
  obtain ⟨hfill, hstroke, hwidth, hlinecap, hlinejoin, hopacity⟩ := readFields_eq_valid_iff.mp h
  have hcap : ReadsBack (α := α) Linecap.read fun c => .str c.name := readsBack_oneOf fun c => by cases c <;> rfl
  have hjoin : ReadsBack (α := α) Linejoin.read fun c => .str c.name := readsBack_oneOf fun c => by cases c <;> rfl
  exact readFields_eq_valid_iff.mpr ⟨nullable_storedFields readsBack_text hfill hkeys 0 rfl,
    nullable_storedFields readsBack_text hstroke hkeys 1 rfl,
    nullable_storedFields readsBack_nonnegative hwidth hkeys 2 rfl, nullable_storedFields hcap hlinecap hkeys 3 rfl,
    nullable_storedFields hjoin hlinejoin hkeys 4 rfl,
    nullable_storedFields readsBack_unitNumber hopacity hkeys 5 rfl⟩

theorem ShapePath.readsBack : ReadsBack (α := α) ShapePath.read (ShapePath.json .stored) := by
  have hkeys : [Key.same "id", .same "style", .same "commands", .same "layout"].Pairwise Key.Apart := by decide
  refine readsBack_record fun fields p h => ?_
  obtain ⟨hid, hstyle, hcommands, hlayout⟩ := readFields_eq_valid_iff.mp h
  have hplain : PathStyle.read (.obj [] : Json α) = .valid .plain := rfl
  have hempty : list Command.read (.arr [] : Json α) = .valid [] := rfl
  exact readFields_eq_valid_iff.mpr ⟨required_storedFields readsBack_filledText hid hkeys 0 rfl,
    optional_storedFields PathStyle.readsBack hplain hstyle hkeys 1 rfl,
    optional_storedFields Command.readsBack.list hempty hcommands hkeys 2 rfl,
    nullable_storedFields LayoutSpec.readsBack hlayout hkeys 3 rfl⟩

theorem Layer.readsBack : ReadsBack (α := α) Layer.read (Layer.json .stored) := by
  have hkeys : [Key.same "id", .same "label", .same "paths", .same "layout"].Pairwise Key.Apart := by decide
  refine readsBack_record fun fields l h => ?_
  obtain ⟨hid, hlabel, hpaths, hlayout⟩ := readFields_eq_valid_iff.mp h
  have hblank : text (.str "" : Json α) = .valid "" := rfl
  have hempty : list ShapePath.read (.arr [] : Json α) = .valid [] := rfl
  exact readFields_eq_valid_iff.mpr ⟨required_storedFields readsBack_text hid hkeys 0 rfl,
    optional_storedFields readsBack_text hblank hlabel hkeys 1 rfl,
    optional_storedFields ShapePath.readsBack.list hempty hpaths hkeys 2 rfl,
    nullable_storedFields LayoutSpec.readsBack hlayout hkeys 3 rfl⟩

/-! ## Documents -/

/-- **Of a document all is written but whether it is resolved**, so it reads back as not yet resolved. -/
theorem Document.read_json_stored {v : Json α} {d : Document α} (h : read v = .valid d) :
    read (d.json .stored) = .valid { d with resolved := false } := by
  have hkeys : [Key.same "version", .same "canvas", .same "layout", .same "layers"].Pairwise Key.Apart := by decide
  obtain ⟨fields, -, h⟩ := record_eq_valid_iff.mp h
  obtain ⟨hversion, hcanvas, hlayout, hlayers, -⟩ := readFields_eq_valid_iff.mp h
  have hname : readVersion (.str schemaVersion : Json α) = .valid () := rfl
  have hback : ReadsBack (α := α) readVersion fun _ => .str schemaVersion := readsBack_oneOf fun _ => rfl
  have hsquare : Canvas.read (.obj [] : Json α) = .valid (Canvas.ofAspect .square) := rfl
  have hempty : list Layer.read (.arr [] : Json α) = .valid [] := rfl
  have hflag : ∀ k ∈ [Key.same "version", .same "canvas", .same "layout", .same "layers"],
      k.camel ≠ "layoutResolved" ∧ k.camel ≠ "layout_resolved" := by decide
  exact readFields_eq_valid_iff.mpr ⟨optional_storedFields hback hname hversion hkeys 0 rfl,
    optional_storedFields Canvas.readsBack hsquare hcanvas hkeys 1 rfl,
    nullable_storedFields LayoutConfig.readsBack hlayout hkeys 2 rfl,
    optional_storedFields Layer.readsBack.list hempty hlayers hkeys 3 rfl,
    optional_eq_valid_iff.mpr (.inl ⟨find?_storedFields_eq_none hflag, rfl⟩)⟩

end Drawing
