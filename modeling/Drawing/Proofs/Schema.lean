import Drawing.Proofs.Checked
import Drawing.Proofs.Fallible
import Mathlib.Tactic.SplitIfs

/-!
# `Drawing/Proofs/Schema.lean` — what was read, and what can be read

A value that was read tells of the raw data it was read from, and the other way round: these equivalences say of
each kind of reading what there is to be read. What holds of everything that a reading may yield holds of the
fields and items that were read with it.
-/

namespace Drawing.Schema

variable {α β : Type}

theorem required_eq_valid_iff {key : Key} {read : Json α → Checked β} {fields : Fields α} {b : β} :
    required key read fields = .valid b ↔ ∃ s v, key.find? fields = some (s, v) ∧ read v = .valid b := by
  unfold required
  cases h : key.find? fields with
  | none => exact ⟨nofun, nofun⟩
  | some p =>
    constructor
    · exact fun hb => ⟨p.1, p.2, rfl, Checked.within_eq_valid_iff.mp hb⟩
    · rintro ⟨_, _, hp, hb⟩
      exact Option.some.inj hp ▸ Checked.within_eq_valid_iff.mpr hb

theorem find?_same (name : String) (fields : Fields α) :
    (Key.same name).find? fields = (Table.get? fields name).map fun v => (name, v) := by
  unfold Key.find? Key.same
  cases Table.get? fields name <;> rfl

theorem optional_same_congr {name : String} {fallback : β} {read : Json α → Checked β} {fields fields' : Fields α}
    (h : Table.get? fields name = Table.get? fields' name) :
    optional (.same name) fallback read fields = optional (.same name) fallback read fields' := by
  unfold optional
  rw [find?_same, find?_same, h]

theorem required_same_eq_valid_iff {name : String} {read : Json α → Checked β} {fields : Fields α} {b : β} :
    required (.same name) read fields = .valid b ↔
      ∃ v, Table.get? fields name = some v ∧ read v = .valid b := by
  rw [required_eq_valid_iff, find?_same]
  cases Table.get? fields name with
  | none => simp
  | some v => simp

theorem optional_same_eq_valid_iff {name : String} {fallback : β} {read : Json α → Checked β}
    {fields : Fields α} {b : β} :
    optional (.same name) fallback read fields = .valid b ↔
      Table.get? fields name = none ∧ fallback = b ∨
        ∃ v, Table.get? fields name = some v ∧ read v = .valid b := by
  rw [optional_eq_valid_iff, find?_same]
  cases Table.get? fields name with
  | none => simp
  | some v => simp

theorem record_eq_valid_iff {model : String} {read : Fields α → Checked β} {v : Json α} {b : β} :
    record model read v = .valid b ↔ ∃ fields, v = .obj fields ∧ read fields = .valid b := by
  constructor
  · intro h
    cases v with
    | obj fields => exact ⟨fields, rfl, h⟩
    | null | bool | num | str | arr => exact nomatch h
  · rintro ⟨fields, rfl, h⟩
    exact h

theorem list_eq_valid_iff {read : Json α → Checked β} {v : Json α} {bs : List β} :
    list read v = .valid bs ↔
      ∃ items, v = .arr items ∧ List.Forall₂ (fun item b => read item = .valid b) items bs := by
  constructor
  · intro h
    cases v with
    | arr items => exact ⟨items, rfl, Checked.items_eq_valid_iff.mp h⟩
    | null | bool | num | str | obj => exact nomatch h
  · rintro ⟨items, rfl, h⟩
    exact Checked.items_eq_valid_iff.mpr h

theorem nullable_eq_valid_iff {read : Json α → Checked β} {v : Json α} {b : Option β} :
    nullable read v = .valid b ↔
      v = .null ∧ b = none ∨ v ≠ .null ∧ ∃ x, read v = .valid x ∧ b = some x := by
  cases v with
  | null =>
    constructor
    · exact fun h => .inl ⟨rfl, (Checked.valid.inj h).symm⟩
    · rintro (⟨-, rfl⟩ | ⟨hne, -⟩)
      · rfl
      · exact absurd rfl hne
  | bool | num | str | arr | obj =>
    constructor
    · intro h
      obtain ⟨x, hx, rfl⟩ := Checked.map_eq_valid_iff.mp h
      exact .inr ⟨nofun, x, hx, rfl⟩
    · rintro (⟨h, -⟩ | ⟨-, x, hx, rfl⟩)
      · exact nomatch h
      · exact Checked.map_eq_valid_iff.mpr ⟨x, hx, rfl⟩

theorem text_eq_valid {v : Json α} {s : String} (h : text v = .valid s) : v = .str s := by
  cases v with
  | str t =>
    simp only [text, ofText] at h
    split_ifs at h
    · exact congrArg Json.str (Checked.valid.inj h)
    · exact nomatch h
  | null | bool | num | arr | obj => exact nomatch h

theorem filledText_eq_valid {v : Json α} {s : String} (h : filledText v = .valid s) : v = .str s := by
  obtain ⟨t, ht, h⟩ := Checked.refine_eq_valid_iff.mp h
  split_ifs at h
  · exact nomatch h
  · exact Checked.valid.inj h ▸ text_eq_valid ht

/-! ## What can be read -/

theorem isValid_text_iff {v : Json α} : (text v).isValid = true ↔ ∃ s, v = .str s ∧ isWellFormed s = true := by
  cases v with
  | str s =>
    simp only [text, ofText, Json.str.injEq, exists_eq_left']
    split_ifs with h <;> simp [h]
  | null | bool | num | arr | obj => exact ⟨nofun, fun ⟨_, h, _⟩ => nomatch h⟩

@[simp] theorem isValid_text_str (s : String) : (text (.str s : Json α)).isValid = isWellFormed s := by
  rw [Bool.eq_iff_iff, isValid_text_iff]
  simp

theorem isValid_filledText_iff {v : Json α} :
    (filledText v).isValid = true ↔ ∃ s, v = .str s ∧ isWellFormed s = true ∧ s ≠ "" := by
  cases v with
  | str s =>
    simp only [filledText, text, ofText, Json.str.injEq, exists_eq_left']
    split_ifs with h
    · by_cases hs : s = "" <;> simp [Checked.refine, h, hs]
    · simp [Checked.refine, Checked.refuse, Checked.isValid, h]
  | null | bool | num | arr | obj => exact ⟨nofun, fun ⟨_, h, _⟩ => nomatch h⟩

theorem isValid_filledText_str {s : String} (h : s ≠ "") :
    (filledText (.str s : Json α)).isValid = isWellFormed s := by
  rw [Bool.eq_iff_iff, isValid_filledText_iff]
  simp [h]

theorem isValid_nullable_iff {read : Json α → Checked β} {v : Json α} :
    (nullable read v).isValid = true ↔ v ≠ .null → (read v).isValid = true := by
  cases v <;> simp [nullable]

theorem isValid_list_iff {read : Json α → Checked β} {v : Json α} :
    (list read v).isValid = true ↔ ∃ items, v = .arr items ∧ ∀ item ∈ items, (read item).isValid = true := by
  cases v with
  | arr items => simp [list, Checked.isValid_items_iff]
  | null | bool | num | str | obj => exact ⟨nofun, fun ⟨_, h, _⟩ => nomatch h⟩

theorem isValid_required_same {name : String} {read : Json α → Checked β} {fields : Fields α} {v : Json α}
    (h : Table.get? fields name = some v) : (required (.same name) read fields).isValid = (read v).isValid := by
  unfold required
  rw [find?_same, h]
  exact Checked.isValid_within _ _

/-- A field that is given under its alias is read under it. -/
theorem isValid_optional_camel (key : Key) {fallback : β} {read : Json α → Checked β} {fields : Fields α}
    {v : Json α} (h : Table.get? fields key.camel = some v) :
    (optional key fallback read fields).isValid = (read v).isValid := by
  unfold optional Key.find?
  rw [h]
  exact Checked.isValid_within _ _

theorem isValid_optional_same {name : String} {fallback : β} {read : Json α → Checked β} {fields : Fields α}
    {v : Json α} (h : Table.get? fields name = some v) :
    (optional (.same name) fallback read fields).isValid = (read v).isValid :=
  isValid_optional_camel (.same name) h

/-- A field with a default can be read if it is not there. -/
theorem isValid_optional_same_iff {name : String} {fallback : β} {read : Json α → Checked β}
    {fields : Fields α} :
    (optional (.same name) fallback read fields).isValid = true ↔
      ∀ v, Table.get? fields name = some v → (read v).isValid = true := by
  unfold optional
  rw [find?_same]
  cases Table.get? fields name with
  | none => simp
  | some v => simp

/-! ## What holds of all that is read -/

theorem forall_of_optional_list {P : β → Prop} {key : Key} {read : Json α → Checked β} {fields : Fields α}
    {bs : List β} (h : optional key [] (list read) fields = .valid bs)
    (hread : ∀ v b, read v = .valid b → P b) : ∀ b ∈ bs, P b := by
  rcases optional_eq_valid_iff.mp h with ⟨-, rfl⟩ | ⟨_, v, -, hv⟩
  · exact nofun
  · obtain ⟨items, -, hitems⟩ := list_eq_valid_iff.mp hv
    intro b hb
    obtain ⟨item, -, hitem⟩ := exists_left_of_mem hitems hb
    exact hread item b hitem

theorem forall_of_optional_nullable {P : β → Prop} {key : Key} {read : Json α → Checked β}
    {fields : Fields α} {b : Option β} (h : optional key none (nullable read) fields = .valid b)
    (hread : ∀ v b, read v = .valid b → P b) : ∀ x, b = some x → P x := by
  rintro x rfl
  rcases optional_eq_valid_iff.mp h with ⟨-, hb⟩ | ⟨_, v, -, hv⟩
  · exact nomatch hb
  · rcases nullable_eq_valid_iff.mp hv with ⟨-, hb⟩ | ⟨-, y, hy, hb⟩
    · exact nomatch hb
    · obtain rfl := Option.some.inj hb
      exact hread v x hy

theorem finite_eq_valid [Scalar α] {v : Json α} {x : α} (h : finite v = .valid x) :
    Scalar.isFinite x = true := by
  obtain ⟨y, -, h⟩ := Checked.refine_eq_valid_iff.mp h
  split_ifs at h with hy
  · obtain rfl := Checked.valid.inj h
    exact hy
  · exact nomatch h

theorem finite_ofReal [Scalar α] {x : α} (h : Scalar.isFinite x = true) : finite (.ofReal x) = .valid x :=
  if_pos h

theorem positive_eq_valid [Scalar α] {v : Json α} {x : α} (h : positive v = .valid x) : Scalar.zero < x := by
  obtain ⟨y, -, h⟩ := Checked.refine_eq_valid_iff.mp h
  split_ifs at h with hy
  · exact Checked.valid.inj h ▸ hy
  · exact nomatch h

theorem share_eq_valid [Scalar α] {v : Json α} {x : α} (h : share v = .valid x) : Scalar.zero < x := by
  obtain ⟨y, -, h⟩ := Checked.refine_eq_valid_iff.mp h
  split_ifs at h with hone hy
  · exact Checked.valid.inj h ▸ hy
  · exact nomatch h
  · exact nomatch h

theorem tupleItem_eq_valid {read : Json α → Checked β} {items : List (Json α)} {i : Nat} {b : β}
    (h : tupleItem read items i = .valid b) : ∃ v, read v = .valid b := by
  have h := Checked.within_eq_valid_iff.mp h
  split at h
  · exact ⟨_, h⟩
  · exact nomatch h

end Drawing.Schema
