import Drawing.Path.Points
import Mathlib.Data.List.Forall2

/-!
# `Drawing/Proofs/Checked.lean` — readings that came through

A reading collects its complaints, so it has a value only if every part of it has one. As with computations
that may fail, that is read backwards here, from the value of a record to the values of its parts.
-/

namespace Drawing

namespace Checked

variable {β γ δ : Type}

@[simp] theorem map_eq_valid_iff {f : β → γ} {x : Checked β} {c : γ} :
    x.map f = .valid c ↔ ∃ b, x = .valid b ∧ f b = c := by
  cases x with
  | valid b => exact ⟨fun h => ⟨b, rfl, valid.inj h⟩, fun ⟨_, h, hc⟩ => valid.inj h ▸ hc ▸ rfl⟩
  | invalid cs => exact ⟨nofun, fun ⟨_, h, _⟩ => nomatch h⟩

@[simp] theorem functor_map_eq_valid_iff {f : β → γ} {x : Checked β} {c : γ} :
    f <$> x = .valid c ↔ ∃ b, x = .valid b ∧ f b = c := map_eq_valid_iff

@[simp] theorem apply_eq_valid_iff {f : Checked (β → γ)} {x : Checked β} {c : γ} :
    f.apply x = .valid c ↔ ∃ g b, f = .valid g ∧ x = .valid b ∧ g b = c := by
  cases f with
  | valid g =>
    cases x with
    | valid b =>
      constructor
      · exact fun h => ⟨g, b, rfl, rfl, valid.inj h⟩
      · rintro ⟨_, _, hg, hb, rfl⟩
        exact valid.inj hg ▸ valid.inj hb ▸ rfl
    | invalid cs => exact ⟨nofun, fun ⟨_, _, _, h, _⟩ => nomatch h⟩
  | invalid cs => cases x <;> exact ⟨nofun, fun ⟨_, _, h, _⟩ => nomatch h⟩

/-- A record has a value if all its fields have one. -/
@[simp] theorem seq_eq_valid_iff {f : Checked (β → γ)} {x : Checked β} {c : γ} :
    f <*> x = .valid c ↔ ∃ g b, f = .valid g ∧ x = .valid b ∧ g b = c := apply_eq_valid_iff

@[simp] theorem refine_eq_valid_iff {x : Checked β} {check : β → Checked γ} {c : γ} :
    x.refine check = .valid c ↔ ∃ b, x = .valid b ∧ check b = .valid c := by
  cases x with
  | valid b => exact ⟨fun h => ⟨b, rfl, h⟩, fun ⟨_, h, hc⟩ => valid.inj h ▸ hc⟩
  | invalid cs => exact ⟨nofun, fun ⟨_, h, _⟩ => nomatch h⟩

theorem refine_refine (x : Checked β) (f : β → Checked γ) (g : γ → Checked δ) :
    (x.refine f).refine g = x.refine fun b => (f b).refine g := by
  cases x <;> rfl

@[simp] theorem within_eq_valid_iff {step : Step} {x : Checked β} {b : β} :
    x.within step = .valid b ↔ x = .valid b := by
  cases x with
  | valid _ => exact Iff.rfl
  | invalid cs => exact ⟨nofun, nofun⟩

/-- A list has a value if every item has one. -/
theorem items_eq_valid_iff {read : δ → Checked β} {i : Nat} {ds : List δ} {bs : List β} :
    items read i ds = .valid bs ↔ List.Forall₂ (fun d b => read d = .valid b) ds bs := by
  induction ds generalizing i bs with
  | nil =>
    constructor
    · exact fun h => valid.inj h ▸ .nil
    · rintro (_ | _)
      rfl
  | cons d ds ih =>
    rw [items, apply_eq_valid_iff]
    constructor
    · rintro ⟨g, cs, hg, hcs, rfl⟩
      obtain ⟨b, hb, rfl⟩ := map_eq_valid_iff.mp hg
      exact .cons (within_eq_valid_iff.mp hb) (ih.mp hcs)
    · rintro (_ | ⟨hb, hcs⟩)
      exact ⟨_, _, map_eq_valid_iff.mpr ⟨_, within_eq_valid_iff.mpr hb, rfl⟩, ih.mpr hcs, rfl⟩

/-! ## Whether there is a value -/

theorem isValid_iff {x : Checked β} : x.isValid = true ↔ ∃ b, x = .valid b := by
  cases x with
  | valid b => exact ⟨fun _ => ⟨b, rfl⟩, fun _ => rfl⟩
  | invalid cs => exact ⟨nofun, fun ⟨_, h⟩ => nomatch h⟩

@[simp] theorem isValid_valid (b : β) : (valid b).isValid = true := rfl

@[simp] theorem isValid_refuse (cause : Cause) : (refuse cause : Checked β).isValid = false := rfl

@[simp] theorem isValid_map (f : β → γ) (x : Checked β) : (x.map f).isValid = x.isValid := by
  cases x <;> rfl

@[simp] theorem isValid_functor_map (f : β → γ) (x : Checked β) : (f <$> x).isValid = x.isValid :=
  isValid_map f x

@[simp] theorem isValid_apply (f : Checked (β → γ)) (x : Checked β) :
    (f.apply x).isValid = (f.isValid && x.isValid) := by
  cases f <;> cases x <;> rfl

@[simp] theorem isValid_seq (f : Checked (β → γ)) (x : Checked β) :
    (f <*> x).isValid = (f.isValid && x.isValid) := isValid_apply f x

@[simp] theorem isValid_within (step : Step) (x : Checked β) : (x.within step).isValid = x.isValid := by
  cases x <;> rfl

theorem isValid_items_iff {read : δ → Checked β} {i : Nat} {ds : List δ} :
    (items read i ds).isValid = true ↔ ∀ d ∈ ds, (read d).isValid = true := by
  induction ds generalizing i with
  | nil => simp [items]
  | cons d ds ih => simp [items, ih]

end Checked

variable {α β : Type}

@[simp] theorem Command.ofChecked_eq_ok_iff {x : Checked β} {b : β} :
    (ofChecked x : Except (Fault α) β) = .ok b ↔ x = .valid b := by
  cases x with
  | valid _ => exact ⟨fun h => congrArg Checked.valid (Except.ok.inj h),
      fun h => congrArg Except.ok (Checked.valid.inj h)⟩
  | invalid cs => exact ⟨nofun, nofun⟩

theorem Command.ofChecked_refine {γ : Type} (x : Checked β) (f : β → Checked γ) :
    (ofChecked (x.refine f) : Except (Fault α) γ) = ofChecked x >>= fun b => ofChecked (f b) := by
  cases x <;> rfl

/-- A field with a default was not given, or it was read. -/
theorem Schema.optional_eq_valid_iff {key : Key} {fallback : β} {read : Json α → Checked β}
    {fields : Fields α} {b : β} :
    optional key fallback read fields = .valid b ↔
      key.find? fields = none ∧ fallback = b ∨
        ∃ s v, key.find? fields = some (s, v) ∧ read v = .valid b := by
  unfold optional
  cases h : key.find? fields with
  | none => exact ⟨fun hb => .inl ⟨rfl, Checked.valid.inj hb⟩,
      fun hb => hb.elim (fun hb => congrArg Checked.valid hb.2) nofun⟩
  | some p => exact ⟨fun hb => .inr ⟨p.1, p.2, rfl, Checked.within_eq_valid_iff.mp hb⟩,
      fun hb => hb.elim nofun fun ⟨_, _, hp, hb⟩ =>
        Option.some.inj hp ▸ Checked.within_eq_valid_iff.mpr hb⟩

end Drawing
