import Mathlib.Data.List.Forall2

/-!
# `Drawing/Proofs/Fallible.lean` — computations that may fail

Almost everything in this library is a chain of steps, each of which may end in a fault. What such a
chain has come to is read backwards here: a chain that came through is one all of whose steps came
through, and a list whose items were worked on one by one came through item by item.
-/

namespace Drawing

variable {ε β γ : Type}

@[simp] theorem pure_eq_ok_iff {a b : β} : (pure a : Except ε β) = .ok b ↔ a = b :=
  ⟨fun h => Except.ok.inj h, fun h => h ▸ rfl⟩

/-- A chain of two steps came through if both did. -/
@[simp] theorem bind_eq_ok_iff {x : Except ε β} {f : β → Except ε γ} {b : γ} :
    x >>= f = .ok b ↔ ∃ a, x = .ok a ∧ f a = .ok b := by
  cases x with
  | error e => exact ⟨nofun, fun ⟨_, h, _⟩ => nomatch h⟩
  | ok a => exact ⟨fun h => ⟨a, rfl, h⟩, fun ⟨_, h, hf⟩ => Except.ok.inj h ▸ hf⟩

/-- It failed if one of them did, the second only if the first did not. -/
@[simp] theorem bind_eq_error_iff {x : Except ε β} {f : β → Except ε γ} {e : ε} :
    x >>= f = .error e ↔ x = .error e ∨ ∃ a, x = .ok a ∧ f a = .error e := by
  cases x with
  | error e' =>
    exact ⟨fun h => .inl (congrArg Except.error (Except.error.inj h)),
      fun h => h.elim (fun h => Except.error.inj h ▸ rfl) fun ⟨_, h, _⟩ => nomatch h⟩
  | ok a =>
    exact ⟨fun h => .inr ⟨a, rfl, h⟩,
      fun h => h.elim nofun fun ⟨_, h, hf⟩ => Except.ok.inj h ▸ hf⟩

/-- One computation after another comes through if each of them does. -/
theorem exists_bind_ok {x : Except ε β} {f : β → Except ε γ} (hx : ∃ b, x = .ok b) (hf : ∀ b, ∃ c, f b = .ok c) :
    ∃ c, x >>= f = .ok c := by
  obtain ⟨b, hb⟩ := hx
  obtain ⟨c, hc⟩ := hf b
  exact ⟨c, bind_eq_ok_iff.mpr ⟨b, hb, hc⟩⟩

/-- What holds of all that the second may come to holds of what both come to. -/
theorem exists_bind_ok_and {x : Except ε β} {f : β → Except ε γ} {P : γ → Prop} (hx : ∃ b, x = .ok b)
    (hf : ∀ b, ∃ c, f b = .ok c ∧ P c) : ∃ c, x >>= f = .ok c ∧ P c := by
  obtain ⟨b, hb⟩ := hx
  obtain ⟨c, hc, hP⟩ := hf b
  exact ⟨c, bind_eq_ok_iff.mpr ⟨b, hb, hc⟩, hP⟩

theorem mapError_eq_ok_iff {ε' : Type} {x : Except ε β} {f : ε → ε'} {b : β} :
    x.mapError f = .ok b ↔ x = .ok b := by
  cases x with
  | error e => exact ⟨nofun, nofun⟩
  | ok a => exact ⟨fun h => congrArg Except.ok (Except.ok.inj h), fun h => congrArg Except.ok (Except.ok.inj h)⟩

theorem eq_ok_of_toOption {x : Except ε β} {b : β} (h : x.toOption = some b) : x = .ok b := by
  cases x with
  | error e => exact nomatch h
  | ok a => exact congrArg Except.ok (Option.some.inj h)

theorem exists_ok_of_isSome {x : Except ε β} (h : x.toOption.isSome = true) : ∃ b, x = .ok b :=
  (Option.isSome_iff_exists.mp h).imp fun _ => eq_ok_of_toOption

/-! ## Lists -/

theorem exists_left_of_mem {R : β → γ → Prop} {xs : List β} {ys : List γ}
    (h : List.Forall₂ R xs ys) {y : γ} (hy : y ∈ ys) : ∃ x ∈ xs, R x y := by
  induction h with
  | nil => exact absurd hy (by simp)
  | cons hx _ ih =>
    rcases List.mem_cons.mp hy with rfl | hy
    · exact ⟨_, by simp, hx⟩
    · obtain ⟨x, hx, hR⟩ := ih hy
      exact ⟨x, by simp [hx], hR⟩

theorem forall₂_comp {δ : Type} {R : β → γ → Prop} {S : γ → δ → Prop} {xs : List β} {ys : List γ}
    {zs : List δ} (h : List.Forall₂ R xs ys) (h' : List.Forall₂ S ys zs) :
    List.Forall₂ (fun x z => ∃ y, R x y ∧ S y z) xs zs := by
  induction h generalizing zs with
  | nil => cases h'; exact .nil
  | cons hx _ ih =>
    obtain _ | ⟨hy, hrest⟩ := h'
    exact .cons ⟨_, hx, hy⟩ (ih hrest)

/-- Lists that correspond are related to the same lists, if things that correspond are to the same things. -/
theorem forall₂_congr_left {δ : Type} {S : β → γ → Prop} {R : β → δ → Prop} {R' : γ → δ → Prop} {xs : List β}
    {ys : List γ} {zs : List δ} (h : List.Forall₂ S xs ys) (hR : ∀ x y z, S x y → (R x z ↔ R' y z)) :
    List.Forall₂ R xs zs ↔ List.Forall₂ R' ys zs :=
  ⟨fun hxs => (forall₂_comp h.flip hxs).imp fun _ _ ⟨_, hS, hx⟩ => (hR _ _ _ hS).mp hx,
    fun hys => (forall₂_comp h hys).imp fun _ _ ⟨_, hS, hy⟩ => (hR _ _ _ hS).mpr hy⟩

theorem forall₂_mem {R : β → γ → Prop} {xs : List β} {ys : List γ} (h : List.Forall₂ R xs ys) :
    List.Forall₂ (fun x y => x ∈ xs ∧ R x y) xs ys := by
  induction h with
  | nil => exact .nil
  | cons hx _ ih => exact .cons ⟨List.mem_cons_self, hx⟩ (ih.imp fun _ _ h => ⟨List.mem_cons_of_mem _ h.1, h.2⟩)

theorem map_eq_of_forall₂ {δ : Type} {R : β → γ → Prop} {f : β → δ} {g : γ → δ} {xs : List β} {ys : List γ}
    (hfg : ∀ x y, R x y → f x = g y) (h : List.Forall₂ R xs ys) : xs.map f = ys.map g := by
  rw [← List.forall₂_eq_eq_eq, List.forall₂_map_left_iff, List.forall₂_map_right_iff]
  exact h.imp hfg

theorem exists_forall₂ {R : β → γ → Prop} {xs : List β} (h : ∀ x ∈ xs, ∃ y, R x y) :
    ∃ ys, List.Forall₂ R xs ys := by
  induction xs with
  | nil => exact ⟨[], .nil⟩
  | cons x xs ih =>
    obtain ⟨⟨y, hy⟩, h⟩ := List.forall_mem_cons.mp h
    obtain ⟨ys, hys⟩ := ih h
    exact ⟨y :: ys, .cons hy hys⟩

theorem forall_mem_iff_of_forall₂ {P : β → Prop} {Q : γ → Prop} {xs : List β} {ys : List γ}
    (h : List.Forall₂ (fun x y => Q y ↔ P x) xs ys) : (∀ y ∈ ys, Q y) ↔ ∀ x ∈ xs, P x := by
  induction h with
  | nil => simp
  | cons hx _ ih => rw [List.forall_mem_cons, List.forall_mem_cons, hx, ih]

/-- Lists whose items are related by something stronger than `R` are related by `R` just if the items on the left are
such that it is. -/
theorem forall₂_iff_of_forall₂ {P : β → Prop} {R S : β → γ → Prop} {xs : List β} {ys : List γ}
    (h : List.Forall₂ S xs ys) (hR : ∀ x y, S x y → (R x y ↔ P x)) : List.Forall₂ R xs ys ↔ ∀ x ∈ xs, P x := by
  induction h with
  | nil => simp
  | cons hx _ ih => rw [List.forall₂_cons, List.forall_mem_cons, hR _ _ hx, ih]

/-- Working through a list came through if every item did. -/
theorem mapM_eq_ok_iff {f : β → Except ε γ} {xs : List β} {ys : List γ} :
    xs.mapM f = .ok ys ↔ List.Forall₂ (fun x y => f x = .ok y) xs ys := by
  induction xs generalizing ys with
  | nil => cases ys <;> simp
  | cons x xs ih =>
    rw [List.mapM_cons, bind_eq_ok_iff]
    constructor
    · rintro ⟨y, hy, h⟩
      obtain ⟨zs, hzs, h⟩ := bind_eq_ok_iff.mp h
      obtain rfl := pure_eq_ok_iff.mp h
      exact .cons hy (ih.mp hzs)
    · rintro (_ | ⟨hy, hzs⟩)
      exact ⟨_, hy, bind_eq_ok_iff.mpr ⟨_, ih.mpr hzs, rfl⟩⟩

theorem mapM_append_ok {f : β → Except ε γ} {xs xs' : List β} {ys ys' : List γ}
    (h : xs.mapM f = .ok ys) (h' : xs'.mapM f = .ok ys') : (xs ++ xs').mapM f = .ok (ys ++ ys') :=
  mapM_eq_ok_iff.mpr (List.rel_append (mapM_eq_ok_iff.mp h) (mapM_eq_ok_iff.mp h'))

theorem exists_ok_of_mem {f : β → Except ε γ} {xs : List β} {ys : List γ} (h : xs.mapM f = .ok ys)
    {x : β} (hx : x ∈ xs) : ∃ y ∈ ys, f x = .ok y :=
  exists_left_of_mem (mapM_eq_ok_iff.mp h).flip hx

theorem exists_mem_of_ok {f : β → Except ε γ} {xs : List β} {ys : List γ} (h : xs.mapM f = .ok ys)
    {y : γ} (hy : y ∈ ys) : ∃ x ∈ xs, f x = .ok y :=
  exists_left_of_mem (mapM_eq_ok_iff.mp h) hy

end Drawing
