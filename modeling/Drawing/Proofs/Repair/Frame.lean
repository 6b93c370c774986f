import Drawing.Proofs.Fallible
import Drawing.Proofs.Table
import Drawing.Repair.Action

/-!
# `Drawing/Proofs/Repair/Frame.lean` — what a repair leaves alone

Each repair sets or removes a few fields of an object. Everything beyond these is as it was before, and that
is all that the repairs which follow it have to know.
-/

namespace Drawing

variable {α β γ : Type}

/-! ## Repaired values -/

namespace Repaired

@[simp] theorem value_same (b : β) : (same b : Repaired α β).value = b := rfl

@[simp] theorem value_after (actions : List (RepairAction α)) (r : Repaired α β) :
    (r.after actions).value = r.value := rfl

@[simp] theorem value_map (f : β → γ) (r : Repaired α β) : (r.map f).value = f r.value := rfl

/-- A repair behind another starts from its value and ends with its own. -/
theorem of_andThen {r : Repaired α β} {f : β → Except (Fault α) (Repaired α γ)} {s : Repaired α γ}
    (h : r.andThen f = .ok s) : ∃ t, f r.value = .ok t ∧ s.value = t.value := by
  obtain ⟨t, ht, hs⟩ := bind_eq_ok_iff.mp h
  exact ⟨t, ht, (congrArg value (pure_eq_ok_iff.mp hs)).symm⟩

/-- Repairs behind one another have nothing to tell if none of them has. -/
theorem andThen_silent {r : Repaired α β} {f : β → Except (Fault α) (Repaired α γ)}
    {s : Repaired α γ} (h : r.andThen f = .ok s) (hsilent : s.actions = []) :
    r.actions = [] ∧ ∃ t, f r.value = .ok t ∧ s.value = t.value ∧ t.actions = [] := by
  obtain ⟨t, ht, hs⟩ := bind_eq_ok_iff.mp h
  obtain rfl := pure_eq_ok_iff.mp hs
  obtain ⟨hr, ht'⟩ := List.append_eq_nil_iff.mp hsilent
  exact ⟨hr, t, ht, rfl, ht'⟩

theorem andThen_ok {r : Repaired α β} {f : β → Except (Fault α) (Repaired α γ)} {t : Repaired α γ}
    (h : f r.value = .ok t) : ∃ s, r.andThen f = .ok s ∧ s.value = t.value :=
  ⟨_, bind_eq_ok_iff.mpr ⟨t, h, rfl⟩, rfl⟩

@[simp] theorem same_andThen (b : β) (f : β → Except (Fault α) (Repaired α γ)) : (same b).andThen f = f b := by
  unfold andThen same
  cases f b <;> rfl

end Repaired

/-! ## Fields beyond some names -/

/-- Fields that agree, but for the given names. -/
def AgreeBeyond (names : List String) (before after : Fields α) : Prop :=
  ∀ name, name ∉ names → Table.get? after name = Table.get? before name

namespace AgreeBeyond

variable {names more : List String} {first second third : Fields α}

theorem refl (names : List String) (fields : Fields α) : AgreeBeyond names fields fields :=
  fun _ _ => rfl

theorem trans (h : AgreeBeyond names first second) (h' : AgreeBeyond names second third) :
    AgreeBeyond names first third :=
  fun name hn => (h' name hn).trans (h name hn)

theorem mono (h : AgreeBeyond names first second) (hsub : names ⊆ more) : AgreeBeyond more first second :=
  fun name hn => h name fun hmem => hn (hsub hmem)

/-- A field that is the same after all. -/
theorem of_same {name : String} (h : AgreeBeyond (name :: names) first second)
    (hname : Table.get? second name = Table.get? first name) : AgreeBeyond names first second := by
  intro other ho
  by_cases heq : other = name
  · rw [heq, hname]
  · exact h other (List.not_mem_cons_of_ne_of_not_mem heq ho)

theorem put (name : String) (hn : name ∈ names) (v : Json α) (h : AgreeBeyond names first second) :
    AgreeBeyond names first (Table.put name v second) :=
  h.trans fun _ ho => Table.get?_put_of_ne (ne_of_mem_of_not_mem hn ho).symm second

theorem erase (name : String) (hn : name ∈ names) (h : AgreeBeyond names first second) :
    AgreeBeyond names first (Table.erase name second) :=
  h.trans fun _ ho => Table.get?_erase_of_ne (ne_of_mem_of_not_mem hn ho).symm second

end AgreeBeyond

end Drawing
