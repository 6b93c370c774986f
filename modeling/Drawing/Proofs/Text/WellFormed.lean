import Drawing.Text.Casing
import Drawing.Text.Character
import Mathlib.Data.Char
import Mathlib.Data.List.Basic
import Mathlib.Tactic.SplitIfs

/-!
# `Drawing/Proofs/Text/WellFormed.lean` — texts of characters only

The halves of surrogate pairs are stood for by code points where no character is assigned, far above all that have
case. So a text has halves only if one of the texts has that it was made of, and title case makes none.
-/

namespace Drawing

/-- A code point that stands for no half of a surrogate pair. -/
def IsCharacter (c : Char) : Prop := surrogate? c = none

theorem isWellFormed_iff {s : String} : isWellFormed s = true ↔ ∀ c ∈ s.toList, IsCharacter c := by
  simp only [isWellFormed, List.all_eq_true, Option.isNone_iff_eq_none, IsCharacter]

@[simp] theorem isWellFormed_append (s t : String) :
    isWellFormed (s ++ t) = (isWellFormed s && isWellFormed t) := by
  simp only [isWellFormed, String.toList_append, List.all_append]

/-- The least code point that stands for a half. -/
def firstStandIn : Nat := standInPlane + 0xD800

theorem isCharacter_of_lt {c : Char} (h : c.toNat < firstStandIn) : IsCharacter c := by
  have hhigh : ¬0xD800 ≤ c.toNat - standInPlane := by
    unfold firstStandIn at h
    omega
  have hlow : ¬0xDC00 ≤ c.toNat - standInPlane := by omega
  simp [IsCharacter, surrogate?, isHighSurrogate, isLowSurrogate, hhigh, hlow]

theorem isCharacter_ofNat {n : Nat} (h : n < firstStandIn) : IsCharacter (Char.ofNat n) := by
  refine isCharacter_of_lt (Nat.lt_of_le_of_lt ?_ h)
  by_cases hvalid : n.isValidChar
  · have hchar : Char.ofNat n = Char.ofNatAux n hvalid := dif_pos hvalid
    exact hchar ▸ Nat.le_refl n
  -- a number that is no code point is taken for zero
  · have hzero : Char.ofNat n = '\x00' := dif_neg hvalid
    exact hzero ▸ Nat.zero_le n

@[simp] theorem isWellFormed_toString (n : Nat) : isWellFormed (toString n) = true := by
  refine isWellFormed_iff.mpr fun c hc => isCharacter_of_lt ?_
  have hdigits : (toString n).toList = Nat.toDigits 10 n := Nat.toList_repr
  have hdigit : c.isDigit = true :=
    Nat.isDigit_of_mem_toDigits (by decide) (by decide) (hdigits ▸ hc)
  exact Nat.lt_of_le_of_lt (Char.isDigit_iff_toNat.mp hdigit).2 (by decide)

/-! ## Casing -/

theorem isCharacter_of_ascii {f : Char → Char} (hf : ∀ n : Fin 0x80, (f (.ofNat n)).toNat < 0x80) {c : Char}
    (hc : c.toNat < 0x80) : IsCharacter (f c) := by
  have hlow := hf ⟨c.toNat, hc⟩
  rw [Char.ofNat_toNat] at hlow
  exact isCharacter_of_lt (Nat.lt_trans hlow (by decide))

/-- Whether a run maps all its code points below the halves. -/
def CaseRun.isLow (r : CaseRun) : Bool := r.last + r.delta < (firstStandIn : Int)

theorem CaseRun.isCharacter_apply {runs : Array CaseRun} (hruns : runs.all isLow = true) {c : Char}
    (hc : IsCharacter c) : IsCharacter (apply runs c) := by
  unfold apply
  split
  · next r hr =>
    have hlow := Array.all_eq_true_iff_forall_mem.mp hruns r (Array.mem_of_find?_eq_some hr)
    -- the run was found because the code point is in it
    have hrange := Array.find?_some hr
    simp only [isLow, decide_eq_true_eq] at hlow
    simp only [Bool.and_eq_true, decide_eq_true_eq] at hrange
    have hpos : 0 < firstStandIn := by decide
    exact isCharacter_ofNat (by omega)
  · exact hc

theorem isLow_lowerRuns : lowerRuns.all CaseRun.isLow = true := by decide +kernel

theorem isLow_titleRuns : titleRuns.all CaseRun.isLow = true := by decide +kernel

theorem isCharacter_of_mem_titleChar {c d : Char} (hc : IsCharacter c) (hd : d ∈ titleChar c) :
    IsCharacter d := by
  unfold titleChar at hd
  split_ifs at hd with hascii
  · obtain rfl := List.mem_singleton.mp hd
    exact isCharacter_of_ascii (by decide +kernel) hascii
  · split at hd
    · next n cs hfind =>
      have hlow : titleSpecials.all (fun s => s.2.all (· < firstStandIn)) = true := by decide +kernel
      obtain ⟨m, hm, rfl⟩ := List.mem_map.mp hd
      have hall := Array.all_eq_true_iff_forall_mem.mp hlow _ (Array.mem_of_find?_eq_some hfind)
      exact isCharacter_ofNat (of_decide_eq_true (List.all_eq_true.mp hall m hm))
    · rw [List.mem_singleton.mp hd]
      exact CaseRun.isCharacter_apply isLow_titleRuns hc

theorem isCharacter_of_mem_lowerWithin {before after : List Char} {c d : Char} (hc : IsCharacter c)
    (hd : d ∈ lowerWithin before c after) : IsCharacter d := by
  unfold lowerWithin at hd
  split_ifs at hd
  · obtain rfl := List.mem_singleton.mp hd
    exact isCharacter_ofNat (by decide)
  · obtain rfl := List.mem_singleton.mp hd
    exact isCharacter_ofNat (by decide)
  · unfold lowerChar at hd
    split_ifs at hd with hascii
    · obtain rfl := List.mem_singleton.mp hd
      exact isCharacter_of_ascii (by decide +kernel) hascii
    · rcases List.mem_pair.mp hd with rfl | rfl <;> exact isCharacter_of_lt (by decide)
    · rw [List.mem_singleton.mp hd]
      exact CaseRun.isCharacter_apply isLow_lowerRuns hc

theorem isCharacter_of_mem_titledFrom {before cs : List Char} (h : ∀ c ∈ cs, IsCharacter c) :
    ∀ d ∈ titledFrom before cs, IsCharacter d := by
  induction cs generalizing before with
  | nil => exact nofun
  | cons c cs ih =>
    obtain ⟨hc, hcs⟩ := List.forall_mem_cons.mp h
    refine List.forall_mem_append.mpr ⟨fun d hd => ?_, ih hcs⟩
    split_ifs at hd
    · exact isCharacter_of_mem_lowerWithin hc hd
    · exact isCharacter_of_mem_titleChar hc hd

/-- A text of characters is one in title case. -/
theorem isWellFormed_titled {s : String} (h : isWellFormed s = true) : isWellFormed (titled s) = true := by
  refine isWellFormed_iff.mpr ?_
  unfold titled
  rw [String.toList_ofList]
  exact isCharacter_of_mem_titledFrom (isWellFormed_iff.mp h)

end Drawing
