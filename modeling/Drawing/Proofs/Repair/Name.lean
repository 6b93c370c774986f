import Drawing.Proofs.Text.WellFormed
import Drawing.Repair.Action
import Mathlib.Data.Finset.Card
import Mathlib.Data.Finset.Dedup
import Mathlib.Data.Set.Finite.Basic

/-!
# `Drawing/Proofs/Repair/Name.lean` — a repaired id is a new one

The candidates for an id are all different, so among as many as there are ids taken, and one more, there is
always one that is free. The id that is chosen is the first of these.
-/

namespace Drawing

theorem toString_nat_injective : Function.Injective (toString : Nat → String) := by
  intro m n h
  have hdigits : Nat.toDigits 10 m = Nat.toDigits 10 n := by
    rw [← Nat.toList_repr, ← Nat.toList_repr]
    exact congrArg String.toList h
  rw [← Nat.ofDigitChars_ten_toDigits (n := m), hdigits, Nat.ofDigitChars_ten_toDigits]

theorem idCandidate_succ (wanted : String) (n : Nat) :
    idCandidate wanted (n + 1) = wanted ++ ("_" ++ toString (n + 2)) := by
  rw [← String.append_assoc]
  rfl

theorem idCandidate_injective (wanted : String) : Function.Injective (idCandidate wanted) := by
  -- a number behind the wanted id makes it longer
  have hlonger (n : Nat) : wanted ≠ idCandidate wanted (n + 1) := by
    intro h
    have hlength := congrArg String.length h
    rw [idCandidate_succ, String.length_append, String.length_append] at hlength
    have hmark : ("_" : String).length = 1 := rfl
    omega
  intro m n h
  match m, n with
  | 0, 0 => rfl
  | 0, n + 1 => exact absurd h (hlonger n)
  | m + 1, 0 => exact absurd h.symm (hlonger m)
  | m + 1, n + 1 =>
    rw [idCandidate_succ, idCandidate_succ, String.append_right_inj, String.append_right_inj] at h
    have hmn := toString_nat_injective h
    omega

theorem idCandidate_ne_empty {wanted : String} (h : wanted ≠ "") (n : Nat) :
    idCandidate wanted n ≠ "" := by
  cases n with
  | zero => exact h
  | succ n =>
    rw [idCandidate_succ]
    exact fun hempty => h (String.append_eq_empty_iff.mp hempty).1

/-- The candidates in front of the first free one are all taken, so there are no more of them than ids taken, and that
one is chosen. -/
theorem freeId_first (wanted : String) (taken : List String) :
    ∃ n ≤ taken.toFinset.card, freeId wanted taken = idCandidate wanted n ∧ idCandidate wanted n ∉ taken ∧
      ∀ m < n, idCandidate wanted m ∈ taken := by
  have hexists : ∃ n, idCandidate wanted n ∉ taken := by
    obtain ⟨_, ⟨n, rfl⟩, hn⟩ :=
      (Set.infinite_range_of_injective (idCandidate_injective wanted)).exists_notMem_finset taken.toFinset
    exact ⟨n, mt List.mem_toFinset.mpr hn⟩
  obtain ⟨n, hfree, hleast⟩ := Nat.findX hexists
  have htaken (m : Nat) (hm : m < n) : idCandidate wanted m ∈ taken := not_not.mp (hleast m hm)
  have hcard : n ≤ taken.toFinset.card := by
    have hsubset : (Finset.range n).image (idCandidate wanted) ⊆ taken.toFinset := by
      intro id hid
      obtain ⟨m, hm, rfl⟩ := Finset.mem_image.mp hid
      exact List.mem_toFinset.mpr (htaken m (Finset.mem_range.mp hm))
    have hle := Finset.card_le_card hsubset
    rwa [Finset.card_image_of_injective _ (idCandidate_injective wanted), Finset.card_range] at hle
  have hrange : n < taken.length + 1 := Nat.lt_succ_of_le (hcard.trans taken.toFinset_card_le)
  have hfind : (List.range (taken.length + 1)).find? ((fun c => !taken.contains c) ∘ idCandidate wanted) = some n := by
    rw [List.find?_range_eq_some]
    exact ⟨by simpa using hfree, List.mem_range.mpr hrange, fun m hm => by simpa using htaken m hm⟩
  refine ⟨n, hcard, ?_, hfree, htaken⟩
  rw [freeId, List.find?_map, hfind]
  rfl

theorem freeId_spec (wanted : String) (taken : List String) :
    freeId wanted taken ∉ taken ∧ ∃ n, freeId wanted taken = idCandidate wanted n := by
  obtain ⟨n, -, hid, hfree, -⟩ := freeId_first wanted taken
  exact ⟨hid ▸ hfree, n, hid⟩

theorem freeId_not_mem (wanted : String) (taken : List String) : freeId wanted taken ∉ taken :=
  (freeId_spec wanted taken).1

theorem freeId_ne_empty {wanted : String} (h : wanted ≠ "") (taken : List String) :
    freeId wanted taken ≠ "" := by
  obtain ⟨n, hn⟩ := (freeId_spec wanted taken).2
  exact hn ▸ idCandidate_ne_empty h n

/-- Nothing asks for the empty id. -/
theorem wantedId_ne_empty {α : Type} {fallback : String} (h : fallback ≠ "")
    (value : Option (Json α)) : wantedId value fallback ≠ "" := by
  unfold wantedId
  split
  · split
    · exact h
    · assumption
  · exact h

/-! ## Ids that are kept -/

theorem freeId_of_not_mem {wanted : String} {taken : List String} (h : wanted ∉ taken) :
    freeId wanted taken = wanted := by
  unfold freeId
  rw [List.range_succ_eq_map, List.map_cons, List.find?_cons_of_pos (by simpa [idCandidate] using h)]
  rfl

theorem wantedId_of_text {α : Type} {id : String} (h : id ≠ "") (fallback : String) :
    wantedId (some (.str id : Json α)) fallback = id := if_neg h

/-! ## Ids of characters only -/

theorem isWellFormed_idCandidate (wanted : String) (n : Nat) :
    isWellFormed (idCandidate wanted n) = isWellFormed wanted := by
  cases n with
  | zero => rfl
  | succ n =>
    have hmark : isWellFormed "_" = true := by decide
    rw [idCandidate_succ, isWellFormed_append, isWellFormed_append, hmark, isWellFormed_toString]
    exact Bool.and_true _

/-- A number behind an id does not make it any better or worse. -/
theorem isWellFormed_freeId (wanted : String) (taken : List String) :
    isWellFormed (freeId wanted taken) = isWellFormed wanted := by
  obtain ⟨n, hn⟩ := (freeId_spec wanted taken).2
  rw [hn, isWellFormed_idCandidate]

/-- An id that is asked for is kept as it is, whatever it is made of. -/
theorem isWellFormed_wantedId_iff {α : Type} {fallback : String} (h : isWellFormed fallback = true)
    (value : Option (Json α)) :
    isWellFormed (wantedId value fallback) = true ↔ ∀ s, value = some (.str s) → isWellFormed s = true := by
  unfold wantedId
  split
  · next s =>
    constructor
    · rintro hs _ ht
      obtain rfl := Json.str.inj (Option.some.inj ht)
      split_ifs at hs with hempty
      · rw [hempty]
        rfl
      · exact hs
    · intro hs
      split_ifs
      · exact h
      · exact hs s rfl
  · next hnone => exact ⟨fun _ s hs => absurd hs (hnone s), fun _ => h⟩

end Drawing
