import Drawing.Markup.Page
import Mathlib.Data.List.Forall2

/-!
# `Drawing/Proofs/Markup/PaintOrder.lean` — what is painted before what

Things are painted by their index, and two of the same index in the order in which they are listed. A sort is said to
do just that by three facts: nothing is lost or added, no index comes before a smaller one, and the things of one
index stand as they stood.
-/

namespace Drawing

variable {β : Type} {index : β → Int} {xs ys : List β}

/-- Things sorted by index, equals in their order. -/
structure StablySorted (index : β → Int) (xs ys : List β) : Prop where
  perm : ys.Perm xs
  sorted : ys.Pairwise fun a b => index a ≤ index b
  stable : ∀ n, ys.filter (fun x => index x = n) = xs.filter fun x => index x = n

theorem paintOrder_perm (index : β → Int) (xs : List β) : (paintOrder index xs).Perm xs :=
  List.mergeSort_perm _ _

@[simp] theorem mem_paintOrder {index : β → Int} {xs : List β} {x : β} : x ∈ paintOrder index xs ↔ x ∈ xs :=
  (paintOrder_perm index xs).mem_iff

theorem decide_index_trans (a b c : β) (hab : decide (index a ≤ index b) = true)
    (hbc : decide (index b ≤ index c) = true) : decide (index a ≤ index c) = true := by
  simp only [decide_eq_true_iff] at *
  omega

theorem decide_index_total (a b : β) : (decide (index a ≤ index b) || decide (index b ≤ index a)) = true := by
  simp only [Bool.or_eq_true, decide_eq_true_iff]
  omega

theorem paintOrder_pairwise (index : β → Int) (xs : List β) :
    (paintOrder index xs).Pairwise fun a b => index a ≤ index b :=
  (List.pairwise_mergeSort decide_index_trans decide_index_total xs).imp of_decide_eq_true

/-- Things listed in the order of painting stay as they are. -/
theorem paintOrder_of_pairwise (h : xs.Pairwise fun a b => index a ≤ index b) : paintOrder index xs = xs :=
  List.mergeSort_of_pairwise (h.imp decide_eq_true)

/-- Some of the things that are sorted already stay as they are. -/
theorem sublist_paintOrder {zs : List β} (hsorted : zs.Pairwise fun a b => index a ≤ index b)
    (h : zs.Sublist xs) : zs.Sublist (paintOrder index xs) :=
  List.sublist_mergeSort decide_index_trans decide_index_total (hsorted.imp decide_eq_true) h

theorem stablySorted_paintOrder (index : β → Int) (xs : List β) :
    StablySorted index xs (paintOrder index xs) := by
  refine ⟨paintOrder_perm index xs, paintOrder_pairwise index xs, fun n => ?_⟩
  have hsorted : (xs.filter fun x => index x = n).Pairwise fun a b => index a ≤ index b := by
    refine List.pairwise_of_forall_mem_list fun a ha b hb => ?_
    have hna : index a = n := of_decide_eq_true (List.mem_filter.mp ha).2
    have hnb : index b = n := of_decide_eq_true (List.mem_filter.mp hb).2
    exact Int.le_of_eq (hna.trans hnb.symm)
  -- the things of one index are a sorted part of all, so they are found again as they were
  have hsub := (sublist_paintOrder hsorted List.filter_sublist).filter fun x => index x = n
  rw [List.filter_filter] at hsub
  simp only [Bool.and_self] at hsub
  exact (hsub.eq_of_length ((paintOrder_perm index xs).filter _).length_eq.symm).symm

/-- Things that correspond, and are painted at the same place, correspond in the order in which they are
painted. -/
theorem forall₂_paintOrder {γ : Type} {R : β → γ → Prop} {index' : γ → Int} {zs : List γ}
    (hindex : ∀ x y, R x y → index x = index' y) (h : List.Forall₂ R xs zs) :
    List.Forall₂ R (paintOrder index xs) (paintOrder index' zs) := by
  obtain ⟨hlength, hzip⟩ := List.forall₂_iff_zip.mp h
  -- both lists are sorted as one list of pairs
  let sorted := (xs.zip zs).mergeSort fun p q => decide (index p.1 ≤ index q.1)
  have hfst : sorted.map Prod.fst = paintOrder index xs := by
    rw [List.map_mergeSort (s := fun a b => index a ≤ index b) fun _ _ _ _ => rfl,
      List.map_fst_zip (Nat.le_of_eq hlength)]
    rfl
  have hsnd : sorted.map Prod.snd = paintOrder index' zs := by
    rw [List.map_mergeSort (s := fun a b => index' a ≤ index' b), List.map_snd_zip (Nat.le_of_eq hlength.symm)]
    · rfl
    · rintro ⟨x, y⟩ hp ⟨x', y'⟩ hq
      rw [hindex x y (hzip hp), hindex x' y' (hzip hq)]
  rw [← hfst, ← hsnd, List.forall₂_map_left_iff, List.forall₂_map_right_iff]
  exact List.forall₂_same.mpr fun p hp => hzip (List.mem_mergeSort.mp hp)

/-! ## What comes before what -/

/-- A thing that is painted before another: it has a smaller index, or the same and is listed first. -/
def ComesBefore (index : β → Int) (xs : List β) (a b : β) : Prop :=
  index a < index b ∨ index a = index b ∧ [a, b].Sublist xs

theorem StablySorted.comesBefore (h : StablySorted index xs ys) : ys.Pairwise (ComesBefore index xs) := by
  refine List.pairwise_iff_forall_sublist.mpr ?_
  intro a b hab
  rcases Int.lt_or_eq_of_le (List.pairwise_iff_forall_sublist.mp h.sorted hab) with hlt | heq
  · exact .inl hlt
  · -- both have one index, and the things of one index stand as they stood
    have hfilter := hab.filter fun x => decide (index x = index b)
    rw [h.stable] at hfilter
    simp only [List.filter_cons, List.filter_nil, heq, decide_true, if_true] at hfilter
    exact .inr ⟨heq, hfilter.trans List.filter_sublist⟩

/-- Two lists of the same things, each in an order that does not go both ways, are one list. -/
theorem eq_of_pairwise_of_mem {R : β → β → Prop} (hasymm : ∀ a ∈ xs, ∀ b ∈ xs, R a b → ¬ R b a)
    (hxs : xs.Pairwise R) (hys : ys.Pairwise R) (hmem : ∀ a, a ∈ xs ↔ a ∈ ys) : xs = ys := by
  have hnodup {zs : List β} (hzs : zs.Pairwise R) (hsub : ∀ a ∈ zs, a ∈ xs) : zs.Nodup := by
    refine hzs.imp_of_mem ?_
    rintro a b ha - hab rfl
    exact hasymm a (hsub a ha) a (hsub a ha) hab hab
  have hperm : xs.Perm ys := (List.perm_ext_iff_of_nodup (hnodup hxs fun _ => id)
    (hnodup hys fun a => (hmem a).mpr)).mpr hmem
  exact hperm.eq_of_pairwise
    (fun a b ha hb hab hba => absurd hba (hasymm a ha b ((hmem b).mpr hb) hab)) hxs hys

/-- Of two things in a list one stands before the other. -/
theorem pair_sublist_total {a b : β} (ha : a ∈ xs) (hb : b ∈ xs) (hne : a ≠ b) :
    [a, b].Sublist xs ∨ [b, a].Sublist xs := by
  induction xs with
  | nil => exact absurd ha List.not_mem_nil
  | cons x xs ih =>
    rcases List.mem_cons.mp ha with rfl | haxs
    · have hbxs : b ∈ xs := (List.mem_cons.mp hb).resolve_left (Ne.symm hne)
      exact .inl ((List.singleton_sublist.mpr hbxs).cons_cons a)
    · rcases List.mem_cons.mp hb with rfl | hbxs
      · exact .inr ((List.singleton_sublist.mpr haxs).cons_cons b)
      · exact (ih haxs hbxs).imp (.cons x) (.cons x)

/-- If all are different, the other does not stand before it. -/
theorem not_pair_sublist_swap {a b : β} (hxs : xs.Nodup) (hab : [a, b].Sublist xs) : ¬ [b, a].Sublist xs := by
  induction xs with
  | nil => exact absurd (List.sublist_nil.mp hab) (List.cons_ne_nil _ _)
  | cons x xs ih =>
    obtain ⟨hx, hxs⟩ := List.nodup_cons.mp hxs
    intro hba
    cases hab with
    | cons _ hab =>
      cases hba with
      | cons _ hba => exact ih hxs hab hba
      | cons_cons _ hba => exact hx (hab.subset (by simp))
    | cons_cons _ hab =>
      cases hba with
      | cons _ hba => exact hx (hba.subset (by simp))
      | cons_cons _ hba => exact hx (List.singleton_sublist.mp hba)

namespace ComesBefore

variable {a b : β}

theorem asymm (hxs : xs.Nodup) (hab : ComesBefore index xs a b) : ¬ ComesBefore index xs b a := by
  rintro (hlt | ⟨heq, hba⟩)
  · rcases hab with hlt' | ⟨heq, -⟩ <;> omega
  · rcases hab with hlt | ⟨-, hab⟩
    · omega
    · exact not_pair_sublist_swap hxs hab hba

theorem total (ha : a ∈ xs) (hb : b ∈ xs) (hne : a ≠ b) :
    ComesBefore index xs a b ∨ ComesBefore index xs b a := by
  rcases Int.lt_trichotomy (index a) (index b) with hlt | heq | hgt
  · exact .inl (.inl hlt)
  · rcases pair_sublist_total ha hb hne with hab | hba
    · exact .inl (.inr ⟨heq, hab⟩)
    · exact .inr (.inr ⟨heq.symm, hba⟩)
  · exact .inr (.inl hgt)

theorem of_sublist (h : ComesBefore index xs a b) (hsub : xs.Sublist ys) : ComesBefore index ys a b :=
  h.imp_right fun ⟨heq, hab⟩ => ⟨heq, hab.trans hsub⟩

end ComesBefore

end Drawing
