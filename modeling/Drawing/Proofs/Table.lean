import Drawing.Table
import Mathlib.Tactic.SplitIfs

/-!
# `Drawing/Proofs/Table.lean` — what is behind a name

Setting or removing a name changes what is behind that name and nothing else.
-/

namespace Drawing.Table

variable {β : Type} {name other : String} {value : β}

theorem get?_cons (n : String) (v : β) (t : Table β) :
    get? ((n, v) :: t) name = if name = n then some v else get? t name := by
  unfold get?
  rw [List.lookup_cons]
  split_ifs with h
  · simp [h]
  · simp [beq_eq_false_iff_ne.mpr h]

theorem isSome_get?_iff {t : Table β} : (get? t name).isSome = true ↔ name ∈ names t := by
  induction t with
  | nil => simp [get?, names]
  | cons p t ih =>
    obtain ⟨n, v⟩ := p
    rw [get?_cons]
    unfold names at ih ⊢
    rw [List.map_cons, List.mem_cons]
    by_cases h : name = n
    · simp [h]
    · rw [if_neg h, ih, or_iff_right h]

theorem mem_of_get? {t : Table β} (h : get? t name = some value) : (name, value) ∈ t := by
  induction t with
  | nil => exact nomatch h
  | cons p t ih =>
    obtain ⟨n, v⟩ := p
    rw [get?_cons] at h
    split_ifs at h with hname
    · obtain rfl := Option.some.inj h
      exact hname ▸ List.mem_cons_self
    · exact List.mem_cons_of_mem _ (ih h)

@[simp] theorem get?_put_self (t : Table β) : get? (put name value t) name = some value := by
  induction t with
  | nil => simp [put, get?_cons]
  | cons p t ih =>
    obtain ⟨n, v⟩ := p
    unfold put
    split_ifs with h
    · rw [get?_cons, if_pos h.symm]
    · rw [get?_cons, if_neg (Ne.symm h), ih]

theorem get?_put_of_ne (h : other ≠ name) (t : Table β) :
    get? (put name value t) other = get? t other := by
  induction t with
  | nil => simp [put, get?_cons, h]
  | cons p t ih =>
    obtain ⟨n, v⟩ := p
    unfold put
    split_ifs with hn
    · subst hn
      rw [get?_cons, get?_cons, if_neg h, if_neg h]
    · rw [get?_cons, get?_cons, ih]

theorem has_put_iff {t : Table β} : has (put name value t) other = true ↔ other = name ∨ has t other = true := by
  show (get? (put name value t) other).isSome = true ↔ other = name ∨ (get? t other).isSome = true
  by_cases h : other = name
  · subst h
    simp
  · rw [get?_put_of_ne h, or_iff_right h]

@[simp] theorem get?_erase_self (t : Table β) : get? (erase name t) name = none := by
  induction t with
  | nil => rfl
  | cons p t ih =>
    obtain ⟨n, v⟩ := p
    unfold erase at ih ⊢
    rw [List.filter_cons]
    by_cases h : n = name
    · simp [h, ih]
    · simp [h, get?_cons, Ne.symm h, ih]

theorem get?_erase_of_ne (h : other ≠ name) (t : Table β) :
    get? (erase name t) other = get? t other := by
  induction t with
  | nil => rfl
  | cons p t ih =>
    obtain ⟨n, v⟩ := p
    unfold erase at ih ⊢
    rw [List.filter_cons]
    by_cases hn : n = name
    · subst hn
      simp [get?_cons, h, ih]
    · simp [hn, get?_cons, ih]

theorem names_put (t : Table β) :
    names (put name value t) = if name ∈ names t then names t else names t ++ [name] := by
  induction t with
  | nil => rfl
  | cons p t ih =>
    obtain ⟨n, v⟩ := p
    have hcons (m : String) (w : β) : names ((m, w) :: t) = m :: names t := rfl
    unfold put
    by_cases h : n = name
    · rw [if_pos h, hcons, hcons, if_pos (List.mem_cons.mpr (.inl h.symm))]
    · rw [if_neg h, hcons]
      show n :: names (put name value t) = _
      rw [ih]
      by_cases hmem : name ∈ names t
      · rw [if_pos hmem, if_pos (List.mem_cons_of_mem n hmem)]
      · have hmem' : name ∉ n :: names t := fun hm => (List.mem_cons.mp hm).elim (Ne.symm h) hmem
        rw [if_neg hmem, if_neg hmem']
        rfl

/-- No name is set twice. -/
theorem nodup_names_put {t : Table β} (h : (names t).Nodup) : (names (put name value t)).Nodup := by
  rw [names_put]
  split_ifs with hname
  · exact h
  · exact List.nodup_append.mpr ⟨h, List.pairwise_singleton _ name, fun a ha b hb hab =>
      hname (List.mem_singleton.mp hb ▸ hab ▸ ha)⟩

theorem mem_put {p : String × β} {t : Table β} (h : p ∈ put name value t) : p = (name, value) ∨ p ∈ t := by
  induction t with
  | nil => exact .inl (List.mem_singleton.mp h)
  | cons q t ih =>
    obtain ⟨n, v⟩ := q
    unfold put at h
    split_ifs at h with hn
    · subst hn
      exact (List.mem_cons.mp h).imp id (List.mem_cons_of_mem _)
    · rcases List.mem_cons.mp h with rfl | h
      · exact .inr List.mem_cons_self
      · exact (ih h).imp id (List.mem_cons_of_mem _)

/-- Where no name is set twice, the values behind the names are all there are. -/
theorem mem_iff_get? {t : Table β} (h : (names t).Nodup) : (name, value) ∈ t ↔ get? t name = some value := by
  refine ⟨fun hmem => ?_, mem_of_get?⟩
  induction t with
  | nil => exact absurd hmem List.not_mem_nil
  | cons p t ih =>
    obtain ⟨n, v⟩ := p
    obtain ⟨hn, h⟩ := List.nodup_cons.mp (show (n :: names t).Nodup from h)
    rw [get?_cons]
    rcases List.mem_cons.mp hmem with heq | hmem
    · obtain ⟨rfl, rfl⟩ := Prod.mk.inj heq
      exact if_pos rfl
    · have hname : name ∈ names t := List.mem_map_of_mem (f := Prod.fst) hmem
      rw [if_neg fun heq : name = n => hn (heq ▸ hname)]
      exact ih h hmem

/-- Setting the names of a table one after another. -/
theorem get?_foldl_put {added : Table β} (h : (names added).Nodup) (t : Table β) :
    get? (added.foldl (fun t p => put p.1 p.2 t) t) name = (get? added name).or (get? t name) := by
  induction added generalizing t with
  | nil => rfl
  | cons p added ih =>
    obtain ⟨n, v⟩ := p
    obtain ⟨hn, h⟩ := List.nodup_cons.mp (show (n :: names added).Nodup from h)
    rw [List.foldl_cons, ih h, get?_cons]
    by_cases hname : name = n
    · subst hname
      have hnone : get? added name = none := Option.not_isSome_iff_eq_none.mp (mt isSome_get?_iff.mp hn)
      rw [hnone, if_pos rfl, get?_put_self]
      rfl
    · rw [if_neg hname, get?_put_of_ne hname]

theorem nodup_names_foldl_put {t : Table β} (h : (names t).Nodup) (added : Table β) :
    (names (added.foldl (fun t p => put p.1 p.2 t) t)).Nodup := by
  induction added generalizing t with
  | nil => exact h
  | cons p added ih => exact ih (nodup_names_put h)

/-- Setting a name to what is behind it already. -/
theorem put_of_get? (h : get? t name = some value) : put name value t = t := by
  induction t with
  | nil => exact nomatch h
  | cons p t ih =>
    obtain ⟨n, v⟩ := p
    rw [get?_cons] at h
    unfold put
    by_cases hn : n = name
    · rw [if_pos hn.symm] at h
      rw [if_pos hn, Option.some.inj h]
    · rw [if_neg (Ne.symm hn)] at h
      rw [if_neg hn, ih h]

/-- Removing a name that is not set. -/
theorem erase_of_get?_eq_none (h : get? t name = none) : erase name t = t := by
  refine List.filter_eq_self.mpr fun p hp => bne_iff_ne.mpr ?_
  rintro rfl
  have hset := isSome_get?_iff.mpr (List.mem_map_of_mem (f := Prod.fst) hp)
  rw [h] at hset
  exact nomatch hset

/-! ## Values told by a function -/

theorem get?_map (f : String → β) (ks : List String) (k : String) :
    get? (ks.map fun n => (n, f n)) k = if k ∈ ks then some (f k) else none := by
  induction ks with
  | nil => rfl
  | cons n ks ih =>
    rw [List.map_cons, get?_cons, ih]
    by_cases h : k = n
    · simp [h]
    · simp [h]

/-- Setting a name among names whose values are told by a function. -/
theorem put_map (f : String → β) {ks : List String} (hks : ks.Nodup) (k : String) (v : β) :
    put k v (ks.map fun n => (n, f n)) =
      (if k ∈ ks then ks else ks ++ [k]).map fun n => (n, if n = k then v else f n) := by
  induction ks with
  | nil => simp [put]
  | cons n ks ih =>
    obtain ⟨hn, hks⟩ := List.nodup_cons.mp hks
    rw [List.map_cons, put]
    by_cases h : n = k
    · subst h
      have hrest : ks.map (fun m => (m, if m = n then v else f m)) = ks.map fun m => (m, f m) :=
        List.map_congr_left fun m hm => by rw [if_neg (ne_of_mem_of_not_mem hm hn)]
      rw [if_pos rfl, if_pos List.mem_cons_self, List.map_cons, if_pos rfl, hrest]
    · have hmem : k ∈ n :: ks ↔ k ∈ ks := List.mem_cons.trans (or_iff_right (Ne.symm h))
      rw [if_neg h, ih hks]
      by_cases hk : k ∈ ks
      · rw [if_pos hk, if_pos (hmem.mpr hk), List.map_cons, if_neg h]
      · rw [if_neg hk, if_neg (mt hmem.mp hk), List.cons_append, List.map_cons, if_neg h]

end Drawing.Table
