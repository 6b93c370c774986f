import Drawing.Analysis.Merge
import Mathlib.Data.List.Nodup
import Mathlib.Tactic.SplitIfs

/-!
# `Drawing/Proofs/Analysis/Merge.lean` — where the paths of merged layers are

Merging takes one layer after the other and looks for the first of those kept so far that is like it. What comes out
can be told from the merges that are reported: a layer has gone to its target, or stayed where it was.

> **a kept layer holds the paths of all that have gone to it** — its own first, and all in the order in which their
> layers were listed — and nothing else of it is changed. Kept layers are in the order in which they were listed.
-/

namespace Drawing

variable {α : Type}

/-- The id of the layer that the paths of a layer have gone to, told from the reported merges. -/
def targetOf (merged : List (String × String)) (l : Layer α) : String :=
  ((merged.find? fun m => m.2 == l.id).map Prod.fst).getD l.id

/-- The layers that have stayed where they were. -/
def stayed (merged : List (String × String)) (layers : List (Layer α)) : List (Layer α) :=
  layers.filter fun l => targetOf merged l = l.id

/-- The layers that have gone to a layer, itself among them if it has stayed. -/
def goneTo (merged : List (String × String)) (layers : List (Layer α)) (h : Layer α) : List (Layer α) :=
  layers.filter fun l => targetOf merged l = h.id

/-- A layer with the paths of all that have gone to it. -/
def gathered (merged : List (String × String)) (layers : List (Layer α)) (h : Layer α) : Layer α :=
  h.withPaths ((goneTo merged layers h).flatMap Layer.paths)

/-- What merging has come to after some layers, all of different ids. -/
structure Merged (done kept : List (Layer α)) (merged : List (String × String)) : Prop where
  nodup : (done.map Layer.id).Nodup
  kept : kept = (stayed merged done).map (gathered merged done)
  ids : ∀ m ∈ merged, m.2 ∈ done.map Layer.id
  target : ∀ l ∈ done, ∃ h ∈ stayed merged done, targetOf merged l = h.id

theorem mem_stayed {merged : List (String × String)} {layers : List (Layer α)} {l : Layer α} :
    l ∈ stayed merged layers ↔ l ∈ layers ∧ targetOf merged l = l.id := by
  simp [stayed]

theorem mem_goneTo {merged : List (String × String)} {layers : List (Layer α)} {h l : Layer α} :
    l ∈ goneTo merged layers h ↔ l ∈ layers ∧ targetOf merged l = h.id := by
  simp [goneTo]

theorem targetOf_of_ne {merged : List (String × String)} {l : Layer α} (h : ∀ m ∈ merged, m.2 ≠ l.id) :
    targetOf merged l = l.id := by
  have hnone : (merged.find? fun m => m.2 == l.id) = none :=
    List.find?_eq_none.mpr fun m hm => by simpa using h m hm
  unfold targetOf
  rw [hnone]
  rfl

/-- A report about another layer tells nothing of this one. -/
theorem targetOf_concat_of_ne {merged : List (String × String)} {l : Layer α} {m : String × String}
    (h : m.2 ≠ l.id) : targetOf (merged ++ [m]) l = targetOf merged l := by
  have hfind : ((merged ++ [m]).find? fun m => m.2 == l.id) = merged.find? fun m => m.2 == l.id := by
    rw [List.find?_append]
    simp [h]
  unfold targetOf
  rw [hfind]

/-- Nothing changes for the layers before one that goes to a kept layer. -/
theorem targetOf_concat_of_mem {done : List (Layer α)} {merged : List (String × String)} {l x : Layer α}
    (target : String) (hl : l.id ∉ done.map Layer.id) (hx : x ∈ done) :
    targetOf (merged ++ [(target, l.id)]) x = targetOf merged x := by
  refine targetOf_concat_of_ne fun hid => ?_
  have hid : l.id = x.id := hid
  exact hl (hid ▸ List.mem_map_of_mem hx)

theorem targetOf_concat {merged : List (String × String)} {l : Layer α} (target : String)
    (h : ∀ m ∈ merged, m.2 ≠ l.id) : targetOf (merged ++ [(target, l.id)]) l = target := by
  have hnone : (merged.find? fun m => m.2 == l.id) = none :=
    List.find?_eq_none.mpr fun m hm => by simpa using h m hm
  unfold targetOf
  rw [List.find?_append, hnone]
  simp

namespace Merged

variable {done kept : List (Layer α)} {merged : List (String × String)} {l : Layer α}

theorem nil : Merged ([] : List (Layer α)) [] [] := by
  constructor <;> simp [stayed]

theorem ids_ne (h : Merged done kept merged) (hl : l.id ∉ done.map Layer.id) : ∀ m ∈ merged, m.2 ≠ l.id := by
  intro m hm heq
  exact hl (heq ▸ h.ids m hm)

theorem nodup_concat (h : Merged done kept merged) (hl : l.id ∉ done.map Layer.id) :
    ((done ++ [l]).map Layer.id).Nodup := by
  rw [List.map_append, List.nodup_append]
  refine ⟨h.nodup, List.nodup_singleton _, ?_⟩
  rintro a ha b hb rfl
  exact hl (List.mem_singleton.mp hb ▸ ha)

/-- A layer that is like none of those kept so far is kept. -/
theorem keep (h : Merged done kept merged) (hl : l.id ∉ done.map Layer.id) :
    Merged (done ++ [l]) (kept ++ [l]) merged := by
  have hself : targetOf merged l = l.id := targetOf_of_ne (h.ids_ne hl)
  have hstayed : stayed merged (done ++ [l]) = stayed merged done ++ [l] := by
    simp [stayed, hself]
  -- nothing has gone to it yet, as nothing of its id was there
  have hnothing : goneTo merged done l = [] := by
    refine List.filter_eq_nil_iff.mpr fun x hx => ?_
    obtain ⟨y, hy, htarget⟩ := h.target x hx
    have hne : y.id ≠ l.id := fun heq => hl (heq ▸ List.mem_map_of_mem (List.mem_of_mem_filter hy))
    simpa [htarget] using hne
  have hsame : ∀ x ∈ stayed merged done, gathered merged (done ++ [l]) x = gathered merged done x := by
    intro x hx
    have hne : l.id ≠ x.id := fun heq => hl (heq ▸ List.mem_map_of_mem (List.mem_of_mem_filter hx))
    simp [gathered, goneTo, hself, hne]
  refine ⟨h.nodup_concat hl, ?_, ?_, ?_⟩
  · rw [hstayed, List.map_append, List.map_congr_left hsame, ← h.kept]
    have hl' : gathered merged (done ++ [l]) l = l := by
      unfold gathered goneTo at *
      rw [List.filter_append, hnothing]
      simp [hself, Layer.withPaths]
    rw [List.map_singleton, hl']
  · intro m hm
    rw [List.map_append]
    exact List.mem_append_left _ (h.ids m hm)
  · intro x hx
    rw [hstayed]
    rcases List.mem_append.mp hx with hx | hx
    · obtain ⟨y, hy, htarget⟩ := h.target x hx
      exact ⟨y, List.mem_append_left _ hy, htarget⟩
    · obtain rfl := List.mem_singleton.mp hx
      exact ⟨x, List.mem_append_right _ (List.mem_singleton_self x), hself⟩

section

variable (h : Merged done kept merged) (hl : l.id ∉ done.map Layer.id)
include h hl

theorem targetOf_last (target : String) : targetOf (merged ++ [(target, l.id)]) l = target :=
  targetOf_concat target (h.ids_ne hl)

theorem stayed_concat {target : String} (hne : target ≠ l.id) :
    stayed (merged ++ [(target, l.id)]) (done ++ [l]) = stayed merged done := by
  unfold stayed
  rw [List.filter_append, List.filter_congr fun y hy => by rw [targetOf_concat_of_mem _ hl hy]]
  simp [h.targetOf_last hl, hne]

theorem goneTo_concat (target : String) (y : Layer α) :
    goneTo (merged ++ [(target, l.id)]) (done ++ [l]) y =
      goneTo merged done y ++ if target = y.id then [l] else [] := by
  unfold goneTo
  rw [List.filter_append, List.filter_congr fun z hz => by rw [targetOf_concat_of_mem _ hl hz]]
  simp [List.filter_cons, h.targetOf_last hl]

theorem gathered_concat_of_ne {target : String} {y : Layer α} (hne : target ≠ y.id) :
    gathered (merged ++ [(target, l.id)]) (done ++ [l]) y = gathered merged done y := by
  unfold gathered
  rw [h.goneTo_concat hl, if_neg hne, List.append_nil]

theorem gathered_concat (y : Layer α) :
    gathered (merged ++ [(y.id, l.id)]) (done ++ [l]) y =
      (gathered merged done y).withPaths ((gathered merged done y).paths ++ l.paths) := by
  unfold gathered
  rw [h.goneTo_concat hl, if_pos rfl, List.flatMap_append, List.flatMap_singleton]
  rfl

/-- A layer that is like a kept one goes to it. -/
theorem merge {before after : List (Layer α)} {k : Layer α} (hkept : kept = before ++ k :: after) :
    Merged (done ++ [l]) (before ++ k.withPaths (k.paths ++ l.paths) :: after) (merged ++ [(k.id, l.id)]) := by
  -- the kept layer is one that has stayed, and so are those before and behind it
  obtain ⟨before', rest, hstayed, rfl, hrest⟩ := List.map_eq_append_iff.mp (h.kept.symm.trans hkept)
  obtain ⟨x, after', rfl, rfl, rfl⟩ := List.map_eq_cons_iff.mp hrest
  have hx : x ∈ stayed merged done := hstayed ▸ List.mem_append_right _ List.mem_cons_self
  have hne : x.id ≠ l.id := fun heq => hl (heq ▸ List.mem_map_of_mem (List.mem_of_mem_filter hx))
  have hid : (gathered merged done x).id = x.id := rfl
  rw [hid]
  refine ⟨h.nodup_concat hl, ?_, ?_, ?_⟩
  · -- no other layer that has stayed has this id, so nothing is gathered there that was not before
    have hnodup : ((before' ++ x :: after').map Layer.id).Nodup := by
      rw [← hstayed]
      exact h.nodup.sublist (List.filter_sublist.map _)
    have hnew := (List.nodup_cons.mp (List.nodup_middle.mp (List.map_append ▸ hnodup))).1
    have hother {ys : List (Layer α)} (hys : x.id ∉ ys.map Layer.id) :
        ys.map (gathered (merged ++ [(x.id, l.id)]) (done ++ [l])) = ys.map (gathered merged done) := by
      refine List.map_congr_left fun y hy => h.gathered_concat_of_ne hl ?_
      exact fun heq => hys (heq ▸ List.mem_map_of_mem hy)
    rw [h.stayed_concat hl hne, hstayed, List.map_append, List.map_cons, h.gathered_concat hl, hother, hother]
    · exact fun hafter => hnew (List.mem_append_right _ hafter)
    · exact fun hbefore => hnew (List.mem_append_left _ hbefore)
  · intro m hm
    rw [List.map_append]
    rcases List.mem_append.mp hm with hm | hm
    · exact List.mem_append_left _ (h.ids m hm)
    · obtain rfl := List.mem_singleton.mp hm
      exact List.mem_append_right _ (List.mem_singleton_self _)
  · intro y hy
    rw [h.stayed_concat hl hne]
    rcases List.mem_append.mp hy with hy | hy
    · rw [targetOf_concat_of_mem _ hl hy]
      exact h.target y hy
    · obtain rfl := List.mem_singleton.mp hy
      exact ⟨x, hx, h.targetOf_last hl _⟩

end

end Merged

/-- The layers that have anything to paint. -/
def liveLayers (layers : List (Layer α)) : List (Layer α) := layers.filter fun l => !l.paths.isEmpty

theorem stayed_sublist (merged : List (String × String)) (layers : List (Layer α)) :
    (stayed merged (liveLayers layers)).Sublist layers :=
  List.filter_sublist.trans List.filter_sublist

theorem goneTo_sublist (merged : List (String × String)) (layers : List (Layer α)) (h : Layer α) :
    (goneTo merged (liveLayers layers) h).Sublist layers :=
  List.filter_sublist.trans List.filter_sublist

/-! ## The run -/

section

variable [Scalar α] [DecimalText α]

theorem mergeInto_eq_some {threshold : α} {l : Layer α} {kept kept' : List (Layer α)} {target : String}
    (h : mergeInto threshold l kept = some (kept', target)) :
    ∃ before k after, kept = before ++ k :: after ∧
      kept' = before ++ k.withPaths (k.paths ++ l.paths) :: after ∧ target = k.id := by
  induction kept generalizing kept' with
  | nil => exact nomatch h
  | cons k rest ih =>
    unfold mergeInto at h
    split_ifs at h with hlike
    · obtain ⟨rfl, rfl⟩ := Prod.mk.inj (Option.some.inj h)
      exact ⟨[], k, rest, rfl, rfl, rfl⟩
    · obtain ⟨⟨rest', target'⟩, hrest, h⟩ := Option.map_eq_some_iff.mp h
      obtain ⟨rfl, rfl⟩ := Prod.mk.inj h
      obtain ⟨before, k', after, rfl, rfl, rfl⟩ := ih hrest
      exact ⟨k :: before, k', after, rfl, rfl, rfl⟩

/-- What is told of the layers taken so far can be told of all. -/
theorem merged_mergeAll (threshold : α) {done kept rest : List (Layer α)} {merged : List (String × String)}
    (h : Merged done kept merged) (hnodup : ((done ++ rest).map Layer.id).Nodup) :
    Merged (done ++ rest) (mergeAll threshold kept merged rest).1 (mergeAll threshold kept merged rest).2 := by
  induction rest generalizing done kept merged with
  | nil => simpa [mergeAll] using h
  | cons l rest ih =>
    have hl : l.id ∉ done.map Layer.id := by
      rw [List.map_append, List.map_cons] at hnodup
      exact fun hmem => (List.nodup_cons.mp (List.nodup_middle.mp hnodup)).1 (List.mem_append_left _ hmem)
    rw [List.append_cons] at hnodup ⊢
    unfold mergeAll
    cases hinto : mergeInto threshold l kept with
    | none => exact ih (h.keep hl) hnodup
    | some result =>
      obtain ⟨kept', target⟩ := result
      obtain ⟨before, k, after, hkept, hkept', htarget⟩ := mergeInto_eq_some hinto
      have hmerged := h.merge hl hkept
      rw [← hkept', ← htarget] at hmerged
      exact ih hmerged hnodup

/-- **What merging comes to**, of layers of different ids. -/
theorem merged_optimizeLayers (threshold : α) {layers : List (Layer α)} (h : (layers.map Layer.id).Nodup) :
    Merged (liveLayers layers) (optimizeLayers threshold layers).layers
      (optimizeLayers threshold layers).merged :=
  merged_mergeAll threshold .nil (h.sublist (List.filter_sublist.map _))

end

end Drawing
