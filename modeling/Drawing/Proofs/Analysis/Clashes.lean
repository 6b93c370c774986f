import Drawing.Proofs.Analysis.Quiet
import Drawing.Proofs.Validation.Findings

/-!
# `Drawing/Proofs/Analysis/Clashes.lean` — merged layers and their checks

The ids of paths need to be different within a layer only, and merging brings the paths of several layers into one
without a look at their ids. So layers that fit together need not do so once they are merged. This is the only thing
that can go wrong:

> **merged layers fit together** exactly if no two layers that become one have paths of the same id.
-/

namespace Drawing

variable {α : Type}

/-! ## What can be wrong -/

theorem mem_pathErrors {catalog : Catalog α} {layer : String} {seen : List String} {paths : List (ShapePath α)}
    (hregions : ∀ p ∈ paths, RegionKnown catalog p.layout) {e : LayerError}
    (h : e ∈ pathErrors catalog layer seen paths) : ∃ p ∈ paths, e = .samePathId p.id layer := by
  induction paths generalizing seen with
  | nil => exact absurd h List.not_mem_nil
  | cons p rest ih =>
    obtain ⟨hp, hrest⟩ := List.forall_mem_cons.mp hregions
    rw [pathErrors, regionErrors_eq_nil_iff.mpr hp, List.append_nil] at h
    rcases List.mem_append.mp h with h | h
    · split_ifs at h
      · exact ⟨p, List.mem_cons_self, List.mem_singleton.mp h⟩
      · exact absurd h List.not_mem_nil
    · obtain ⟨q, hq, he⟩ := ih hrest h
      exact ⟨q, List.mem_cons_of_mem p hq, he⟩

/-- Layers with ids of their own and regions that exist can only have paths of the same id. -/
theorem mem_layerErrors {catalog : Catalog α} {seen : List String} {layers : List (Layer α)}
    (hids : ∀ l ∈ layers, l.id ≠ "" ∧ l.id ∉ seen) (hnodup : (layers.map Layer.id).Nodup)
    (hregions : ∀ l ∈ layers, RegionKnown catalog l.layout ∧ ∀ p ∈ l.paths, RegionKnown catalog p.layout)
    {e : LayerError} (h : e ∈ layerErrors catalog seen layers) :
    ∃ l ∈ layers, ∃ p ∈ l.paths, e = .samePathId p.id l.id := by
  induction layers generalizing seen with
  | nil => exact absurd h List.not_mem_nil
  | cons l rest ih =>
    obtain ⟨hl, hrest⟩ := List.forall_mem_cons.mp hids
    obtain ⟨hknown, hothers⟩ := List.forall_mem_cons.mp hregions
    obtain ⟨hnew, hnodup⟩ := List.nodup_cons.mp hnodup
    rw [layerErrors, idErrors_eq_nil_iff.mpr hl, regionErrors_eq_nil_iff.mpr hknown.1] at h
    rcases List.mem_append.mp h with h | h
    · obtain ⟨p, hp, he⟩ := mem_pathErrors hknown.2 h
      exact ⟨l, List.mem_cons_self, p, hp, he⟩
    · have hunseen : ∀ m ∈ rest, m.id ≠ "" ∧ m.id ∉ seen ++ [l.id] := by
        intro m hm
        refine ⟨(hrest m hm).1, ?_⟩
        rw [List.mem_append, List.mem_singleton, not_or]
        exact ⟨(hrest m hm).2, fun heq => hnew (heq ▸ List.mem_map_of_mem hm)⟩
      obtain ⟨m, hm, he⟩ := ih hunseen hnodup hothers h
      exact ⟨m, List.mem_cons_of_mem l hm, he⟩

/-! ## Merged layers -/

/-- Layers that become one, and have paths of the same id. -/
def Clash (merged : List (String × String)) (l m : Layer α) : Prop :=
  l ≠ m ∧ targetOf merged l = targetOf merged m ∧ ∃ p ∈ l.paths, ∃ q ∈ m.paths, p.id = q.id

section

variable {merged : List (String × String)} {layers done kept : List (Layer α)}

/-- The paths of a merged layer have ids of their own exactly if no two layers in it clash. -/
theorem nodup_gathered_iff (h : Layer α) (hnodup : (done.map Layer.id).Nodup)
    (hpaths : ∀ l ∈ done, (l.paths.map ShapePath.id).Nodup) :
    ((gathered merged done h).paths.map ShapePath.id).Nodup ↔
      ∀ l ∈ goneTo merged done h, ∀ m ∈ goneTo merged done h, ¬ Clash merged l m := by
  have hgone : (goneTo merged done h).Nodup := (hnodup.of_map _).sublist List.filter_sublist
  have hids : (gathered merged done h).paths.map ShapePath.id =
      (goneTo merged done h).flatMap fun l => l.paths.map ShapePath.id := List.map_flatMap
  rw [hids, List.nodup_flatMap, and_iff_right fun l hl => hpaths l (mem_goneTo.mp hl).1]
  constructor
  · rintro hapart l hl m hm ⟨hne, -, p, hp, q, hq, hid⟩
    have hsymm : Std.Symm (Function.onFun List.Disjoint fun l : Layer α => l.paths.map ShapePath.id) :=
      ⟨fun _ _ hlm => hlm.symm⟩
    exact hapart.forall hl hm hne (List.mem_map_of_mem hp) (hid ▸ List.mem_map_of_mem hq)
  · intro hclear
    refine hgone.pairwise_of_forall_ne fun l hl m hm hne id hidl hidm => ?_
    obtain ⟨p, hp, rfl⟩ := List.mem_map.mp hidl
    obtain ⟨q, hq, hid⟩ := List.mem_map.mp hidm
    have htarget := (mem_goneTo.mp hl).2.trans (mem_goneTo.mp hm).2.symm
    exact hclear l hl m hm ⟨hne, htarget, p, hp, q, hq, hid.symm⟩

/-- Layers that clash have both gone to one of those that have stayed. -/
theorem Merged.forall_not_clash_iff (h : Merged done kept merged) :
    (∀ k ∈ stayed merged done, ∀ l ∈ goneTo merged done k, ∀ m ∈ goneTo merged done k, ¬ Clash merged l m) ↔
      ∀ l ∈ done, ∀ m ∈ done, ¬ Clash merged l m := by
  constructor
  · rintro hclear l hl m hm hclash
    obtain ⟨k, hk, htarget⟩ := h.target l hl
    exact hclear k hk l (mem_goneTo.mpr ⟨hl, htarget⟩) m
      (mem_goneTo.mpr ⟨hm, hclash.2.1.symm.trans htarget⟩) hclash
  · intro hclear k _ l hl m hm
    exact hclear l (mem_goneTo.mp hl).1 m (mem_goneTo.mp hm).1

/-- A merged layer is known by the id and the region of a layer that was there, and holds paths that were there. -/
theorem Merged.of_mem (h : Merged (liveLayers layers) kept merged) {k : Layer α} (hk : k ∈ kept) :
    ∃ t ∈ layers, k.id = t.id ∧ k.layout = t.layout ∧ ∀ p ∈ k.paths, ∃ l ∈ layers, p ∈ l.paths := by
  rw [h.kept] at hk
  obtain ⟨t, ht, rfl⟩ := List.mem_map.mp hk
  refine ⟨t, (stayed_sublist merged layers).subset ht, rfl, rfl, fun p hp => ?_⟩
  obtain ⟨l, hl, hp⟩ := List.mem_flatMap.mp hp
  exact ⟨l, (goneTo_sublist merged layers t).subset hl, hp⟩

theorem Merged.nodup_kept (h : Merged done kept merged) : (kept.map Layer.id).Nodup := by
  have hids : kept.map Layer.id = (stayed merged done).map Layer.id := by
    rw [h.kept, List.map_map]
    rfl
  rw [hids]
  exact h.nodup.sublist (List.filter_sublist.map _)

/-- Layers without paths clash with no others. -/
theorem forall_liveLayers_not_clash_iff :
    (∀ l ∈ liveLayers layers, ∀ m ∈ liveLayers layers, ¬ Clash merged l m) ↔
      ∀ l ∈ layers, ∀ m ∈ layers, ¬ Clash merged l m := by
  constructor
  · rintro h l hl m hm ⟨hne, htarget, p, hp, q, hq, hid⟩
    have hlive {k : Layer α} (hk : k ∈ layers) {r : ShapePath α} (hr : r ∈ k.paths) : k ∈ liveLayers layers :=
      List.mem_filter.mpr ⟨hk, by simpa using List.ne_nil_of_mem hr⟩
    exact h l (hlive hl hp) m (hlive hm hq) ⟨hne, htarget, p, hp, q, hq, hid⟩
  · exact fun h l hl m hm => h l (List.mem_of_mem_filter hl) m (List.mem_of_mem_filter hm)

/-- The paths of all merged layers have ids of their own exactly if no two layers clash. -/
theorem Merged.nodup_paths_iff (h : Merged (liveLayers layers) kept merged)
    (hpaths : ∀ l ∈ layers, (l.paths.map ShapePath.id).Nodup) :
    (∀ k ∈ kept, (k.paths.map ShapePath.id).Nodup) ↔ ∀ l ∈ layers, ∀ m ∈ layers, ¬ Clash merged l m := by
  have hlive : ∀ l ∈ liveLayers layers, (l.paths.map ShapePath.id).Nodup := fun l hl =>
    hpaths l (List.mem_of_mem_filter hl)
  calc (∀ k ∈ kept, (k.paths.map ShapePath.id).Nodup)
      ↔ ∀ t ∈ stayed merged (liveLayers layers),
          ((gathered merged (liveLayers layers) t).paths.map ShapePath.id).Nodup := by
        rw [h.kept, List.forall_mem_map]
    _ ↔ ∀ t ∈ stayed merged (liveLayers layers), ∀ l ∈ goneTo merged (liveLayers layers) t,
          ∀ m ∈ goneTo merged (liveLayers layers) t, ¬ Clash merged l m :=
        forall₂_congr fun t _ => nodup_gathered_iff t h.nodup hlive
    _ ↔ ∀ l ∈ layers, ∀ m ∈ layers, ¬ Clash merged l m :=
        h.forall_not_clash_iff.trans forall_liveLayers_not_clash_iff

variable {catalog : Catalog α}

/-- Merged layers have ids, and regions that exist, if the layers that were there fit together. -/
theorem Merged.known (h : Merged (liveLayers layers) kept merged) (hfit : layerErrors catalog [] layers = []) :
    (∀ k ∈ kept, k.id ≠ "" ∧ k.id ∉ ([] : List String)) ∧
      ∀ k ∈ kept, RegionKnown catalog k.layout ∧ ∀ p ∈ k.paths, RegionKnown catalog p.layout := by
  obtain ⟨hids, -, hlayers⟩ := layerErrors_eq_nil_iff.mp hfit
  refine ⟨fun k hk => ?_, fun k hk => ?_⟩
  · obtain ⟨t, ht, hid, -, -⟩ := h.of_mem hk
    exact ⟨hid ▸ (hids t ht).1, List.not_mem_nil⟩
  · obtain ⟨t, ht, -, hlayout, hmem⟩ := h.of_mem hk
    refine ⟨hlayout ▸ (hlayers t ht).1, fun p hp => ?_⟩
    obtain ⟨l, hl, hp⟩ := hmem p hp
    exact (pathErrors_eq_nil_iff.mp (hlayers l hl).2).2.2 p hp

/-- Merged layers fit together if the paths of each have ids of their own. -/
theorem Merged.fits_iff (h : Merged (liveLayers layers) kept merged)
    (hfit : layerErrors catalog [] layers = []) :
    layerErrors catalog [] kept = [] ↔ ∀ k ∈ kept, (k.paths.map ShapePath.id).Nodup := by
  obtain ⟨hids, hregions⟩ := h.known hfit
  rw [layerErrors_eq_nil_iff, and_iff_right hids, and_iff_right h.nodup_kept]
  refine forall₂_congr fun k hk => ?_
  rw [pathErrors_eq_nil_iff, and_iff_right (hregions k hk).1, and_iff_right fun _ _ => List.not_mem_nil,
    and_iff_left (hregions k hk).2]

end

/-! ## Checks -/

section

variable [Scalar α] [DecimalText α]

/-- **What merging can break.** Of layers that fit together, whatever the threshold, merging makes layers with ids of
their own and regions that exist. They fit together exactly if no two of the layers that have become one had paths of
the same id; and if they do not, this is all that is told of them. -/
theorem optimized_valid_iff {a : Analyzer α} {layers : List (Layer α)} {catalog : Catalog α}
    (ha : a.RecallsTruly layers) (hvalid : (layerReport catalog layers).isValid = true) :
    ((a.optimize layers).1.layers.map Layer.id).Nodup ∧
      (∀ e ∈ (layerReport catalog (a.optimize layers).1.layers).errors,
        ∃ k ∈ (a.optimize layers).1.layers, ∃ p ∈ k.paths, e = .samePathId p.id k.id) ∧
      ((layerReport catalog (a.optimize layers).1.layers).isValid = true ↔
        ∀ l ∈ layers, ∀ m ∈ layers, ¬ Clash (a.optimize layers).1.merged l m) := by
  rw [Analyzer.optimize_fst ha]
  have hfit : layerErrors catalog [] layers = [] := List.isEmpty_iff.mp hvalid
  obtain ⟨-, hnodup, hlayers⟩ := layerErrors_eq_nil_iff.mp hfit
  have hm := merged_optimizeLayers a.threshold hnodup
  generalize (optimizeLayers a.threshold layers).layers = kept at hm ⊢
  generalize (optimizeLayers a.threshold layers).merged = merged at hm ⊢
  obtain ⟨hids, hregions⟩ := hm.known hfit
  refine ⟨hm.nodup_kept, fun e he => mem_layerErrors hids hm.nodup_kept hregions he, ?_⟩
  calc (layerReport catalog kept).isValid = true
      ↔ layerErrors catalog [] kept = [] := List.isEmpty_iff
    _ ↔ ∀ k ∈ kept, (k.paths.map ShapePath.id).Nodup := hm.fits_iff hfit
    _ ↔ ∀ l ∈ layers, ∀ m ∈ layers, ¬ Clash merged l m :=
        hm.nodup_paths_iff fun l hl => (pathErrors_eq_nil_iff.mp (hlayers l hl).2).2.1

end

theorem optimized_valid_iff_garden :
    Analyzer.standard.RecallsTruly garden.layers ∧
      (layerReport (Catalog.empty : Catalog Float) garden.layers).isValid = true ∧
      ((Analyzer.standard.optimize garden.layers).1.layers.map Layer.id).Nodup ∧
      (layerReport (Catalog.empty : Catalog Float)
        (Analyzer.standard.optimize garden.layers).1.layers).isValid = true ∧
      (Analyzer.standard.optimize garden.layers).1.merged = [("hedge", "border")] ∧
      ∀ l ∈ garden.layers, ∀ m ∈ garden.layers, ¬ Clash (Analyzer.standard.optimize garden.layers).1.merged l m := by
  have hrecalls : Analyzer.standard.RecallsTruly garden.layers := Analyzer.recallsTruly_of_new rfl
  have hvalid : (layerReport (Catalog.empty : Catalog Float) garden.layers).isValid = true := by decide +kernel
  have hmerged : (layerReport (Catalog.empty : Catalog Float)
      (Analyzer.standard.optimize garden.layers).1.layers).isValid = true := by decide +kernel
  obtain ⟨hnodup, -, hiff⟩ := optimized_valid_iff hrecalls hvalid
  exact ⟨hrecalls, hvalid, hnodup, hmerged, by decide +kernel, hiff.mp hmerged⟩

/-- The posts of the railing, each alone in its layer, have one id in the layer that they are brought into. -/
theorem railing_clashes :
    (layerReport (Catalog.empty : Catalog Float) railing.layers).isValid = true ∧
      (Analyzer.standard.optimize railing.layers).1.merged = [("left", "right")] ∧
      (layerReport (Catalog.empty : Catalog Float)
        (Analyzer.standard.optimize railing.layers).1.layers).isValid = false ∧
      (layerReport (Catalog.empty : Catalog Float) (Analyzer.standard.optimize railing.layers).1.layers).errorTexts =
        ["Duplicate path id 'post' in layer 'left'"] := by
  decide +kernel

end Drawing
