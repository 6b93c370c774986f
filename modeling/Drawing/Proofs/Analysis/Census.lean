import Drawing.Proofs.Analysis.Recall
import Drawing.Proofs.Table
import Mathlib.Algebra.BigOperators.Group.List.Lemmas

/-!
# `Drawing/Proofs/Analysis/Census.lean` — layers grouped, counted and measured

Layers are gone through in three ways: they are put into groups by their regions, they are counted, and they are
measured one by one. Groups and counts are tables that are filled item by item, and what such a table comes to is known
from its items (`foldl_update`). So the three must agree:

> **no layer is lost, and none is counted twice** — each is in the group of its region, each region is counted as often
> as its group has layers, each band of complexity as often as it is reported of a layer, and the paths and commands of
> all layers are as many as their measures say (`census_agrees`).
-/

namespace Drawing

/-! ## Names in the order in which they first occur -/

theorem distinct_concat (names : List String) (name : String) :
    distinct (names ++ [name]) = if name ∈ names then distinct names else distinct names ++ [name] := by
  induction names with
  | nil => rfl
  | cons n names ih =>
    rw [List.cons_append, distinct, distinct, ih]
    by_cases h : name = n
    · subst h
      by_cases hmem : name ∈ names <;> simp [hmem, List.filter_append]
    · by_cases hmem : name ∈ names <;> simp [h, hmem, List.filter_append]

/-- A name stands in front of those that first occur behind it. -/
theorem distinct_ordered (names : List String) :
    (distinct names).Pairwise fun m n => names.idxOf m < names.idxOf n := by
  induction names with
  | nil => exact .nil
  | cons s names ih =>
    have hlater {n : String} (hn : n ∈ (distinct names).filter (· != s)) :
        (s :: names).idxOf n = names.idxOf n + 1 :=
      List.idxOf_cons_ne _ (Ne.symm (bne_iff_ne.mp (List.mem_filter.mp hn).2))
    refine List.pairwise_cons.mpr ⟨fun n hn => ?_, (ih.filter _).imp_of_mem fun hm hn h => ?_⟩
    · rw [List.idxOf_cons_self, hlater hn]
      exact Nat.succ_pos _
    · rw [hlater hm, hlater hn]
      exact Nat.succ_lt_succ h

/-! ## Tables filled item by item -/

section

variable {β γ : Type} (key : β → String) (start : γ) (add : γ → β → γ) (items : List β)

/-- What the items of each key come to, one added after the other, in the order in which the keys first occur. -/
def keyed : Table γ :=
  (distinct (items.map key)).map fun k => (k, (items.filter fun x => key x = k).foldl add start)

/-- A key without items has come to nothing but the start. -/
theorem getD_get?_keyed (k : String) :
    (Table.get? (keyed key start add items) k).getD start = (items.filter fun x => key x = k).foldl add start := by
  unfold keyed
  rw [Table.get?_map]
  by_cases h : k ∈ items.map key
  · rw [if_pos (mem_distinct.mpr h), Option.getD_some]
  · have hnone : (items.filter fun x => key x = k) = [] :=
      List.filter_eq_nil_iff.mpr fun x hx => by
        simpa using fun heq : key x = k => h (heq ▸ List.mem_map_of_mem hx)
    rw [if_neg (mt mem_distinct.mp h), hnone]
    rfl

theorem update_keyed (x : β) :
    Table.update (key x) start (add · x) (keyed key start add items) = keyed key start add (items ++ [x]) := by
  rw [Table.update, getD_get?_keyed]
  unfold keyed
  -- a key that is set already keeps its place and a new one goes behind the others, just as names do that first occur
  rw [Table.put_map _ (nodup_distinct _), List.map_append, List.map_singleton, distinct_concat]
  simp only [mem_distinct]
  refine List.map_congr_left fun k _ => Prod.ext rfl ?_
  dsimp only
  rw [List.filter_append, List.foldl_append]
  by_cases h : k = key x
  · subst h
    simp
  · simp [h, Ne.symm h]

/-- **A table that is filled item by item** holds each key once, with what its own items come to. -/
theorem foldl_update : items.foldl (fun t x => Table.update (key x) start (add · x) t) [] = keyed key start add items := by
  induction items using List.reverseRecOn with
  | nil => rfl
  | append_singleton items x ih => rw [List.foldl_append, ih, List.foldl_cons, List.foldl_nil, update_keyed]

variable {keys : List String}

/-- The items of each of some keys together are the items of all of them. -/
theorem flatMap_filter_perm (hkeys : keys.Nodup) :
    (keys.flatMap fun k => items.filter fun x => key x = k).Perm (items.filter fun x => key x ∈ keys) := by
  induction keys with
  | nil => simp
  | cons k keys ih =>
    obtain ⟨hk, hkeys⟩ := List.nodup_cons.mp hkeys
    rw [List.flatMap_cons]
    refine ((ih hkeys).append_left _).trans ?_
    -- among the items of all keys, those of the first key and the others
    have hsplit := List.filter_append_perm (fun x => key x = k) (items.filter fun x => key x ∈ k :: keys)
    rw [List.filter_filter, List.filter_filter] at hsplit
    convert hsplit using 2
    · refine List.filter_congr fun x _ => ?_
      by_cases h : key x = k <;> simp [h]
    · refine List.filter_congr fun x _ => ?_
      by_cases h : key x = k
      · simp [h, hk]
      · simp [h]

end

/-! ## Tallies -/

/-- How often each of some names occurs, in the order in which they first do. -/
def tally (names : List String) : Table Nat := (distinct names).map fun name => (name, names.count name)

theorem foldl_countName (names : List String) : names.foldl countName [] = tally names := by
  refine (foldl_update id 0 (fun n _ => n + 1) names).trans ?_
  unfold keyed
  rw [List.map_id]
  refine List.map_congr_left fun name _ => Prod.ext rfl ?_
  dsimp only
  rw [List.foldl_add_const, List.count_eq_countP, List.countP_eq_length_filter, Nat.zero_add, Nat.one_mul]
  rfl

/-- **No name is lost** in a tally. -/
theorem sum_tally (names : List String) : ((tally names).map Prod.snd).sum = names.length := by
  have hperm : (distinct names).Perm names.dedup :=
    (List.perm_ext_iff_of_nodup (nodup_distinct names) names.nodup_dedup).mpr fun name => by simp
  rw [tally, List.map_map, ← List.sum_map_count_dedup_eq_length names]
  exact (hperm.map _).sum_eq

/-! ## Groups -/

section

variable {α : Type}

/-- Layers in groups: no group is empty, each one holds the layers of its region in the given order, the regions are all
different and stand in the order in which they first occur, and the groups together hold the layers and nothing else. -/
structure IsGrouping (layers : List (Layer α)) (groups : Table (List (Layer α))) : Prop where
  nonempty : ∀ group ∈ groups, group.2 ≠ []
  members : ∀ group ∈ groups, group.2 = layers.filter fun l => l.region = group.1
  distinct : (Table.names groups).Nodup
  ordered : (Table.names groups).Pairwise fun r s =>
    (layers.map Layer.region).idxOf r < (layers.map Layer.region).idxOf s
  perm : (groups.flatMap Prod.snd).Perm layers

theorem groupByRegion_eq (layers : List (Layer α)) :
    groupByRegion layers =
      (distinct (layers.map Layer.region)).map fun r => (r, layers.filter fun l => l.region = r) := by
  refine (foldl_update Layer.region [] (fun group l => group ++ [l]) layers).trans ?_
  unfold keyed
  simp only [List.foldl_append_eq_append, ← List.flatMap_def, List.flatMap_singleton', List.nil_append]

theorem isGrouping_groupByRegion (layers : List (Layer α)) : IsGrouping layers (groupByRegion layers) := by
  have hnames : Table.names (groupByRegion layers) = distinct (layers.map Layer.region) := by
    rw [groupByRegion_eq, Table.names, List.map_map]
    exact List.map_id _
  have hmem {group : String × List (Layer α)} (h : group ∈ groupByRegion layers) :
      group.1 ∈ layers.map Layer.region ∧ group.2 = layers.filter fun l => l.region = group.1 := by
    rw [groupByRegion_eq] at h
    obtain ⟨r, hr, rfl⟩ := List.mem_map.mp h
    exact ⟨mem_distinct.mp hr, rfl⟩
  refine ⟨fun group h => ?_, fun group h => (hmem h).2, hnames ▸ nodup_distinct _, hnames ▸ distinct_ordered _, ?_⟩
  · obtain ⟨hregion, hlayers⟩ := hmem h
    obtain ⟨l, hl, hr⟩ := List.mem_map.mp hregion
    rw [hlayers]
    exact List.ne_nil_of_mem (List.mem_filter.mpr ⟨hl, decide_eq_true hr⟩)
  · rw [groupByRegion_eq, List.flatMap_map]
    refine (flatMap_filter_perm Layer.region layers (nodup_distinct _)).trans (.of_eq ?_)
    exact List.filter_eq_self.mpr fun l hl => by simpa using ⟨l, hl, rfl⟩

/-! ## Counts -/

section

variable [Scalar α]

theorem regions_census (layers : List (Layer α)) :
    (census layers).regions = (groupByRegion layers).map fun (r, group) => (r, group.length) := by
  refine (foldl_countName _).trans ?_
  rw [groupByRegion_eq, List.map_map]
  refine List.map_congr_left fun r _ => Prod.ext rfl ?_
  dsimp only [Function.comp_apply]
  rw [List.count_eq_countP, List.countP_map, List.countP_eq_length_filter]
  rfl

/-- Measures that tell how much a layer holds. -/
structure LayerMeasures.Tell (m : LayerMeasures α) (l : Layer α) : Prop where
  paths : m.pathCount = l.paths.length
  commands : m.commandCount = l.commands.length
  complexity : m.complexity = l.complexity

theorem LayerMeasures.Tell.of_measure {l : Layer α} {width height : Numeral α} {m : LayerMeasures α}
    (h : l.measure width height = .ok m) : m.Tell l := by
  obtain ⟨memory, -, h⟩ := bind_eq_ok_iff.mp h
  obtain ⟨share, -, h⟩ := bind_eq_ok_iff.mp h
  obtain rfl := pure_eq_ok_iff.mp h
  exact ⟨rfl, rfl, rfl⟩

/-- On a canvas whose sides are no whole numbers no number is too large. -/
theorem Layer.exists_measure_real (l : Layer α) (width height : α) :
    ∃ m, l.measure (.real width) (.real height) = .ok m := by
  have hcoverage (bounds : Box α) : ∃ share, coverage bounds (.real width) (.real height) = .ok share := by
    show ∃ share, (if (Numeral.real (width * height)).isPositive then _ else _) = Except.ok share
    split
    · exact ⟨_, rfl⟩
    · exact ⟨_, rfl⟩
  exact exists_bind_ok ⟨_, rfl⟩ fun _ => exists_bind_ok (hcoverage _) fun _ => ⟨_, rfl⟩

variable [DecimalText α]

/-- Measures of a layer as they are reported: computed for some canvas, or answered by an analyzer that may have been
asked anything before, as long as the digest tells what it was asked about apart. -/
inductive Layer.Reported (l : Layer α) (m : LayerMeasures α) : Prop
  | computed {width height : Numeral α} (hm : l.measure width height = .ok m)
  | answered {catalog : Catalog α} {capacity : Numeral α} {threshold : α} {a : Analyzer α}
      (ha : Analyzer.create catalog capacity threshold = .ok a) {calls : List (AnalyzerCall α)}
      (hfinite : ∀ p ∈ l.paths, CommandsFinite p.commands)
      (hdigest : TellsApart shortDigest {k | k ∈ l :: layersAsked calls}) {width height : Numeral α}
      (hm : ((a.run calls).measure l width height).1 = .ok m)

theorem Layer.Reported.tell [ToldByDigits α] {l : Layer α} {m : LayerMeasures α} (h : l.Reported m) : m.Tell l := by
  cases h with
  | computed hm => exact .of_measure hm
  | @answered _ _ _ a ha calls hfinite hdigest width height hm =>
    have hrun := (Analyzer.recalls_of_create ha {k | k ∈ l :: layersAsked calls}).run
      fun k hk => List.mem_cons_of_mem l hk
    exact .of_measure ((hrun.measure_fst hdigest List.mem_cons_self hfinite width height).symm.trans hm)

/-- **The census of layers agrees with their groups and their measures.** The groups hold every layer once, each region
is counted as often as its group has layers, and there are no other regions. The bands of complexity are counted once
for each layer, as they are reported of it, and the paths and commands are as many as the reports say together. There
is a report of every layer. -/
theorem census_agrees [ToldByDigits α] (layers : List (Layer α)) :
    IsGrouping layers (groupByRegion layers) ∧
      (census layers).regions = (groupByRegion layers).map (fun (r, group) => (r, group.length)) ∧
      (census layers).layers = layers.length ∧
      ((census layers).complexities.map Prod.snd).sum = (census layers).layers ∧
      (∀ ms, List.Forall₂ Layer.Reported layers ms →
        (census layers).complexities = tally (ms.map fun m => m.complexity.name) ∧
        (census layers).paths = (ms.map LayerMeasures.pathCount).sum ∧
        (census layers).commands = (ms.map LayerMeasures.commandCount).sum) ∧
      ∀ width height : α, ∃ ms, List.Forall₂ (fun l m => l.measure (.real width) (.real height) = .ok m) layers ms := by
  have hcomplexities : (census layers).complexities = tally (layers.map fun l => l.complexity.name) := foldl_countName _
  refine ⟨isGrouping_groupByRegion layers, regions_census layers, rfl, ?_, fun ms hms => ?_, fun width height => ?_⟩
  · rw [hcomplexities, sum_tally, List.length_map]
    rfl
  · have htell : List.Forall₂ (fun l m => LayerMeasures.Tell m l) layers ms := hms.imp fun _ _ h => h.tell
    have hbands : (layers.map fun l => l.complexity.name) = ms.map fun m => m.complexity.name :=
      map_eq_of_forall₂ (fun _ _ h => congrArg Complexity.name h.complexity.symm) htell
    have hpaths : (layers.map fun l => l.paths.length) = ms.map LayerMeasures.pathCount :=
      map_eq_of_forall₂ (fun _ _ h => h.paths.symm) htell
    have hcommands : (layers.map fun l => l.commands.length) = ms.map LayerMeasures.commandCount :=
      map_eq_of_forall₂ (fun _ _ h => h.commands.symm) htell
    rw [hcomplexities, hbands, ← hpaths, ← hcommands]
    exact ⟨rfl, List.length_flatMap, List.length_flatMap⟩
  · exact exists_forall₂ fun l _ => l.exists_measure_real width height

end

end

/-- A layer of two windows at the top. -/
def gable : Layer Float :=
  let window : ShapePath Float := ⟨"window", .plain, [.move ⟨0, 0⟩, .line ⟨8, 4⟩, .close], none⟩
  ⟨"gable", "Gable", [window, window], some ⟨some "top_center", none, none, none, none, none⟩⟩

/-- Two layers of one id, of which one has no layout and the other one a layout with an empty region, and two layers at
the top, one between them and one behind them. -/
def frontage : List (Layer Float) := [
  ⟨"wall", "Wall", gable.paths ++ gable.paths ++ gable.paths, none⟩, gable,
  ⟨"wall", "", [], some ⟨some "", none, none, none, none, none⟩⟩, { gable with id := "chimney", paths := [] }]

theorem census_agrees_frontage :
    ∃ ms, List.Forall₂ Layer.Reported frontage ms ∧
      (groupByRegion frontage).map (fun (r, group) => (r, group.map Layer.id)) =
        [("center", ["wall", "wall"]), ("top_center", ["gable", "chimney"])] ∧
      IsGrouping frontage (groupByRegion frontage) ∧
      (census frontage).complexities = [("medium", 1), ("low", 3)] ∧
      (census frontage).complexities = tally (ms.map fun m => m.complexity.name) ∧
      (census frontage).paths = (ms.map LayerMeasures.pathCount).sum := by
  obtain ⟨hgrouping, -, -, -, hreported, hmeasures⟩ := census_agrees frontage
  have hnew : Analyzer.create Catalog.empty (.whole 256) (Analyzer.defaultThreshold : Float) = .ok .standard := rfl
  have hasked : TellsApart shortDigest {k | k ∈ gable :: layersAsked [.measure gable (.whole 20) (.whole 10), .clear]} :=
    tellsApart_of_eq gable.contents (by simp [layersAsked, AnalyzerCall.layers])
  have hfinite : ∀ p ∈ gable.paths, CommandsFinite p.commands := by
    unfold CommandsFinite Point.IsFinite
    decide +kernel
  obtain ⟨answer, hanswer⟩ := exists_ok_of_isSome (x := ((Analyzer.standard.run
    [.measure gable (.whole 20) (.whole 10), .clear]).measure gable (.whole 20) (.whole 10)).1) (by decide +kernel)
  obtain ⟨wall, hwall⟩ := (frontage[0]).exists_measure_real 20 10
  obtain ⟨blank, hblank⟩ := (frontage[2]).exists_measure_real 20 10
  obtain ⟨chimney, hchimney⟩ := (frontage[3]).exists_measure_real 40 10
  have hms : List.Forall₂ Layer.Reported frontage [wall, answer, blank, chimney] :=
    .cons (.computed hwall) (.cons (.answered hnew hfinite hasked hanswer)
      (.cons (.computed hblank) (.cons (.computed hchimney) .nil)))
  obtain ⟨hcomplexities, hpaths, -⟩ := hreported _ hms
  refine ⟨_, hms, ?_, hgrouping, ?_, hcomplexities, hpaths⟩
  · decide +kernel
  · decide +kernel

end Drawing
