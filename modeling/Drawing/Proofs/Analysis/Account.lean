import Drawing.Proofs.Analysis.Quiet
import Drawing.Proofs.Number.RoundOff

/-!
# `Drawing/Proofs/Analysis/Account.lean` — what becomes of merged layers

Merging takes one layer after the other, drops it, keeps it or puts its paths behind those of a layer that it has kept.
Ids do not tell which layer that was, as nothing keeps layers from having the same. So what becomes of each layer is
written down by its place in the list, and all that merging answers can be read off that record:

> **merging accounts for every layer and every path** — each layer has one fate, no path is lost and none is doubled.
-/

namespace Drawing

/-- What becomes of a layer when layers are merged. -/
inductive Fate where
  | dropped
  | kept
  /-- Its paths go to the layer at a place of the list. -/
  | merged (place : Nat)
  deriving DecidableEq

variable {α : Type}

/-! ## Records -/

/-- The layers that have gone to a place. -/
def arrivals (record : List (Layer α × Fate)) (place : Nat) : List (Layer α) :=
  (record.filter fun entry => entry.2 = .merged place).map Prod.fst

/-- A layer with the paths of all that have gone to its place behind its own. -/
def grown (record : List (Layer α × Fate)) (place : Nat) (l : Layer α) : Layer α :=
  l.withPaths (l.paths ++ (arrivals record place).flatMap Layer.paths)

/-- The layers that have been kept, each with its place. -/
def keptPlaces (record : List (Layer α × Fate)) : List (Nat × Layer α) :=
  (record.zipIdx.filter fun entry => entry.1.2 = .kept).map fun entry => (entry.2, entry.1.1)

/-- The layers that have been kept, each with its place and with the paths that have gone to it. -/
def standing (record : List (Layer α × Fate)) : List (Nat × Layer α) :=
  (keptPlaces record).map fun (place, l) => (place, grown record place l)

/-- The layers that come out of merging. -/
def keptLayers (record : List (Layer α × Fate)) : List (Layer α) := (standing record).map Prod.snd

/-- The ids of the layers that have been dropped. -/
def droppedIds (record : List (Layer α × Fate)) : List String :=
  (record.filter fun entry => entry.2 = .dropped).map fun entry => entry.1.id

/-- The id of the layer that a layer has gone to and its own, if it has gone to one. -/
def mergeOf? (record : List (Layer α × Fate)) : Layer α × Fate → Option (String × String)
  | (l, .merged place) => record[place]?.map fun target => (target.1.id, l.id)
  | _ => none

/-- The ids that are told of the layers that have gone to others. -/
def mergedIds (record : List (Layer α × Fate)) : List (String × String) := record.filterMap (mergeOf? record)

section

variable {record : List (Layer α × Fate)} {l : Layer α} {fate : Fate} {place : Nat}

theorem mem_keptPlaces : (place, l) ∈ keptPlaces record ↔ record[place]? = some (l, .kept) := by
  unfold keptPlaces
  simp [List.mem_zipIdx_iff_getElem?]

/-- No two layers have the same place. -/
theorem nodup_keptPlaces (record : List (Layer α × Fate)) : ((keptPlaces record).map Prod.fst).Nodup := by
  have hplaces : (keptPlaces record).map Prod.fst =
      (record.zipIdx.filter fun entry => entry.1.2 = .kept).map Prod.snd := by
    simp [keptPlaces, Function.comp_def]
  rw [hplaces]
  refine List.Nodup.sublist (List.filter_sublist.map _) ?_
  rw [List.zipIdx_map_snd]
  exact List.nodup_range'

theorem arrivals_concat : arrivals (record ++ [(l, fate)]) place =
    arrivals record place ++ if fate = .merged place then [l] else [] := by
  unfold arrivals
  rw [List.filter_append, List.map_append]
  split_ifs with h <;> simp [h]

theorem grown_concat (t : Layer α) : grown (record ++ [(l, fate)]) place t =
    if fate = .merged place then
      (grown record place t).withPaths ((grown record place t).paths ++ l.paths)
    else grown record place t := by
  unfold grown
  rw [arrivals_concat]
  split_ifs <;> simp [Layer.withPaths]

theorem keptPlaces_concat : keptPlaces (record ++ [(l, fate)]) =
    keptPlaces record ++ if fate = .kept then [(record.length, l)] else [] := by
  unfold keptPlaces
  rw [List.zipIdx_append, List.filter_append, List.map_append]
  split_ifs with h <;> simp [h]

/-- A layer that stands has been kept at its place. -/
theorem mem_standing {k : Layer α} :
    (place, k) ∈ standing record ↔ ∃ t, record[place]? = some (t, .kept) ∧ k = grown record place t := by
  unfold standing
  simp only [List.mem_map, Prod.exists, Prod.mk.injEq]
  constructor
  · rintro ⟨place, t, ht, rfl, rfl⟩
    exact ⟨t, mem_keptPlaces.mp ht, rfl⟩
  · rintro ⟨t, ht, rfl⟩
    exact ⟨place, t, mem_keptPlaces.mpr ht, rfl, rfl⟩

theorem map_fst_standing (record : List (Layer α × Fate)) :
    (standing record).map Prod.fst = (keptPlaces record).map Prod.fst := by
  simp [standing, Function.comp_def]

/-- A layer that stands, with the paths of another one if that has gone to its place. -/
def receive (fate : Fate) (l : Layer α) (s : Nat × Layer α) : Nat × Layer α :=
  if fate = .merged s.1 then (s.1, s.2.withPaths (s.2.paths ++ l.paths)) else s

theorem standing_concat : standing (record ++ [(l, fate)]) =
    (standing record).map (receive fate l) ++
      if fate = .kept then [(record.length, grown record record.length l)] else [] := by
  have hgrown (s : Nat × Layer α) : (s.1, grown (record ++ [(l, fate)]) s.1 s.2) =
      receive fate l (s.1, grown record s.1 s.2) := by
    unfold receive
    rw [grown_concat]
    split_ifs <;> rfl
  unfold standing
  rw [keptPlaces_concat, List.map_append, List.map_map]
  congr 1
  · exact List.map_congr_left fun s _ => hgrown s
  · split_ifs with hkept
    · simp [grown_concat, hkept]
    · rfl

/-- A layer that goes to no place leaves all that stand as they are. -/
theorem map_receive_of_ne (h : ∀ place, fate ≠ .merged place) (standing : List (Nat × Layer α)) :
    standing.map (receive fate l) = standing :=
  (List.map_congr_left fun s _ => if_neg (h s.1)).trans (List.map_id _)

/-- Only one of the layers that stand is at the place that another one goes to. -/
theorem map_receive {before after : List (Nat × Layer α)} {k : Layer α}
    (h : ((before ++ (place, k) :: after).map Prod.fst).Nodup) :
    (before ++ (place, k) :: after).map (receive (.merged place) l) =
      before ++ (place, k.withPaths (k.paths ++ l.paths)) :: after := by
  have hnew := (List.nodup_cons.mp (List.nodup_middle.mp (by simpa using h))).1
  have hother {ss : List (Nat × Layer α)} (hss : place ∉ ss.map Prod.fst) :
      ss.map (receive (.merged place) l) = ss := by
    refine (List.map_congr_left fun s hs => if_neg ?_).trans (List.map_id _)
    intro heq
    exact hss (Fate.merged.inj heq ▸ List.mem_map_of_mem hs)
  rw [List.map_append, List.map_cons, hother, hother]
  · simp [receive]
  · exact fun hafter => hnew (List.mem_append_right _ hafter)
  · exact fun hbefore => hnew (List.mem_append_left _ hbefore)

/-- A layer without paths leaves everything as it is. -/
theorem keptLayers_dropped : keptLayers (record ++ [(l, .dropped)]) = keptLayers record := by
  unfold keptLayers
  rw [standing_concat, map_receive_of_ne (by simp), if_neg (by simp), List.append_nil]

theorem keptLayers_merged {before after : List (Nat × Layer α)} {k : Layer α}
    (h : standing record = before ++ (place, k) :: after) :
    keptLayers (record ++ [(l, .merged place)]) =
      before.map Prod.snd ++ k.withPaths (k.paths ++ l.paths) :: after.map Prod.snd := by
  have hnodup : ((before ++ (place, k) :: after).map Prod.fst).Nodup := by
    rw [← h, map_fst_standing]
    exact nodup_keptPlaces record
  unfold keptLayers
  rw [standing_concat, h, map_receive hnodup, if_neg (by simp), List.append_nil, List.map_append, List.map_cons]

end

/-! ## Fates -/

section

variable [Scalar α] [DecimalText α]

/-- What becomes of a layer with paths behind others: it goes to the first of those that stand which takes it. -/
def goesTo (threshold : α) (before : List (Layer α × Fate)) (l : Layer α) : Fate :=
  match (standing before).find? fun s => canMerge threshold s.2 l with
  | some (place, _) => .merged place
  | none => .kept

/-- A record of layers that have been merged. -/
structure IsMergeRecord (threshold : α) (record : List (Layer α × Fate)) : Prop where
  /-- Layers without paths are dropped, and no others. -/
  dropped_iff : ∀ (i : Nat) (l : Layer α) (fate : Fate), record[i]? = some (l, fate) →
    (fate = .dropped ↔ l.paths = [])
  /-- A layer goes to one that has been kept before it and is of the same region. -/
  target : ∀ (i : Nat) (l : Layer α) (place : Nat), record[i]? = some (l, .merged place) →
    place < i ∧ ∃ t, record[place]? = some (t, .kept) ∧ t.region = l.region
  /-- A layer with paths goes to the first that takes it, and is kept if none does. -/
  first : ∀ (i : Nat) (l : Layer α) (fate : Fate), record[i]? = some (l, fate) → l.paths ≠ [] →
    fate = goesTo threshold (record.take i) l

namespace IsMergeRecord

variable {threshold : α} {record : List (Layer α × Fate)} {l : Layer α} {fate : Fate}

theorem nil (threshold : α) : IsMergeRecord threshold ([] : List (Layer α × Fate)) := by
  constructor <;> simp

/-- What becomes of one more layer. -/
theorem concat (h : IsMergeRecord threshold record) (hdropped : fate = .dropped ↔ l.paths = [])
    (htarget : ∀ place, fate = .merged place → ∃ t, record[place]? = some (t, .kept) ∧ t.region = l.region)
    (hfirst : l.paths ≠ [] → fate = goesTo threshold record l) :
    IsMergeRecord threshold (record ++ [(l, fate)]) := by
  -- an entry is one of those before, or the last one
  have hentry {i : Nat} {m : Layer α} {f : Fate} (hi : (record ++ [(l, fate)])[i]? = some (m, f)) :
      (i < record.length ∧ record[i]? = some (m, f)) ∨ (i = record.length ∧ m = l ∧ f = fate) := by
    rcases Nat.lt_trichotomy i record.length with hlt | rfl | hgt
    · rw [List.getElem?_append_left hlt] at hi
      exact .inl ⟨hlt, hi⟩
    · rw [List.getElem?_concat_length] at hi
      obtain ⟨rfl, rfl⟩ := Prod.mk.inj (Option.some.inj hi)
      exact .inr ⟨rfl, rfl, rfl⟩
    · rw [List.getElem?_eq_none (by rw [List.length_append]; exact hgt)] at hi
      exact nomatch hi
  have hold {i : Nat} {e : Layer α × Fate} (hi : record[i]? = some e) : (record ++ [(l, fate)])[i]? = some e := by
    rw [List.getElem?_append_left (List.getElem?_eq_some_iff.mp hi).1]
    exact hi
  constructor
  · intro i m f hi
    rcases hentry hi with ⟨-, hi⟩ | ⟨-, rfl, rfl⟩
    · exact h.dropped_iff i m f hi
    · exact hdropped
  · intro i m place hi
    rcases hentry hi with ⟨-, hi⟩ | ⟨rfl, rfl, hfate⟩
    · obtain ⟨hlt, t, ht, hregion⟩ := h.target i m place hi
      exact ⟨hlt, t, hold ht, hregion⟩
    · obtain ⟨t, ht, hregion⟩ := htarget place hfate.symm
      exact ⟨(List.getElem?_eq_some_iff.mp ht).1, t, hold ht, hregion⟩
  · intro i m f hi hm
    rcases hentry hi with ⟨hlt, hi⟩ | ⟨rfl, rfl, rfl⟩
    · rw [List.take_append_of_le_length hlt.le]
      exact h.first i m f hi hm
    · rw [List.take_left']
      · exact hfirst hm
      · rfl

/-- Nothing has gone to a place that no layer is at yet. -/
theorem arrivals_length (h : IsMergeRecord threshold record) : arrivals record record.length = [] := by
  unfold arrivals
  rw [List.map_eq_nil_iff, List.filter_eq_nil_iff]
  rintro ⟨m, f⟩ hm hfate
  obtain ⟨i, hi⟩ := List.mem_iff_getElem?.mp hm
  obtain rfl : f = .merged record.length := by simpa using hfate
  have hlt := (h.target i m record.length hi).1
  exact absurd (List.getElem?_eq_some_iff.mp hi).1 (by omega)

/-- What is told of merged layers is not changed by another one. -/
theorem mergedIds_concat (h : IsMergeRecord threshold record)
    (htarget : ∀ place, fate = .merged place → place < record.length) :
    mergedIds (record ++ [(l, fate)]) = mergedIds record ++ (mergeOf? record (l, fate)).toList := by
  have hsame {m : Layer α} {f : Fate} (hplace : ∀ place, f = .merged place → place < record.length) :
      mergeOf? (record ++ [(l, fate)]) (m, f) = mergeOf? record (m, f) := by
    cases f with
    | dropped => rfl
    | kept => rfl
    | merged place =>
      unfold mergeOf?
      dsimp only
      rw [List.getElem?_append_left (hplace place rfl)]
  unfold mergedIds
  rw [List.filterMap_append, List.filterMap_congr]
  · congr 1
    rw [List.filterMap_cons, List.filterMap_nil, hsame htarget]
    cases mergeOf? record (l, fate) <;> rfl
  · rintro ⟨m, f⟩ hm
    refine hsame ?_
    rintro place rfl
    obtain ⟨i, hi⟩ := List.mem_iff_getElem?.mp hm
    exact (h.target i m place hi).1.trans (List.getElem?_eq_some_iff.mp hi).1

theorem keptLayers_kept (h : IsMergeRecord threshold record) :
    keptLayers (record ++ [(l, .kept)]) = keptLayers record ++ [l] := by
  have hself : grown record record.length l = l := by simp [grown, h.arrivals_length, Layer.withPaths]
  unfold keptLayers
  rw [standing_concat, map_receive_of_ne (by simp), if_pos rfl, List.map_append, hself]
  rfl

end IsMergeRecord

/-! ## The run -/

variable {threshold : α} {l k : Layer α}

theorem mergeInto_eq_none {kept : List (Layer α)} (h : ∀ k ∈ kept, canMerge threshold k l = false) :
    mergeInto threshold l kept = none := by
  induction kept with
  | nil => rfl
  | cons k rest ih =>
    obtain ⟨hk, hrest⟩ := List.forall_mem_cons.mp h
    simp [mergeInto, hk, ih hrest]

theorem mergeInto_append {before after : List (Layer α)} (h : ∀ k ∈ before, canMerge threshold k l = false)
    (hk : canMerge threshold k l = true) :
    mergeInto threshold l (before ++ k :: after) =
      some (before ++ k.withPaths (k.paths ++ l.paths) :: after, k.id) := by
  induction before with
  | nil => simp [mergeInto, hk]
  | cons k' before ih =>
    obtain ⟨hk', hbefore⟩ := List.forall_mem_cons.mp h
    simp [mergeInto, hk', ih hbefore]

theorem region_of_canMerge (h : canMerge threshold k l = true) : k.region = l.region := by
  unfold canMerge at h
  exact eq_of_beq (Bool.and_eq_true_iff.mp h).1

/-- What becomes of one more layer with paths, and what merging makes of it. -/
theorem IsMergeRecord.step {record : List (Layer α × Fate)} (h : IsMergeRecord threshold record)
    (hl : l.paths ≠ []) (rest : List (Layer α)) :
    ∃ fate, IsMergeRecord threshold (record ++ [(l, fate)]) ∧
      mergeAll threshold (keptLayers record) (mergedIds record) (l :: rest) =
        mergeAll threshold (keptLayers (record ++ [(l, fate)])) (mergedIds (record ++ [(l, fate)])) rest := by
  have hdropped {fate : Fate} (hfate : fate ≠ .dropped) : fate = .dropped ↔ l.paths = [] :=
    iff_of_false hfate hl
  cases hfind : (standing record).find? fun s => canMerge threshold s.2 l with
  | none =>
    have hgoes : goesTo threshold record l = .kept := by
      unfold goesTo
      rw [hfind]
    have hnone : mergeInto threshold l (keptLayers record) = none := by
      refine mergeInto_eq_none fun k hk => ?_
      obtain ⟨s, hs, rfl⟩ := List.mem_map.mp hk
      exact Bool.eq_false_of_not_eq_true (List.find?_eq_none.mp hfind s hs)
    refine ⟨.kept, h.concat (hdropped (by simp)) (by simp) fun _ => hgoes.symm, ?_⟩
    rw [mergeAll, hnone, h.keptLayers_kept, h.mergedIds_concat (by simp)]
    simp [mergeOf?]
  | some s =>
    obtain ⟨place, k⟩ := s
    obtain ⟨hk, before, after, hstanding, hbefore⟩ := List.find?_eq_some_iff_append.mp hfind
    have hgoes : goesTo threshold record l = .merged place := by
      unfold goesTo
      rw [hfind]
    obtain ⟨t, ht, rfl⟩ := mem_standing.mp (hstanding ▸ List.mem_append_right before List.mem_cons_self)
    have hinto : mergeInto threshold l (keptLayers record) = some
        (before.map Prod.snd ++ (grown record place t).withPaths ((grown record place t).paths ++ l.paths) ::
          after.map Prod.snd, t.id) := by
      unfold keptLayers
      rw [hstanding, List.map_append, List.map_cons]
      refine mergeInto_append ?_ hk
      rintro _ hm
      obtain ⟨s, hs, rfl⟩ := List.mem_map.mp hm
      simpa using hbefore s hs
    refine ⟨.merged place, h.concat (hdropped (by simp)) ?_ fun _ => hgoes.symm, ?_⟩
    · rintro _ ⟨⟩
      exact ⟨t, ht, region_of_canMerge (k := grown record place t) hk⟩
    · rw [mergeAll, hinto, keptLayers_merged hstanding, h.mergedIds_concat]
      · simp [mergeOf?, ht]
      · rintro _ ⟨⟩
        exact (List.getElem?_eq_some_iff.mp ht).1

/-- What becomes of all layers, and that merging tells it. -/
theorem IsMergeRecord.run {record : List (Layer α × Fate)} (h : IsMergeRecord threshold record)
    (layers : List (Layer α)) :
    ∃ record', record'.map Prod.fst = record.map Prod.fst ++ layers ∧ IsMergeRecord threshold record' ∧
      mergeAll threshold (keptLayers record) (mergedIds record) (liveLayers layers) =
        (keptLayers record', mergedIds record') := by
  induction layers generalizing record with
  | nil => exact ⟨record, (List.append_nil _).symm, h, rfl⟩
  | cons l rest ih =>
    by_cases hl : l.paths = []
    · obtain ⟨record', hlayers, h', hrun⟩ := ih (h.concat (iff_of_true rfl hl) (by simp) (absurd hl))
      refine ⟨record', by simpa using hlayers, h', ?_⟩
      rw [← hrun, keptLayers_dropped, h.mergedIds_concat (by simp)]
      simp [mergeOf?, liveLayers, hl]
    · obtain ⟨fate, hstep, heq⟩ := h.step hl (liveLayers rest)
      obtain ⟨record', hlayers, h', hrun⟩ := ih hstep
      refine ⟨record', by simpa using hlayers, h', ?_⟩
      have hlive : liveLayers (l :: rest) = l :: liveLayers rest := by simp [liveLayers, hl]
      rw [hlive, heq, hrun]

/-- The layers that are dropped are those without paths. -/
theorem IsMergeRecord.droppedIds_eq {record : List (Layer α × Fate)} (h : IsMergeRecord threshold record) :
    droppedIds record = ((record.map Prod.fst).filter fun l => l.paths.isEmpty).map Layer.id := by
  unfold droppedIds
  rw [List.filter_map, List.map_map]
  refine congrArg _ (List.filter_congr ?_)
  rintro ⟨m, f⟩ hm
  obtain ⟨i, hi⟩ := List.mem_iff_getElem?.mp hm
  rw [Bool.eq_iff_iff, decide_eq_true_iff, h.dropped_iff i m f hi]
  exact List.isEmpty_iff.symm

/-- **All that merging answers** is read off a record of what becomes of each layer. -/
theorem exists_mergeRecord (threshold : α) (layers : List (Layer α)) :
    ∃ record, record.map Prod.fst = layers ∧ IsMergeRecord threshold record ∧
      (optimizeLayers threshold layers).layers = keptLayers record ∧
      (optimizeLayers threshold layers).removed = droppedIds record ∧
      (optimizeLayers threshold layers).merged = mergedIds record := by
  obtain ⟨record, hlayers, h, hrun⟩ := (IsMergeRecord.nil threshold).run layers
  rw [List.map_nil, List.nil_append] at hlayers
  have hall : mergeAll threshold [] [] (layers.filter fun l => !l.paths.isEmpty) =
      (keptLayers record, mergedIds record) := hrun
  refine ⟨record, hlayers, h, ?_, ?_, ?_⟩
  · simp only [optimizeLayers, hall]
  · rw [h.droppedIds_eq, hlayers]
    simp only [optimizeLayers]
  · simp only [optimizeLayers, hall]

/-! ## Paths and numbers -/

/-- Merging moves paths and loses none. -/
theorem perm_mergeAll (threshold : α) (kept rest : List (Layer α)) (merged : List (String × String)) :
    ((mergeAll threshold kept merged rest).1.flatMap Layer.paths).Perm ((kept ++ rest).flatMap Layer.paths) := by
  induction rest generalizing kept merged with
  | nil => simp [mergeAll]
  | cons l rest ih =>
    unfold mergeAll
    cases hinto : mergeInto threshold l kept with
    | none =>
      simpa using ih (kept ++ [l]) merged
    | some result =>
      obtain ⟨kept', target⟩ := result
      obtain ⟨before, k, after, rfl, rfl, rfl⟩ := mergeInto_eq_some hinto
      refine (ih _ _).trans ?_
      simp only [List.flatMap_append, List.flatMap_cons, Layer.withPaths, List.append_assoc]
      refine (List.Perm.append_left _ (List.Perm.append_left _ ?_))
      rw [← List.append_assoc, ← List.append_assoc]
      exact List.perm_append_comm.append_right _

/-- Every layer is kept or merged. -/
theorem length_mergeAll (threshold : α) (kept rest : List (Layer α)) (merged : List (String × String)) :
    (mergeAll threshold kept merged rest).1.length + (mergeAll threshold kept merged rest).2.length =
      kept.length + merged.length + rest.length := by
  induction rest generalizing kept merged with
  | nil => rfl
  | cons l rest ih =>
    unfold mergeAll
    cases hinto : mergeInto threshold l kept with
    | none =>
      rw [ih, List.length_append, List.length_singleton, List.length_cons]
      omega
    | some result =>
      obtain ⟨kept', target⟩ := result
      obtain ⟨before, k, after, rfl, rfl, rfl⟩ := mergeInto_eq_some hinto
      rw [ih]
      simp only [List.length_append, List.length_cons, List.length_nil]
      omega

theorem perm_optimizeLayers (threshold : α) (layers : List (Layer α)) :
    ((optimizeLayers threshold layers).layers.flatMap Layer.paths).Perm (layers.flatMap Layer.paths) := by
  have hlive : (liveLayers layers).flatMap Layer.paths = layers.flatMap Layer.paths := by
    induction layers with
    | nil => rfl
    | cons l rest ih =>
      unfold liveLayers at ih ⊢
      rw [List.filter_cons, List.flatMap_cons, ← ih]
      split_ifs with hl
      · rfl
      · have hempty : l.paths = [] := by simpa using hl
        rw [hempty, List.nil_append]
  rw [← hlive]
  exact perm_mergeAll threshold [] (liveLayers layers) []

theorem length_optimizeLayers (threshold : α) (layers : List (Layer α)) :
    (optimizeLayers threshold layers).layers.length + (optimizeLayers threshold layers).removed.length +
      (optimizeLayers threshold layers).merged.length = layers.length := by
  have hall := length_mergeAll threshold [] (liveLayers layers) []
  have hsplit := List.length_eq_length_filter_add (l := layers) fun l => l.paths.isEmpty
  simp only [optimizeLayers, List.length_map]
  unfold liveLayers at hall
  simp only [List.length_nil] at hall
  omega

/-- The share of the layers that are gone is between nothing and all. -/
theorem mkRat_share_mem {given left : Nat} (hpos : 0 < given) (h : left ≤ given) :
    0 ≤ mkRat ((given : Int) - left) given ∧ mkRat ((given : Int) - left) given ≤ 1 := by
  have hgiven : (0 : Rat) < given := by exact_mod_cast hpos
  have hleft : (left : Rat) ≤ given := by exact_mod_cast h
  have hshare : mkRat ((given : Int) - left) given = (given - left) / given := by
    rw [Rat.mkRat_eq_div]
    push_cast
    rfl
  rw [hshare]
  constructor
  · exact div_nonneg (sub_nonneg.mpr hleft) hgiven.le
  · rw [div_le_one hgiven]
    exact sub_le_self _ (Nat.cast_nonneg left)

/-- What is off a percentage by too little to be seen in two decimals is rounded to a percentage. -/
theorem roundRat_percent_mem {p q : Rat} (hp : 0 ≤ p ∧ p ≤ 100) (hoff : |q - p| ≤ 1 / 400) :
    0 ≤ roundRat 2 q ∧ roundRat 2 q ≤ ((100 : Nat) : Rat) := by
  obtain ⟨hlow, hhigh⟩ := abs_le.mp hoff
  have hzero : roundRat 2 (-(1 / 400)) = 0 := by decide +kernel
  have hall : roundRat 2 (100 + 1 / 400) = ((100 : Nat) : Rat) := by decide +kernel
  rw [← hzero, ← hall]
  constructor
  · exact roundRat_le_roundRat (by linarith [hp.1])
  · exact roundRat_le_roundRat (by linarith [hp.2])

omit [DecimalText α] in
/-- A number of at most one times a hundred is nearly what it ought to be. -/
theorem toRat?_mul_hundred [NearlyExact α] {x y : α} {p c : Rat} (hx : Scalar.toRat? x = some p)
    (hy : Scalar.toRat? y = some c) (hp : 0 ≤ p ∧ p ≤ 1) (hc : 0 ≤ c ∧ c ≤ 100) :
    (0 ≤ p * c ∧ p * c ≤ 100) ∧ ∃ q, Scalar.toRat? (x * y) = some q ∧ |q - p * c| ≤ 1 / 400 := by
  have hproduct : 0 ≤ p * c ∧ p * c ≤ 100 :=
    ⟨mul_nonneg hp.1 hc.1, (mul_le_mul hp.2 hc.2 hc.1 zero_le_one).trans (by norm_num)⟩
  have hsmall : |p * c| ≤ 100 := (abs_of_nonneg hproduct.1).trans_le hproduct.2
  obtain ⟨q, hq, hnear⟩ := NearlyExact.mul_near hx hy (hsmall.trans (by norm_num [reach]))
  refine ⟨hproduct, q, hq, ?_⟩
  calc |q - p * c| ≤ (|p * c| + 1) * roundOff := hnear
    _ ≤ 101 * roundOff := mul_le_mul_of_nonneg_right (by linarith) roundOff_nonneg
    _ ≤ 1 / 400 := by norm_num [roundOff]

omit [DecimalText α] in
/-- The gain is a percentage. -/
theorem gainPercent_mem [NearlyExact α] {given left : Nat} (h : left ≤ given) :
    ∃ q, Scalar.toRat? (gainPercent given left : α) = some q ∧ 0 ≤ q ∧ q ≤ 100 := by
  have hreach : ((100 : Nat) : Rat) ≤ reach := by norm_num [reach]
  unfold gainPercent
  split_ifs with hgiven
  · exact Scalar.toRat?_roundTo_mem hreach 2 Scalar.toRat?_zero le_rfl (by norm_num)
  · obtain ⟨hlow, hhigh⟩ := mkRat_share_mem (Nat.pos_of_ne_zero hgiven) h
    obtain ⟨p, hp, hpmem⟩ :=
      NearlyExact.ofRat_mem (α := α) (n := 1) hlow (by exact_mod_cast hhigh) (by norm_num [reach])
    obtain ⟨c, hc, hcmem⟩ :=
      NearlyExact.ofRat_mem (α := α) (q := 100) (n := 100) (by norm_num) (by norm_num) hreach
    obtain ⟨hproduct, q, hq, hoff⟩ := toRat?_mul_hundred hp hc (by exact_mod_cast hpmem) (by exact_mod_cast hcmem)
    exact Scalar.toRat?_roundTo_of_rounded hreach hq (roundRat_percent_mem hproduct hoff)

/-- **Merging accounts for every layer and every path.** Whatever the layers, their ids and the threshold, each layer
is either dropped, as it has no paths, or kept, or goes to one of the same region that was kept before it. What is
dropped and what has gone where is told in the order of the layers. The kept ones come out in this order, unchanged but
for the paths of all that have gone to them, which follow their own; so these are all paths that there were. -/
theorem optimize_accounted [NearlyExact α] {a : Analyzer α} {layers : List (Layer α)} (ha : a.RecallsTruly layers) :
    ∃ record : List (Layer α × Fate), record.map Prod.fst = layers ∧ IsMergeRecord a.threshold record ∧
      (a.optimize layers).1.layers = keptLayers record ∧
      (a.optimize layers).1.removed = droppedIds record ∧
      (a.optimize layers).1.merged = mergedIds record ∧
      ((a.optimize layers).1.layers.flatMap Layer.paths).Perm (layers.flatMap Layer.paths) ∧
      (a.optimize layers).1.givenCount = layers.length ∧
      (a.optimize layers).1.layers.length + (a.optimize layers).1.removed.length +
        (a.optimize layers).1.merged.length = (a.optimize layers).1.givenCount ∧
      ∃ q, Scalar.toRat? (a.optimize layers).1.gain = some q ∧ 0 ≤ q ∧ q ≤ 100 := by
  rw [Analyzer.optimize_fst ha]
  obtain ⟨record, hrecord, h, hkept, hdropped, hmerged⟩ := exists_mergeRecord a.threshold layers
  have hcount := length_optimizeLayers a.threshold layers
  have hleft : (optimizeLayers a.threshold layers).layers.length ≤ layers.length := by omega
  exact ⟨record, hrecord, h, hkept, hdropped, hmerged, perm_optimizeLayers a.threshold layers, rfl, hcount,
    gainPercent_mem hleft⟩

end

/-- Beds of one name. One is empty and one is elsewhere; of the others the second goes to the first, and the third to
what the first has become. -/
def beds : List (Layer Float) := [
  ⟨"bed", "North", [twig "a" none], none⟩,
  ⟨"bed", "Fallow", [], none⟩,
  ⟨"bed", "Hill", [twig "a" none], some ⟨some "top_right", none, none, none, none, none⟩⟩,
  ⟨"bed", "South", [twig "b" none, twig "a" none], some ⟨some "center", none, none, none, none, none⟩⟩,
  ⟨"bed", "West", [twig "c" none, twig "d" none], some ⟨some "", none, none, none, none, some 3⟩⟩]

/-- A new analyzer for which half of the styles are enough. -/
def lenientAnalyzer : Analyzer Float := { Analyzer.standard with threshold := 0.5 }

theorem optimize_accounted_beds :
    lenientAnalyzer.RecallsTruly beds ∧ (lenientAnalyzer.optimize beds).1.removed = ["bed"] ∧
      (lenientAnalyzer.optimize beds).1.merged = [("bed", "bed"), ("bed", "bed")] ∧
      ∃ record : List (Layer Float × Fate), record.map Prod.fst = beds ∧ IsMergeRecord 0.5 record ∧
        (lenientAnalyzer.optimize beds).1.layers = keptLayers record ∧
        (lenientAnalyzer.optimize beds).1.removed = droppedIds record ∧
        (lenientAnalyzer.optimize beds).1.merged = mergedIds record ∧
        ((lenientAnalyzer.optimize beds).1.layers.flatMap Layer.paths).Perm (beds.flatMap Layer.paths) ∧
        (lenientAnalyzer.optimize beds).1.givenCount = 5 ∧
        (lenientAnalyzer.optimize beds).1.layers.length + (lenientAnalyzer.optimize beds).1.removed.length +
          (lenientAnalyzer.optimize beds).1.merged.length = (lenientAnalyzer.optimize beds).1.givenCount ∧
        ∃ q, Scalar.toRat? (lenientAnalyzer.optimize beds).1.gain = some q ∧ 0 ≤ q ∧ q ≤ 100 := by
  have hrecalls : lenientAnalyzer.RecallsTruly beds := Analyzer.recallsTruly_of_new rfl
  exact ⟨hrecalls, by decide +kernel, by decide +kernel, optimize_accounted hrecalls⟩

end Drawing
