import Drawing.Analysis.Analyzer
import Drawing.Proofs.Analysis.Merge
import Drawing.Proofs.Document.Picture

/-!
# `Drawing/Proofs/Analysis/Quiet.lean` — what merging does to the picture

Merging moves the paths of a layer under the layout of another one and to another place in the order of painting. It
looks at regions, numbers of paths and styles before it does so, and at nothing else, so it is advice only: anchors,
offsets, sizes, repetitions and what is painted in between may change what there is to see.

> **quiet merging keeps the picture** — if every path is put in the same place under its new layer, if nothing is
> painted between layers that become one, and if their paths are painted in the order of these layers.
-/

namespace Drawing

variable {α : Type}

/-! ## Layers that become one -/

/-- The paths of a document as they are painted when layers have gone to others, each still with its own layer. -/
def regrouped (merged : List (String × String)) (layers : List (Layer α)) : List (Layer α × ShapePath α) :=
  (paintOrder (fun h => paintIndex h.layout) (stayed merged layers)).flatMap fun h =>
    paintOrder (fun t => paintIndex t.2.layout) (pathPairs (goneTo merged layers h))

/-- Merges that leave the order of painting alone. -/
structure Document.KeepsOrder (d : Document α) (merged : List (String × String)) : Prop where
  /-- What is painted between two layers that become one becomes one with them. -/
  between : ∀ l ∈ liveLayers d.layers, ∀ k ∈ liveLayers d.layers, ∀ m ∈ liveLayers d.layers,
    d.PaintedBefore l k → d.PaintedBefore k m → targetOf merged l = targetOf merged m →
      targetOf merged k = targetOf merged l
  /-- The paths of layers that become one are painted in the order of these layers. -/
  within : ∀ l ∈ liveLayers d.layers, ∀ m ∈ liveLayers d.layers, d.PaintedBefore l m →
    targetOf merged l = targetOf merged m → ∀ p ∈ l.paths, ∀ q ∈ m.paths,
      paintIndex p.layout < paintIndex q.layout ∨
        paintIndex p.layout = paintIndex q.layout ∧ [l, m].Sublist d.layers

section

variable {d : Document α} {kept : List (Layer α)} {merged : List (String × String)}
  {t u : Layer α × ShapePath α} {h h' : Layer α}

theorem mem_regrouped : t ∈ regrouped merged (liveLayers d.layers) ↔
    ∃ h ∈ stayed merged (liveLayers d.layers), t ∈ pathPairs (goneTo merged (liveLayers d.layers) h) := by
  simp [regrouped, paintOrder]

/-- Within layers that become one, what is painted first stays first. -/
theorem comesBefore_of_drawnBefore (hq : d.KeepsOrder merged)
    (ht : t ∈ pathPairs (goneTo merged (liveLayers d.layers) h))
    (hu : u ∈ pathPairs (goneTo merged (liveLayers d.layers) h)) (htu : d.DrawnBefore t u) :
    ComesBefore (fun t => paintIndex t.2.layout) (pathPairs (goneTo merged (liveLayers d.layers) h)) t u := by
  obtain ⟨l, p⟩ := t
  obtain ⟨m, q⟩ := u
  obtain ⟨hl, hp⟩ := mem_pathPairs.mp ht
  obtain ⟨hm, hqm⟩ := mem_pathPairs.mp hu
  rcases htu with ⟨heq, hpq⟩ | ⟨hne, hlm⟩
  · obtain rfl : l = m := heq
    refine hpq.imp_right fun ⟨hindex, hsub⟩ => ⟨hindex, ?_⟩
    have hpairs : (pathPairs [l]).Sublist (pathPairs (goneTo merged (liveLayers d.layers) h)) :=
      (List.singleton_sublist.mpr hl).flatMap _
    rw [pathPairs, List.flatMap_singleton] at hpairs
    exact (hsub.map fun p => (l, p)).trans hpairs
  · obtain ⟨hl, hltarget⟩ := mem_goneTo.mp hl
    obtain ⟨hm, hmtarget⟩ := mem_goneTo.mp hm
    refine (hq.within l hl m hm hlm (hltarget.trans hmtarget.symm) p hp q hqm).imp_right ?_
    rintro ⟨hindex, hsub⟩
    refine ⟨hindex, ?_⟩
    -- both layers have gone to one, so they stand among those that have as they stand in the document
    have hgone : [l, m].Sublist (goneTo merged (liveLayers d.layers) h) := by
      have hsame : goneTo merged (liveLayers [l, m]) h = [l, m] := by
        simp [goneTo, liveLayers, (List.mem_filter.mp hl).2, (List.mem_filter.mp hm).2, hltarget, hmtarget]
      rw [← hsame]
      exact (hsub.filter _).filter _
    exact pair_sublist_pathPairs hgone hp hqm

/-- Layers that stay apart are painted one after the other, with all that has gone to them. -/
theorem paintedBefore_of_stayed (hd : d.Distinct) (hq : d.KeepsOrder merged)
    (hh : h ∈ stayed merged (liveLayers d.layers)) (hh' : h' ∈ stayed merged (liveLayers d.layers))
    (hbefore : d.PaintedBefore h h') {l m : Layer α} (hl : l ∈ goneTo merged (liveLayers d.layers) h)
    (hm : m ∈ goneTo merged (liveLayers d.layers) h') : d.PaintedBefore l m := by
  obtain ⟨hh, hself⟩ := mem_stayed.mp hh
  obtain ⟨hh', hself'⟩ := mem_stayed.mp hh'
  obtain ⟨hl, hltarget⟩ := mem_goneTo.mp hl
  obtain ⟨hm, hmtarget⟩ := mem_goneTo.mp hm
  have hmem {x : Layer α} (hx : x ∈ liveLayers d.layers) : x ∈ d.layers := List.mem_of_mem_filter hx
  have hids : h.id ≠ h'.id := fun heq =>
    hd.ne_of_paintedBefore hbefore (List.inj_on_of_nodup_map hd.layers (hmem hh) (hmem hh') heq)
  have hne {x y : Layer α} (hx : targetOf merged x = h.id) (hy : targetOf merged y = h'.id) : x ≠ y := by
    rintro rfl
    exact hids (hx.symm.trans hy)
  refine (ComesBefore.total (hmem hl) (hmem hm) (hne hltarget hmtarget)).resolve_right fun hml => ?_
  have hapart : targetOf merged h ≠ targetOf merged m := fun heq => hids (hself.symm.trans (heq.trans hmtarget))
  -- either way one of them would be painted between two that have gone to the other
  rcases ComesBefore.total (hmem hh) (hmem hm) (hne hself hmtarget) with hhm | hmh
  · exact hapart (hq.between h hh m hm l hl hhm hml (hself.trans hltarget.symm)).symm
  · exact hapart (hq.between m hm h hh h' hh' hmh hbefore (hmtarget.trans hself'.symm))

theorem pathPairs_subset (ht : t ∈ pathPairs (goneTo merged (liveLayers d.layers) h)) : t ∈ pathPairs d.layers :=
  ((goneTo_sublist _ _ _).flatMap _).subset ht

theorem pairwise_regrouped (hd : d.Distinct) (hq : d.KeepsOrder merged) :
    (regrouped merged (liveLayers d.layers)).Pairwise d.DrawnBefore := by
  refine List.pairwise_flatMap.mpr ⟨fun h _ => ?_, ?_⟩
  · refine (stablySorted_paintOrder _ (pathPairs _)).comesBefore.imp_of_mem ?_
    intro t u ht hu htu
    replace ht := mem_paintOrder.mp ht
    replace hu := mem_paintOrder.mp hu
    have hasymm := ComesBefore.asymm (hd.nodup_pathPairs (goneTo_sublist _ _ _)) htu
    have hne : t ≠ u := by
      rintro rfl
      exact hasymm htu
    exact (Document.drawnBefore_total (pathPairs_subset ht) (pathPairs_subset hu) hne).resolve_right fun hut =>
      hasymm (comesBefore_of_drawnBefore hq hu ht hut)
  · refine (stablySorted_paintOrder _ (stayed merged (liveLayers d.layers))).comesBefore.imp_of_mem ?_
    intro h h' hh hh' hbefore t ht u hu
    have hbefore : d.PaintedBefore h h' :=
      ComesBefore.of_sublist hbefore (stayed_sublist merged d.layers)
    have htu := paintedBefore_of_stayed hd hq (mem_paintOrder.mp hh) (mem_paintOrder.mp hh') hbefore
      (mem_pathPairs.mp (mem_paintOrder.mp ht)).1 (mem_pathPairs.mp (mem_paintOrder.mp hu)).1
    exact .inr ⟨hd.ne_of_paintedBefore htu, htu⟩

/-- **Merges that leave the order alone**: every path is painted where it was. -/
theorem paintedPairs_eq_regrouped (hd : d.Distinct) (hm : Merged (liveLayers d.layers) kept merged)
    (hq : d.KeepsOrder merged) : d.paintedPairs = regrouped merged (liveLayers d.layers) := by
  refine eq_of_pairwise_of_mem ?_ hd.pairwise_paintedPairs (pairwise_regrouped hd hq) ?_
  · intro t ht u _ htu
    exact hd.drawnBefore_asymm (mem_pathPairs.mpr (Document.mem_paintedPairs.mp ht)) htu
  · rintro ⟨l, p⟩
    rw [Document.mem_paintedPairs, mem_regrouped]
    constructor
    · rintro ⟨hl, hp⟩
      have hlive : l ∈ liveLayers d.layers := by
        simpa [liveLayers, hl] using List.ne_nil_of_mem hp
      obtain ⟨h, hh, htarget⟩ := hm.target l hlive
      exact ⟨h, hh, mem_pathPairs.mpr ⟨mem_goneTo.mpr ⟨hlive, htarget⟩, hp⟩⟩
    · rintro ⟨h, -, ht⟩
      exact mem_pathPairs.mp (pathPairs_subset ht)

/-- A path that is painted first in a regrouped document: it is first in its group, or its group is first. -/
def Document.GroupedBefore (d : Document α) (merged : List (String × String)) (t u : Layer α × ShapePath α) : Prop :=
  (targetOf merged t.1 = targetOf merged u.1 ∧
      ComesBefore (fun t => paintIndex t.2.layout) (pathPairs d.layers) t u) ∨
    ∃ h ∈ d.layers, ∃ h' ∈ d.layers, d.PaintedBefore h h' ∧ targetOf merged t.1 = h.id ∧ targetOf merged u.1 = h'.id

theorem pairwise_groupedBefore :
    (regrouped merged (liveLayers d.layers)).Pairwise (d.GroupedBefore merged) := by
  have hgone {t : Layer α × ShapePath α} {h : Layer α}
      (ht : t ∈ paintOrder (fun t => paintIndex t.2.layout) (pathPairs (goneTo merged (liveLayers d.layers) h))) :
      targetOf merged t.1 = h.id :=
    (mem_goneTo.mp (mem_pathPairs.mp (mem_paintOrder.mp ht)).1).2
  refine List.pairwise_flatMap.mpr ⟨fun h _ => ?_, ?_⟩
  · refine (stablySorted_paintOrder _ (pathPairs _)).comesBefore.imp_of_mem ?_
    intro t u ht hu htu
    exact .inl ⟨(hgone ht).trans (hgone hu).symm, htu.of_sublist ((goneTo_sublist _ _ _).flatMap _)⟩
  · refine (stablySorted_paintOrder _ (stayed merged (liveLayers d.layers))).comesBefore.imp_of_mem ?_
    intro h h' hh hh' hbefore t ht u hu
    have hsub := stayed_sublist merged d.layers
    exact .inr ⟨h, hsub.subset (mem_paintOrder.mp hh), h', hsub.subset (mem_paintOrder.mp hh'),
      ComesBefore.of_sublist hbefore hsub, hgone ht, hgone hu⟩

/-- **Merges leave the order of painting alone** exactly if nothing is painted between layers that become one and
their paths are painted in the order of these layers. -/
theorem keepsOrder_iff (hd : d.Distinct) (hm : Merged (liveLayers d.layers) kept merged) :
    d.KeepsOrder merged ↔ d.paintedPairs = regrouped merged (liveLayers d.layers) := by
  refine ⟨paintedPairs_eq_regrouped hd hm, fun heq => ?_⟩
  have hpair {l : Layer α} (hl : l ∈ liveLayers d.layers) {p : ShapePath α} (hp : p ∈ l.paths) :
      (l, p) ∈ pathPairs d.layers := mem_pathPairs.mpr ⟨List.mem_of_mem_filter hl, hp⟩
  have hpath {l : Layer α} (hl : l ∈ liveLayers d.layers) : ∃ p, p ∈ l.paths :=
    List.exists_mem_of_ne_nil _ (by simpa [liveLayers] using (List.mem_filter.mp hl).2)
  have hfound {l m : Layer α} (hl : l ∈ liveLayers d.layers) (hm : m ∈ liveLayers d.layers)
      (hlm : d.PaintedBefore l m) {p q : ShapePath α} (hp : p ∈ l.paths) (hq : q ∈ m.paths) :
      d.GroupedBefore merged (l, p) (m, q) := by
    refine List.pairwise_iff_forall_sublist.mp pairwise_groupedBefore (heq ▸ ?_)
    exact hd.pair_sublist_paintedPairs (hpair hl hp) (hpair hm hq) (.inr ⟨hd.ne_of_paintedBefore hlm, hlm⟩)
  have hsame {h h' : Layer α} (hh : h ∈ d.layers) (hh' : h' ∈ d.layers) (hid : h.id = h'.id) : h = h' :=
    List.inj_on_of_nodup_map hd.layers hh hh' hid
  constructor
  · intro l hl k hk m hm hlk hkm htarget
    obtain ⟨p, hp⟩ := hpath hl
    obtain ⟨q, hq⟩ := hpath hk
    obtain ⟨r, hr⟩ := hpath hm
    rcases hfound hl hk hlk hp hq with ⟨htarget', -⟩ | ⟨h, hh, h', hh', hbefore, hlh, hkh'⟩
    · exact htarget'.symm
    · -- the group of the layer in between would stand both behind and before that of the others
      rcases hfound hk hm hkm hq hr with ⟨htarget', -⟩ | ⟨g, hg, g', hg', hbefore', hkg, hmg'⟩
      · exact htarget'.trans htarget.symm
      · obtain rfl := hsame hg hh' (hkg.symm.trans hkh')
        obtain rfl := hsame hg' hh (hmg'.symm.trans (htarget.symm.trans hlh))
        exact absurd hbefore' (hd.paintedBefore_asymm hbefore)
  · intro l hl m hm hlm htarget p hp q hq
    rcases hfound hl hm hlm hp hq with ⟨-, hpq⟩ | ⟨h, hh, h', hh', hbefore, hlh, hmh'⟩
    · refine hpq.imp_right fun ⟨hindex, hsub⟩ => ⟨hindex, ?_⟩
      refine (pair_sublist_total (List.mem_of_mem_filter hl) (List.mem_of_mem_filter hm)
        (hd.ne_of_paintedBefore hlm)).resolve_right fun hml => ?_
      exact not_pair_sublist_swap (hd.nodup_pathPairs (List.Sublist.refl _)) hsub
        (pair_sublist_pathPairs hml hq hp)
    · exact absurd (hsame hh hh' (hlh.symm.trans (htarget.trans hmh'))) (hd.ne_of_paintedBefore hbefore)

/-- A merged document paints the same paths in the same order as the regrouped one, each in the layer that its own
has gone to. -/
theorem forall₂_regrouped (hm : Merged (liveLayers d.layers) kept merged) :
    List.Forall₂ (fun t u => ∃ h ∈ stayed merged (liveLayers d.layers),
        t ∈ pathPairs (goneTo merged (liveLayers d.layers) h) ∧ u = (gathered merged (liveLayers d.layers) h, t.2))
      (regrouped merged (liveLayers d.layers)) { d with layers := kept }.paintedPairs := by
  have hlayers : List.Forall₂ (fun h k => h ∈ stayed merged (liveLayers d.layers) ∧
      k = gathered merged (liveLayers d.layers) h) (stayed merged (liveLayers d.layers)) kept := by
    rw [hm.kept, List.forall₂_map_right_iff]
    exact List.forall₂_same.mpr fun h hh => ⟨hh, rfl⟩
  refine List.rel_flatMap (forall₂_paintOrder ?_ hlayers) ?_
  · rintro h k ⟨-, rfl⟩
    rfl
  · rintro h k ⟨hh, rfl⟩
    rw [List.forall₂_map_right_iff]
    have hpaths : (gathered merged (liveLayers d.layers) h).paths =
        (pathPairs (goneTo merged (liveLayers d.layers) h)).map Prod.snd := by
      simp [gathered, Layer.withPaths, pathPairs, List.map_flatMap, Function.comp_def]
    have hpairs : List.Forall₂ (fun t p => t ∈ pathPairs (goneTo merged (liveLayers d.layers) h) ∧ p = t.2)
        (pathPairs (goneTo merged (liveLayers d.layers) h)) (gathered merged (liveLayers d.layers) h).paths := by
      rw [hpaths, List.forall₂_map_right_iff]
      exact List.forall₂_same.mpr fun t ht => ⟨ht, rfl⟩
    refine (forall₂_paintOrder ?_ hpairs).imp ?_
    · rintro t p ⟨-, rfl⟩
      rfl
    · rintro t p ⟨ht, rfl⟩
      exact ⟨h, hh, ht, rfl⟩

end

/-! ## The picture -/

section

variable [Scalar α]

/-- Two layers under which a path is put in the same place. -/
def Document.PutsAlike (d : Document α) (l m : Layer α) (p : ShapePath α) : Prop :=
  d.isMoved l p = d.isMoved m p ∧ (d.isMoved m p = true → d.layoutOf l p = d.layoutOf m p)

instance [DecidableEq α] (d : Document α) (l m : Layer α) (p : ShapePath α) : Decidable (d.PutsAlike l m p) :=
  inferInstanceAs (Decidable (_ ∧ _))

/-- Merges of which nothing is seen: they leave the order alone, and a path that goes to another layer is put where
its own would put it. -/
structure Document.MergesQuietly (d : Document α) (merged : List (String × String)) : Prop
    extends d.KeepsOrder merged where
  placed : ∀ l ∈ liveLayers d.layers, ∀ h ∈ liveLayers d.layers, targetOf merged l = h.id →
    ∀ p ∈ l.paths, d.PutsAlike h l p

theorem Document.PutsAlike.resolvePath_eq [Trig α] {d : Document α} {l m : Layer α} {p : ShapePath α}
    (h : d.PutsAlike l m p) (stage : Stage α) : d.resolvePath stage l p = d.resolvePath stage m p := by
  unfold resolvePath Stage.transformPath
  rw [h.1]
  cases hmoved : d.isMoved m p with
  | true => rw [h.2 hmoved]
  | false => rfl

variable [DecimalText α]

/-- An analyzer that has nothing else in mind, when asked to merge some layers, than what merging them comes to. -/
def Analyzer.RecallsTruly (a : Analyzer α) (layers : List (Layer α)) : Prop :=
  ∀ o, a.optimizations.entries.lookup (a.optimizationKey layers) = some o → o = optimizeLayers a.threshold layers

theorem Analyzer.recallsTruly_of_new {a : Analyzer α} {layers : List (Layer α)}
    (h : a.optimizations.entries = []) : a.RecallsTruly layers := by
  intro o ho
  rw [h] at ho
  exact nomatch ho

theorem Analyzer.optimize_fst {a : Analyzer α} {layers : List (Layer α)} (h : a.RecallsTruly layers) :
    (a.optimize layers).1 = optimizeLayers a.threshold layers := by
  simp only [optimize, Cache.get]
  cases hlookup : a.optimizations.entries.lookup (a.optimizationKey layers) with
  | none => simp
  | some o => simpa using h o hlookup

/-- The document with the layers that an analyzer makes of its own. -/
def Document.optimized (d : Document α) (a : Analyzer α) : Document α :=
  { d with layers := (a.optimize d.layers).1.layers }

/-- **Quiet merging keeps the picture.** A document and the one with its layers merged can be laid out alike, and the
same styles and commands are painted in the same order. -/
theorem picture_optimized [Trig α] {d : Document α} {a : Analyzer α} {catalog : Catalog α}
    (ha : a.RecallsTruly d.layers) (hresolved : d.resolved = false)
    (hvalid : (layerReport catalog d.layers).isValid = true)
    (hquiet : d.MergesQuietly (a.optimize d.layers).1.merged) (shown : List (PathStyle α × List (Command α))) :
    (d.optimized a).picture = .ok shown ↔ d.picture = .ok shown := by
  have hd := Document.Distinct.of_isValid hvalid
  unfold Document.optimized
  rw [Analyzer.optimize_fst ha] at hquiet ⊢
  have hm := merged_optimizeLayers a.threshold hd.layers
  rw [Document.picture_eq_ok_iff hresolved, Document.picture_eq_ok_iff (by exact hresolved),
    (keepsOrder_iff hd hm).mp hquiet.toKeepsOrder]
  refine exists_congr fun regions => and_congr_right fun _ => (forall₂_congr_left (forall₂_regrouped hm) ?_).symm
  rintro t u seen ⟨h, hh, ht, rfl⟩
  obtain ⟨hgone, hp⟩ := mem_pathPairs.mp ht
  obtain ⟨hl, htarget⟩ := mem_goneTo.mp hgone
  have hsame := (hquiet.placed t.1 hl h (mem_stayed.mp hh).1 htarget t.2 hp).resolvePath_eq ⟨d.canvas, regions⟩
  unfold Document.Shows
  rw [← hsame]
  rfl

end

/-! ## A garden and a railing -/

/-- A red path of one line, placed by a layout. -/
def twig (id : String) (layout : Option (LayoutSpec Float)) : ShapePath Float :=
  ⟨id, { PathStyle.plain with stroke := some "#b91c1c" }, [.move ⟨0, 0⟩, .line ⟨8, 4⟩], layout⟩

/-- Two layers that become one, though each has an offset of its own: the path of the second one says itself all that
there is to say. What stands between them in the list is painted later. -/
def garden : Document Float where
  canvas := ⟨640, 360, .sixteenNine, none, by decide, by decide⟩
  layout := some ⟨[], some .bottomRight, none⟩
  resolved := false
  layers := [
    ⟨"hedge", "Hedge", [twig "a" none, twig "b" (some ⟨none, some .center, none, none, none, some (-1)⟩)],
      some ⟨some "top_left", none, some ⟨0.5, 0⟩, none, none, some 2⟩⟩,
    ⟨"lawn", "Lawn", [], some ⟨none, none, none, none, none, some 1⟩⟩,
    ⟨"tree", "Tree", [twig "a" none], some ⟨some "center", some .center, none, none, none, some 7⟩⟩,
    ⟨"border", "Border", [twig "c" (some ⟨some "top_right", some .topLeft, some ⟨0, 0.25⟩, none,
        some ⟨.grid, .pair 2 1, none, none⟩, none⟩)],
      some ⟨some "top_left", none, some ⟨0, 0⟩, none, none, some 2⟩⟩]

theorem picture_optimized_garden :
    Analyzer.standard.RecallsTruly garden.layers ∧ garden.resolved = false ∧
      (layerReport (Catalog.empty : Catalog Float) garden.layers).isValid = true ∧
      (Analyzer.standard.optimize garden.layers).1.merged = [("hedge", "border")] ∧
      garden.MergesQuietly (Analyzer.standard.optimize garden.layers).1.merged ∧
      ∃ shown, garden.picture = .ok shown ∧ (garden.optimized .standard).picture = .ok shown := by
  have hrecalls : Analyzer.standard.RecallsTruly garden.layers := Analyzer.recallsTruly_of_new rfl
  have hvalid : (layerReport (Catalog.empty : Catalog Float) garden.layers).isValid = true := by decide +kernel
  have hquiet : garden.MergesQuietly (Analyzer.standard.optimize garden.layers).1.merged :=
    ⟨⟨by decide +kernel, by decide +kernel⟩, by decide +kernel⟩
  have hresolves : garden.picture.toOption.isSome = true := by decide +kernel
  obtain ⟨shown, hshown⟩ := exists_ok_of_isSome hresolves
  exact ⟨hrecalls, rfl, hvalid, by decide +kernel, hquiet, shown, hshown,
    (picture_optimized hrecalls rfl hvalid hquiet shown).mpr hshown⟩

/-- Two layers in one region and one style, of which only the second one has an anchor. -/
def railing : Document Float where
  canvas := .ofAspect .square
  layout := none
  resolved := false
  layers := [
    ⟨"left", "Left", [twig "post" none], none⟩,
    ⟨"right", "Right", [twig "post" none], some ⟨none, some .topRight, none, none, none, none⟩⟩]

/-- The second layer of the railing goes to the first one, and its post to where no layout moves it. -/
theorem picture_railing_changes :
    railing.resolved = false ∧ (layerReport (Catalog.empty : Catalog Float) railing.layers).isValid = true ∧
      ∃ shown shown', railing.picture = .ok shown ∧ (railing.optimized .standard).picture = .ok shown' ∧
        shown' ≠ shown := by
  have hresolves : railing.picture.toOption.isSome = true ∧
      (railing.optimized .standard).picture.toOption.isSome = true := by decide +kernel
  obtain ⟨shown, hshown⟩ := exists_ok_of_isSome hresolves.1
  obtain ⟨shown', hshown'⟩ := exists_ok_of_isSome hresolves.2
  refine ⟨rfl, by decide +kernel, shown, shown', hshown, hshown', ?_⟩
  rintro rfl
  have hsame : (railing.optimized .standard).picture.toOption = railing.picture.toOption := by
    rw [hshown, hshown']
  -- sorting is not computed here, but both documents are listed as they are painted
  have hlisted : railing.ListedAsPainted ∧ (railing.optimized .standard).ListedAsPainted := by decide +kernel
  rw [hlisted.1.picture_eq, hlisted.2.picture_eq] at hsame
  exact absurd hsame (by decide +kernel)

end Drawing
