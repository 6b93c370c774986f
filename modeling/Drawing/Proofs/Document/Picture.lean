import Drawing.Analysis.Structure
import Drawing.Proofs.Markup.Accepted

/-!
# `Drawing/Proofs/Document/Picture.lean` — what there is to see of a document

Of a document one sees its paths: in what style, along which commands, and what is painted over what. Layers and the
paths of a layer are painted in an order of their own each, and together these give an order of all paths of a
document (`Document.DrawnBefore`). Where layers and paths are all different it does not go both ways, and any two
paths stand in it, so that a list of all paths in this order is the list in which they are painted.
-/

namespace Drawing

variable {α : Type}

/-! ## Pictures -/

section

variable [Scalar α] [Trig α]

/-- What there is to see of a document: the style and the absolute commands of every path, in the order in which
they are painted. -/
def Document.picture (d : Document α) : Except (Fault α) (List (PathStyle α × List (Command α))) := do
  return (← d.resolve).paintedPaths.map fun p => (p.style, p.commands)

/-- What there is to see of a path of a layer. -/
def Document.Shows (d : Document α) (catalog : Catalog α) (t : Layer α × ShapePath α)
    (seen : PathStyle α × List (Command α)) : Prop :=
  ∃ p', d.resolvePath ⟨d.canvas, catalog⟩ t.1 t.2 = .ok p' ∧ seen = (p'.style, p'.commands)

/-- A document has a picture if all of its paths have, and it is put together from them. -/
theorem Document.picture_eq_ok_iff {d : Document α} {shown : List (PathStyle α × List (Command α))}
    (hresolved : d.resolved = false) :
    d.picture = .ok shown ↔
      ∃ catalog, d.catalog = .ok catalog ∧ List.Forall₂ (d.Shows catalog) d.paintedPairs shown := by
  have hforward {shown : List (PathStyle α × List (Command α))} {r : Document α} {catalog : Catalog α}
      (hr : d.Redrawn (fun l p p' => d.resolvePath ⟨d.canvas, catalog⟩ l p = .ok p') r)
      (h : (r.paintedPaths.map fun p => (p.style, p.commands)) = shown) :
      List.Forall₂ (d.Shows catalog) d.paintedPairs shown := by
    subst h
    rw [List.forall₂_map_right_iff]
    refine (hr.paintedPairs fun l p p' hp => ?_).imp fun t p' hp => ⟨p', hp, rfl⟩
    rw [frame_of_resolvePath hp]
    rfl
  unfold picture
  rw [bind_eq_ok_iff]
  constructor
  · rintro ⟨r, hr, h⟩
    obtain ⟨catalog, hcatalog, -, hredrawn⟩ := (resolve_eq_ok_iff hresolved).mp hr
    exact ⟨catalog, hcatalog, hforward hredrawn (pure_eq_ok_iff.mp h)⟩
  · rintro ⟨catalog, hcatalog, h⟩
    -- every path is painted somewhere, so every path comes through
    have hpath (l) (hl : l ∈ d.layers) (p) (hp : p ∈ l.paths) :
        ∃ p', d.resolvePath ⟨d.canvas, catalog⟩ l p = .ok p' := by
      obtain ⟨seen, -, p', hp', -⟩ := exists_left_of_mem h.flip (mem_paintedPairs.mpr ⟨hl, hp⟩)
      exact ⟨p', hp'⟩
    have hlayer (l) (hl : l ∈ d.layers) :
        ∃ l', l.Redrawn (fun l p p' => d.resolvePath ⟨d.canvas, catalog⟩ l p = .ok p') l' := by
      obtain ⟨paths, hpaths⟩ := exists_forall₂ (hpath l hl)
      exact ⟨l.withPaths paths, rfl, hpaths⟩
    obtain ⟨layers, hlayers⟩ := exists_forall₂ hlayer
    let r : Document α := { d with layers, resolved := true }
    have hredrawn : d.Redrawn (fun l p p' => d.resolvePath ⟨d.canvas, catalog⟩ l p = .ok p') r := ⟨rfl, hlayers⟩
    refine ⟨r, (resolve_eq_ok_iff hresolved).mpr ⟨catalog, hcatalog, rfl, hredrawn⟩, pure_eq_ok_iff.mpr ?_⟩
    have hunique : Relator.RightUnique (d.Shows catalog) := by
      rintro t seen seen' ⟨p', hp', rfl⟩ ⟨q', hq', rfl⟩
      obtain rfl := Except.ok.inj (hp'.symm.trans hq')
      rfl
    exact List.right_unique_forall₂' hunique (hforward hredrawn rfl) h

/-- A document whose layers, and the paths of each, are listed in the order in which they are painted. -/
def Document.ListedAsPainted {α : Type} (d : Document α) : Prop :=
  (d.layers.Pairwise fun l m => paintIndex l.layout ≤ paintIndex m.layout) ∧
    ∀ l ∈ d.layers, l.paths.Pairwise fun p q => paintIndex p.layout ≤ paintIndex q.layout

instance {α : Type} (d : Document α) : Decidable d.ListedAsPainted := inferInstanceAs (Decidable (_ ∧ _))

omit [Scalar α] [Trig α] in
theorem Document.ListedAsPainted.paintedPaths {d : Document α} (h : d.ListedAsPainted) :
    d.paintedPaths = d.layers.flatMap Layer.paths := by
  unfold Document.paintedPaths Document.paintedLayers
  rw [paintOrder_of_pairwise h.1]
  exact List.flatMap_congr fun l hl => paintOrder_of_pairwise (h.2 l hl)

omit [Scalar α] [Trig α] in
theorem Document.ListedAsPainted.redrawn {R : Layer α → ShapePath α → ShapePath α → Prop} {d d' : Document α}
    (h : d.ListedAsPainted) (hredrawn : d.Redrawn R d') (hlayout : ∀ l p p', R l p p' → p'.layout = p.layout) :
    d'.ListedAsPainted := by
  have hlayers : d.layers.map (fun l => paintIndex l.layout) = d'.layers.map fun l => paintIndex l.layout :=
    map_eq_of_forall₂ (fun l l' hl => by rw [hl.layout]) hredrawn.layers
  refine ⟨?_, fun l' hl' => ?_⟩
  · rw [← List.pairwise_map, ← hlayers, List.pairwise_map]
    exact h.1
  · obtain ⟨l, hl, hpaths⟩ := hredrawn.exists_layer hl'
    have hindex : l.paths.map (fun p => paintIndex p.layout) = l'.paths.map fun p => paintIndex p.layout :=
      map_eq_of_forall₂ (fun p p' hp => by rw [hlayout l p p' hp]) hpaths.paths
    rw [← List.pairwise_map, ← hindex, List.pairwise_map]
    exact h.2 l hl

/-- Its picture is listed in this order too. -/
theorem Document.ListedAsPainted.picture_eq {d : Document α} (h : d.ListedAsPainted) :
    d.picture = do
      return ((← d.resolve).layers.flatMap Layer.paths).map fun p => (p.style, p.commands) := by
  unfold picture
  cases hr : d.resolve with
  | error fault => rfl
  | ok r =>
    have hlisted : r.ListedAsPainted := h.redrawn (redrawn_resolve hr) fun l p p' hp => by rw [hp]; rfl
    change Except.ok _ = Except.ok _
    rw [hlisted.paintedPaths]

end

/-! ## The order of painting -/

/-- A layer that is painted before another. -/
def Document.PaintedBefore (d : Document α) (l l' : Layer α) : Prop :=
  ComesBefore (fun l => paintIndex l.layout) d.layers l l'

instance [DecidableEq α] (d : Document α) (l l' : Layer α) : Decidable (d.PaintedBefore l l') :=
  inferInstanceAs (Decidable (_ ∨ _ ∧ List.Sublist _ _))

/-- A path of a layer that is painted before another, of the same layer or not. -/
def Document.DrawnBefore (d : Document α) (t u : Layer α × ShapePath α) : Prop :=
  (t.1 = u.1 ∧ ComesBefore (fun p => paintIndex p.layout) t.1.paths t.2 u.2) ∨
    (t.1 ≠ u.1 ∧ d.PaintedBefore t.1 u.1)

/-- A document whose layers are all different, and whose layers have paths that are. -/
structure Document.Distinct (d : Document α) : Prop where
  layers : (d.layers.map Layer.id).Nodup
  paths : ∀ l ∈ d.layers, l.paths.Nodup

/-- All paths of some layers, each with its layer. -/
def pathPairs (layers : List (Layer α)) : List (Layer α × ShapePath α) :=
  layers.flatMap fun l => l.paths.map fun p => (l, p)

theorem mem_pathPairs {layers : List (Layer α)} {l : Layer α} {p : ShapePath α} :
    (l, p) ∈ pathPairs layers ↔ l ∈ layers ∧ p ∈ l.paths := by
  simp [pathPairs]

theorem pair_sublist_pathPairs {layers : List (Layer α)} {l m : Layer α} {p q : ShapePath α}
    (hsub : [l, m].Sublist layers) (hp : p ∈ l.paths) (hq : q ∈ m.paths) :
    [(l, p), (m, q)].Sublist (pathPairs layers) := by
  have hpair := ((List.singleton_sublist.mpr hp).map fun p => (l, p)).append
    ((List.singleton_sublist.mpr hq).map fun q => (m, q))
  have hpairs : (pathPairs [l, m]).Sublist (pathPairs layers) := hsub.flatMap _
  exact List.Sublist.trans (by simpa [pathPairs] using hpair) hpairs

namespace Document.Distinct

variable {d : Document α} {t u : Layer α × ShapePath α}

theorem of_isValid [Scalar α] {catalog : Catalog α} (h : (layerReport catalog d.layers).isValid = true) :
    d.Distinct := by
  obtain ⟨-, hlayers, hpaths⟩ := layerErrors_eq_nil_iff.mp (List.isEmpty_iff.mp h)
  exact ⟨hlayers, fun l hl => (pathErrors_eq_nil_iff.mp (hpaths l hl).2).2.1.of_map _⟩

theorem nodup (hd : d.Distinct) : d.layers.Nodup := hd.layers.of_map _

theorem paintedBefore_asymm (hd : d.Distinct) {l l' : Layer α} (h : d.PaintedBefore l l') :
    ¬ d.PaintedBefore l' l := ComesBefore.asymm hd.nodup h

theorem ne_of_paintedBefore (hd : d.Distinct) {l l' : Layer α} (h : d.PaintedBefore l l') : l ≠ l' := by
  rintro rfl
  exact hd.paintedBefore_asymm h h

theorem drawnBefore_asymm (hd : d.Distinct) (ht : t ∈ pathPairs d.layers) (h : d.DrawnBefore t u) :
    ¬ d.DrawnBefore u t := by
  rintro (⟨heq', h'⟩ | ⟨hne', h'⟩)
  · rcases h with ⟨heq, h⟩ | ⟨hne, -⟩
    · rw [heq'] at h'
      exact h.asymm (hd.paths t.1 (mem_pathPairs.mp ht).1) h'
    · exact hne heq'.symm
  · rcases h with ⟨heq, -⟩ | ⟨-, h⟩
    · exact hne' heq.symm
    · exact hd.paintedBefore_asymm h h'

theorem pairwise_paintedPairs (hd : d.Distinct) : d.paintedPairs.Pairwise d.DrawnBefore := by
  refine List.pairwise_flatMap.mpr ⟨fun l hl => ?_, ?_⟩
  · refine List.pairwise_map.mpr ((stablySorted_paintOrder _ l.paths).comesBefore.imp ?_)
    intro p p' hp
    exact .inl ⟨rfl, hp⟩
  · refine (stablySorted_paintOrder _ d.layers).comesBefore.imp ?_
    intro l l' hl t ht u hu
    obtain ⟨p, -, rfl⟩ := List.mem_map.mp ht
    obtain ⟨p', -, rfl⟩ := List.mem_map.mp hu
    exact .inr ⟨hd.ne_of_paintedBefore hl, hl⟩

theorem nodup_pathPairs (hd : d.Distinct) {layers : List (Layer α)}
    (hsub : layers.Sublist d.layers) : (pathPairs layers).Nodup := by
  refine List.pairwise_flatMap.mpr ⟨fun l hl => ?_, ?_⟩
  · exact (hd.paths l (hsub.subset hl)).map fun p p' h => (Prod.mk.inj h).2
  · refine (hd.nodup.sublist hsub).imp ?_
    rintro l l' hne t ht u hu rfl
    obtain ⟨p, -, rfl⟩ := List.mem_map.mp ht
    obtain ⟨p', -, hp'⟩ := List.mem_map.mp hu
    exact hne (Prod.mk.inj hp').1.symm

end Document.Distinct

theorem Document.drawnBefore_total {d : Document α} {t u : Layer α × ShapePath α} (ht : t ∈ pathPairs d.layers)
    (hu : u ∈ pathPairs d.layers) (hne : t ≠ u) : d.DrawnBefore t u ∨ d.DrawnBefore u t := by
  obtain ⟨l, p⟩ := t
  obtain ⟨l', p'⟩ := u
  obtain ⟨hl, hp⟩ := mem_pathPairs.mp ht
  obtain ⟨hl', hp'⟩ := mem_pathPairs.mp hu
  by_cases heq : l = l'
  · subst heq
    have hpaths : p ≠ p' := fun h => hne (h ▸ rfl)
    exact (ComesBefore.total hp hp' hpaths).imp (fun h => .inl ⟨rfl, h⟩) fun h => .inl ⟨rfl, h⟩
  · exact (ComesBefore.total hl hl' heq).imp (fun h => .inr ⟨heq, h⟩) fun h => .inr ⟨Ne.symm heq, h⟩

/-- What is painted first is found first. -/
theorem Document.Distinct.pair_sublist_paintedPairs {d : Document α} {t u : Layer α × ShapePath α}
    (hd : d.Distinct) (ht : t ∈ pathPairs d.layers) (hu : u ∈ pathPairs d.layers) (htu : d.DrawnBefore t u) :
    [t, u].Sublist d.paintedPairs := by
  have hmem {t : Layer α × ShapePath α} (ht : t ∈ pathPairs d.layers) : t ∈ d.paintedPairs :=
    Document.mem_paintedPairs.mpr (mem_pathPairs.mp ht)
  have hasymm := hd.drawnBefore_asymm ht htu
  have hne : t ≠ u := by
    rintro rfl
    exact hasymm htu
  refine (pair_sublist_total (hmem ht) (hmem hu) hne).resolve_right fun hut => hasymm ?_
  exact List.pairwise_iff_forall_sublist.mp hd.pairwise_paintedPairs hut

end Drawing
