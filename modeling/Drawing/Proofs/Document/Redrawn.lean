import Drawing.Layout.Stage
import Drawing.Proofs.Document.Canvas
import Drawing.Proofs.Path.Points

/-!
# `Drawing/Proofs/Document/Redrawn.lean` — documents redrawn path by path

A pass over a document works on its paths one for one and puts the results where the paths were. What a pass may
make of a path is a relation; that nothing else is touched is the same for all of them: ids, labels and layouts,
the order of layers and paths, and what the document itself says of layouts.
-/

namespace Drawing

variable {α : Type}

/-- A layer with its paths redrawn in place, each as `R` allows for a path of this layer. -/
structure Layer.Redrawn (R : Layer α → ShapePath α → ShapePath α → Prop) (l l' : Layer α) : Prop where
  frame : l' = l.withPaths l'.paths
  paths : List.Forall₂ (R l) l.paths l'.paths

/-- A document with the paths of all its layers redrawn. -/
structure Document.Redrawn (R : Layer α → ShapePath α → ShapePath α → Prop) (d d' : Document α) :
    Prop where
  layout : d'.layout = d.layout
  layers : List.Forall₂ (Layer.Redrawn R) d.layers d'.layers

/-- A path whose points were moved, and nothing else. -/
structure ShapePath.Traced (p p' : ShapePath α) : Prop where
  frame : p' = p.withCommands p'.commands
  letters : p'.commands.map Command.letter = p.commands.map Command.letter

theorem ShapePath.Traced.refl (p : ShapePath α) : p.Traced p := ⟨rfl, rfl⟩

theorem ShapePath.Traced.trans {p q r : ShapePath α} (h : p.Traced q) (h' : q.Traced r) :
    p.Traced r := by
  refine ⟨?_, h'.letters.trans h.letters⟩
  calc r = q.withCommands r.commands := h'.frame
    _ = p.withCommands r.commands := by rw [h.frame]; rfl

theorem Layer.Redrawn.layout {R : Layer α → ShapePath α → ShapePath α → Prop} {l l' : Layer α}
    (h : l.Redrawn R l') : l'.layout = l.layout := by rw [h.frame]; rfl

theorem Layer.Redrawn.id {R : Layer α → ShapePath α → ShapePath α → Prop} {l l' : Layer α}
    (h : l.Redrawn R l') : l'.id = l.id := by rw [h.frame]; rfl

namespace Document.Redrawn

variable {R S T : Layer α → ShapePath α → ShapePath α → Prop} {d d' d'' : Document α}

theorem imp (h : d.Redrawn R d') (himp : ∀ l ∈ d.layers, ∀ p ∈ l.paths, ∀ p', R l p p' → S l p p') :
    d.Redrawn S d' := by
  refine ⟨h.layout, (forall₂_mem h.layers).imp ?_⟩
  rintro l l' ⟨hl, hredrawn⟩
  exact ⟨hredrawn.frame, (forall₂_mem hredrawn.paths).imp fun p p' ⟨hp, hR⟩ => himp l hl p hp p' hR⟩

theorem regions (h : d.Redrawn R d') : d'.regions = d.regions := by
  unfold Document.regions
  rw [h.layout]

theorem refl (hR : ∀ l p, R l p p)
    (d : Document α) : d.Redrawn R d :=
  ⟨rfl, List.forall₂_same.mpr fun l _ => ⟨rfl, List.forall₂_same.mpr fun p _ => hR l p⟩⟩

/-- Two passes, one after the other. -/
theorem trans (h : d.Redrawn R d') (h' : d'.Redrawn S d'')
    (hT : ∀ l l' p p' p'', l.Redrawn R l' → R l p p' → S l' p' p'' → T l p p'') :
    d.Redrawn T d'' := by
  refine ⟨h'.layout.trans h.layout, (forall₂_comp h.layers h'.layers).imp ?_⟩
  rintro l l'' ⟨l', hl, hl'⟩
  refine ⟨?_, (forall₂_comp hl.paths hl'.paths).imp ?_⟩
  · calc l'' = l'.withPaths l''.paths := hl'.frame
      _ = l.withPaths l''.paths := by rw [hl.frame]; rfl
  · rintro p p'' ⟨p', hp, hp'⟩
    exact hT l l' p p' p'' hl hp hp'

/-- Every layer of a redrawn document is one of the document, redrawn. -/
theorem exists_layer (h : d.Redrawn R d') {l' : Layer α} (hl : l' ∈ d'.layers) :
    ∃ l ∈ d.layers, l.Redrawn R l' := exists_left_of_mem h.layers hl

/-- Every path of a redrawn document is one of the document, redrawn. -/
theorem exists_path (h : d.Redrawn R d') {l' : Layer α} (hl : l' ∈ d'.layers) {p' : ShapePath α} (hp : p' ∈ l'.paths) :
    ∃ l ∈ d.layers, ∃ p ∈ l.paths, l.Redrawn R l' ∧ R l p p' := by
  obtain ⟨l, hl, hredrawn⟩ := h.exists_layer hl
  obtain ⟨p, hp, hR⟩ := exists_left_of_mem hredrawn.paths hp
  exact ⟨l, hl, p, hp, hredrawn, hR⟩

end Document.Redrawn

section

variable [Scalar α]

/-- Moving a document to a canvas moves points only. -/
theorem Document.conform_redrawn {d m : Document α} {canvas : Canvas α} {rescale : Option (Rescale α)}
    (h : d.conform canvas = .ok (m, rescale)) : d.Redrawn (fun _ => ShapePath.Traced) m := by
  obtain ⟨-, -, rfl⟩ | ⟨-, -, sx, sy, layers, -, -, hls, rfl⟩ := conform_cases h
  · refine ⟨rfl, List.forall₂_same.mpr fun l _ => ⟨rfl, List.forall₂_same.mpr fun p _ => .refl p⟩⟩
  · refine ⟨rfl, (mapM_eq_ok_iff.mp hls).imp fun l l' hl => ?_⟩
    obtain ⟨paths, hps, hl⟩ := bind_eq_ok_iff.mp hl
    obtain rfl := pure_eq_ok_iff.mp hl
    refine ⟨rfl, (mapM_eq_ok_iff.mp hps).imp fun p p' hp => ?_⟩
    obtain ⟨commands, hc, hp⟩ := bind_eq_ok_iff.mp hp
    obtain rfl := pure_eq_ok_iff.mp hp
    exact ⟨rfl, letter_rebuilt hc⟩

/-- Cleaning a document moves points only. -/
theorem Document.sanitize_redrawn (d : Document α) :
    d.Redrawn (fun _ => ShapePath.Traced) d.sanitize := by
  refine ⟨rfl, List.forall₂_map_right_iff.mpr <| List.forall₂_same.mpr fun l _ => ⟨rfl, ?_⟩⟩
  refine List.forall₂_map_right_iff.mpr <| List.forall₂_same.mpr fun p _ => ⟨rfl, ?_⟩
  simp [ShapePath.sanitize, ShapePath.withCommands, Function.comp_def]

/-- An accepted document is the one that was checked, with points moved and nothing else. -/
theorem Document.accepted_redrawn {d a : Document α} {canvas : Option (Canvas α)} {o : Outcome α}
    (h : d.validate canvas = .ok o) (ha : o.accepted? = some a) :
    d.findings.1 = [] ∧ d.Redrawn (fun _ => ShapePath.Traced) a := by
  obtain ⟨hfindings, m, rescale, hm, rfl⟩ := accepted_of_validate h ha
  refine ⟨hfindings, ?_⟩
  have hmoved : d.Redrawn (fun _ => ShapePath.Traced) m := by
    cases canvas with
    | none =>
      obtain ⟨rfl, -⟩ := Prod.mk.inj (Except.ok.inj hm)
      exact .refl (fun _ p => .refl p) d
    | some c => exact conform_redrawn hm
  exact hmoved.trans m.sanitize_redrawn fun _ _ _ _ _ _ hp hp' => hp.trans hp'

/-- A path that no layout moves is left alone, and of any other the commands are carried out. -/
theorem Document.resolvePath_cases [Trig α] {d : Document α} {stage : Stage α} {l : Layer α} {p p' : ShapePath α}
    (h : d.resolvePath stage l p = .ok p') :
    (d.isMoved l p = false ∧ p' = p) ∨
      d.isMoved l p = true ∧ ∃ commands, stage.transform p.commands (d.layoutOf l p) = .ok commands ∧
        p' = p.withCommands commands := by
  unfold resolvePath at h
  split_ifs at h with hmoved
  · obtain ⟨commands, hcommands, h⟩ := bind_eq_ok_iff.mp h
    exact .inr ⟨hmoved, commands, hcommands, (pure_eq_ok_iff.mp h).symm⟩
  · exact .inl ⟨Bool.eq_false_iff.mpr hmoved, (Except.ok.inj h).symm⟩

theorem Document.frame_of_resolvePath [Trig α] {d : Document α} {stage : Stage α} {l : Layer α}
    {p p' : ShapePath α} (h : d.resolvePath stage l p = .ok p') : p' = p.withCommands p'.commands := by
  obtain ⟨-, rfl⟩ | ⟨-, commands, -, rfl⟩ := resolvePath_cases h
  · rfl
  · rfl

/-- **Laying out** works on one path after the other, and comes through if every path does. -/
theorem Document.resolve_eq_ok_iff [Trig α] {d r : Document α} (hresolved : d.resolved = false) :
    d.resolve = .ok r ↔ ∃ catalog, d.catalog = .ok catalog ∧ r = { d with layers := r.layers, resolved := true } ∧
      d.Redrawn (fun l p p' => d.resolvePath ⟨d.canvas, catalog⟩ l p = .ok p') r := by
  unfold resolve
  rw [if_neg (by simp [hresolved]), bind_eq_ok_iff]
  refine exists_congr fun catalog => and_congr_right fun _ => ?_
  constructor
  · intro h
    obtain ⟨layers, hlayers, h⟩ := bind_eq_ok_iff.mp h
    obtain rfl := pure_eq_ok_iff.mp h
    refine ⟨rfl, rfl, (mapM_eq_ok_iff.mp hlayers).imp fun l l' hlayer => ?_⟩
    obtain ⟨paths, hpaths, hlayer⟩ := bind_eq_ok_iff.mp hlayer
    obtain rfl := pure_eq_ok_iff.mp hlayer
    exact ⟨rfl, mapM_eq_ok_iff.mp hpaths⟩
  · rintro ⟨hframe, -, hlayers⟩
    refine bind_eq_ok_iff.mpr ⟨r.layers, mapM_eq_ok_iff.mpr (hlayers.imp fun l l' hl => ?_),
      pure_eq_ok_iff.mpr hframe.symm⟩
    exact bind_eq_ok_iff.mpr ⟨l'.paths, mapM_eq_ok_iff.mpr hl.paths, pure_eq_ok_iff.mpr hl.frame.symm⟩

/-- A document that is not laid out yet can be laid out just if each of its paths can. -/
theorem Document.exists_resolve_iff [Trig α] {d : Document α} {catalog : Catalog α} (hresolved : d.resolved = false)
    (hcatalog : d.catalog = .ok catalog) :
    (∃ r, d.resolve = .ok r) ↔
      ∀ l ∈ d.layers, ∀ p ∈ l.paths, ∃ p', d.resolvePath ⟨d.canvas, catalog⟩ l p = .ok p' := by
  unfold resolve
  rw [hresolved, if_neg Bool.false_ne_true, hcatalog]
  constructor
  · rintro ⟨r, h⟩ l hl p hp
    obtain ⟨_, hsame, h⟩ := bind_eq_ok_iff.mp h
    obtain rfl := Except.ok.inj hsame
    obtain ⟨layers, hlayers, -⟩ := bind_eq_ok_iff.mp h
    obtain ⟨l', -, hlayer⟩ := exists_ok_of_mem hlayers hl
    obtain ⟨paths, hpaths, -⟩ := bind_eq_ok_iff.mp hlayer
    obtain ⟨p', -, hp'⟩ := exists_ok_of_mem hpaths hp
    exact ⟨p', hp'⟩
  · intro h
    have hlayer : ∀ l ∈ d.layers, ∃ l', d.resolveLayer ⟨d.canvas, catalog⟩ l = .ok l' := fun l hl =>
      have ⟨paths, hpaths⟩ := exists_forall₂ (h l hl)
      exists_bind_ok ⟨paths, mapM_eq_ok_iff.mpr hpaths⟩ fun _ => ⟨_, rfl⟩
    obtain ⟨layers, hlayers⟩ := exists_forall₂ hlayer
    exact ⟨_, bind_eq_ok_iff.mpr ⟨catalog, rfl, bind_eq_ok_iff.mpr ⟨layers, mapM_eq_ok_iff.mpr hlayers, rfl⟩⟩⟩

theorem Document.resolve_of_resolved [Trig α] {d : Document α} (h : d.resolved = true) : d.resolve = .ok d :=
  if_pos h

/-- Laying out changes the commands of paths and nothing else. -/
theorem Document.redrawn_resolve [Trig α] {d r : Document α} (h : d.resolve = .ok r) :
    d.Redrawn (fun _ p p' => p' = p.withCommands p'.commands) r := by
  cases hresolved : d.resolved with
  | true =>
    obtain rfl := Except.ok.inj ((resolve_of_resolved hresolved).symm.trans h)
    refine .refl (fun l p => ?_) d
    rfl
  | false =>
    obtain ⟨catalog, -, -, hredrawn⟩ := (resolve_eq_ok_iff hresolved).mp h
    exact hredrawn.imp fun l _ p _ p' => frame_of_resolvePath

end

end Drawing
