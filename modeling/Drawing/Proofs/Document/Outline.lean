import Drawing.Layout.Stage
import Drawing.Proofs.Document.Redrawn
import Drawing.Proofs.Layout.Copies
import Drawing.Proofs.Number.Finite
import Drawing.Proofs.Validation.Settled
import Drawing.Proofs.Viewport.Fit

/-!
# `Drawing/Proofs/Document/Outline.lean` — what becomes of each path

An accepted document is laid out and framed. Path by path, laying out repeats the letters and framing keeps them;
nothing else of a path is changed, and every point stays finite.
-/

namespace Drawing

variable {α : Type} [Scalar α]

/-- A document all of whose points are finite. -/
def Document.IsFinite (d : Document α) : Prop := ∀ l ∈ d.layers, ∀ p ∈ l.paths, CommandsFinite p.commands

/-! ## Accepting -/

theorem Document.isFinite_conform {d m : Document α} {canvas : Canvas α} {rescale : Option (Rescale α)}
    (hd : d.IsFinite) (h : d.conform canvas = .ok (m, rescale)) : m.IsFinite := by
  obtain ⟨-, -, rfl⟩ | ⟨-, -, sx, sy, layers, -, -, hlayers, rfl⟩ := conform_cases h
  · exact hd
  · intro l' hl' p' hp'
    obtain ⟨l, -, hl⟩ := exists_mem_of_ok hlayers hl'
    obtain ⟨paths, hpaths, hl⟩ := bind_eq_ok_iff.mp hl
    obtain rfl := pure_eq_ok_iff.mp hl
    obtain ⟨p, -, hp⟩ := exists_mem_of_ok hpaths hp'
    obtain ⟨commands, hcommands, hp⟩ := bind_eq_ok_iff.mp hp
    obtain rfl := pure_eq_ok_iff.mp hp
    exact finite_of_rebuilt hcommands

theorem isFinite_sanitizePoint [StaysFinite α] (c : Canvas α) (moved : Bool) {q : Point α}
    (h : q.IsFinite) : (c.sanitizePoint moved q).IsFinite := by
  have hround {q : Point α} (hq : q.IsFinite) : q.round.IsFinite :=
    ⟨StaysFinite.isFinite_roundTo _ hq.1, StaysFinite.isFinite_roundTo _ hq.2⟩
  have hside {side : Nat} {x : α} (hx : Scalar.isFinite x = true) :
      Scalar.isFinite (nearestOnSide side x) = true := by
    unfold nearestOnSide
    split_ifs with hbelow
    · exact StaysFinite.isFinite_ofNat hx hbelow
    · unfold Scalar.greatest
      split_ifs
      · exact StaysFinite.isFinite_zero
      · exact hx
  unfold Canvas.sanitizePoint
  split_ifs
  · exact hround h
  · exact hround ⟨hside h.1, hside h.2⟩

theorem Document.isFinite_sanitize [StaysFinite α] {d : Document α} (hd : d.IsFinite) :
    d.sanitize.IsFinite := by
  intro l' hl' p' hp' q hq
  obtain ⟨l, hl, rfl⟩ := List.mem_map.mp hl'
  obtain ⟨p, hp, rfl⟩ := List.mem_map.mp hp'
  rw [show (p.sanitize d.canvas (d.isMoved l p)).commands = p.commands.map (Command.map _) from rfl,
    pointsOf_map] at hq
  obtain ⟨q, hgiven, rfl⟩ := List.mem_map.mp hq
  exact isFinite_sanitizePoint _ _ (hd l hl p hp q hgiven)

theorem Document.isFinite_accepted [StaysFinite α] {d a : Document α} {canvas : Option (Canvas α)}
    {o : Outcome α} (hd : d.IsFinite) (h : d.validate canvas = .ok o) (ha : o.accepted? = some a) :
    a.IsFinite := by
  obtain ⟨-, m, rescale, hm, rfl⟩ := accepted_of_validate h ha
  refine isFinite_sanitize ?_
  cases canvas with
  | none =>
    obtain ⟨rfl, -⟩ := Prod.mk.inj (Except.ok.inj hm)
    exact hd
  | some canvas => exact isFinite_conform hd hm

omit [Scalar α] in
/-- A document whose paths were traced has paths that begin with moves if they did so before. -/
theorem Document.Redrawn.startsWithMove {d d' : Document α} (h : d.Redrawn (fun _ => ShapePath.Traced) d')
    (hd : ∀ l ∈ d.layers, ∀ p ∈ l.paths, p.startsWithMove = true) :
    ∀ l ∈ d'.layers, ∀ p ∈ l.paths, p.startsWithMove = true := by
  intro l' hl' p' hp'
  obtain ⟨l, hl, p, hp, -, htraced⟩ := h.exists_path hl' hp'
  rw [startsWithMove_congr htraced.letters]
  exact hd l hl p hp

/-! ## Laying out -/

theorem Document.isFinite_resolve [Trig α] {d r : Document α} (hd : d.IsFinite) (h : d.resolve = .ok r) :
    r.IsFinite := by
  cases hresolved : d.resolved with
  | true =>
    obtain rfl := Except.ok.inj ((resolve_of_resolved hresolved).symm.trans h)
    exact hd
  | false =>
    obtain ⟨catalog, -, -, hredrawn⟩ := (resolve_eq_ok_iff hresolved).mp h
    intro l' hl' p' hp'
    obtain ⟨l, hl, p, hp, -, hpath⟩ := hredrawn.exists_path hl' hp'
    obtain ⟨-, rfl⟩ | ⟨-, commands, hcommands, rfl⟩ := resolvePath_cases hpath
    · exact hd l hl p' hp
    · exact Stage.finite_transform (hd l hl p hp) hcommands

/-- A path that no layout moves is there once. -/
theorem Document.copies_of_not_isMoved {d : Document α} {l : Layer α} {p : ShapePath α}
    (h : d.isMoved l p = false) : (d.layoutOf l p).copies = 1 := by
  cases hidentity : (d.layoutOf l p).isIdentity with
  | true => exact Stage.copies_of_isIdentity hidentity
  | false =>
    -- then neither the path nor its layer has a layout
    have hnone : p.layout = none ∧ l.layout = none := by
      simpa [isMoved, hidentity] using h
    have hrepetition : (d.layoutOf l p).repetition = none := by
      simp [layoutOf, mergeLayouts, ownLayouts, hnone.1, hnone.2]
    unfold EffectiveLayout.copies
    rw [hrepetition]

/-- A path and a layer whose layouts repeat at least once draw the path at least once. -/
theorem Document.copies_pos (d : Document α) {l : Layer α} {p : ShapePath α}
    (hl : ∀ spec, l.layout = some spec → spec.Repeats) (hp : ∀ spec, p.layout = some spec → spec.Repeats) :
    0 < (d.layoutOf l p).copies := by
  refine EffectiveLayout.copies_pos fun r hr => ?_
  obtain ⟨spec, hspec, hr⟩ := List.exists_of_findSome?_eq_some
    (show (ownLayouts (some l) (some p)).findSome? LayoutSpec.repetition = some r from hr)
  rcases List.mem_append.mp hspec with hspec | hspec
  · exact hp spec (by simpa using hspec) r hr
  · exact hl spec (by simpa using hspec) r hr

/-- **Laying out** repeats the letters of a path as often as its layout says. -/
theorem Document.resolve_redrawn [Trig α] {d r : Document α} (hresolved : d.resolved = false)
    (hstart : ∀ l ∈ d.layers, ∀ p ∈ l.paths, p.startsWithMove = true) (h : d.resolve = .ok r) :
    d.Redrawn (fun l p p' => p.Repeated (d.layoutOf l p).copies p') r := by
  obtain ⟨catalog, -, -, hredrawn⟩ := (resolve_eq_ok_iff hresolved).mp h
  refine hredrawn.imp fun l hl p hp p' hpath => ?_
  obtain ⟨hfixed, rfl⟩ | ⟨-, commands, hcommands, rfl⟩ := resolvePath_cases hpath
  -- a path that stays where it is counts as one copy of itself
  · rw [copies_of_not_isMoved hfixed]
    exact .refl p'
  · exact ⟨rfl, Stage.letters_transform (hstart l hl p hp) hcommands⟩

/-! ## Framing -/

section

omit [Scalar α]

/-- Commands with the letters of some paths are dealt out to these paths, each getting its own letters. -/
theorem dealToPaths_traced {paths : List (ShapePath α)} {commands : List (Command α)}
    {letters : List Letter}
    (h : commands.map Command.letter = (paths.flatMap ShapePath.commands).map Command.letter ++ letters) :
    List.Forall₂ ShapePath.Traced paths (dealToPaths paths commands).1 ∧
      (dealToPaths paths commands).2.map Command.letter = letters := by
  -- what is left over after these paths has the letters that follow theirs
  induction paths generalizing commands with
  | nil => exact ⟨.nil, h⟩
  | cons p rest ih =>
    have hlength : (p.commands.map Command.letter).length = p.commands.length := List.length_map _
    rw [List.flatMap_cons, List.map_append, List.append_assoc] at h
    have hdealt : (commands.take p.commands.length).map Command.letter = p.commands.map Command.letter := by
      rw [List.map_take, h, List.take_left' hlength]
    have hleft : (commands.drop p.commands.length).map Command.letter =
        (rest.flatMap ShapePath.commands).map Command.letter ++ letters := by
      rw [List.map_drop, h, List.drop_left' hlength]
    obtain ⟨hrest, hletters⟩ := ih hleft
    exact ⟨.cons ⟨rfl, hdealt⟩ hrest, hletters⟩

theorem dealToLayers_redrawn {layers : List (Layer α)} {commands : List (Command α)}
    (h : commands.map Command.letter = (layers.flatMap Layer.commands).map Command.letter) :
    List.Forall₂ (Layer.Redrawn fun _ => ShapePath.Traced) layers (dealToLayers layers commands) := by
  induction layers generalizing commands with
  | nil => exact .nil
  | cons l rest ih =>
    rw [List.flatMap_cons, List.map_append] at h
    obtain ⟨hpaths, hleft⟩ := dealToPaths_traced h
    exact .cons ⟨rfl, hpaths⟩ (ih hleft)

end

/-- What is framed has the letters it had, and is finite if it was. -/
theorem frame_letters {commands : List (Command α)} {width height padding : Numeral α}
    {framing : Framing α} (h : frame commands width height padding = .ok framing) :
    framing.commands.map Command.letter = commands.map Command.letter ∧
      (CommandsFinite commands → CommandsFinite framing.commands) := by
  cases framed_of_frame h with
  | whole => exact ⟨rfl, id⟩
  | kept => exact ⟨rfl, id⟩
  | shrunk _ _ hdrawn => exact ⟨letter_rebuilt hdrawn, fun _ => finite_of_rebuilt hdrawn⟩

/-- **Framing** keeps the letters of every path. -/
theorem Document.fit_redrawn {d f : Document α} {padding : Numeral α} {framing : Framing α}
    (h : d.fit padding = .ok (f, framing)) : d.Redrawn (fun _ => ShapePath.Traced) f := by
  obtain ⟨framing', hframe, h⟩ := bind_eq_ok_iff.mp h
  obtain ⟨rfl, rfl⟩ := Prod.mk.inj (pure_eq_ok_iff.mp h)
  exact ⟨rfl, dealToLayers_redrawn (frame_letters hframe).1⟩

theorem Document.isFinite_fit {d f : Document α} {padding : Numeral α} {framing : Framing α}
    (hd : d.IsFinite) (h : d.fit padding = .ok (f, framing)) : f.IsFinite := by
  obtain ⟨framing', hframe, h⟩ := bind_eq_ok_iff.mp h
  obtain ⟨rfl, rfl⟩ := Prod.mk.inj (pure_eq_ok_iff.mp h)
  have hframed := (frame_letters hframe).2 (forall_mem_points_iff.mpr hd)
  intro l hl p hp q hq
  obtain ⟨c, hc, hq⟩ := List.mem_flatMap.mp hq
  exact hframed q (List.mem_flatMap.mpr ⟨c, mem_of_dealToLayers hl hp hc, hq⟩)

/-- Framing deals out all the commands that it has framed. -/
theorem Document.commands_fit {d f : Document α} {padding : Numeral α} {framing : Framing α}
    (h : d.fit padding = .ok (f, framing)) : f.commands = framing.commands := by
  obtain ⟨framing', hframe, h⟩ := bind_eq_ok_iff.mp h
  obtain ⟨rfl, rfl⟩ := Prod.mk.inj (pure_eq_ok_iff.mp h)
  refine commands_dealToLayers ?_
  have hletters := congrArg List.length (frame_letters hframe).1
  rwa [List.length_map, List.length_map] at hletters

end Drawing
