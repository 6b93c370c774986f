import Drawing.Proofs.Document.Outline
import Drawing.Proofs.Markup.Page
import Drawing.Proofs.Markup.PaintOrder
import Drawing.Studio.Draft

/-!
# `Drawing/Proofs/Markup/Accepted.lean` — pages of accepted documents

Two checks stand between a design and its delivery, one of the document and one of its page, and neither knows of
the other. They agree on everything but one thing: a path without commands is fine as a part of a document, only
worth a warning, but its path data are empty, and that a page may not have.

> **an accepted document has a page** — it can be painted, and the check of the page finds its paths without
> commands and nothing else.
-/

namespace Drawing

variable {α : Type}

/-! ## Paint order -/

/-- Redrawn paths are painted in the order of the paths that they are made of. -/
theorem Document.Redrawn.paintedPairs {R : Layer α → ShapePath α → ShapePath α → Prop} {d d' : Document α}
    (h : d.Redrawn R d') (hlayout : ∀ l p p', R l p p' → p'.layout = p.layout) :
    List.Forall₂ (fun (l, p) p' => R l p p') d.paintedPairs d'.paintedPaths := by
  have hlayers : List.Forall₂ (Layer.Redrawn R) d.paintedLayers d'.paintedLayers :=
    forall₂_paintOrder (fun l l' hl => by rw [hl.layout]) h.layers
  refine List.rel_flatMap hlayers fun l l' hl => ?_
  rw [List.forall₂_map_left_iff]
  exact forall₂_paintOrder (fun p p' hp => by rw [hlayout l p p' hp]) hl.paths

theorem Document.Redrawn.paintedPaths {R : Layer α → ShapePath α → ShapePath α → Prop} {d d' : Document α}
    (h : d.Redrawn R d') (hlayout : ∀ l p p', R l p p' → p'.layout = p.layout) :
    List.Forall₂ (fun p p' => ∃ l ∈ d.layers, p ∈ l.paths ∧ R l p p') d.paintedPaths d'.paintedPaths := by
  rw [← d.map_snd_paintedPairs, List.forall₂_map_left_iff]
  refine (forall₂_mem (h.paintedPairs hlayout)).imp ?_
  rintro ⟨l, p⟩ p' ⟨hmem, hR⟩
  obtain ⟨hl, hp⟩ := mem_paintedPairs.mp hmem
  exact ⟨l, hl, hp, hR⟩

/-! ## Accepted documents -/

section

variable [Scalar α]

/-- What is known of an accepted document: its points are finite, its paths begin with moves, and what it repeats
it repeats at least once. -/
structure Document.Accepted (d : Document α) : Prop where
  finite : d.IsFinite
  startsWithMove : ∀ l ∈ d.layers, ∀ p ∈ l.paths, p.startsWithMove = true
  copies : ∀ l ∈ d.layers, ∀ p ∈ l.paths, 0 < (d.layoutOf l p).copies
  resolved : d.resolved = false

theorem Document.resolved_of_accepted {raw : Fields α} {canvas : Option (Canvas α)} {o : Outcome α}
    {given d : Document α} (hread : readFields (withoutResolved raw) = .valid given)
    (h : given.validate canvas = .ok o) (ha : o.accepted? = some d) : d.resolved = false := by
  obtain ⟨-, m, rescale, hm, rfl⟩ := accepted_of_validate h ha
  show m.resolved = false
  rw [← resolved_of_readFields hread]
  cases canvas with
  | none =>
    obtain ⟨rfl, -⟩ := Prod.mk.inj (Except.ok.inj hm)
    rfl
  | some canvas => exact resolved_conform hm

theorem Document.accepted_of_validateData [StaysFinite α] {raw : Fields α} {canvas : Option (Canvas α)}
    {o : Outcome α} {d : Document α} (h : validateData raw canvas = .ok o) (ha : o.accepted? = some d) :
    d.Accepted := by
  obtain ⟨given, hread, h⟩ := exists_given h ha
  have hsound := Document.readFields_sound hread
  obtain ⟨hfindings, hredrawn⟩ := Document.accepted_redrawn h ha
  -- every path of the accepted document comes from one that was read
  have hpath {l' : Layer α} (hl' : l' ∈ d.layers) {p' : ShapePath α} (hp' : p' ∈ l'.paths) :
      ∃ l ∈ given.layers, ∃ p ∈ l.paths, l'.layout = l.layout ∧ p.Traced p' := by
    obtain ⟨l, hl, p, hp, hll, hpp⟩ := hredrawn.exists_path hl' hp'
    exact ⟨l, hl, p, hp, hll.layout, hpp⟩
  refine ⟨isFinite_accepted (fun l hl p hp => ((hsound l hl).paths p hp).finite) h ha, ?_, ?_,
    resolved_of_accepted hread h ha⟩
  · intro l' hl' p' hp'
    obtain ⟨l, hl, p, hp, -, htraced⟩ := hpath hl' hp'
    rw [startsWithMove_congr htraced.letters]
    exact (findings_eq_nil_iff.mp hfindings).moves l hl p hp
  · intro l' hl' p' hp'
    obtain ⟨l, hl, p, hp, hlayout, htraced⟩ := hpath hl' hp'
    refine d.copies_pos ?_ ?_
    · rw [hlayout]
      exact (hsound l hl).repeats
    · rw [htraced.frame]
      exact ((hsound l hl).paths p hp).repeats

theorem Document.resolved_resolve [Trig α] {d r : Document α} (h : d.resolve = .ok r) :
    r.resolved = true := by
  cases hresolved : d.resolved with
  | true => exact Except.ok.inj ((resolve_of_resolved hresolved).symm.trans h) ▸ hresolved
  | false =>
    obtain ⟨catalog, -, hframe, -⟩ := (resolve_eq_ok_iff hresolved).mp h
    rw [hframe]

/-- The sides of a framed document are scalars, or it could not have been framed. -/
theorem Document.sides_of_fit {d f : Document α} {padding : Numeral α} {framing : Framing α}
    (h : d.fit padding = .ok (f, framing)) : ∃ sides, f.canvas.sides = .ok sides := by
  obtain ⟨framing', hframe, h⟩ := bind_eq_ok_iff.mp h
  obtain ⟨rfl, -⟩ := Prod.mk.inj (pure_eq_ok_iff.mp h)
  obtain ⟨width, hwidth, hframe⟩ := bind_eq_ok_iff.mp hframe
  obtain ⟨height, hheight, -⟩ := bind_eq_ok_iff.mp hframe
  exact ⟨(width, height), bind_eq_ok_iff.mpr ⟨width, hwidth, bind_eq_ok_iff.mpr ⟨height, hheight, rfl⟩⟩⟩

theorem Document.exists_markup [DecimalText α] [Trig α] {d r : Document α} {sides : α × α}
    (hr : d.resolve = .ok r) (hs : d.canvas.sides = .ok sides) : ∃ markup, d.markup = .ok markup :=
  ⟨_, markup_eq_ok_iff.mpr ⟨r, sides.1, sides.2, hr, hs, rfl⟩⟩

theorem filter_map_congr {β γ : Type} {R : β → β → Prop} {keep : β → Bool} {g : β → γ}
    (hR : ∀ x y, R x y → keep x = keep y ∧ g x = g y) {xs ys : List β} (h : List.Forall₂ R xs ys) :
    (xs.filter keep).map g = (ys.filter keep).map g := by
  induction h with
  | nil => rfl
  | cons hxy _ ih =>
    obtain ⟨hkeep, hg⟩ := hR _ _ hxy
    rw [List.filter_cons, List.filter_cons, hkeep]
    split_ifs
    · rw [List.map_cons, List.map_cons, hg, ih]
    · exact ih

end

/-! ## Pages -/

theorem Document.emptyPaths_eq_nil_iff {d : Document α} :
    (d.paintedPaths.filter fun p => p.commands.isEmpty) = [] ↔
      ∀ l ∈ d.layers, ∀ p ∈ l.paths, p.commands ≠ [] := by
  simp only [List.filter_eq_nil_iff, mem_paintedPaths, List.isEmpty_iff]
  constructor
  · intro h l hl p hp
    exact h p ⟨l, hl, hp⟩
  · rintro h p ⟨l, hl, hp⟩
    exact h l hl p hp

section

variable [Scalar α]

/-- Repeating a path leaves it empty just if it was. -/
theorem Document.Accepted.emptyPathIssues {d f : Document α} (hd : d.Accepted)
    (h : d.Redrawn (fun l p p' => p.Repeated (d.layoutOf l p).copies p') f) :
    (f.paintedPaths.filter fun p => p.commands.isEmpty).map
      (fun p => (⟨p.writtenId, DataProblem.empty.text⟩ : PathIssue)) =
        (d.paintedPaths.filter fun p => p.commands.isEmpty).map
          fun p => ⟨p.writtenId, DataProblem.empty.text⟩ := by
  have hpainted := h.paintedPaths fun _ _ _ hp => by rw [hp.frame]; rfl
  refine (filter_map_congr ?_ hpainted).symm
  rintro p p' ⟨l, hl, hp, hpp⟩
  refine ⟨(hpp.isEmpty_commands (hd.copies l hl p hp)).symm, ?_⟩
  rw [hpp.frame]
  rfl

variable [Trig α]

theorem Document.resolve_of_fit {d r f : Document α} {padding : Numeral α} {framing : Framing α}
    (hr : d.resolve = .ok r) (hfit : r.fit padding = .ok (f, framing)) : f.resolve = .ok f := by
  obtain ⟨framing', -, hframed⟩ := bind_eq_ok_iff.mp hfit
  obtain ⟨rfl, -⟩ := Prod.mk.inj (pure_eq_ok_iff.mp hframed)
  have hresolved : r.resolved = true := resolved_resolve hr
  exact resolve_of_resolved hresolved

/-- Laying out repeats the paths of an accepted document and framing moves them. -/
theorem Document.Accepted.redrawn {d r f : Document α} (hd : d.Accepted) {padding : Numeral α}
    {framing : Framing α} (hr : d.resolve = .ok r) (hfit : r.fit padding = .ok (f, framing)) :
    d.Redrawn (fun l p p' => p.Repeated (d.layoutOf l p).copies p') f :=
  (resolve_redrawn hd.resolved hd.startsWithMove hr).trans (fit_redrawn hfit)
    fun _ _ _ _ _ _ hp hp' => hp.traced hp'

variable [DecimalText α]

/-- The page of an accepted document, and all that its check finds. -/
theorem Document.Accepted.checkMarkup {d r f : Document α} (hd : d.Accepted) {padding : Numeral α}
    {framing : Framing α} (hr : d.resolve = .ok r) (hfit : r.fit padding = .ok (f, framing)) :
    ∃ markup, f.markup = .ok markup ∧ Drawing.checkMarkup markup =
      ⟨[], (d.paintedPaths.filter fun p => p.commands.isEmpty).map
        fun p => ⟨p.writtenId, DataProblem.empty.text⟩⟩ := by
  have hredrawn := hd.redrawn hr hfit
  have hf : f.resolve = .ok f := resolve_of_fit hr hfit
  have hfinite : f.IsFinite := isFinite_fit (isFinite_resolve hd.finite hr) hfit
  have hstart : ∀ l ∈ f.layers, ∀ p ∈ l.paths, p.startsWithMove = true := by
    intro l' hl' p' hp'
    obtain ⟨l, hl, p, hp, -, hpp⟩ := hredrawn.exists_path hl' hp'
    exact hpp.startsWithMove (hd.copies l hl p hp) (hd.startsWithMove l hl p hp)
  obtain ⟨sides, hsides⟩ := sides_of_fit hfit
  obtain ⟨markup, hmarkup⟩ := exists_markup hf hsides
  refine ⟨markup, hmarkup, ?_⟩
  rw [checkMarkup_markup hf hmarkup hfinite hstart, hd.emptyPathIssues hredrawn]

end

section

variable [Scalar α] [DecimalText α] [Trig α] [StaysFinite α]

end

/-- A row of strokes with a name that markup has to escape, next to a path that was left empty. -/
def hurdleDesign : Fields Float := [
  ("layers", .arr [
    .obj [("id", .str "a<b"), ("label", .str "--"),
      ("layout", .obj [("region", .str "top_left"),
        ("repeat", .obj [("type", .str "grid"), ("count", .ofInt 3)])]),
      ("paths", .arr [
        .obj [("id", .str "\" d=\"M"), ("commands", .arr [
          .obj [("cmd", .str "M"), ("coords", .arr [.ofInt 0, .ofReal 1.25])],
          .obj [("cmd", .str "L"), ("coords", .arr [.ofInt 9, .ofInt (-3)])]])],
        .obj [("id", .str "<path>"), ("commands", .arr [])]])]])]

/-- All that a design goes through up to its page. -/
def runToPage (raw : Fields Float) : Except (Fault Float) MarkupReport := do
  let o ← validateData raw none
  let d ← o.accepted?.elim (.error .emptyCache) .ok
  let r ← d.resolve
  let (f, _) ← r.fit (.real 0.15)
  return checkMarkup (← f.markup)

theorem exists_of_runToPage {raw : Fields Float} {report : MarkupReport} (h : runToPage raw = .ok report) :
    ∃ o d r f framing markup, validateData raw none = .ok o ∧ o.accepted? = some d ∧ d.resolve = .ok r ∧
      r.fit (.real 0.15) = .ok (f, framing) ∧ f.markup = .ok markup ∧ checkMarkup markup = report := by
  obtain ⟨o, ho, h⟩ := bind_eq_ok_iff.mp h
  obtain ⟨d, hd, h⟩ := bind_eq_ok_iff.mp h
  obtain ⟨r, hr, h⟩ := bind_eq_ok_iff.mp h
  obtain ⟨⟨f, framing⟩, hf, h⟩ := bind_eq_ok_iff.mp h
  obtain ⟨markup, hm, h⟩ := bind_eq_ok_iff.mp h
  have ha : o.accepted? = some d := by
    cases hacc : o.accepted? with
    | none => simp [hacc] at hd
    | some d' => simpa [hacc] using hd
  exact ⟨o, d, r, f, framing, markup, ho, ha, hr, hf, hm, pure_eq_ok_iff.mp h⟩

end Drawing
