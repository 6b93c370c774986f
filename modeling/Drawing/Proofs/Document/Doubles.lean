import Drawing.Proofs.Layout.Unclamped
import Drawing.Proofs.Markup.Accepted

/-!
# `Drawing/Proofs/Document/Doubles.lean` — laying out accepted documents with doubles

Validation sees to it that coordinates are finite. Sizes, spacings and radii only have to be above zero, and even if
they are finite their products with the sides of a region need not be. So an accepted document may fail to be laid out:

> **an accepted document can be laid out** just if no point of an instance is lost as not-a-number, and then all its
> coordinates are finite.
-/

namespace Drawing

section

variable [Trig Float]

/-- What a layout makes of the points of a path before they are clamped, on the canvas of a document. -/
def Document.unclamped (d : Document Float) (catalog : Catalog Float) (l : Layer Float) (p : ShapePath Float) :
    Except (Fault Float) (List (Point Float)) :=
  Stage.unclamped ⟨d.canvas, catalog⟩ p.commands (d.layoutOf l p)

/-- A path that begins with a move can be laid out just if it stays where it is, has no commands, or has all points of
its instances. -/
theorem Document.exists_resolvePath_iff {d : Document Float} {catalog : Catalog Float} {l : Layer Float}
    {p : ShapePath Float} (hstart : p.startsWithMove = true) :
    (∃ p', d.resolvePath ⟨d.canvas, catalog⟩ l p = .ok p') ↔
      (d.isMoved l p = true → p.commands ≠ [] →
        ∃ ps, d.unclamped catalog l p = .ok ps ∧ ∀ q ∈ ps, q.IsNumber) := by
  unfold resolvePath
  cases hm : d.isMoved l p with
  | false =>
    rw [if_neg Bool.false_ne_true]
    exact iff_of_true ⟨p, rfl⟩ nofun
  | true =>
    have hmoves : (d.layoutOf l p).isIdentity = false := by
      unfold isMoved at hm
      simpa using (Bool.and_eq_true_iff.mp hm).2
    have htransform : (∃ p', Stage.transformPath ⟨d.canvas, catalog⟩ p l d = .ok p') ↔
        ∃ drawn, Stage.transform ⟨d.canvas, catalog⟩ p.commands (d.layoutOf l p) = .ok drawn := by
      constructor
      · rintro ⟨p', h⟩
        obtain ⟨drawn, hdrawn, -⟩ := bind_eq_ok_iff.mp h
        exact ⟨drawn, hdrawn⟩
      · exact fun h => exists_bind_ok h fun _ => ⟨_, rfl⟩
    rw [if_pos rfl, htransform, forall_prop_of_true rfl]
    unfold ShapePath.startsWithMove at hstart
    unfold unclamped
    split at hstart
    · next hnone =>
      rw [hnone]
      refine iff_of_true ⟨[], ?_⟩ fun h => absurd rfl h
      unfold Stage.transform
      rw [hmoves, if_neg Bool.false_ne_true]
      rfl
    · next c rest hcommands =>
      rw [hcommands]
      cases c with
      | move target =>
        rw [Stage.exists_transform_iff hmoves]
        exact ⟨fun h _ => h, fun h => h (List.cons_ne_nil _ _)⟩
      | line | cubic | quadratic | close => exact nomatch hstart

/-- **An accepted document can be laid out** just if the points of all instances of its paths can be made and are
numbers. They can be made unless a side of the canvas or a number of steps in a grid is too large for a double, and they
are numbers as long as sizes do not make the points of a path infinite and spacings and radii leave its origins numbers.
All coordinates of what comes out are finite. -/
theorem accepted_resolves_iff {raw : Fields Float} {canvas : Option (Canvas Float)} {o : Outcome Float}
    {d : Document Float} (hvalid : validateData raw canvas = .ok o) (haccepted : o.accepted? = some d) :
    (∀ r, d.resolve = .ok r → r.IsFinite) ∧ ∃ catalog, d.catalog = .ok catalog ∧
      ((∃ r, d.resolve = .ok r) ↔ ∀ l ∈ d.layers, ∀ p ∈ l.paths, d.isMoved l p = true → p.commands ≠ [] →
        ∃ ps, d.unclamped catalog l p = .ok ps ∧ ∀ q ∈ ps, q.IsNumber) ∧
      (∀ l ∈ d.layers, ∀ p ∈ l.paths, (∃ ps, d.unclamped catalog l p = .ok ps) ↔
        Stage.Measures ⟨d.canvas, catalog⟩ (d.layoutOf l p)) ∧
      ((∀ l ∈ d.layers, ∀ p ∈ l.paths, d.isMoved l p = true → p.commands ≠ [] →
        Stage.Bounded ⟨d.canvas, catalog⟩ p.commands (d.layoutOf l p)) → ∃ r, d.resolve = .ok r) := by
  have ha := Document.accepted_of_validateData hvalid haccepted
  obtain ⟨given, hgiven⟩ : ∃ given : Document Float, given.validate canvas = .ok o := by
    unfold validateData at hvalid
    split at hvalid
    · exact absurd haccepted (Except.ok.inj hvalid ▸ nofun)
    · exact ⟨_, hvalid⟩
  obtain ⟨hfindings, hredrawn⟩ := Document.accepted_redrawn hgiven haccepted
  obtain ⟨catalog, hgivenNamed⟩ := Document.named_of_findings hfindings
  have hnamed := hgivenNamed.of_redrawn hredrawn
  have hresolves : (∃ r, d.resolve = .ok r) ↔ ∀ l ∈ d.layers, ∀ p ∈ l.paths, d.isMoved l p = true →
      p.commands ≠ [] → ∃ ps, d.unclamped catalog l p = .ok ps ∧ ∀ q ∈ ps, q.IsNumber := by
    rw [Document.exists_resolve_iff ha.resolved hnamed.registered]
    exact forall₂_congr fun l hl => forall₂_congr fun p hp =>
      Document.exists_resolvePath_iff (ha.startsWithMove l hl p hp)
  have hmeasures : ∀ l ∈ d.layers, ∀ p ∈ l.paths, (∃ ps, d.unclamped catalog l p = .ok ps) ↔
      Stage.Measures ⟨d.canvas, catalog⟩ (d.layoutOf l p) := fun l hl p hp =>
    Stage.exists_unclamped_iff (hnamed.layoutOf_region hl hp) (mergeLayouts_anchor ..) p.commands
  refine ⟨fun r hr => Document.isFinite_resolve ha.finite hr, catalog, hnamed.registered, hresolves, hmeasures, ?_⟩
  intro hbounded
  refine hresolves.mpr fun l hl p hp hm hne => ?_
  have h := hbounded l hl p hp hm hne
  obtain ⟨ps, hps⟩ := (hmeasures l hl p hp).mpr h.measures
  exact ⟨ps, hps, h.isNumber_unclamped hps⟩

end

theorem accepted_resolves_iff_hurdle :
    ∃ o d, validateData hurdleDesign none = .ok o ∧ o.accepted? = some d ∧
      (∀ r, d.resolve = .ok r → r.IsFinite) ∧ ∃ catalog, d.catalog = .ok catalog ∧
        ((∃ r, d.resolve = .ok r) ↔ ∀ l ∈ d.layers, ∀ p ∈ l.paths, d.isMoved l p = true → p.commands ≠ [] →
          ∃ ps, d.unclamped catalog l p = .ok ps ∧ ∀ q ∈ ps, q.IsNumber) ∧
        (∀ l ∈ d.layers, ∀ p ∈ l.paths, (∃ ps, d.unclamped catalog l p = .ok ps) ↔
          Stage.Measures ⟨d.canvas, catalog⟩ (d.layoutOf l p)) ∧
        ((∀ l ∈ d.layers, ∀ p ∈ l.paths, d.isMoved l p = true → p.commands ≠ [] →
          Stage.Bounded ⟨d.canvas, catalog⟩ p.commands (d.layoutOf l p)) → ∃ r, d.resolve = .ok r) := by
  have hruns : (runToPage hurdleDesign).toOption.isSome = true := by decide +kernel
  obtain ⟨report, h⟩ := exists_ok_of_isSome hruns
  obtain ⟨o, d, -, -, -, -, ho, ha, -, -, -, -⟩ := exists_of_runToPage h
  exact ⟨o, d, ho, ha, accepted_resolves_iff ho ha⟩

/-- Two tiles with a finite spacing between them, which times the width of their region is too large for a double. -/
def farTilesDesign : Fields Float := [
  ("layers", .arr [.obj [("id", .str "tiles"), ("label", .str "Tiles"), ("paths", .arr [
    .obj [("id", .str "tile"),
      ("layout", .obj [("repeat", .obj [("type", .str "grid"), ("count", .ofInt 2), ("spacing", .ofReal 1e308)])]),
      ("commands", .arr [
        .obj [("cmd", .str "M"), ("coords", .arr [.ofInt 0, .ofInt 0])],
        .obj [("cmd", .str "L"), ("coords", .arr [.ofInt 8, .ofInt 4])]])]])]])]

/-- An accepted document need not come out with finite coordinates, as it need not come out at all. -/
theorem accepted_not_resolved :
    ¬ ∀ (raw : Fields Float) (canvas : Option (Canvas Float)) (o : Outcome Float) (d : Document Float),
      validateData raw canvas = .ok o → o.accepted? = some d → ∃ r, d.resolve = .ok r ∧ r.IsFinite := by
  intro hresolves
  have hruns : ((validateData farTilesDesign none).toOption.bind fun o =>
      o.accepted?.map fun d => d.resolve.toOption.isSome) = some false := by decide +kernel
  obtain ⟨o, ho, hruns⟩ := Option.bind_eq_some_iff.mp hruns
  obtain ⟨d, hd, hfails⟩ := Option.map_eq_some_iff.mp hruns
  obtain ⟨r, hr, -⟩ := hresolves _ _ _ _ (eq_ok_of_toOption ho) hd
  rw [hr] at hfails
  exact nomatch hfails

end Drawing
