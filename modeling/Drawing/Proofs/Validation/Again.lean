import Drawing.Proofs.Document.Clean
import Drawing.Proofs.Document.Outline

/-!
# `Drawing/Proofs/Validation/Again.lean` — validating what was validated

What validation does to a document can be done once only. Ids, names and letters are as they were, so that nothing is
found in it where nothing was; it is on the canvas that was asked for; and its points are where they may be, in
hundredths (`Document.IsTidy`). Which of them may be off the canvas is a question about layouts, and these are as they
were, too. Numbers are exact here.

> **An accepted document is accepted as it is** (`validate_again`).
-/

namespace Drawing

/-! ## Holding together -/

/-- Nothing that is looked at depends on where the points of a document are. -/
theorem Document.Coherent.of_redrawn {α : Type} [Scalar α] {d d' : Document α} (h : d.Coherent)
    (hd : d.Redrawn (fun _ => ShapePath.Traced) d') : d'.Coherent := by
  have hids : d'.layers.map Layer.id = d.layers.map Layer.id :=
    (map_eq_of_forall₂ (fun _ _ hl => hl.id.symm) hd.layers).symm
  refine ⟨?_, fun l' hl' => ?_, hids ▸ h.distinctLayers, fun l' hl' => ?_, fun l' hl' => ?_,
    fun l' hl' p' hp' => ?_, hd.startsWithMove h.moves⟩
  · rw [hd.regions]
    exact h.regions
  · obtain ⟨l, hl, hll⟩ := hd.exists_layer hl'
    rw [hll.id]
    exact h.layerIds l hl
  · obtain ⟨l, hl, hll⟩ := hd.exists_layer hl'
    have hpaths : l'.paths.map ShapePath.id = l.paths.map ShapePath.id :=
      (map_eq_of_forall₂ (fun p p' hpp => by rw [hpp.frame]; rfl) hll.paths).symm
    rw [hpaths]
    exact h.distinctPaths l hl
  · obtain ⟨l, hl, hll⟩ := hd.exists_layer hl'
    rw [hd.regions, hll.layout]
    exact h.layerRegions l hl
  · obtain ⟨l, hl, p, hp, -, hpp⟩ := hd.exists_path hl' hp'
    rw [hd.regions, hpp.frame]
    exact h.pathRegions l hl p hp

/-! ## Being tidy -/

theorem isHundredths_roundRat (q : Rat) : IsHundredths (roundRat 2 q) := by
  refine ⟨nearestInt (q * 100), ?_⟩
  rw [roundRat_eq_div, tenTo_two]
  exact div_mul_cancel₀ _ (by norm_num)

theorem Point.isHundredths_round (p : Point Rat) : p.round.IsHundredths := by
  unfold round coordinatePlaces
  rw [Scalar.roundTo_exact, Scalar.roundTo_exact]
  exact ⟨isHundredths_roundRat p.x, isHundredths_roundRat p.y⟩

/-- **A document is tidy once it was cleaned.** -/
theorem Document.isTidy_sanitize (d : Document Rat) : d.sanitize.IsTidy where
  rounded l hl p hp q hq := by
    obtain ⟨l₀, -, rfl⟩ := List.mem_map.mp hl
    obtain ⟨p₀, -, rfl⟩ := List.mem_map.mp hp
    rw [show (p₀.sanitize d.canvas (d.isMoved l₀ p₀)).commands = p₀.commands.map (Command.map _) from rfl,
      pointsOf_map] at hq
    obtain ⟨q₀, -, rfl⟩ := List.mem_map.mp hq
    unfold Canvas.sanitizePoint
    split_ifs
    · exact q₀.isHundredths_round
    · exact Point.isHundredths_round _
  fixed := d.fixed_sanitize

/-! ## Being on the canvas that is asked for -/

/-- A document that was moved to a canvas is not moved again. -/
theorem Document.conformTo_again {α : Type} [Scalar α] {d m : Document α} {canvas : Option (Canvas α)}
    {rescale : Option (Rescale α)} (h : d.conformTo canvas = .ok (m, rescale)) {a : Document α}
    (ha : a.canvas = m.canvas) : a.conformTo canvas = .ok (a, none) := by
  cases canvas with
  | none => rfl
  | some canvas =>
    have hcanvas : a.canvas = { canvas with viewBox := a.canvas.viewBox } := ha ▸ canvas_conform h
    have hsize : a.canvas.width = canvas.width ∧ a.canvas.height = canvas.height := by
      rw [hcanvas]
      exact ⟨rfl, rfl⟩
    unfold conformTo conform
    dsimp only
    rw [if_pos hsize, ← hcanvas]

/-! ## Validating again -/

theorem Document.validate_accepted {d a : Document Rat} {canvas : Option (Canvas Rat)} {o : Outcome Rat}
    (h : d.validate canvas = .ok o) (ha : o.accepted? = some a) :
    a.validate canvas = .ok (.accepted a a.findings.2 none []) ∧
      ∀ c ∈ canvas, a.canvas = { c with viewBox := a.canvas.viewBox } := by
  obtain ⟨hfindings, hredrawn⟩ := accepted_redrawn h ha
  have hnothing : a.findings.1 = [] :=
    findings_eq_nil_iff.mpr ((findings_eq_nil_iff.mp hfindings).of_redrawn hredrawn)
  have hlayers : a.layers ≠ [] := by
    intro hnil
    have hnone := hredrawn.layers
    rw [hnil, List.forall₂_nil_right_iff] at hnone
    exact layers_of_validate h ha hnone
  obtain ⟨-, m, rescale, hm, rfl⟩ := accepted_of_validate h ha
  have hagain := validate_of_findings hlayers hnothing (conformTo_again hm rfl)
  rw [m.isTidy_sanitize.sanitize_eq, m.isTidy_sanitize.strays_eq] at hagain
  refine ⟨hagain, ?_⟩
  rintro c rfl
  have hcanvas : m.canvas = { c with viewBox := m.canvas.viewBox } := canvas_conform hm
  exact hcanvas

/-- Raw data as validation takes it: the fields of an object, or a document. -/
def validateGiven (raw : Fields Rat ⊕ Document Rat) (canvas : Option (Canvas Rat)) :
    Except (Fault Rat) (Outcome Rat) :=
  raw.elim (validateData · canvas) (·.validate canvas)

/-- Whatever was validated, it is a document that was. -/
theorem exists_validate_of_given {raw : Fields Rat ⊕ Document Rat} {canvas : Option (Canvas Rat)} {o : Outcome Rat}
    (h : validateGiven raw canvas = .ok o) (hok : o.isOk = true) :
    ∃ d a : Document Rat, d.validate canvas = .ok o ∧ o.accepted? = some a ∧ o.document? = some a := by
  obtain ⟨a, ha, hdocument⟩ : ∃ a, o.accepted? = some a ∧ o.document? = some a := by
    cases o with
    | accepted a => exact ⟨a, rfl, rfl⟩
    | malformed | noLayers | misfit => exact nomatch hok
  cases raw with
  | inr d => exact ⟨d, a, h, ha, hdocument⟩
  | inl fields =>
    obtain ⟨given, -, hgiven⟩ := exists_given h ha
    exact ⟨given, a, hgiven, ha, hdocument⟩

/-- **An accepted document is accepted as it is**: the canvas that was asked for is the one it is on, and there is
nothing to report and nothing to clean. -/
theorem validate_again {raw : Fields Rat ⊕ Document Rat} {canvas : Option (Canvas Rat)} {o : Outcome Rat}
    (h : validateGiven raw canvas = .ok o) (hok : o.isOk = true) :
    ∃ d again, o.document? = some d ∧ d.validate canvas = .ok again ∧
      again.isOk = true ∧ again.document? = some d ∧ again.strays = [] ∧ again.isSanitized = false ∧
      ∀ c ∈ canvas, d.canvas.width = c.width ∧ d.canvas.height = c.height ∧ d.canvas.aspect = c.aspect := by
  obtain ⟨given, d, hvalid, haccepted, hdocument⟩ := exists_validate_of_given h hok
  obtain ⟨hagain, hcanvas⟩ := Document.validate_accepted hvalid haccepted
  refine ⟨d, _, hdocument, hagain, rfl, rfl, rfl, rfl, fun c hc => ?_⟩
  rw [hcanvas c hc]
  exact ⟨rfl, rfl, rfl⟩

/-- A shelf that is too long for its wall, and a lamp that a layout hangs up, drawn for a canvas of another shape. -/
def wallDocument : Document Rat where
  canvas := ⟨1000, 700, .fourThree, some ⟨0, 0, 1000, 700⟩, by decide, by decide⟩
  layout := none
  resolved := false
  layers := [
    { id := "wall"
      label := "Wall"
      paths := [⟨"shelf", .plain, [.move ⟨100, 333⟩, .line ⟨1100, 333⟩], none⟩]
      layout := none },
    { id := "lamps"
      label := "Lamps"
      paths := [⟨"lamp", .plain, [.move ⟨-7, 0⟩, .quadratic ⟨0, 9⟩ ⟨7, 0⟩], none⟩]
      layout := some ⟨some "top_left", none, none, none, none, none⟩ }]

theorem validate_again_wall :
    letI canvas : Option (Canvas Rat) := some (.ofAspect .square)
    ∃ o, validateGiven (.inr wallDocument) canvas = .ok o ∧ o.isOk = true ∧ o.isSanitized = true ∧ o.strays.length = 1 ∧
      ∃ d again, o.document? = some d ∧ d.validate canvas = .ok again ∧
        again.isOk = true ∧ again.document? = some d ∧ again.strays = [] ∧ again.isSanitized = false ∧
        ∀ c ∈ canvas, d.canvas.width = c.width ∧ d.canvas.height = c.height ∧ d.canvas.aspect = c.aspect := by
  have hruns : ((validateGiven (.inr wallDocument) (some (.ofAspect .square))).toOption.any fun o =>
      o.isOk && o.isSanitized && o.strays.length == 1) = true := by decide +kernel
  obtain ⟨o, ho, hruns⟩ := (Option.any_eq_true _ _).mp hruns
  obtain ⟨⟨hok, hsanitized⟩, hstrays⟩ : (o.isOk = true ∧ o.isSanitized = true) ∧ o.strays.length = 1 := by
    simpa only [Bool.and_eq_true, beq_iff_eq] using hruns
  have hvalid := eq_ok_of_toOption ho
  exact ⟨o, hvalid, hok, hsanitized, hstrays, validate_again hvalid hok⟩

end Drawing
