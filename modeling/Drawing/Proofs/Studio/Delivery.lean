import Drawing.Proofs.Document.Canvas
import Drawing.Proofs.Markup.Root
import Drawing.Proofs.Studio.Retry
import Drawing.Studio.Delivery

/-!
# `Drawing/Proofs/Studio/Delivery.lean` — every request gets a drawing

A draft keeps the size of its canvas through every task, and a run that is done has a page of that size. Where
there is no run, or it does not come through, the sketch is made for the same size and so is the plain circle
behind it. The three ways of drawing fill in the account of a drawing each for itself; that they agree is

> **soundness of deliveries** (`Studio.Sound`) — the way that was taken, the reasons given for it, the
> attempts, the canvas, the root of the markup and the list of errors all tell the same story.
-/

namespace Drawing

variable {α : Type}

/-! ## Drafts -/

/-- A draft with another prompt. The text of a prompt is long, so that it is kept out of sight here. -/
def Draft.withPrompt (d : Draft α) (prompt : Prompt) : Draft α := { d with prompt }

theorem Draft.document_withPrompt (d : Draft α) (prompt : Prompt) :
    (d.withPrompt prompt).document = d.document := rfl

/-- Only the last task leads to the end. -/
theorem Task.eq_autoFitting_of_next {t : Task} (h : t.next = .done) : t = .autoFitting := by
  cases t <;> first | rfl | exact nomatch h

namespace Studio

theorem buildPrompt_eq [Scalar α] [DecimalText α] (r : DrawingRequest α) (d : Draft α) :
    buildPrompt r d =
      (d.withPrompt (.ofRequest r (.whole r.aspect.size.1) (.whole r.aspect.size.2)), none) := rfl

/-- What an examination accepts lies on the canvas that was asked for, repaired or not. -/
theorem size_of_examine [Scalar α] [Trig α] {design : Fields α} {canvas : Canvas α} {o : Outcome α}
    {actions : List (RepairAction α)} {d : Document α} (h : examine design canvas = .ok (o, actions))
    (ha : o.accepted? = some d) : d.size = (canvas.width, canvas.height) := by
  unfold examine at h
  obtain ⟨outcome, ho, h⟩ := bind_eq_ok_iff.mp h
  split_ifs at h
  · obtain ⟨rfl, -⟩ := Prod.mk.inj (pure_eq_ok_iff.mp h)
    exact size_of_validateData ho ha
  · obtain ⟨repaired, -, h⟩ := bind_eq_ok_iff.mp h
    obtain ⟨second, hs, h⟩ := bind_eq_ok_iff.mp h
    obtain ⟨rfl, -⟩ := Prod.mk.inj (pure_eq_ok_iff.mp h)
    exact size_of_validateData hs ha

/-- An outcome without a fault has accepted its document. -/
theorem accepted_of_fault?_eq_none {o : Outcome α} (h : o.fault? = none) :
    ∃ d, o.accepted? = some d ∧ o.document? = some d := by
  cases o with
  | accepted d warnings rescale strays => exact ⟨d, rfl, rfl⟩
  | malformed => exact nomatch h
  | noLayers => exact nomatch h
  | misfit => exact nomatch h

theorem size_readDocument [Scalar α] [DecimalText α] [Trig α] {aspect : Aspect} {d : Draft α}
    (h : d.document.size = aspect.size) : (readDocument aspect d).1.document.size = aspect.size := by
  unfold readDocument
  split
  · exact h
  · split
    · exact h
    · next outcome actions he =>
      simp only
      split
      · exact h
      · next hf =>
        obtain ⟨document, ha, hd⟩ := accepted_of_fault?_eq_none hf
        simp only [hd, Option.getD_some]
        exact size_of_examine he ha

theorem buildPrompt_document [Scalar α] [DecimalText α] (r : DrawingRequest α) (d : Draft α) :
    (buildPrompt r d).1.document = d.document := by
  rw [buildPrompt_eq, Draft.document_withPrompt]

theorem askModel_document [Scalar α] (s : Studio α) (d : Draft α) :
    (s.askModel d).1.document = d.document := by
  unfold askModel
  split_ifs
  · rfl
  · rfl
  · split <;> rfl

theorem size_carryOut [Scalar α] [Trig α] {d : Draft α} :
    (carryOut d).1.document.size = d.document.size := by
  unfold carryOut
  split
  · rfl
  · next document hr => exact Document.size_resolve hr

theorem paintChecked_document (s : Studio α) (d : Draft α) :
    (s.paintChecked d).1.document = d.document := by
  unfold paintChecked
  simp only
  split <;> rfl

theorem size_finish [Scalar α] [DecimalText α] (s : Studio α) (d : Draft α) :
    (s.finish d).1.document.size = d.document.size := by
  unfold finish
  split
  · rfl
  · next document framing hf =>
    simp only
    split
    · exact Document.size_fit hf
    · split
      · exact Document.size_fit hf
      · rw [paintChecked_document]
        exact Document.size_fit hf

/-- No task changes the size of the canvas. -/
theorem size_act [Scalar α] [DecimalText α] [Trig α] (s : Studio α) (r : DrawingRequest α) (t : Task)
    {d : Draft α} (h : d.document.size = r.aspect.size) :
    (s.act r t d).1.document.size = r.aspect.size := by
  cases t with
  | idle => exact h
  | buildingPrompt => simpa only [act, buildPrompt_document] using h
  | awaitingModel => simpa only [act, askModel_document] using h
  | validating => simpa only [act] using size_readDocument h
  | resolvingLayout => simpa only [act, size_carryOut] using h
  | autoFitting => simpa only [act, size_finish] using h

/-- The page of a draft that was finished is the one its document was painted to. -/
theorem markup_of_finish [Scalar α] [DecimalText α] {s : Studio α} {d d' : Draft α}
    (h : s.finish d = (d', none)) : ∃ n, s.paint n d'.document = .ok d'.markup := by
  unfold finish at h
  split at h
  · exact nomatch (Prod.mk.inj h).2
  · simp only at h
    split at h
    · exact nomatch (Prod.mk.inj h).2
    · split at h
      · exact nomatch (Prod.mk.inj h).2
      · unfold paintChecked at h
        simp only at h
        split at h
        · exact nomatch (Prod.mk.inj h).2
        · next markup hm =>
          obtain ⟨rfl, -⟩ := Prod.mk.inj h
          exact ⟨_, hm⟩

/-- What holds of the draft of a run: its canvas has the size of the request, and a run that is done has a page
of that size. -/
structure OnCanvas (r : DrawingRequest α) (run : Run (Draft α) (Fault α) α) : Prop where
  size : run.state.document.size = r.aspect.size
  root : run.phase = .done → HasRoot run.state.markup r.aspect.size

@[simp] theorem course_act [Scalar α] [DecimalText α] [Trig α] (s : Studio α) (r : DrawingRequest α) :
    (s.course r).act = s.act r := rfl

theorem onCanvas_start (r : DrawingRequest α) (m : Memory α) :
    OnCanvas r (.start (.blank m r.aspect)) where
  size := rfl
  root := nofun

section

variable [Scalar α] [DecimalText α] [Trig α] [HoldsSides α]

theorem OnCanvas.step {s : Studio α} (hpaint : ∀ n d, s.paint n d = d.markup) {r : DrawingRequest α}
    {run run' : Run (Draft α) (Fault α) α} {t : Task} (h : OnCanvas r run)
    (hs : (s.course r).StepsTo run t run') : OnCanvas r run' := by
  have hsize {d : Draft α} {fault : Option (Fault α)} (ha : s.act r t run.state = (d, fault)) :
      d.document.size = r.aspect.size := by
    have hd := size_act s r t h.size
    rwa [ha] at hd
  cases hs with
  | @done state ha =>
    rw [course_act] at ha
    refine ⟨hsize ha, fun hp => ?_⟩
    obtain rfl := Task.eq_autoFitting_of_next hp
    rw [act] at ha
    obtain ⟨n, hm⟩ := markup_of_finish ha
    rw [hpaint] at hm
    exact Document.markup_hasRoot (hsize ha) hm
  | again ha =>
    rw [course_act] at ha
    exact ⟨hsize ha, nofun⟩
  | out ha =>
    rw [course_act] at ha
    exact ⟨hsize ha, nofun⟩

end

end Studio

/-! ## Results -/

/-- A result that agrees with itself and with its request. -/
structure Generation.Agrees (g : Generation α) (r : DrawingRequest α) : Prop where
  success : g.success = true
  unaided : g.metadata.method = .unified ↔ g.metadata.fallbackUsed = false
  unexplained : g.metadata.method = .unified ↔ g.metadata.fallbackReason = none
  canvas : g.metadata.canvas = ((r.aspect.size.1 : Int), (r.aspect.size.2 : Int))
  root : HasRoot g.markup r.aspect.size

/-- A result that was drawn without a model behind some attempts. Only the plain circle brings an error of its
own, why there is no sketch. -/
structure Generation.Fallen (g : Generation α) (r : DrawingRequest α) (attempts : Int) : Prop where
  agrees : g.Agrees r
  aided : g.metadata.method ≠ .unified
  attempts : g.metadata.attempts = attempts
  errors : g.errors.length = if g.metadata.method = .basic then 1 else 0

theorem Generation.Agrees.withDebug {g : Generation α} {r : DrawingRequest α} (h : g.Agrees r)
    (debug : Option (Fields α)) : Agrees { g with debug } r :=
  ⟨h.success, h.unaided, h.unexplained, h.canvas, h.root⟩

theorem Generation.Fallen.withDebug {g : Generation α} {r : DrawingRequest α} {attempts : Int}
    (h : g.Fallen r attempts) (debug : Option (Fields α)) : Fallen { g with debug } r attempts :=
  ⟨h.agrees.withDebug debug, h.aided, h.attempts, h.errors⟩

namespace Studio

theorem withOverlay_result (s : Studio α) (m : Memory α) (r : DrawingRequest α) (document : Document α)
    (g : Generation α) : ∃ debug, (s.withOverlay m r document g).1 = { g with debug } := by
  unfold withOverlay
  split
  · split
    · exact ⟨_, rfl⟩
    · exact ⟨_, rfl⟩
  · exact ⟨_, rfl⟩

variable [Scalar α] [DecimalText α]

/-- What is measured of a sketch leaves its way, its canvas and its attempts alone. -/
theorem sketchAccount_ok {s : Studio α} {m m' : Memory α} {document : Document α}
    {account account' : Metadata α}
    (h : s.sketchAccount m document account = (.ok account', m')) :
    ∃ layers quality regions anchors,
      account' = { account with layers, quality, regions, anchors } := by
  unfold sketchAccount at h
  simp only at h
  obtain ⟨layers, -, h⟩ := bind_eq_ok_iff.mp (Prod.mk.inj h).1
  obtain ⟨quality, -, h⟩ := bind_eq_ok_iff.mp h
  exact ⟨_, _, _, _, (pure_eq_ok_iff.mp h).symm⟩

theorem draftResult_eq (s : Studio α) (r : DrawingRequest α) (run : Run (Draft α) (Fault α) α) :
    ∃ debug, (s.draftResult r run).1 =
      ⟨true, run.state.markup, draftAccount run.state run.attempt, runErrors run,
        run.state.warnings, debug⟩ :=
  s.withOverlay_result run.state.memory r run.state.document _

/-- Building an overlay does not ask the model. -/
theorem asked_draftResult (s : Studio α) (r : DrawingRequest α) (run : Run (Draft α) (Fault α) α) :
    (s.draftResult r run).2.asked = run.state.memory.asked := by
  unfold draftResult withOverlay
  dsimp only
  split
  · split <;> rfl
  · rfl

variable [HoldsSides α]

theorem plainResult_fallen (r : DrawingRequest α) (reason : String) (attempts : Int)
    (fault : Fault α) : (plainResult r reason attempts fault).Fallen r attempts where
  agrees := {
    success := rfl
    unaided := ⟨nofun, nofun⟩
    unexplained := ⟨nofun, nofun⟩
    canvas := rfl
    root := plainMarkup_hasRoot r.aspect }
  aided := nofun
  attempts := rfl
  errors := rfl

variable [Trig α]

theorem sketchPage_hasRoot {r : DrawingRequest α} {page : SketchPage α}
    (h : sketchPage Document.markup r.sized = .ok page) : HasRoot page.markup r.aspect.size := by
  unfold sketchPage at h
  obtain ⟨sketch, hs, h⟩ := bind_eq_ok_iff.mp h
  obtain ⟨markup, hm, h⟩ := bind_eq_ok_iff.mp h
  obtain rfl := pure_eq_ok_iff.mp h
  exact Document.markup_hasRoot (Sketch.size_ofRequest rfl hs) hm

/-- A studio that paints documents as they are, and either sketches like every other or not at all. -/
structure Plain (s : Studio α) : Prop where
  paint : ∀ n d, s.paint n d = d.markup
  sketch : ∀ paint r, s.sketch paint r = sketchPage paint r ∨ ∃ fault, s.sketch paint r = .error fault

theorem sketchResult_fallen {s : Studio α} (hs : s.Plain) {m m' : Memory α} {r : DrawingRequest α}
    {reason : String} {attempts : Int} {g : Generation α}
    (h : s.sketchResult m r reason attempts = (.ok g, m')) : g.Fallen r attempts := by
  unfold sketchResult at h
  split at h
  · exact nomatch (Prod.mk.inj h).1
  · next page hp =>
    have hroot : HasRoot page.markup r.aspect.size := by
      -- a page was sketched, so the sketcher is the plain one
      rw [show s.paint m.painted = Document.markup from funext (hs.paint _)] at hp
      rcases hs.sketch Document.markup r.sized with hd | ⟨fault, hf⟩
      · exact sketchPage_hasRoot (hd.symm.trans hp)
      · exact nomatch hf.symm.trans hp
    have hfallen (layers : List (LayerSummary α)) (quality : Int) (regions anchors : List String) :
        Generation.Fallen ⟨true, page.markup,
          { (emptyAccount .ruleBased (some reason) (canvasSize r) attempts : Metadata α) with
            layers, quality, regions, anchors },
          [], page.warnings, none⟩ r attempts :=
      ⟨⟨rfl, ⟨nofun, nofun⟩, ⟨nofun, nofun⟩, rfl, hroot⟩, nofun, rfl, rfl⟩
    simp only at h
    split at h
    · obtain rfl := Except.ok.inj (Prod.mk.inj h).1
      exact hfallen _ _ _ _
    · split at h
      · exact nomatch (Prod.mk.inj h).1
      · split at h
        · exact nomatch (Prod.mk.inj h).1
        · next ha =>
          obtain ⟨layers, quality, regions, anchors, rfl⟩ := sketchAccount_ok ha
          obtain ⟨debug, hd⟩ := s.withOverlay_result _ r _ _
          obtain rfl := hd.symm.trans (Except.ok.inj (Prod.mk.inj h).1)
          exact (hfallen _ _ _ _).withDebug debug

/-- **Falling back**: a request gets a drawing without a model, a sketch or else the plain circle. -/
theorem fallBack_fallen {s : Studio α} (hs : s.Plain) (m : Memory α) (r : DrawingRequest α)
    (reason : String) (attempts : Int) : (s.fallBack m r reason attempts).1.Fallen r attempts := by
  unfold fallBack
  split
  · next g m' h => exact sketchResult_fallen hs h
  · exact plainResult_fallen r reason attempts _

/-! ## Deliveries -/

/-- What is delivered for a request. -/
structure Sound (s : Studio α) (m : Memory α) (r : DrawingRequest α) (d : Delivery α) : Prop where
  agrees : d.result.Agrees r
  attempts : d.result.metadata.attempts = 0 ↔ r.exemption?.isSome
  /-- One error for each attempt that failed, in order, and one more for a sketch that failed. -/
  errors : ∃ own, own.length = (if d.result.metadata.method = .basic then 1 else 0) ∧
    match r.exemption? with
    | some _ => d.history = [] ∧ d.result.errors = own
    | none => ∃ run, s.run m r = .ok run ∧ (s.course r).Account run ∧ d.history = run.history ∧
        d.result.errors = runErrors run ++ own

/-- The result of a run that was driven to its end. -/
theorem runResult_agrees {s : Studio α} (hs : s.Plain) {r : DrawingRequest α}
    {run : Run (Draft α) (Fault α) α} (ha : (s.course r).Account run) (hc : OnCanvas r run) :
    (s.runResult r run).1.Agrees r ∧ (s.runResult r run).1.metadata.attempts = run.attempt ∧
      ∃ own, own.length = (if (s.runResult r run).1.metadata.method = .basic then 1 else 0) ∧
        (s.runResult r run).1.errors = runErrors run ++ own := by
  unfold runResult
  rcases eq_or_ne run.phase .fallback with hp | hp
  · rw [if_pos hp]
    obtain ⟨hagrees, -, hattempts, herrors⟩ :=
      fallBack_fallen hs run.state.memory r (exhaustedReason run) run.attempt
    exact ⟨⟨hagrees.success, hagrees.unaided, hagrees.unexplained, hagrees.canvas, hagrees.root⟩,
      hattempts, _, herrors, rfl⟩
  · rw [if_neg hp]
    have hdone : run.phase = .done := by
      rcases ha.ended with ⟨h, -⟩ | ⟨h, -⟩
      · exact h
      · exact absurd h hp
    obtain ⟨debug, hd⟩ := s.draftResult_eq r run
    rw [hd]
    refine ⟨⟨rfl, ⟨fun _ => rfl, fun _ => rfl⟩, ⟨fun _ => rfl, fun _ => rfl⟩, ?_, hc.root hdone⟩,
      rfl, [], rfl, (List.append_nil _).symm⟩
    obtain ⟨hw, hh⟩ := Prod.mk.inj hc.size
    exact Prod.ext (congrArg Int.ofNat hw) (congrArg Int.ofNat hh)

/-- A plain studio delivers every request, as long as there is every wait that it may call for. -/
theorem Plain.deliver {s : Studio α} (hs : s.Plain)
    (hsleep : ∀ k : Nat, 1 ≤ k → (k : Int) < s.config.maxAttempts →
      ∃ d, backoff (.whole k) s.config.backoff = .ok d)
    (m : Memory α) (r : DrawingRequest α) : ∃ d m', s.deliver m r = .ok (d, m') ∧ s.Sound m r d := by
  unfold Studio.deliver
  cases he : r.exemption? with
  | some exemption =>
    obtain ⟨hagrees, -, hattempts, herrors⟩ := fallBack_fallen hs m r exemption.text 0
    refine ⟨_, _, rfl, hagrees, ⟨fun _ => by rw [he]; rfl, fun _ => hattempts⟩, _, herrors, ?_⟩
    rw [he]
    exact ⟨rfl, rfl⟩
  | none =>
    -- the canvas is carried through the run beside its account
    rcases (s.course r).drive_start (OnCanvas r) (onCanvas_start r m)
      (fun _ _ _ hc _ hstep => hc.step hs.paint hstep) with ⟨run, hc, hkept, hend, hd⟩ | h
    · have ha := hkept.account_close hend
      obtain ⟨hagrees, hattempts, own, hown, herrors⟩ :=
        runResult_agrees hs ha (show OnCanvas r run.close from ⟨hc.size, hc.root⟩)
      have hrun : s.run m r = .ok run.close := hd
      rw [hrun]
      refine ⟨_, _, rfl, hagrees, ⟨fun h => ?_, fun h => ?_⟩, own, hown, ?_⟩
      · -- a run makes at least one attempt
        have hpos := ha.attempt_pos
        exact absurd (hattempts.symm.trans h) (by omega)
      · rw [he] at h
        exact nomatch h
      · rw [he]
        exact ⟨_, hrun, ha, rfl, herrors⟩
    · obtain ⟨k, fault, hk, hl, hw, -⟩ := h
      obtain ⟨d, hd⟩ := hsleep k hk hl
      exact nomatch hw.symm.trans hd

end Studio

end Drawing
