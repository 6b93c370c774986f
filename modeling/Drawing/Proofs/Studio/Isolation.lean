import Drawing.Proofs.Studio.Attempt

/-!
# `Drawing/Proofs/Studio/Isolation.lean` — deliveries do not show what was before them

A studio keeps one analyzer for all its requests, and a run one draft for all its attempts. Neither leaves a trace in
what is delivered:

> **a delivery by the model shows the last reply** and nothing else — not the attempts before it, nor how they failed,
> nor the requests that the studio has delivered before, nor what else its analyzer was asked.
-/

namespace Drawing

/-! ## What else is measured -/

section

variable {α : Type} [Scalar α] [DecimalText α] {a a' : Analyzer α} {threshold : α} {asked : Set (Layer α)}

theorem Analyzer.Recalls.layerBounds (h : a.Recalls threshold asked) {canvas : Canvas α} {layers : List (Layer α)}
    (hlayers : ∀ l ∈ layers, l ∈ asked) {bounds : List (String × Box α)}
    (hbounds : layerBounds a canvas layers = .ok (bounds, a')) : a'.Recalls threshold asked := by
  induction layers generalizing a bounds with
  | nil =>
    obtain ⟨-, rfl⟩ := Prod.mk.inj (Except.ok.inj hbounds)
    exact h
  | cons l rest ih =>
    obtain ⟨hl, hrest⟩ := List.forall_mem_cons.mp hlayers
    unfold Drawing.layerBounds at hbounds
    obtain ⟨m, -, hbounds⟩ := bind_eq_ok_iff.mp hbounds
    obtain ⟨⟨others, b⟩, hothers, hbounds⟩ := bind_eq_ok_iff.mp hbounds
    obtain ⟨-, rfl⟩ := Prod.mk.inj (pure_eq_ok_iff.mp hbounds)
    exact ih (h.measure hl _ _) hrest hothers

/-- The overlay of a document with its layouts carried out measures its own layers. -/
theorem Analyzer.Recalls.buildOverlay [Trig α] (h : a.Recalls threshold asked) {d : Document α}
    (hresolved : d.resolved = true) (hlayers : ∀ l ∈ d.layers, l ∈ asked) {result : Option (Metadata α)}
    {o : OverlayOptions α} {overlay : Overlay α} (hoverlay : buildOverlay a d result o = .ok (overlay, a')) :
    a'.Recalls threshold asked := by
  unfold Drawing.buildOverlay at hoverlay
  obtain ⟨colours, -, hoverlay⟩ := bind_eq_ok_iff.mp hoverlay
  obtain ⟨layoutMarks, -, hoverlay⟩ := bind_eq_ok_iff.mp hoverlay
  obtain ⟨regionMarks, -, hoverlay⟩ := bind_eq_ok_iff.mp hoverlay
  extract_lets continued at hoverlay
  have hcontinued : continued d = .ok (overlay, a') := by
    split_ifs at hoverlay
    · rwa [Document.resolve_of_resolved hresolved] at hoverlay
    · exact hoverlay
  clear hoverlay
  obtain ⟨⟨bounds, b⟩, hbounds, hcontinued⟩ := bind_eq_ok_iff.mp hcontinued
  obtain ⟨viewErrors, -, hcontinued⟩ := bind_eq_ok_iff.mp hcontinued
  obtain ⟨markup, -, hcontinued⟩ := bind_eq_ok_iff.mp hcontinued
  obtain ⟨-, rfl⟩ := Prod.mk.inj (pure_eq_ok_iff.mp hcontinued)
  exact h.layerBounds hlayers hbounds

end

namespace Studio

section

variable {α : Type} [Scalar α] [Trig α]

/-- The layers of the sketch of a request with its layouts carried out. -/
def layersSketched (r : DrawingRequest α) : Set (Layer α) :=
  {l | ∃ sketch resolved, Sketch.ofRequest r.sized = .ok sketch ∧ sketch.document.resolve = .ok resolved ∧
    l ∈ resolved.layers}

variable [DecimalText α] (config : Config α) (model : Model α) {m : Memory α} {r : DrawingRequest α}
  {threshold : α} {asked : Set (Layer α)}

theorem withOverlay_recalls (h : m.analyzer.Recalls threshold asked) {document : Document α}
    (hresolved : document.resolved = true) (hlayers : ∀ l ∈ document.layers, l ∈ asked) (g : Generation α) :
    ((Studio.ofModel config model).withOverlay m r document g).2.analyzer.Recalls threshold asked ∧
      ((Studio.ofModel config model).withOverlay m r document g).2.asked = m.asked := by
  unfold withOverlay
  split
  · split
    · next overlay analyzer hinspect =>
      obtain ⟨⟨built, b⟩, hbuilt, hinspect⟩ := bind_eq_ok_iff.mp hinspect
      obtain ⟨-, rfl⟩ := Prod.mk.inj (pure_eq_ok_iff.mp hinspect)
      exact ⟨h.buildOverlay hresolved hlayers hbuilt, rfl⟩
    · exact ⟨h, rfl⟩
  · exact ⟨h, rfl⟩

theorem sketchResult_recalls (h : m.analyzer.Recalls threshold asked) (hsketched : layersSketched r ⊆ asked)
    (reason : String) (attempts : Int) :
    ((Studio.ofModel config model).sketchResult m r reason attempts).2.analyzer.Recalls threshold asked ∧
      ((Studio.ofModel config model).sketchResult m r reason attempts).2.asked = m.asked := by
  unfold sketchResult
  split
  · exact ⟨h, rfl⟩
  · next page hpage =>
    obtain ⟨sketch, hsketch, hpage⟩ := bind_eq_ok_iff.mp hpage
    obtain ⟨markup, -, hpage⟩ := bind_eq_ok_iff.mp hpage
    obtain rfl := pure_eq_ok_iff.mp hpage
    dsimp only
    split
    · exact ⟨h, rfl⟩
    · next resolved hresolve =>
      have hlayers : ∀ l ∈ resolved.layers, l ∈ asked := fun l hl => hsketched ⟨sketch, resolved, hsketch, hresolve, hl⟩
      have hmeasured := h.summarizeLayers resolved hlayers
      split
      · next fault m' haccount =>
        obtain ⟨-, rfl⟩ := Prod.mk.inj haccount
        exact ⟨hmeasured, rfl⟩
      · next account m' haccount =>
        obtain ⟨-, rfl⟩ := Prod.mk.inj haccount
        exact withOverlay_recalls config model hmeasured (Document.resolved_resolve hresolve) hlayers _

theorem fallBack_recalls (h : m.analyzer.Recalls threshold asked) (hsketched : layersSketched r ⊆ asked)
    (reason : String) (attempts : Int) :
    ((Studio.ofModel config model).fallBack m r reason attempts).2.analyzer.Recalls threshold asked ∧
      ((Studio.ofModel config model).fallBack m r reason attempts).2.asked = m.asked := by
  have hsketch := sketchResult_recalls config model h hsketched reason attempts
  unfold fallBack
  split
  · next g m' hresult =>
    rw [hresult] at hsketch
    exact hsketch
  · next fault m' hresult =>
    rw [hresult] at hsketch
    exact hsketch

/-- The layers that may be measured for a delivery: those of what the replies have come to and, if it is not by the
model, those of the sketch. -/
def layersFor (s : Studio α) (r : DrawingRequest α) (m after : Memory α) (d : Delivery α) : Set (Layer α) :=
  s.layersDrawn r m.asked after.asked ∪ {l | d.result.metadata.method ≠ .unified ∧ l ∈ layersSketched r}

/-- The memories of the studio of a model, each with the layers that came up. The studio is opened with a new
analyzer; it delivers requests; and others may ask its analyzer and the model in between. -/
inductive Reached (config : Config α) (model : Model α) : Memory α → Set (Layer α) → Prop
  | opened {catalog : Catalog α} {capacity : Numeral α} {threshold : α} {analyzer : Analyzer α}
      (h : Analyzer.create catalog capacity threshold = .ok analyzer) : Reached config model (.fresh analyzer) ∅
  | delivered {m after : Memory α} {before : Set (Layer α)} {r : DrawingRequest α} {d : Delivery α}
      (h : Reached config model m before) (hd : (Studio.ofModel config model).deliver m r = .ok (d, after)) :
      Reached config model after (before ∪ (Studio.ofModel config model).layersFor r m after d)
  | shared {m : Memory α} {before : Set (Layer α)} (h : Reached config model m before)
      (calls : List (AnalyzerCall α)) (asked painted : Nat) :
      Reached config model ⟨m.analyzer.run calls, asked, painted⟩ (before ∪ {l | l ∈ layersAsked calls})

variable {config : Config α} {model : Model α} {before : Set (Layer α)} {after : Memory α} {d : Delivery α}
  {run : Run (Draft α) (Fault α) α}

/-- A request is delivered without a model, or by a run that has ended. -/
theorem deliver_cases {s : Studio α} (hd : s.deliver m r = .ok (d, after)) :
    (∃ reason, d.result = (s.fallBack m r reason 0).1 ∧ after = (s.fallBack m r reason 0).2) ∨
      ∃ run, s.run m r = .ok run ∧ d.result = (s.runResult r run).1 ∧ after = (s.runResult r run).2 := by
  unfold deliver at hd
  split at hd
  · next exemption hexempt =>
    obtain ⟨hdelivery, hafter⟩ := Prod.mk.inj (Except.ok.inj hd)
    exact .inl ⟨exemption.text, (congrArg Delivery.result hdelivery).symm, hafter.symm⟩
  · obtain ⟨run, hrun, hd⟩ := bind_eq_ok_iff.mp hd
    obtain ⟨hdelivery, hafter⟩ := Prod.mk.inj (pure_eq_ok_iff.mp hd)
    exact .inr ⟨run, hrun, (congrArg Delivery.result hdelivery).symm, hafter.symm⟩

theorem runResult_of_done (s : Studio α) (r : DrawingRequest α) (hdone : run.phase = .done) :
    s.runResult r run = s.draftResult r run := by
  have hne : run.phase ≠ .fallback := by
    rw [hdone]
    exact nofun
  unfold runResult
  rw [if_neg hne]

variable [HoldsSides α]

theorem fallBack_ne_unified (config : Config α) (model : Model α) (m : Memory α) (r : DrawingRequest α)
    (reason : String) (attempts : Int) :
    ((Studio.ofModel config model).fallBack m r reason attempts).1.metadata.method ≠ .unified :=
  (fallBack_fallen ⟨fun _ _ => rfl, fun _ _ => .inl rfl⟩ m r reason attempts).aided

/-- What the result of a run leaves is remembered rightly. -/
theorem runResult_recalls {first : Nat} (horder : (Studio.ofModel config model).InOrder r first before run)
    (hend : run.phase = .done ∨ run.phase = .fallback) :
    ((Studio.ofModel config model).runResult r run).2.asked = run.state.memory.asked ∧
      ∃ threshold, ((Studio.ofModel config model).runResult r run).2.analyzer.Recalls threshold
        (before ∪ ((Studio.ofModel config model).layersDrawn r first run.state.memory.asked ∪
          {l | ((Studio.ofModel config model).runResult r run).1.metadata.method ≠ .unified ∧
            l ∈ layersSketched r})) := by
  obtain ⟨threshold, hrecalls⟩ := horder.remembers.recalls
  have hprepared := horder.prepared
  rcases hend with hdone | hfallback
  · rw [hdone] at hprepared
    obtain ⟨hreplied, hcomes, -⟩ := hprepared
    rw [runResult_of_done _ r hdone]
    obtain ⟨hoverlaid, hasked⟩ := withOverlay_recalls config model hrecalls (r := r) hcomes.resolved
      (hreplied.mem_layersDrawn hcomes) _
    exact ⟨hasked, threshold, hoverlaid.mono (Set.union_subset_union_right before Set.subset_union_left)⟩
  · -- the sketch that stands in for the run is measured too, and its layers count, as the method is another
    unfold runResult
    rw [if_pos hfallback]
    have hne := fallBack_ne_unified config model run.state.memory r (exhaustedReason run) run.attempt
    have hsub : before ∪ (Studio.ofModel config model).layersDrawn r first run.state.memory.asked ⊆
        before ∪ ((Studio.ofModel config model).layersDrawn r first run.state.memory.asked ∪
          {l | ((Studio.ofModel config model).fallBack run.state.memory r (exhaustedReason run)
            run.attempt).1.metadata.method ≠ .unified ∧ l ∈ layersSketched r}) :=
      Set.union_subset_union_right before Set.subset_union_left
    obtain ⟨hfallen, hasked⟩ := fallBack_recalls config model (r := r) (hrecalls.mono hsub)
      (fun l hl => .inr (.inr ⟨hne, hl⟩)) (exhaustedReason run) run.attempt
    exact ⟨hasked, threshold, hfallen⟩

variable [ToldByDigits α] [StaysFinite α]

/-- **What a delivery leaves** is remembered rightly, whichever way was taken. -/
theorem deliver_recalls (hm : m.analyzer.Recalls threshold before)
    (hd : (Studio.ofModel config model).deliver m r = .ok (d, after)) :
    ∃ threshold, after.analyzer.Recalls threshold
      (before ∪ (Studio.ofModel config model).layersFor r m after d) := by
  unfold layersFor
  rcases deliver_cases hd with ⟨reason, hresult, rfl⟩ | ⟨run, hrun, hresult, rfl⟩
  · rw [hresult]
    have hne := fallBack_ne_unified config model m r reason 0
    refine ⟨threshold, (fallBack_recalls config model (hm.mono Set.subset_union_left) ?_ _ _).1⟩
    exact fun l hl => .inr (.inr ⟨hne, hl⟩)
  · rw [hresult]
    obtain ⟨horder, hend⟩ := inOrder_run (fun _ _ => rfl) hm hrun
    obtain ⟨hasked, threshold, hrecalls⟩ := runResult_recalls horder hend
    rw [hasked]
    exact ⟨threshold, hrecalls⟩

/-- The memory of a studio is right about all the layers that came up. -/
theorem Reached.recalls (h : Reached config model m before) : ∃ threshold, m.analyzer.Recalls threshold before := by
  induction h with
  | opened hcreate => exact ⟨_, Analyzer.recalls_of_create hcreate ∅⟩
  | delivered _ hd ih =>
    obtain ⟨threshold, hrecalls⟩ := ih
    exact deliver_recalls hrecalls hd
  | shared _ calls asked painted ih =>
    obtain ⟨threshold, hrecalls⟩ := ih
    exact ⟨threshold, (hrecalls.mono Set.subset_union_left).run fun l hl => .inr hl⟩

/-- A delivery by the model is what a run has left that is done. -/
theorem exists_done_of_deliver (hm : Reached config model m before)
    (hd : (Studio.ofModel config model).deliver m r = .ok (d, after)) (hunified : d.result.metadata.method = .unified) :
    ∃ run, (Studio.ofModel config model).run m r = .ok run ∧ run.phase = .done ∧
      (Studio.ofModel config model).InOrder r m.asked before run ∧ after.asked = run.state.memory.asked ∧
      d.result.markup = run.state.markup ∧ d.result.metadata = draftAccount run.state run.attempt := by
  obtain ⟨threshold, hrecalls⟩ := hm.recalls
  rcases deliver_cases hd with ⟨reason, hresult, -⟩ | ⟨run, hrun, hresult, rfl⟩
  · rw [hresult] at hunified
    exact absurd hunified (fallBack_ne_unified config model m r reason 0)
  · obtain ⟨horder, hend⟩ := inOrder_run (fun _ _ => rfl) hrecalls hrun
    obtain ⟨hasked, -⟩ := runResult_recalls horder hend
    rcases hend with hdone | hfallback
    · obtain ⟨debug, hdraft⟩ := (Studio.ofModel config model).draftResult_eq r run
      rw [runResult_of_done _ r hdone, hdraft] at hresult
      exact ⟨run, hrun, hdone, horder, hasked, congrArg Generation.markup hresult,
        congrArg Generation.metadata hresult⟩
    · rw [hresult] at hunified
      unfold runResult at hunified
      rw [if_pos hfallback] at hunified
      exact absurd hunified (fallBack_ne_unified config model _ r _ _)

/-- **A delivery by the model** shows what the last reply comes to, if digests tell apart the layers that came up. -/
theorem shows_of_deliver (hm : Reached config model m before)
    (hd : (Studio.ofModel config model).deliver m r = .ok (d, after)) (hunified : d.result.metadata.method = .unified)
    (hdigest : TellsApart shortDigest (before ∪ (Studio.ofModel config model).layersFor r m after d)) :
    ∃ (draft : Draft α) (attempts : Int), model (after.asked - 1) r.fullPrompt = .text draft.reply ∧
      Shows config r.aspect draft.reply draft ∧ d.result.markup = draft.markup ∧
      d.result.metadata = draftAccount draft attempts := by
  obtain ⟨run, -, hdone, horder, hasked, hmarkup, haccount⟩ := exists_done_of_deliver hm hd hunified
  have hprepared := horder.prepared
  rw [hdone] at hprepared
  obtain ⟨hreplied, -, hshows⟩ := hprepared
  have hdrawn : TellsApart shortDigest
      (before ∪ (Studio.ofModel config model).layersDrawn r m.asked run.state.memory.asked) := by
    refine hdigest.mono (Set.union_subset_union_right before ?_)
    rw [← hasked]
    exact Set.subset_union_left
  rw [hasked]
  exact ⟨run.state, run.attempt, hreplied.text, hshows hdrawn, hmarkup, haccount⟩

end

end Studio

/-- **Deliveries that get the same last reply** show the same drawing and account for it alike. They may be made by
studios with other models, waits and numbers of attempts, behind other attempts that have failed in other ways, and in
other memories; all it takes is that the digest tells apart the layers that came up in each of them. -/
theorem deliver_isolated {α : Type} [Scalar α] [DecimalText α] [Trig α] [ToldByDigits α] [StaysFinite α]
    [HoldsSides α] {config config' : Config α} (hpadding : config.padding = config'.padding)
    (hweights : config.weights = config'.weights) {model model' : Model α} {r : DrawingRequest α}
    {m m' after after' : Memory α} {before before' : Set (Layer α)} {d d' : Delivery α}
    (hm : Studio.Reached config model m before) (hm' : Studio.Reached config' model' m' before')
    (hd : (Studio.ofModel config model).deliver m r = .ok (d, after))
    (hd' : (Studio.ofModel config' model').deliver m' r = .ok (d', after'))
    (hunified : d.result.metadata.method = .unified) (hunified' : d'.result.metadata.method = .unified)
    (hreply : model (after.asked - 1) r.fullPrompt = model' (after'.asked - 1) r.fullPrompt)
    (hdigest : TellsApart shortDigest (before ∪ (Studio.ofModel config model).layersFor r m after d))
    (hdigest' : TellsApart shortDigest (before' ∪ (Studio.ofModel config' model').layersFor r m' after' d')) :
    d.result.markup = d'.result.markup ∧ d.result.metadata.layers = d'.result.metadata.layers ∧
      d.result.metadata.quality = d'.result.metadata.quality ∧
      d.result.metadata.repaired = d'.result.metadata.repaired ∧
      d.result.metadata.regions = d'.result.metadata.regions ∧
      d.result.metadata.anchors = d'.result.metadata.anchors ∧
      d.result.metadata.canvas = d'.result.metadata.canvas := by
  obtain ⟨draft, attempts, htext, hshows, hmarkup, haccount⟩ := Studio.shows_of_deliver hm hd hunified hdigest
  obtain ⟨draft', attempts', htext', hshows', hmarkup', haccount'⟩ :=
    Studio.shows_of_deliver hm' hd' hunified' hdigest'
  have hsame : draft.reply = draft'.reply := Reply.text.inj (htext.symm.trans (hreply.trans htext'))
  obtain ⟨hdocument, hrepaired, hquality, hlayers, hpage⟩ := hshows.unique hpadding hweights (hsame ▸ hshows')
  rw [hmarkup, hmarkup', haccount, haccount']
  unfold Studio.draftAccount
  rw [hdocument, hrepaired, hquality, hlayers]
  exact ⟨hpage, rfl, rfl, rfl, rfl, rfl, rfl⟩

/-! ## A late reply -/

namespace Course

variable {σ ε δ φ : Type} {c : Course σ ε δ φ}

/-- A run some steps further, if it comes that far. -/
def after (c : Course σ ε δ φ) : Nat → Run σ ε δ → Option (Run σ ε δ)
  | 0, r => some r
  | n + 1, r =>
    match r.phase with
    | .working t => (c.step r t).toOption >>= c.after n
    | _ => none

/-- What every step keeps holds some steps further, and from there the run is driven to the same end. -/
theorem drive_after (P : Run σ ε δ → Prop) (hstep : ∀ r s t, P r → r.phase = .working t → c.StepsTo r t s → P s)
    {n : Nat} {r s : Run σ ε δ} (hr : P r) (h : c.after n r = some s) : P s ∧ c.drive r = c.drive s := by
  induction n generalizing r with
  | zero =>
    obtain rfl := Option.some.inj h
    exact ⟨hr, rfl⟩
  | succ n ih =>
    unfold after at h
    split at h
    · next t hp =>
      obtain ⟨next, hnext, h⟩ := Option.bind_eq_some_iff.mp h
      have hnext := eq_ok_of_toOption hnext
      rw [drive_working c hp, hnext]
      exact ih (hstep r next t hr hp (stepsTo_of_step hnext)) h
    · exact nomatch h

theorem drive_of_act {t : Task} {before after : σ} (hact : c.act t before = (after, none)) {r : Run σ ε δ}
    (hp : r.phase = .working t) (hstate : r.state = before) :
    c.drive r = c.drive ((r.takeUp t).complete t after) := by
  rw [drive_working c hp, step, hstate, hact]
  rfl

theorem drive_of_done {r : Run σ ε δ} (hp : r.phase = .done) : c.drive r = .ok r.close := by
  rw [drive]
  split
  · next t ht => exact nomatch hp.symm.trans ht
  · rfl

end Course

section

variable {α : Type} [Scalar α] [DecimalText α] [Trig α] {s : Studio α} {m : Memory α} {r : DrawingRequest α}
  {run : Run (Draft α) (Fault α) α}

theorem Studio.deliver_of_run (hasks : r.exemption? = none) (hrun : s.run m r = .ok run) :
    s.deliver m r = .ok (⟨(s.runResult r run).1, run.history, run.delays,
      (s.runResult r run).2.asked - m.asked⟩, (s.runResult r run).2) := by
  unfold deliver
  rw [hasks]
  dsimp only
  rw [hrun]
  rfl

/-- A run that has read a document whose paths have commands ends well in the same attempt, if the document can be
framed and measured. -/
theorem Studio.drive_of_read [StaysFinite α] (hpaint : ∀ n d, s.paint n d = d.markup)
    (hphase : run.phase = .working .resolvingLayout)
    (hread : ReadsAs r.aspect run.state.reply run.state.document run.state.repaired)
    (hcommands : ∀ l ∈ run.state.document.layers, ∀ p ∈ l.paths, p.commands ≠ []) {framed : Document α}
    (hframed : framedDocument s.config run.state = .ok framed) :
    ∃ last, (s.course r).drive run = .ok last ∧ last.phase = .done ∧ last.attempt = run.attempt ∧
      last.delays = run.delays ∧ last.state.document = framed ∧ last.state.repaired = run.state.repaired ∧
      framed.markup = .ok last.state.markup ∧ last.state.memory.asked = run.state.memory.asked := by
  obtain ⟨hcarried, hfinished, hdocument⟩ := finish_of_read hpaint hread hcommands hframed
  obtain ⟨hmemory, -, hrepaired⟩ := carryOut_kept run.state
  obtain ⟨carried, hcarry⟩ : ∃ carried, carryOut run.state = (carried, none) := ⟨_, Prod.ext rfl hcarried⟩
  rw [hcarry] at hfinished hdocument hmemory hrepaired
  obtain ⟨hasked, -⟩ := s.finish_kept carried
  obtain ⟨d, hfinish⟩ : ∃ d, s.finish carried = (d, none) := ⟨_, Prod.ext rfl hfinished⟩
  rw [hfinish] at hdocument hasked
  obtain ⟨framing, -, hkept, -, -⟩ := framed_of_finish hfinish
  obtain ⟨n, hmarkup⟩ := markup_of_finish hfinish
  rw [hpaint, hdocument] at hmarkup
  have hcarryAct : (s.course r).act .resolvingLayout run.state = (carried, none) := by
    simpa only [course_act, act] using hcarry
  have hfinishAct : (s.course r).act .autoFitting carried = (d, none) := by simpa only [course_act, act] using hfinish
  rw [Course.drive_of_act hcarryAct hphase rfl, Course.drive_of_act hfinishAct rfl rfl, Course.drive_of_done rfl]
  exact ⟨_, rfl, rfl, rfl, rfl, hdocument, hkept.trans hrepaired, hmarkup,
    hasked.trans (congrArg Memory.asked hmemory)⟩

/-- A run that has read such a document some steps after its start. -/
theorem Studio.run_of_after [ToldByDigits α] [StaysFinite α] (hpaint : ∀ n d, s.paint n d = d.markup) {threshold : α}
    {before : Set (Layer α)} (hm : m.analyzer.Recalls threshold before) {n : Nat}
    (hafter : (s.course r).after n (.start (.blank m r.aspect)) = some run)
    (hphase : run.phase = .working .resolvingLayout)
    (hcommands : ∀ l ∈ run.state.document.layers, ∀ p ∈ l.paths, p.commands ≠ []) {framed : Document α}
    (hframed : framedDocument s.config run.state = .ok framed) :
    ∃ last, s.run m r = .ok last ∧ last.phase = .done ∧ last.state.document = framed ∧
      framed.markup = .ok last.state.markup ∧ last.state.memory.asked = run.state.memory.asked := by
  have hstart : s.InOrder r m.asked before (.start (.blank m r.aspect)) :=
    ⟨⟨Nat.le_refl _, _, hm.mono Set.subset_union_left⟩, trivial⟩
  obtain ⟨horder, hdrive⟩ := Course.drive_after _ (fun _ _ _ h hp hs => h.step hpaint hp hs) hstart hafter
  have hprepared := horder.prepared
  rw [hphase] at hprepared
  obtain ⟨-, hread⟩ := hprepared
  obtain ⟨last, hlast, hdone, -, -, hdocument, -, hmarkup, hasked⟩ :=
    drive_of_read hpaint hphase hread hcommands hframed
  exact ⟨last, hdrive.trans hlast, hdone, hdocument, hmarkup, hasked⟩

end

/-- A reply with one dot in it. -/
def dotReply : String :=
  "\x7b\"layers\":[\x7b\"id\":\"a\",\"label\":\"A\",\"paths\":[\x7b\"id\":\"p\",\"commands\":[" ++
    "\x7b\"cmd\":\"M\",\"coords\":[9,9]\x7d]\x7d]\x7d]\x7d"

/-- A model that is late for some questions and then replies with a dot. -/
def dotModel (late : Nat) : Model Float := fun n _ => if n < late then .late else .text dotReply

/-- The studio of that model. -/
def dotStudio (late : Nat) : Studio Float := .ofModel .standard (dotModel late)

/-- A request without wishes. -/
def dotRequest : DrawingRequest Float := ⟨"a dot", .square, "unified", [], none, "", [], .standard, none, false⟩

theorem create_standard : Analyzer.create Catalog.empty (.whole 256) Analyzer.defaultThreshold =
    .ok (.standard : Analyzer Float) := rfl

theorem recalls_standard : (Analyzer.standard : Analyzer Float).Recalls Analyzer.defaultThreshold ∅ :=
  Analyzer.recalls_of_create create_standard ∅

/-- What is looked at in a run that has read its reply: where it stands, how often it has asked, whether its paths have
commands, and with how many layers its document can be framed. -/
def readingOf (run : Run (Draft Float) (Fault Float) Float) : Phase × Nat × Bool × Option Nat :=
  (run.phase, run.state.memory.asked, run.state.document.layers.all fun l => l.paths.all fun p => !p.commands.isEmpty,
    (Studio.framedDocument .standard run.state).toOption.map fun framed => framed.layers.length)

/-- A run ends well that has read a document of one layer some steps after its start. -/
theorem exists_drawn_of_reading {model : Model Float} {n asked : Nat}
    (hreading : (((Studio.ofModel .standard model).course dotRequest).after n
      (.start (.blank (.fresh .standard) .square))).map readingOf =
        some (.working .resolvingLayout, asked, true, some 1)) :
    ∃ run, (Studio.ofModel .standard model).run (.fresh .standard) dotRequest = .ok run ∧ run.phase = .done ∧
      run.state.memory.asked = asked ∧ run.state.document.layers.length = 1 := by
  obtain ⟨middle, hafter, hmiddle⟩ := Option.map_eq_some_iff.mp hreading
  obtain ⟨hphase, hasked, hcommands, hframed⟩ : middle.phase = .working .resolvingLayout ∧
      middle.state.memory.asked = asked ∧
      (middle.state.document.layers.all fun l => l.paths.all fun p => !p.commands.isEmpty) = true ∧
      (Studio.framedDocument .standard middle.state).toOption.map (fun framed => framed.layers.length) = some 1 := by
    simpa only [readingOf, Prod.mk.injEq] using hmiddle
  obtain ⟨framed, hframed, hone⟩ := Option.map_eq_some_iff.mp hframed
  have hcommands : ∀ l ∈ middle.state.document.layers, ∀ p ∈ l.paths, p.commands ≠ [] := by simpa using hcommands
  have hframed : Studio.framedDocument (Studio.ofModel .standard model).config middle.state = .ok framed :=
    eq_ok_of_toOption hframed
  obtain ⟨last, hrun, hdone, hdocument, -, hlastAsked⟩ :=
    Studio.run_of_after (fun _ _ => rfl) recalls_standard hafter hphase hcommands hframed
  exact ⟨last, hrun, hdone, hlastAsked.trans hasked, hdocument ▸ hone⟩

/-- The dot is read in four steps and two more for each late reply, and what is left to do with it can be done. -/
theorem dot_is_read (late : Fin 2) :
    (((dotStudio late).course dotRequest).after (4 + 2 * late) (.start (.blank (.fresh .standard) .square))).map
      readingOf = some (.working .resolvingLayout, late.1 + 1, true, some 1) := by
  revert late
  decide +kernel

/-- The dot is drawn: the run ends well, with one layer in its document. -/
theorem dot_is_drawn (late : Fin 2) : ∃ run, (dotStudio late).run (.fresh .standard) dotRequest = .ok run ∧
    run.phase = .done ∧ run.state.memory.asked = late.1 + 1 ∧ run.state.document.layers.length = 1 :=
  exists_drawn_of_reading (dot_is_read late)

/-- The dot is delivered, and no layer but its own comes up. -/
theorem dot_delivered (late : Fin 2) : ∃ d after,
    (dotStudio late).deliver (.fresh .standard) dotRequest = .ok (d, after) ∧
      d.result.metadata.method = .unified ∧ after.asked = late.1 + 1 ∧
      TellsApart shortDigest (∅ ∪ (dotStudio late).layersFor dotRequest (.fresh .standard) after d) := by
  obtain ⟨run, hrun, hdone, hasked, hone⟩ := dot_is_drawn late
  obtain ⟨horder, -⟩ := Studio.inOrder_run (fun _ _ => rfl) recalls_standard hrun
  obtain ⟨hkept, -⟩ := Studio.runResult_recalls horder (.inl hdone)
  have hprepared := horder.prepared
  rw [hdone] at hprepared
  obtain ⟨hreplied, hcomes, -⟩ := hprepared
  have hunified : ((dotStudio late).runResult dotRequest run).1.metadata.method = .unified := by
    obtain ⟨debug, hdraft⟩ := (dotStudio late).draftResult_eq dotRequest run
    rw [Studio.runResult_of_done _ _ hdone, hdraft]
    rfl
  refine ⟨_, _, Studio.deliver_of_run rfl hrun, hunified, hkept.trans hasked, ?_⟩
  -- Every reply is the same, so every layer that comes up is the one layer of what it comes to.
  have hreply {n : Nat} {reply : String} (h : dotModel late n dotRequest.fullPrompt = .text reply) :
      reply = dotReply := by
    unfold dotModel at h
    split_ifs at h
    exact (Reply.text.inj h).symm
  obtain ⟨dot, hdot⟩ := List.length_eq_one_iff.mp hone
  refine tellsApart_of_eq dot.contents ?_
  rintro l (hl | ⟨n, reply, document, repaired, -, -, htext, hdocument, hl⟩ | ⟨hne, -⟩)
  · exact hl.elim
  · rw [hreply htext, ← hreply hreplied.text] at hdocument
    obtain ⟨rfl, -⟩ := hdocument.unique hcomes
    rw [hdot, List.mem_singleton] at hl
    rw [hl]
  · exact absurd hunified hne

theorem deliver_isolated_late : ∃ d d' after after',
    (dotStudio 0).deliver (.fresh .standard) dotRequest = .ok (d, after) ∧
      (dotStudio 1).deliver (.fresh .standard) dotRequest = .ok (d', after') ∧ after.asked ≠ after'.asked ∧
      d.result.markup = d'.result.markup ∧ d.result.metadata.layers = d'.result.metadata.layers ∧
      d.result.metadata.quality = d'.result.metadata.quality ∧
      d.result.metadata.repaired = d'.result.metadata.repaired ∧
      d.result.metadata.regions = d'.result.metadata.regions ∧
      d.result.metadata.anchors = d'.result.metadata.anchors ∧
      d.result.metadata.canvas = d'.result.metadata.canvas := by
  obtain ⟨d, after, hd, hunified, hasked, hdigest⟩ := dot_delivered 0
  obtain ⟨d', after', hd', hunified', hasked', hdigest'⟩ := dot_delivered 1
  have hopened (late : Nat) : Studio.Reached .standard (dotModel late) (.fresh .standard) ∅ := .opened create_standard
  have hreply : dotModel 0 (after.asked - 1) dotRequest.fullPrompt =
      dotModel 1 (after'.asked - 1) dotRequest.fullPrompt := by
    rw [hasked, hasked']
    rfl
  refine ⟨d, d', after, after', hd, hd', by omega, ?_⟩
  exact deliver_isolated rfl rfl (hopened 0) (hopened 1) hd hd' hunified hunified' hreply hdigest hdigest'

end Drawing
