import Drawing.Proofs.Analysis.Exact
import Drawing.Proofs.Analysis.Score
import Drawing.Proofs.Document.Clean
import Drawing.Proofs.Markup.ReadBack
import Drawing.Proofs.Path.Reading
import Drawing.Proofs.Studio.Isolation

/-!
# `Drawing/Proofs/Studio/Clean.lean` — clean replies are drawn as they are

A reply goes a long way before it is delivered: it is read, validated, moved to the canvas that was asked for, cleaned,
laid out, framed, measured, painted and checked. If the document in it is clean (`Document.IsClean`) none of this
changes its paths, and the path data on the page spell out the very commands of the reply.

> **a clean reply is drawn as it is**, at the first attempt.
-/

namespace Drawing

/-! ## First attempts -/

namespace Studio

variable {α : Type} [Scalar α] [DecimalText α] [Trig α]

/-- The task of reading does what is said of it by `ReadsAs`. -/
theorem readDocument_of_readsAs {aspect : Aspect} {d : Draft α} {document : Document α} {repaired : Bool}
    (h : ReadsAs aspect d.reply document repaired) :
    ∃ warnings, readDocument aspect d = ({ d with warnings, repaired, document }, none) := by
  obtain ⟨design, outcome, actions, hdesign, hexamine, haccepted, rfl⟩ := h
  cases outcome with
  | accepted a warnings rescale strays =>
    obtain rfl := Option.some.inj haccepted
    unfold readDocument
    rw [hdesign]
    dsimp only
    rw [hexamine]
    exact ⟨_, rfl⟩
  | malformed => exact nomatch haccepted
  | noLayers => exact nomatch haccepted
  | misfit => exact nomatch haccepted

/-- A first reply that can be read gets to be laid out. -/
theorem drive_of_reply {s : Studio α} {m : Memory α} {r : DrawingRequest α} {reply : String} {document : Document α}
    {repaired : Bool} (hlimit : s.config.timeout.atMostZero = false) (hvalue : s.config.timeout.value?.isSome = true)
    (hreply : s.model m.asked r.fullPrompt = .text reply) (hread : ReadsAs r.aspect reply document repaired) :
    ∃ run, s.run m r = (s.course r).drive run ∧ run.phase = .working .resolvingLayout ∧ run.attempt = 1 ∧
      run.delays = [] ∧ run.state.reply = reply ∧ run.state.document = document ∧ run.state.repaired = repaired ∧
      run.state.memory.asked = m.asked + 1 := by
  have hidle (d : Draft α) : (s.course r).act .idle d = (d, none) := by simp only [course_act, act]
  have hbuild (d : Draft α) : (s.course r).act .buildingPrompt d = (d.withPrompt r.fullPrompt, none) := by
    simp only [course_act, act, buildPrompt_eq, DrawingRequest.fullPrompt]
  have hask {d : Draft α} (hd : s.model d.memory.asked d.prompt = .text reply) :
      ∃ asked, (s.course r).act .awaitingModel d = (asked, none) ∧ asked.reply = reply ∧
        asked.memory.asked = d.memory.asked + 1 := by
    simp only [course_act, act]
    unfold askModel
    rw [hlimit, Option.isNone_eq_false_iff.mpr hvalue, hd]
    exact ⟨_, rfl, rfl, rfl⟩
  have hvalidate {d : Draft α} (hd : d.reply = reply) :
      ∃ read, (s.course r).act .validating d = (read, none) ∧ read.reply = reply ∧ read.document = document ∧
        read.repaired = repaired ∧ read.memory = d.memory := by
    obtain ⟨warnings, hdocument⟩ := readDocument_of_readsAs (hd ▸ hread)
    rw [course_act, act, hdocument]
    exact ⟨_, rfl, hd, rfl, rfl, rfl⟩
  -- each draft is named, so that none of them is opened to compare it with another
  obtain ⟨blank, hblank⟩ : ∃ d, d = (Draft.blank m r.aspect : Draft α) := ⟨_, rfl⟩
  obtain ⟨prompted, hprompted⟩ : ∃ d, d = blank.withPrompt r.fullPrompt := ⟨_, rfl⟩
  have hfresh : blank.memory = m := congrArg Draft.memory hblank
  obtain ⟨hmemory, hprompt⟩ := withPrompt_kept blank r.fullPrompt
  have hprompting := hbuild blank
  rw [← hprompted] at hmemory hprompt hprompting
  rw [hfresh] at hmemory
  obtain ⟨asked, hasking, hreplied, hcount⟩ := hask (by rw [hmemory, hprompt]; exact hreply)
  obtain ⟨read, hreading, hsame, hdocument, hrepaired, hkept⟩ := hvalidate hreplied
  unfold run
  rw [← hblank, Course.drive_of_act (hidle blank) rfl rfl, Course.drive_of_act hprompting rfl rfl,
    Course.drive_of_act hasking rfl rfl, Course.drive_of_act hreading rfl rfl]
  refine ⟨_, rfl, rfl, rfl, rfl, hsame, hdocument, hrepaired, ?_⟩
  rw [← hmemory, ← hcount]
  exact congrArg Memory.asked hkept

end Studio

/-! ## Clean replies -/

/-- A reply with a document that is accepted on the canvas that was asked for, has its size and no path without
commands, is clean, and is not scaled when it is framed. -/
structure CleanReply (padding : Numeral Rat) (aspect : Aspect) (reply : String) (d : Document Rat) : Prop where
  reads : ∃ design o, readReply reply = .ok design ∧ Document.readFields (withoutResolved design) = .valid d ∧
    validateData design (some (.ofAspect aspect)) = .ok o ∧ o.isOk = true
  size : d.size = aspect.size
  commands : ∀ l ∈ d.layers, ∀ p ∈ l.paths, p.commands ≠ []
  clean : d.IsClean
  unscaled : ∀ f framing, d.fit padding = .ok (f, framing) → framing.factor = none

/-- A document on the canvas of an aspect ratio, with its own view box. -/
def Document.onCanvas (d : Document Rat) (aspect : Aspect) : Document Rat :=
  { d with canvas := { (Canvas.ofAspect aspect : Canvas Rat) with viewBox := d.canvas.viewBox } }

/-- Nothing is done to a clean document when it is validated. -/
theorem Document.IsClean.validate {d : Document Rat} {aspect : Aspect} {o : Outcome Rat} (hd : d.IsClean)
    (hsize : d.size = aspect.size) (h : d.validate (some (.ofAspect aspect)) = .ok o) (ha : o.isOk = true) :
    d.findings.1 = [] ∧ ∃ warnings, o = .accepted (d.onCanvas aspect) warnings none [] := by
  have hon : (d.onCanvas aspect).IsClean := hd.congr rfl rfl hsize.symm
  have hconform : d.conformTo (some (.ofAspect aspect)) = .ok (d.onCanvas aspect, none) :=
    if_pos ⟨congrArg Prod.fst hsize, congrArg Prod.snd hsize⟩
  unfold Document.validate at h
  split_ifs at h
  · obtain rfl := Except.ok.inj h
    exact nomatch ha
  · dsimp only at h
    split_ifs at h with herrors
    · obtain rfl := Except.ok.inj h
      exact nomatch ha
    · rw [hconform] at h
      obtain rfl := pure_eq_ok_iff.mp h
      rw [hon.isTidy.sanitize_eq, hon.isTidy.strays_eq]
      exact ⟨by simpa using herrors, _, rfl⟩

namespace CleanReply

variable {padding : Numeral Rat} {aspect : Aspect} {reply : String} {d : Document Rat}

/-- What is read from a clean reply is its document, on the canvas that was asked for. -/
theorem readsAs [Trig Rat] (h : CleanReply padding aspect reply d) :
    Studio.ReadsAs aspect reply (d.onCanvas aspect) false ∧ d.findings.1 = [] ∧ d.resolved = false := by
  obtain ⟨design, o, hdesign, hread, ho, hok⟩ := h.reads
  have hvalidate : d.validate (some (.ofAspect aspect)) = .ok o := by
    unfold validateData at ho
    rwa [hread] at ho
  obtain ⟨hfindings, warnings, rfl⟩ := h.clean.validate h.size hvalidate hok
  refine ⟨⟨design, .accepted (d.onCanvas aspect) warnings none [], [], hdesign, ?_, rfl, rfl⟩, hfindings,
    Document.resolved_of_readFields hread⟩
  unfold Studio.examine
  rw [ho]
  rfl

/-- Laying out and framing change nothing but the view box and the mark of a document that is laid out. -/
theorem framedDocument [Trig Rat] [DecimalText Rat] {config : Config Rat}
    (h : CleanReply config.padding aspect reply d) {draft : Draft Rat} (hdraft : draft.document = d.onCanvas aspect) :
    ∃ framed, Studio.framedDocument config draft = .ok framed ∧ framed.layers = d.layers ∧ framed.resolved = true := by
  obtain ⟨-, hfindings, hresolved⟩ := h.readsAs
  obtain ⟨catalog, hnamed⟩ := Document.named_of_findings hfindings
  have hon : (d.onCanvas aspect).IsClean := h.clean.congr rfl rfl h.size.symm
  have hresolve : (d.onCanvas aspect).resolve = .ok { d.onCanvas aspect with resolved := true } :=
    hon.resolve_eq hnamed.registered hresolved
  obtain ⟨f, framing, hfit⟩ := Document.exists_fit { d.onCanvas aspect with resolved := true } config.padding
  -- framing depends on the commands and the size, which are those of the reply
  have hfactor : framing.factor = none := by
    obtain ⟨framing', hframe, hpair⟩ := bind_eq_ok_iff.mp hfit
    obtain ⟨-, rfl⟩ := Prod.mk.inj (pure_eq_ok_iff.mp hpair)
    have hwidth : d.canvas.width = (Canvas.ofAspect aspect : Canvas Rat).width := congrArg Prod.fst h.size
    have hheight : d.canvas.height = (Canvas.ofAspect aspect : Canvas Rat).height := congrArg Prod.snd h.size
    refine h.unscaled _ framing' (bind_eq_ok_iff.mpr ⟨framing', ?_, rfl⟩)
    rw [hwidth, hheight]
    exact hframe
  have hframed := Document.fit_eq hfit hfactor
  have hquality := f.score_exact config.weights
  obtain ⟨layers, hlayers⟩ := draft.memory.analyzer.exists_summarize f
  refine ⟨f, ?_, by rw [hframed]; rfl, by rw [hframed]⟩
  unfold Studio.framedDocument
  rw [hdraft, hresolve]
  exact bind_eq_ok_iff.mpr ⟨_, rfl, bind_eq_ok_iff.mpr ⟨(f, framing), hfit, bind_eq_ok_iff.mpr ⟨_, hquality,
    bind_eq_ok_iff.mpr ⟨layers, hlayers, rfl⟩⟩⟩⟩

end CleanReply

/-- Hundredths are read back from the path data they are written to. -/
theorem Document.IsClean.readCommands?_pathData {d : Document Rat} (h : d.IsClean) {p : ShapePath Rat}
    (hp : p ∈ d.paintedPaths) : readCommands? (pathData p.commands) = some p.commands := by
  obtain ⟨l, hl, hp⟩ := mem_paintedPaths.mp hp
  refine Drawing.readCommands?_pathData (fun _ _ => ⟨rfl, rfl⟩) fun q hq => ?_
  obtain ⟨hx, hy⟩ := (h.points l hl p hp q hq).2
  rw [Scalar.printed_exact, Scalar.printed_exact]
  exact ⟨roundRat_of_isHundredths hx, roundRat_of_isHundredths hy⟩

/-- **A clean reply is drawn as it is.** If the model answers a request at first with a clean reply, then its drawing
is delivered, by the model, in one attempt and without repairs, whatever was asked of the studio before. For each path
of the reply its page has an entry with the id and the paints of this path, in the order in which paths are painted,
and its data spell out the commands of the reply. -/
theorem clean_reply_drawn [Trig Rat] [DecimalText Rat] {config : Config Rat} {model : Model Rat} {m : Memory Rat}
    {r : DrawingRequest Rat} {reply : String} {d : Document Rat} (hasks : r.exemption? = none)
    (hlimit : config.timeout.atMostZero = false) (hreply : model m.asked r.fullPrompt = .text reply)
    (hclean : CleanReply config.padding r.aspect reply d) :
    ∃ delivery after, (Studio.ofModel config model).deliver m r = .ok (delivery, after) ∧
      delivery.result.success = true ∧ delivery.result.metadata.method = .unified ∧
      delivery.result.metadata.attempts = 1 ∧ delivery.asked = 1 ∧ delivery.delays = [] ∧
      delivery.result.metadata.repaired = false ∧
      List.Forall₂ (fun p entry => p.IsEntry entry ∧
        ∃ data, entry.get? "d" = some data ∧ readCommands? data = some p.commands)
        d.paintedPaths (readPathTags delivery.result.markup) := by
  obtain ⟨hread, -, -⟩ := hclean.readsAs
  have hvalue : config.timeout.value?.isSome = true := by cases config.timeout <;> rfl
  obtain ⟨run, hrun, hphase, hattempt, hdelays, hsame, hdocument, hrepaired, hasked⟩ :=
    Studio.drive_of_reply (s := .ofModel config model) hlimit hvalue hreply hread
  obtain ⟨framed, hframed, hlayers, hresolved⟩ := hclean.framedDocument hdocument
  obtain ⟨last, hlast, hdone, hattempt', hdelays', -, hrepaired', hmarkup, hasked'⟩ :=
    Studio.drive_of_read (s := .ofModel config model) (r := r) (fun _ _ => rfl) hphase
      (by rwa [hsame, hdocument, hrepaired]) (by rw [hdocument]; exact hclean.commands) hframed
  obtain ⟨debug, hresult⟩ := (Studio.ofModel config model).draftResult_eq r last
  refine ⟨_, _, Studio.deliver_of_run hasks (hrun.trans hlast), ?_⟩
  dsimp only
  rw [Studio.runResult_of_done _ r hdone, hresult, Studio.asked_draftResult, hasked', hasked]
  refine ⟨rfl, rfl, congrArg Nat.cast (hattempt'.trans hattempt), by omega, hdelays'.trans hdelays,
    hrepaired'.trans hrepaired, ?_⟩
  rw [Document.readPathTags_markup (Document.resolve_of_resolved hresolved) hmarkup]
  have hpaths : framed.paintedPaths = d.paintedPaths := by
    unfold Document.paintedPaths Document.paintedLayers
    rw [hlayers]
  rw [hpaths]
  refine List.forall₂_map_right_iff.mpr (List.forall₂_same.mpr fun p hp => ?_)
  exact ⟨p.isEntry_inside, _, p.isEntry_inside.data, hclean.clean.readCommands?_pathData hp⟩

/-- A reply with two strokes on a square, of which the second is to be painted first. -/
def strokesReply : String :=
  "\x7b\"layers\":[\x7b\"id\":\"a\",\"label\":\"A\",\"paths\":[" ++
    "\x7b\"id\":\"p\",\"commands\":[\x7b\"cmd\":\"M\",\"coords\":[9,9]\x7d," ++
    "\x7b\"cmd\":\"L\",\"coords\":[500.25,480.5]\x7d]\x7d," ++
    "\x7b\"id\":\"q\",\"commands\":[\x7b\"cmd\":\"M\",\"coords\":[0,0.01]\x7d]," ++
    "\"layout\":\x7b\"zIndex\":-1\x7d\x7d]\x7d]\x7d"

/-- The document of that reply. -/
def strokesDocument : Document Rat where
  canvas := .ofAspect .square
  layout := none
  resolved := false
  layers := [⟨"a", "A", [⟨"p", .plain, [.move ⟨9, 9⟩, .line ⟨500.25, 480.5⟩], none⟩,
    ⟨"q", .plain, [.move ⟨0, 0.01⟩], some ⟨none, none, none, none, none, some (-1)⟩⟩], none⟩]

/-- A request without wishes. -/
def strokesRequest : DrawingRequest Rat := ⟨"strokes", .square, "unified", [], none, "", [], .standard, none, false⟩

theorem strokes_are_read : ∃ design o, readReply strokesReply = .ok design ∧
    Document.readFields (withoutResolved design) = .valid strokesDocument ∧
    validateData design (some (.ofAspect .square)) = .ok o ∧ o.isOk = true := by
  have hread : ((readReply strokesReply).toOption.map fun design =>
      (match Document.readFields (withoutResolved design) with
        | .valid d => decide (d = strokesDocument)
        | .invalid _ => false,
      (validateData design (some (.ofAspect .square))).toOption.map Outcome.isOk)) = some (true, some true) := by
    decide +kernel
  obtain ⟨design, hdesign, hread⟩ := Option.map_eq_some_iff.mp hread
  obtain ⟨hdocument, houtcome⟩ := Prod.mk.inj hread
  obtain ⟨o, ho, hok⟩ := Option.map_eq_some_iff.mp houtcome
  refine ⟨design, o, eq_ok_of_toOption hdesign, ?_, eq_ok_of_toOption ho, hok⟩
  split at hdocument
  · next d hd => rw [hd, of_decide_eq_true hdocument]
  · exact nomatch hdocument

theorem strokes_are_clean :
    CleanReply (Config.standard : Config Rat).padding .square strokesReply strokesDocument where
  reads := strokes_are_read
  size := rfl
  commands := by decide
  clean := ⟨by decide +kernel, by decide +kernel⟩
  unscaled := by
    have hfit : ((strokesDocument.fit (Config.standard : Config Rat).padding).toOption.map fun fitted =>
        fitted.2.factor.isNone) = some true := by decide +kernel
    intro f framing h
    rw [h] at hfit
    exact Option.isNone_iff_eq_none.mp (Option.some.inj hfit)

theorem clean_reply_drawn_strokes :
    letI := Trig.flat
    letI := DecimalText.whole
    ∃ delivery after,
      (Studio.ofModel .standard fun _ _ => .text strokesReply).deliver (.fresh .standard) strokesRequest =
        .ok (delivery, after) ∧
      delivery.result.success = true ∧ delivery.result.metadata.method = .unified ∧
      delivery.result.metadata.attempts = 1 ∧ delivery.asked = 1 ∧ delivery.delays = [] ∧
      delivery.result.metadata.repaired = false ∧
      List.Forall₂ (fun p entry => p.IsEntry entry ∧
        ∃ data, entry.get? "d" = some data ∧ readCommands? data = some p.commands)
        strokesDocument.paintedPaths (readPathTags delivery.result.markup) := by
  let _ := Trig.flat
  let _ := DecimalText.whole
  exact clean_reply_drawn rfl (by decide +kernel) rfl strokes_are_clean

end Drawing
