import Drawing.Proofs.Analysis.Recall
import Drawing.Proofs.Markup.Accepted
import Drawing.Proofs.Studio.Delivery

/-!
# `Drawing/Proofs/Studio/Attempt.lean` — what an attempt makes of its reply

The attempts of a run work on one draft and ask one analyzer, which outlives the run. What an attempt finds there was
left by attempts that failed, at whichever task, and by other requests. It uses none of it: a task reads nothing of a
draft but what tasks of the same attempt have set, and what the analyzer remembers is what it would compute.

> **a draft that is done shows what its reply comes to** (`Studio.Shows`) — the document that is read from it, laid
> out and framed, with its page, its quality and the measures of its layers.

That an attempt gets there is another matter. What is read from a reply may still be too large to be laid out, framed
or measured; where it is not, its page passes the check as long as every path has commands (`Studio.finish_of_read`).
-/

namespace Drawing

variable {α : Type} [Scalar α]

theorem Document.resolved_fit {d f : Document α} {padding : Numeral α} {framing : Framing α}
    (h : d.fit padding = .ok (f, framing)) : f.resolved = d.resolved := by
  obtain ⟨framing', -, h⟩ := bind_eq_ok_iff.mp h
  obtain ⟨rfl, -⟩ := Prod.mk.inj (pure_eq_ok_iff.mp h)
  rfl

/-- The prompt of a request. -/
def DrawingRequest.fullPrompt [DecimalText α] (r : DrawingRequest α) : Prompt :=
  .ofRequest r (.whole r.aspect.size.1) (.whole r.aspect.size.2)

namespace Studio

variable [Trig α]

/-! ## Replies -/

/-- A document that is read from a reply, repaired if need be, and whether that has changed coordinates. -/
def ReadsAs (aspect : Aspect) (reply : String) (document : Document α) (repaired : Bool) : Prop :=
  ∃ design outcome actions, readReply reply = .ok design ∧
    examine design (.ofAspect aspect) = .ok (outcome, actions) ∧ outcome.accepted? = some document ∧
    repaired = (!actions.isEmpty || outcome.isSanitized)

/-- A document that is read from a reply, laid out and framed. -/
def ComesTo (padding : Numeral α) (aspect : Aspect) (reply : String) (document : Document α) (repaired : Bool) :
    Prop :=
  ∃ read resolved framing, ReadsAs aspect reply read repaired ∧ read.resolve = .ok resolved ∧
    resolved.fit padding = .ok (document, framing)

section

variable {padding : Numeral α} {aspect : Aspect} {reply : String} {document document' : Document α}
  {repaired repaired' : Bool}

theorem ReadsAs.unique (h : ReadsAs aspect reply document repaired) (h' : ReadsAs aspect reply document' repaired') :
    document = document' ∧ repaired = repaired' := by
  obtain ⟨design, outcome, actions, hdesign, hexamine, haccepted, rfl⟩ := h
  obtain ⟨design', outcome', actions', hdesign', hexamine', haccepted', rfl⟩ := h'
  obtain rfl := Except.ok.inj (hdesign.symm.trans hdesign')
  obtain ⟨rfl, rfl⟩ := Prod.mk.inj (Except.ok.inj (hexamine.symm.trans hexamine'))
  exact ⟨Option.some.inj (haccepted.symm.trans haccepted'), rfl⟩

/-- What is read has been accepted, as it came or repaired. -/
theorem ReadsAs.accepted (h : ReadsAs aspect reply document repaired) : ∃ raw outcome,
    validateData raw (some (.ofAspect aspect)) = .ok outcome ∧ outcome.accepted? = some document := by
  obtain ⟨design, outcome, actions, -, hexamine, haccepted, -⟩ := h
  unfold examine at hexamine
  obtain ⟨first, hfirst, hexamine⟩ := bind_eq_ok_iff.mp hexamine
  split_ifs at hexamine
  · obtain ⟨rfl, -⟩ := Prod.mk.inj (pure_eq_ok_iff.mp hexamine)
    exact ⟨design, first, hfirst, haccepted⟩
  · obtain ⟨design', -, hexamine⟩ := bind_eq_ok_iff.mp hexamine
    obtain ⟨second, hsecond, hexamine⟩ := bind_eq_ok_iff.mp hexamine
    obtain ⟨rfl, -⟩ := Prod.mk.inj (pure_eq_ok_iff.mp hexamine)
    exact ⟨design'.value, second, hsecond, haccepted⟩

theorem ReadsAs.finite [StaysFinite α] (h : ReadsAs aspect reply document repaired) : document.IsFinite := by
  obtain ⟨raw, outcome, hvalid, haccepted⟩ := h.accepted
  exact (Document.accepted_of_validateData hvalid haccepted).finite

theorem ComesTo.unique (h : ComesTo padding aspect reply document repaired)
    (h' : ComesTo padding aspect reply document' repaired') : document = document' ∧ repaired = repaired' := by
  obtain ⟨read, resolved, framing, hread, hresolve, hfit⟩ := h
  obtain ⟨read', resolved', framing', hread', hresolve', hfit'⟩ := h'
  obtain ⟨rfl, rfl⟩ := hread.unique hread'
  obtain rfl := Except.ok.inj (hresolve.symm.trans hresolve')
  exact ⟨(Prod.mk.inj (Except.ok.inj (hfit.symm.trans hfit'))).1, rfl⟩

theorem ComesTo.finite [StaysFinite α] (h : ComesTo padding aspect reply document repaired) : document.IsFinite := by
  obtain ⟨read, resolved, framing, hread, hresolve, hfit⟩ := h
  exact Document.isFinite_fit (Document.isFinite_resolve hread.finite hresolve) hfit

theorem ComesTo.resolved (h : ComesTo padding aspect reply document repaired) : document.resolved = true := by
  obtain ⟨read, resolved, framing, -, hresolve, hfit⟩ := h
  rw [Document.resolved_fit hfit]
  exact Document.resolved_resolve hresolve

end

variable [DecimalText α]

/-- A draft that shows what a reply comes to. -/
structure Shows (config : Config α) (aspect : Aspect) (reply : String) (d : Draft α) : Prop where
  document : ComesTo config.padding aspect reply d.document d.repaired
  quality : d.document.score config.weights = .ok d.quality
  layers : d.document.accountsOf d.document.layers = .ok d.layers
  markup : d.document.markup = .ok d.markup

/-- **Drafts that show one reply** agree, whatever was done before. -/
theorem Shows.unique {config config' : Config α} {aspect : Aspect} {reply : String} {d d' : Draft α}
    (hpadding : config.padding = config'.padding) (hweights : config.weights = config'.weights)
    (h : Shows config aspect reply d) (h' : Shows config' aspect reply d') :
    d.document = d'.document ∧ d.repaired = d'.repaired ∧ d.quality = d'.quality ∧ d.layers = d'.layers ∧
      d.markup = d'.markup := by
  obtain ⟨hdocument, hrepaired⟩ := h.document.unique (hpadding ▸ h'.document)
  have hquality := h'.quality
  have hlayers := h'.layers
  have hmarkup := h'.markup
  rw [← hdocument] at hquality hlayers hmarkup
  rw [← hweights] at hquality
  exact ⟨hdocument, hrepaired, Except.ok.inj (h.quality.symm.trans hquality),
    Except.ok.inj (h.layers.symm.trans hlayers), Except.ok.inj (h.markup.symm.trans hmarkup)⟩

/-! ## Tasks

The text of a prompt is long, so that it must not be compared with anything here. -/

omit [Scalar α] [Trig α] [DecimalText α] in
theorem withPrompt_kept (d : Draft α) (prompt : Prompt) :
    (d.withPrompt prompt).memory = d.memory ∧ (d.withPrompt prompt).prompt = prompt := ⟨rfl, rfl⟩

omit [Trig α] in
theorem buildPrompt_kept (r : DrawingRequest α) (d : Draft α) :
    (buildPrompt r d).1.memory = d.memory ∧ (buildPrompt r d).1.prompt = r.fullPrompt ∧ (buildPrompt r d).2 = none := by
  have hbuilt : buildPrompt r d = (d.withPrompt r.fullPrompt, none) := by
    rw [buildPrompt_eq, DrawingRequest.fullPrompt]
  obtain ⟨hmemory, hprompt⟩ := withPrompt_kept d r.fullPrompt
  rw [hbuilt]
  exact ⟨hmemory, hprompt, rfl⟩

theorem readDocument_kept (aspect : Aspect) (d : Draft α) :
    (readDocument aspect d).1.memory = d.memory ∧ (readDocument aspect d).1.reply = d.reply := by
  unfold readDocument
  split
  · exact ⟨rfl, rfl⟩
  · split
    · exact ⟨rfl, rfl⟩
    · dsimp only
      split <;> exact ⟨rfl, rfl⟩

theorem readsAs_of_readDocument (aspect : Aspect) (d : Draft α) : (readDocument aspect d).2 = none →
    ReadsAs aspect d.reply (readDocument aspect d).1.document (readDocument aspect d).1.repaired := by
  unfold readDocument
  split
  · exact nofun
  · next design hdesign =>
    split
    · exact nofun
    · next outcome actions hexamine =>
      dsimp only
      split
      · exact nofun
      · next hfault =>
        obtain ⟨document, haccepted, hdocument⟩ := accepted_of_fault?_eq_none hfault
        refine fun _ => ⟨design, outcome, actions, hdesign, hexamine, ?_, rfl⟩
        rw [haccepted, hdocument]
        rfl

omit [DecimalText α] in
theorem carryOut_kept (d : Draft α) :
    (carryOut d).1.memory = d.memory ∧ (carryOut d).1.reply = d.reply ∧ (carryOut d).1.repaired = d.repaired := by
  unfold carryOut
  split <;> exact ⟨rfl, rfl, rfl⟩

omit [DecimalText α] in
theorem resolve_of_carryOut (d : Draft α) : (carryOut d).2 = none →
    d.document.resolve = .ok (carryOut d).1.document := by
  unfold carryOut
  split
  · exact nofun
  · next document hresolve => exact fun _ => hresolve

omit [Trig α] [Scalar α] [DecimalText α] in
/-- Painting changes the page and the count of pages. -/
theorem paintChecked_fst (s : Studio α) (d : Draft α) : ∃ markup, (s.paintChecked d).1 =
    { d with memory := { d.memory with painted := d.memory.painted + 1 }, markup } := by
  unfold paintChecked
  dsimp only
  split
  · exact ⟨d.markup, rfl⟩
  · next markup _ => exact ⟨markup, rfl⟩

omit [Trig α] in
/-- The last task asks the analyzer about the document that it has framed, or not at all. -/
theorem finish_kept (s : Studio α) (d : Draft α) :
    (s.finish d).1.memory.asked = d.memory.asked ∧ (s.finish d).1.reply = d.reply ∧
      ((s.finish d).1.memory.analyzer = d.memory.analyzer ∨
        ∃ document framing, d.document.fit s.config.padding = .ok (document, framing) ∧
          (s.finish d).1.memory.analyzer = (d.memory.analyzer.summarize document).2) := by
  unfold finish
  split
  · exact ⟨rfl, rfl, .inl rfl⟩
  · next document framing hfit =>
    dsimp only
    split
    · exact ⟨rfl, rfl, .inl rfl⟩
    · split
      · exact ⟨rfl, rfl, .inr ⟨document, framing, hfit, rfl⟩⟩
      · obtain ⟨markup, hpainted⟩ := s.paintChecked_fst _
        rw [hpainted]
        exact ⟨rfl, rfl, .inr ⟨document, framing, hfit, rfl⟩⟩

omit [Trig α] in
theorem framed_of_finish {s : Studio α} {d d' : Draft α} (h : s.finish d = (d', none)) :
    ∃ framing, d.document.fit s.config.padding = .ok (d'.document, framing) ∧ d'.repaired = d.repaired ∧
      d'.document.score s.config.weights = .ok d'.quality ∧
      (d.memory.analyzer.summarize d'.document).1 = .ok d'.layers := by
  unfold finish at h
  split at h
  · exact nomatch (Prod.mk.inj h).2
  · next document framing hfit =>
    dsimp only at h
    split at h
    · exact nomatch (Prod.mk.inj h).2
    · next quality hquality =>
      split at h
      · exact nomatch (Prod.mk.inj h).2
      · next layers hlayers =>
        obtain ⟨markup, hpainted⟩ := s.paintChecked_fst _
        obtain rfl := hpainted.symm.trans (congrArg Prod.fst h)
        exact ⟨framing, hfit, rfl, hquality, hlayers⟩

/-- What is still to be done with the document of a draft, but for its page: the document as it is framed. -/
def framedDocument (config : Config α) (d : Draft α) : Except (Fault α) (Document α) := do
  let resolved ← d.document.resolve
  let (framed, _) ← resolved.fit config.padding
  let _ ← framed.score config.weights
  let _ ← (d.memory.analyzer.summarize framed).1
  return framed

section

variable [StaysFinite α] {s : Studio α} {aspect : Aspect} {d : Draft α} {framed : Document α}

/-- **What is read is painted** and passes the check of its page, if every path has commands. -/
theorem finish_of_read (hpaint : ∀ n d, s.paint n d = d.markup)
    (hread : ReadsAs aspect d.reply d.document d.repaired)
    (hcommands : ∀ l ∈ d.document.layers, ∀ p ∈ l.paths, p.commands ≠ [])
    (hframed : framedDocument s.config d = .ok framed) :
    (carryOut d).2 = none ∧ (s.finish (carryOut d).1).2 = none ∧
      (s.finish (carryOut d).1).1.document = framed := by
  obtain ⟨resolved, hresolve, hframed⟩ := bind_eq_ok_iff.mp hframed
  obtain ⟨⟨f, framing⟩, hfit, hframed⟩ := bind_eq_ok_iff.mp hframed
  obtain ⟨quality, hquality, hframed⟩ := bind_eq_ok_iff.mp hframed
  obtain ⟨layers, hlayers, hframed⟩ := bind_eq_ok_iff.mp hframed
  obtain rfl := pure_eq_ok_iff.mp hframed
  obtain ⟨raw, outcome, hvalid, haccepted⟩ := hread.accepted
  obtain ⟨markup, hmarkup, hcheck⟩ := (Document.accepted_of_validateData hvalid haccepted).checkMarkup hresolve hfit
  rw [Document.emptyPaths_eq_nil_iff.mpr hcommands] at hcheck
  have hcarry : carryOut d = ({ d with document := resolved }, none) := by
    unfold carryOut
    rw [hresolve]
  rw [hcarry]
  unfold finish paintChecked
  dsimp only
  rw [hfit]
  dsimp only
  rw [hquality]
  dsimp only [Draft.warn]
  rw [hlayers]
  dsimp only
  rw [hpaint, hmarkup]
  dsimp only
  rw [hcheck]
  exact ⟨rfl, rfl, rfl⟩

end

/-! ## Runs -/

/-- The layers of what the replies to a request come to, of those to the questions from one on and before another. -/
def layersDrawn (s : Studio α) (r : DrawingRequest α) (first last : Nat) : Set (Layer α) :=
  {l | ∃ n reply document repaired, first ≤ n ∧ n < last ∧ s.model n r.fullPrompt = .text reply ∧
    ComesTo s.config.padding r.aspect reply document repaired ∧ l ∈ document.layers}

/-- A memory of nothing but layers that came up before or were drawn for a request. -/
structure Remembers (s : Studio α) (r : DrawingRequest α) (first : Nat) (before : Set (Layer α)) (m : Memory α) :
    Prop where
  begun : first ≤ m.asked
  recalls : ∃ threshold, m.analyzer.Recalls threshold (before ∪ s.layersDrawn r first m.asked)

/-- A draft with the reply to the last question. -/
structure Replied (s : Studio α) (r : DrawingRequest α) (first : Nat) (d : Draft α) : Prop where
  asked : first < d.memory.asked
  text : s.model (d.memory.asked - 1) r.fullPrompt = .text d.reply

/-- What a task relies on in a draft; tasks that are not named rely on nothing. Behind the last task it is what the
draft shows, as long as digests tell apart what the analyzer was asked about. -/
def Prepared (s : Studio α) (r : DrawingRequest α) (first : Nat) (before : Set (Layer α)) (d : Draft α) : Phase → Prop
  | .working .awaitingModel => d.prompt = r.fullPrompt
  | .working .validating => s.Replied r first d
  | .working .resolvingLayout => s.Replied r first d ∧ ReadsAs r.aspect d.reply d.document d.repaired
  | .working .autoFitting =>
    s.Replied r first d ∧ ∃ read, ReadsAs r.aspect d.reply read d.repaired ∧ read.resolve = .ok d.document
  | .done => s.Replied r first d ∧ ComesTo s.config.padding r.aspect d.reply d.document d.repaired ∧
    (TellsApart shortDigest (before ∪ s.layersDrawn r first d.memory.asked) → Shows s.config r.aspect d.reply d)
  | _ => True

section

variable {s : Studio α} {r : DrawingRequest α} {first : Nat} {before : Set (Layer α)} {m : Memory α} {d : Draft α}

theorem layersDrawn_mono {last last' : Nat} (h : last ≤ last') :
    s.layersDrawn r first last ⊆ s.layersDrawn r first last' := by
  rintro l ⟨n, reply, document, repaired, hfirst, hlast, hl⟩
  exact ⟨n, reply, document, repaired, hfirst, hlast.trans_le h, hl⟩

theorem Replied.mem_layersDrawn (h : s.Replied r first d) {document : Document α} {repaired : Bool}
    (hdocument : ComesTo s.config.padding r.aspect d.reply document repaired) :
    ∀ l ∈ document.layers, l ∈ before ∪ s.layersDrawn r first d.memory.asked := by
  intro l hl
  have hasked := h.asked
  exact .inr ⟨d.memory.asked - 1, d.reply, document, repaired, by omega, by omega, h.text, hdocument, hl⟩

/-- To count a question loses nothing. -/
theorem Remembers.countQuestion (h : s.Remembers r first before d.memory) :
    s.Remembers r first before d.countQuestion.memory := by
  obtain ⟨threshold, hrecalls⟩ := h.recalls
  refine ⟨h.begun.trans (Nat.le_succ _), threshold, ?_⟩
  exact hrecalls.mono (Set.union_subset_union_right before (layersDrawn_mono (Nat.le_succ _)))

theorem Remembers.buildPrompt (h : s.Remembers r first before d.memory) :
    s.Remembers r first before (buildPrompt r d).1.memory ∧ (buildPrompt r d).1.prompt = r.fullPrompt := by
  obtain ⟨hmemory, hprompt, -⟩ := buildPrompt_kept r d
  rw [hmemory]
  exact ⟨h, hprompt⟩

theorem Remembers.askModel (h : s.Remembers r first before d.memory) (hprompt : d.prompt = r.fullPrompt) :
    s.Remembers r first before (s.askModel d).1.memory ∧
      ((s.askModel d).2 = none → s.Replied r first (s.askModel d).1) := by
  unfold Studio.askModel
  split_ifs
  · exact ⟨h, nofun⟩
  · exact ⟨h, nofun⟩
  · split
    · next text hreply =>
      refine ⟨h.countQuestion, fun _ => ⟨Nat.lt_succ_of_le h.begun, ?_⟩⟩
      rw [← hprompt]
      exact hreply
    · exact ⟨h.countQuestion, nofun⟩
    · exact ⟨h.countQuestion, nofun⟩
    · exact ⟨h.countQuestion, nofun⟩

theorem Remembers.readDocument (h : s.Remembers r first before d.memory) (hreplied : s.Replied r first d) :
    s.Remembers r first before (readDocument r.aspect d).1.memory ∧ ((readDocument r.aspect d).2 = none →
      s.Replied r first (readDocument r.aspect d).1 ∧
        ReadsAs r.aspect (readDocument r.aspect d).1.reply (readDocument r.aspect d).1.document
          (readDocument r.aspect d).1.repaired) := by
  have hkept := readDocument_kept r.aspect d
  have hdone := readsAs_of_readDocument r.aspect d
  generalize Studio.readDocument r.aspect d = result at hkept hdone ⊢
  obtain ⟨hmemory, hreply⟩ := hkept
  refine ⟨?_, fun hnone => ⟨⟨?_, ?_⟩, ?_⟩⟩
  · rw [hmemory]
    exact h
  · rw [hmemory]
    exact hreplied.asked
  · rw [hmemory, hreply]
    exact hreplied.text
  · rw [hreply]
    exact hdone hnone

theorem Remembers.carryOut (h : s.Remembers r first before d.memory) (hreplied : s.Replied r first d)
    (hread : ReadsAs r.aspect d.reply d.document d.repaired) :
    s.Remembers r first before (carryOut d).1.memory ∧ ((carryOut d).2 = none →
      s.Replied r first (carryOut d).1 ∧ ∃ read, ReadsAs r.aspect (carryOut d).1.reply read (carryOut d).1.repaired ∧
        read.resolve = .ok (carryOut d).1.document) := by
  have hkept := carryOut_kept d
  have hdone := resolve_of_carryOut d
  generalize Studio.carryOut d = result at hkept hdone ⊢
  obtain ⟨hmemory, hreply, hrepaired⟩ := hkept
  refine ⟨?_, fun hnone => ⟨⟨?_, ?_⟩, d.document, ?_, hdone hnone⟩⟩
  · rw [hmemory]
    exact h
  · rw [hmemory]
    exact hreplied.asked
  · rw [hmemory, hreply]
    exact hreplied.text
  · rw [hreply, hrepaired]
    exact hread

theorem Remembers.finish (h : s.Remembers r first before d.memory) (hreplied : s.Replied r first d)
    {read : Document α} (hread : ReadsAs r.aspect d.reply read d.repaired) (hresolve : read.resolve = .ok d.document) :
    s.Remembers r first before (s.finish d).1.memory := by
  obtain ⟨hasked, -, hanalyzer⟩ := s.finish_kept d
  obtain ⟨threshold, hrecalls⟩ := h.recalls
  refine ⟨hasked ▸ h.begun, threshold, ?_⟩
  rw [hasked]
  rcases hanalyzer with hsame | ⟨document, framing, hfit, hsummarized⟩
  · rw [hsame]
    exact hrecalls
  · rw [hsummarized]
    exact hrecalls.summarizeLayers document
      (hreplied.mem_layersDrawn ⟨read, d.document, framing, hread, hresolve, hfit⟩)

section

variable [ToldByDigits α] [StaysFinite α]

/-- **A draft that is done** shows what its reply comes to. -/
theorem prepared_of_finish (hpaint : ∀ n d, s.paint n d = d.markup) (h : s.Remembers r first before d.memory)
    (hreplied : s.Replied r first d) {read : Document α} (hread : ReadsAs r.aspect d.reply read d.repaired)
    (hresolve : read.resolve = .ok d.document) (hnone : (s.finish d).2 = none) :
    s.Prepared r first before (s.finish d).1 .done := by
  obtain ⟨d', hdone⟩ : ∃ d', s.finish d = (d', none) := ⟨(s.finish d).1, hnone ▸ rfl⟩
  rw [hdone]
  obtain ⟨framing, hfit, hrepaired, hquality, hlayers⟩ := framed_of_finish hdone
  obtain ⟨hasked, hreply, -⟩ := s.finish_kept d
  rw [hdone] at hasked hreply
  obtain ⟨n, hmarkup⟩ := markup_of_finish hdone
  rw [hpaint] at hmarkup
  have hcomes : ComesTo s.config.padding r.aspect d.reply d'.document d'.repaired :=
    ⟨read, d.document, framing, hrepaired ▸ hread, hresolve, hfit⟩
  refine ⟨⟨hasked ▸ hreplied.asked, ?_⟩, hreply ▸ hcomes, fun hdigest => ?_⟩
  · rw [hasked, hreply]
    exact hreplied.text
  · -- what the analyzer answers is what it would compute, whatever it was asked before
    obtain ⟨threshold, hrecalls⟩ := h.recalls
    rw [hasked] at hdigest
    have haccounts := hrecalls.summarizeLayers_fst hdigest (hreplied.mem_layersDrawn hcomes)
      (fun l hl p hp => hcomes.finite l hl p hp) d'.document
    exact ⟨hreply ▸ hcomes, hquality, haccounts.symm.trans hlayers, hmarkup⟩

/-- **One task** leaves what the next one relies on. -/
theorem prepared_act (hpaint : ∀ n d, s.paint n d = d.markup) {t : Task} (h : s.Remembers r first before d.memory)
    (hprepared : s.Prepared r first before d (.working t)) :
    s.Remembers r first before (s.act r t d).1.memory ∧
      ((s.act r t d).2 = none → s.Prepared r first before (s.act r t d).1 t.next) := by
  cases t with
  | idle => exact ⟨h, fun _ => trivial⟩
  | buildingPrompt =>
    obtain ⟨hremembers, hprompt⟩ := h.buildPrompt
    rw [act]
    exact ⟨hremembers, fun _ => hprompt⟩
  | awaitingModel =>
    rw [act]
    exact h.askModel hprepared
  | validating =>
    rw [act]
    exact h.readDocument hprepared
  | resolvingLayout =>
    rw [act]
    exact h.carryOut hprepared.1 hprepared.2
  | autoFitting =>
    obtain ⟨hreplied, read, hread, hresolve⟩ := hprepared
    rw [act]
    exact ⟨h.finish hreplied hread hresolve, prepared_of_finish hpaint h hreplied hread hresolve⟩

/-- What holds of the run for a request between two tasks. -/
structure InOrder (s : Studio α) (r : DrawingRequest α) (first : Nat) (before : Set (Layer α))
    (run : Run (Draft α) (Fault α) α) : Prop where
  remembers : s.Remembers r first before run.state.memory
  prepared : s.Prepared r first before run.state run.phase

/-- **One step** keeps it, whether its task is done or has failed. -/
theorem InOrder.step (hpaint : ∀ n d, s.paint n d = d.markup) {run run' : Run (Draft α) (Fault α) α} {t : Task}
    (h : s.InOrder r first before run) (hp : run.phase = .working t) (hs : (s.course r).StepsTo run t run') :
    s.InOrder r first before run' := by
  have hact := prepared_act hpaint h.remembers (hp ▸ h.prepared)
  -- A failed task leaves its draft to the next attempt, which begins with tasks that rely on nothing in it.
  cases hs with
  | done ha =>
    rw [course_act] at ha
    rw [ha] at hact
    exact ⟨hact.1, hact.2 rfl⟩
  | again ha =>
    rw [course_act] at ha
    rw [ha] at hact
    exact ⟨hact.1, trivial⟩
  | out ha =>
    rw [course_act] at ha
    rw [ha] at hact
    exact ⟨hact.1, trivial⟩

/-- **A run** that has ended is done or has come to nothing, and what it has left is in order. -/
theorem inOrder_run (hpaint : ∀ n d, s.paint n d = d.markup) {threshold : α}
    (hm : m.analyzer.Recalls threshold before) {run : Run (Draft α) (Fault α) α} (hrun : s.run m r = .ok run) :
    s.InOrder r m.asked before run ∧ (run.phase = .done ∨ run.phase = .fallback) := by
  have hstart : s.InOrder r m.asked before (.start (.blank m r.aspect)) :=
    ⟨⟨Nat.le_refl _, threshold, hm.mono Set.subset_union_left⟩, trivial⟩
  obtain ⟨last, horder, haccount, rfl⟩ := (s.course r).of_drive_start (s.InOrder r m.asked before) hstart
    (fun _ _ _ h hp hs => h.step hpaint hp hs) hrun
  exact ⟨⟨horder.remembers, horder.prepared⟩, haccount.ended.imp And.left And.left⟩

end

end

end Studio

end Drawing
