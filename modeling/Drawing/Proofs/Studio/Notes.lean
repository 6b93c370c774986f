import Drawing.Proofs.Studio.Isolation

/-!
# `Drawing/Proofs/Studio/Notes.lean` — what an attempt notes

A run sets everything anew in each of its attempts, but for the warnings, to which every attempt adds. What an attempt
adds is known from its reply alone: the actions of the repair, if it could be repaired, and if it was accepted what was
said of the document and whether it was scaled. An attempt that fails afterwards has added it all the same, so

> **a run that is done has noted what there was to note of every reply** (`Studio.notes_of_done`), in order.
-/

namespace Drawing

/-- How many replies an attempt has got when it is in a phase. -/
def Phase.replies : Phase → Nat
  | .working .validating | .working .resolvingLayout | .working .autoFitting | .done => 1
  | _ => 0

theorem Outcome.accepted?_of_fault? {α : Type} {o : Outcome α} {fault : Fault α} (h : o.fault? = some fault) :
    o.accepted? = none := by
  cases o with
  | accepted => exact nomatch h
  | _ => rfl

theorem Draft.warnings_withPrompt {α : Type} (d : Draft α) (prompt : Prompt) :
    (d.withPrompt prompt).warnings = d.warnings := rfl

namespace Studio

variable {α : Type} [Scalar α] [DecimalText α]

/-! ## Notes -/

/-- What is noted when a document is framed. -/
def fitNotes (padding : Numeral α) (document : Document α) : List String :=
  match document.fit padding with
  | .error _ => []
  | .ok (_, framing) => rescaleTexts framing

/-- A studio that gives its model time to answer. -/
def Asks (s : Studio α) : Prop := s.config.timeout.atMostZero = false ∧ s.config.timeout.value?.isNone = false

variable [Trig α]

/-- What is noted when a document is laid out and framed. -/
def layoutNotes (padding : Numeral α) (document : Document α) : List String :=
  match document.resolve with
  | .error _ => []
  | .ok resolved => fitNotes padding resolved

/-- What is noted of a reply: how it was repaired and, if there is a document in it that is accepted, what was said of
that, and whether it was scaled. -/
def replyNotes (padding : Numeral α) (aspect : Aspect) (reply : String) : List String :=
  match readReply reply with
  | .error _ => []
  | .ok design =>
    match examine design (.ofAspect aspect) with
    | .error _ => []
    | .ok (outcome, actions) =>
      actions.map RepairAction.text ++
        match outcome.accepted? with
        | none => []
        | some document => outcome.warnings ++ layoutNotes padding document

/-- What is noted of the reply to a question. -/
def notes (s : Studio α) (r : DrawingRequest α) (question : Nat) : List String :=
  match s.model question r.fullPrompt with
  | .text reply => replyNotes s.config.padding r.aspect reply
  | _ => []

/-- What is noted of the replies to some questions, from one on. -/
def notesFrom (s : Studio α) (r : DrawingRequest α) (first count : Nat) : List String :=
  (List.range count).flatMap fun n => s.notes r (first + n)

/-- What is still to be noted of the reply that a draft is made from. -/
def pending (s : Studio α) (r : DrawingRequest α) (d : Draft α) : Phase → List String
  | .working .validating => replyNotes s.config.padding r.aspect d.reply
  | .working .resolvingLayout => layoutNotes s.config.padding d.document
  | .working .autoFitting => fitNotes s.config.padding d.document
  | _ => []

theorem notesFrom_succ (s : Studio α) (r : DrawingRequest α) (first count : Nat) :
    s.notesFrom r first (count + 1) = s.notesFrom r first count ++ s.notes r (first + count) := by
  simp [notesFrom, List.range_succ]

theorem notes_of_text {s : Studio α} {r : DrawingRequest α} {question : Nat} {reply : String}
    (h : s.model question r.fullPrompt = .text reply) :
    s.notes r question = replyNotes s.config.padding r.aspect reply := by
  unfold notes
  rw [h]

theorem notesFrom_eq_nil_iff {s : Studio α} {r : DrawingRequest α} {first count : Nat} :
    s.notesFrom r first count = [] ↔ ∀ n < count, s.notes r (first + n) = [] := by
  simp [notesFrom]

/-! ## Tasks -/

section

variable (padding : Numeral α) (aspect : Aspect) (d : Draft α)

/-- Reading notes what there is to note, but for what comes of the document. -/
theorem readDocument_notes :
    ((readDocument aspect d).2 = none → (readDocument aspect d).1.warnings ++
        layoutNotes padding (readDocument aspect d).1.document = d.warnings ++ replyNotes padding aspect d.reply) ∧
      ((readDocument aspect d).2 ≠ none →
        (readDocument aspect d).1.warnings = d.warnings ++ replyNotes padding aspect d.reply) := by
  unfold readDocument replyNotes
  cases (readReply d.reply : Except (Fault α) (Fields α)) with
  | error fault => simp
  | ok design =>
    dsimp only
    cases examine design (.ofAspect aspect) with
    | error fault => simp
    | ok examined =>
      obtain ⟨outcome, actions⟩ := examined
      dsimp only
      cases hfault : outcome.fault? with
      | some fault => simp [Outcome.accepted?_of_fault? hfault, Draft.warn]
      | none =>
        obtain ⟨document, haccepted, hdocument⟩ := accepted_of_fault?_eq_none hfault
        simp [haccepted, hdocument, Draft.warn]

omit [DecimalText α] in
theorem carryOut_notes : (carryOut d).1.warnings = d.warnings ∧ layoutNotes padding d.document =
    if (carryOut d).2 = none then fitNotes padding (carryOut d).1.document else [] := by
  unfold carryOut layoutNotes
  cases d.document.resolve with
  | error fault => simp
  | ok resolved => simp

omit [Trig α] in
theorem finish_notes (s : Studio α) :
    (s.finish d).1.warnings = d.warnings ++ fitNotes s.config.padding d.document := by
  unfold finish fitNotes
  cases d.document.fit s.config.padding with
  | error fault => simp
  | ok fitted =>
    obtain ⟨document, framing⟩ := fitted
    dsimp only
    split
    · rfl
    · split
      · rfl
      · obtain ⟨markup, hpainted⟩ := s.paintChecked_fst _
        rw [hpainted]
        rfl

end

/-! ## Runs -/

/-- What is known of the notes in a draft, at a phase of an attempt behind some earlier ones. -/
structure Noted (s : Studio α) (r : DrawingRequest α) (first earlier : Nat) (p : Phase) (d : Draft α) : Prop where
  asked : d.memory.asked = first + earlier + p.replies
  prompt : p = .working .awaitingModel → d.prompt = r.fullPrompt
  noted : d.warnings ++ s.pending r d p = s.notesFrom r first (earlier + p.replies)

section

variable {s : Studio α} {r : DrawingRequest α} {first earlier : Nat} {d : Draft α}

/-- What a task leaves if it is done, and if it has failed, which leads to another attempt. -/
def Leaves (s : Studio α) (r : DrawingRequest α) (first earlier : Nat) (t : Task)
    (result : Draft α × Option (Fault α)) : Prop :=
  (result.2 = none → s.Noted r first earlier t.next result.1) ∧
    (result.2 ≠ none → s.Noted r first (earlier + 1) (.working .buildingPrompt) result.1)

theorem Noted.buildPrompt (h : s.Noted r first earlier (.working .buildingPrompt) d) :
    s.Leaves r first earlier .buildingPrompt (buildPrompt r d) := by
  obtain ⟨hmemory, hprompt, hnone⟩ := buildPrompt_kept r d
  have hwarnings : (Studio.buildPrompt r d).1.warnings = d.warnings := by
    rw [buildPrompt_eq, Draft.warnings_withPrompt]
  refine ⟨fun _ => ⟨?_, fun _ => hprompt, ?_⟩, fun hsome => absurd hnone hsome⟩
  · rw [hmemory]
    exact h.asked
  · exact (congrArg (· ++ []) hwarnings).trans h.noted

theorem Noted.askModel (hasks : s.Asks) (h : s.Noted r first earlier (.working .awaitingModel) d) :
    s.Leaves r first earlier .awaitingModel (s.askModel d) := by
  have hreply : s.model d.memory.asked d.prompt = s.model (first + earlier) r.fullPrompt :=
    congrArg₂ s.model h.asked (h.prompt rfl)
  have hwarnings : d.warnings = s.notesFrom r first earlier := (List.append_nil _).symm.trans h.noted
  have hcounted : d.countQuestion.memory.asked = first + (earlier + 1) := congrArg (· + 1) h.asked
  have hnotes := s.notesFrom_succ r first earlier
  rw [← hwarnings] at hnotes
  have hfailed {fault : Fault α} (hnil : s.notes r (first + earlier) = []) :
      s.Leaves r first earlier .awaitingModel (d.countQuestion, some fault) := by
    rw [hnil] at hnotes
    exact ⟨nofun, fun _ => ⟨hcounted, nofun, hnotes.symm⟩⟩
  unfold Studio.askModel
  rw [if_neg (by simp [hasks.1]), if_neg (by simp [hasks.2]), hreply]
  cases hmodel : s.model (first + earlier) r.fullPrompt with
  | text reply =>
    rw [notes_of_text hmodel] at hnotes
    exact ⟨fun _ => ⟨hcounted, nofun, hnotes.symm⟩, fun hsome => absurd rfl hsome⟩
  | failure reason => exact hfailed (by simp [notes, hmodel])
  | fault fault => exact hfailed (by simp [notes, hmodel])
  | late => exact hfailed (by simp [notes, hmodel])

theorem Noted.readDocument (h : s.Noted r first earlier (.working .validating) d) :
    s.Leaves r first earlier .validating (readDocument r.aspect d) := by
  obtain ⟨hmemory, -⟩ := readDocument_kept r.aspect d
  obtain ⟨hdone, hfailed⟩ := readDocument_notes s.config.padding r.aspect d
  refine ⟨fun hnone => ⟨?_, nofun, ?_⟩, fun hsome => ⟨?_, nofun, ?_⟩⟩
  · rw [hmemory]
    exact h.asked
  · exact (hdone hnone).trans h.noted
  · rw [hmemory]
    exact h.asked
  · exact (List.append_nil _).trans ((hfailed hsome).trans h.noted)

theorem Noted.carryOut (h : s.Noted r first earlier (.working .resolvingLayout) d) :
    s.Leaves r first earlier .resolvingLayout (carryOut d) := by
  obtain ⟨hmemory, -⟩ := carryOut_kept d
  obtain ⟨hwarnings, hnotes⟩ := carryOut_notes s.config.padding d
  have hnoted : d.warnings ++ layoutNotes s.config.padding d.document = s.notesFrom r first (earlier + 1) := h.noted
  rw [hnotes, ← hwarnings] at hnoted
  refine ⟨fun hnone => ⟨?_, nofun, ?_⟩, fun hsome => ⟨?_, nofun, ?_⟩⟩
  · rw [hmemory]
    exact h.asked
  · rw [if_pos hnone] at hnoted
    exact hnoted
  · rw [hmemory]
    exact h.asked
  · rw [if_neg hsome] at hnoted
    exact hnoted

theorem Noted.finish (h : s.Noted r first earlier (.working .autoFitting) d) :
    s.Leaves r first earlier .autoFitting (s.finish d) := by
  obtain ⟨hasked, -⟩ := s.finish_kept d
  have hnoted : (s.finish d).1.warnings = s.notesFrom r first (earlier + 1) := (s.finish_notes d).trans h.noted
  refine ⟨fun _ => ⟨?_, nofun, ?_⟩, fun _ => ⟨?_, nofun, ?_⟩⟩
  · exact hasked.trans h.asked
  · exact (List.append_nil _).trans hnoted
  · exact hasked.trans h.asked
  · exact (List.append_nil _).trans hnoted

/-- **One task** notes what there is to note of the reply by then, and all of it if it fails. -/
theorem Noted.act (hasks : s.Asks) {t : Task} (h : s.Noted r first earlier (.working t) d) :
    s.Leaves r first earlier t (s.act r t d) := by
  cases t with
  | idle => exact ⟨fun _ => ⟨h.asked, nofun, h.noted⟩, fun hsome => absurd rfl hsome⟩
  | buildingPrompt =>
    rw [Studio.act]
    exact h.buildPrompt
  | awaitingModel =>
    rw [Studio.act]
    exact h.askModel hasks
  | validating =>
    rw [Studio.act]
    exact h.readDocument
  | resolvingLayout =>
    rw [Studio.act]
    exact h.carryOut
  | autoFitting =>
    rw [Studio.act]
    exact h.finish

/-- What holds of the run for a request between two tasks. -/
structure Noting (s : Studio α) (r : DrawingRequest α) (first : Nat) (run : Run (Draft α) (Fault α) α) : Prop where
  asks : run.phase.replies = 1 → s.Asks
  noted : s.Asks → run.phase ≠ .fallback → ∃ earlier, run.attempt = earlier + 1 ∧
    s.Noted r first earlier run.phase run.state

omit [DecimalText α] [Trig α] in
theorem asks_of_askModel (h : (s.askModel d).2 = none) : s.Asks := by
  unfold Studio.askModel at h
  split_ifs at h with hlate hlarge
  exact ⟨Bool.eq_false_iff.mpr hlate, Bool.eq_false_iff.mpr hlarge⟩

/-- **One step** keeps it, whether its task is done or has failed. -/
theorem Noting.step {run run' : Run (Draft α) (Fault α) α} {t : Task} (h : s.Noting r first run)
    (hp : run.phase = .working t) (hs : (s.course r).StepsTo run t run') : s.Noting r first run' := by
  have hasks := h.asks
  have hleaves (ha : s.Asks) : ∃ earlier, run.attempt = earlier + 1 ∧
      s.Leaves r first earlier t (s.act r t run.state) := by
    have hne : run.phase ≠ .fallback := by simp [hp]
    obtain ⟨earlier, hattempt, hnoted⟩ := h.noted ha hne
    rw [hp] at hnoted
    exact ⟨earlier, hattempt, hnoted.act ha⟩
  rw [hp] at hasks
  cases hs with
  | @done state ha =>
    rw [course_act] at ha
    rw [ha] at hleaves
    refine ⟨?_, ?_⟩
    · -- a studio that does not ask never gets behind its question
      intro hreplies
      cases t with
      | awaitingModel =>
        have hact : s.act r .awaitingModel run.state = s.askModel run.state := by simp only [Studio.act]
        exact asks_of_askModel (congrArg Prod.snd (hact.symm.trans ha))
      | idle => exact absurd hreplies Nat.zero_ne_one
      | buildingPrompt => exact absurd hreplies Nat.zero_ne_one
      | validating => exact hasks rfl
      | resolvingLayout => exact hasks rfl
      | autoFitting => exact hasks rfl
    · intro hask _
      obtain ⟨earlier, hattempt, hdone, -⟩ := hleaves hask
      exact ⟨earlier, hattempt, hdone rfl⟩
  | @again state cause delay ha =>
    rw [course_act] at ha
    rw [ha] at hleaves
    refine ⟨fun hreplies => absurd hreplies Nat.zero_ne_one, ?_⟩
    intro hask _
    obtain ⟨earlier, hattempt, -, hfailed⟩ := hleaves hask
    exact ⟨earlier + 1, congrArg (· + 1) hattempt, hfailed (Option.some_ne_none cause)⟩
  | out ha => exact ⟨fun hreplies => absurd hreplies Nat.zero_ne_one, fun _ hne => absurd rfl hne⟩

/-- **A run that is done** has noted what there was to note of every reply that it has got, in order. -/
theorem notes_of_done {m : Memory α} {run : Run (Draft α) (Fault α) α} (hrun : s.run m r = .ok run)
    (hdone : run.phase = .done) : ∃ earlier, run.attempt = earlier + 1 ∧
      run.state.memory.asked = m.asked + earlier + 1 ∧
      run.state.warnings = s.notesFrom r m.asked earlier ++ s.notes r (m.asked + earlier) := by
  have hstart : s.Noting r m.asked (.start (.blank m r.aspect)) :=
    ⟨nofun, fun _ _ => ⟨0, rfl, rfl, nofun, rfl⟩⟩
  obtain ⟨last, hnoting, -, rfl⟩ := (s.course r).of_drive_start (s.Noting r m.asked) hstart
    (fun _ _ _ h hp hs => h.step hp hs) hrun
  have hphase : last.phase = .done := hdone
  have hasks := hnoting.asks (congrArg Phase.replies hphase)
  have hne : last.phase ≠ .fallback := by simp [hphase]
  obtain ⟨earlier, hattempt, hnoted⟩ := hnoting.noted hasks hne
  rw [hphase] at hnoted
  refine ⟨earlier, hattempt, hnoted.asked, ?_⟩
  rw [← s.notesFrom_succ]
  exact (List.append_nil _).symm.trans hnoted.noted

end

end Studio

end Drawing
