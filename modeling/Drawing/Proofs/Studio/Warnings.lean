import Drawing.Proofs.Studio.Notes

/-!
# `Drawing/Proofs/Studio/Warnings.lean` — what the warnings of a result are about

The attempt that ends a run well would have come to the same drawing by itself. It would not have come to the same
warnings:

> **the warnings are about every reply of the run** (`Studio.deliver_warnings`), those that were given up first.

So they are those of a single attempt at the last reply just where nothing was noted of the replies before it.
-/

namespace Drawing

namespace Studio

section

variable {α : Type} [Scalar α] [DecimalText α] [Trig α] {s : Studio α} {r : DrawingRequest α} {d : Draft α}

/-! ## The last attempt by itself

A task reads nothing of a draft but its memory and what the task before has set. So the attempt that ends a run well
ends well by itself too, if it is made with the memory that the earlier ones have left.
-/

/-- Drafts that what is done in a phase cannot tell apart. -/
def Alike (p : Phase) (d e : Draft α) : Prop :=
  d.memory = e.memory ∧ match p with
    | .working .awaitingModel => d.prompt = e.prompt
    | .working .validating => d.reply = e.reply
    | .working .resolvingLayout | .working .autoFitting => d.document = e.document
    | .done => d.markup = e.markup
    | _ => True

/-- What a task makes of two drafts. -/
def SameEnd (t : Task) (result result' : Draft α × Option (Fault α)) : Prop :=
  result.2 = result'.2 ∧ (result.2 = none → Alike t.next result.1 result'.1)

section

variable {e : Draft α}

omit [DecimalText α] [Trig α] in
theorem Alike.askModel (h : Alike (.working .awaitingModel) d e) :
    SameEnd .awaitingModel (s.askModel d) (s.askModel e) := by
  obtain ⟨hmemory, hprompt⟩ := h
  have hprompt : d.prompt = e.prompt := hprompt
  have hcounted : d.countQuestion.memory = e.countQuestion.memory := by
    unfold Draft.countQuestion
    rw [hmemory]
  unfold Studio.askModel
  rw [hmemory, hprompt]
  split_ifs
  · exact ⟨rfl, nofun⟩
  · exact ⟨rfl, nofun⟩
  · split
    · exact ⟨rfl, fun _ => ⟨hcounted, rfl⟩⟩
    · exact ⟨rfl, nofun⟩
    · exact ⟨rfl, nofun⟩
    · exact ⟨rfl, nofun⟩

theorem Alike.readDocument {aspect : Aspect} (h : Alike (.working .validating) d e) :
    SameEnd .validating (readDocument aspect d) (readDocument aspect e) := by
  obtain ⟨hmemory, hreply⟩ := h
  have hreply : d.reply = e.reply := hreply
  unfold Studio.readDocument
  rw [hreply]
  split
  · exact ⟨rfl, nofun⟩
  · split
    · exact ⟨rfl, nofun⟩
    · dsimp only
      split
      · exact ⟨rfl, nofun⟩
      · next hfault =>
        obtain ⟨document, -, hdocument⟩ := accepted_of_fault?_eq_none hfault
        rw [hdocument]
        exact ⟨rfl, fun _ => ⟨hmemory, rfl⟩⟩

omit [DecimalText α] in
theorem Alike.carryOut (h : Alike (.working .resolvingLayout) d e) :
    SameEnd .resolvingLayout (carryOut d) (carryOut e) := by
  obtain ⟨hmemory, hdocument⟩ := h
  have hdocument : d.document = e.document := hdocument
  unfold Studio.carryOut
  rw [hdocument]
  split
  · exact ⟨rfl, nofun⟩
  · exact ⟨rfl, fun _ => ⟨hmemory, rfl⟩⟩

omit [Scalar α] [DecimalText α] [Trig α] in
theorem Alike.paintChecked (h : Alike (.working .autoFitting) d e) :
    SameEnd .autoFitting (s.paintChecked d) (s.paintChecked e) := by
  obtain ⟨hmemory, hdocument⟩ := h
  have hdocument : d.document = e.document := hdocument
  unfold Studio.paintChecked
  rw [hmemory, hdocument]
  dsimp only
  split
  · exact ⟨rfl, nofun⟩
  · exact ⟨rfl, fun _ => ⟨rfl, rfl⟩⟩

omit [Trig α] in
theorem Alike.finish (h : Alike (.working .autoFitting) d e) :
    SameEnd .autoFitting (s.finish d) (s.finish e) := by
  obtain ⟨hmemory, hdocument⟩ := h
  have hdocument : d.document = e.document := hdocument
  unfold Studio.finish
  rw [hdocument]
  split
  · exact ⟨rfl, nofun⟩
  · dsimp only
    split
    · exact ⟨rfl, nofun⟩
    · dsimp only [Draft.warn]
      rw [hmemory]
      split
      · exact ⟨rfl, nofun⟩
      · exact Alike.paintChecked ⟨rfl, rfl⟩

/-- **A task does the same** to drafts that it cannot tell apart. -/
theorem Alike.act {t : Task} (h : Alike (.working t) d e) : SameEnd t (s.act r t d) (s.act r t e) := by
  cases t with
  | idle => exact ⟨rfl, fun _ => h⟩
  | buildingPrompt =>
    obtain ⟨hmemory, hprompt, hnone⟩ := buildPrompt_kept r d
    obtain ⟨hmemory', hprompt', hnone'⟩ := buildPrompt_kept r e
    rw [Studio.act, Studio.act]
    refine ⟨hnone.trans hnone'.symm, fun _ => ⟨?_, hprompt.trans hprompt'.symm⟩⟩
    exact hmemory.trans (h.1.trans hmemory'.symm)
  | awaitingModel =>
    rw [Studio.act, Studio.act]
    exact h.askModel
  | validating =>
    rw [Studio.act, Studio.act]
    exact h.readDocument
  | resolvingLayout =>
    rw [Studio.act, Studio.act]
    exact h.carryOut
  | autoFitting =>
    rw [Studio.act, Studio.act]
    exact h.finish

end

/-- A run whose attempt goes as one by itself, if it is made with what the attempts before it have left in memory. -/
def Repeated (s : Studio α) (r : DrawingRequest α) (run : Run (Draft α) (Fault α) α) : Prop :=
  run.phase ≠ .fallback → ∃ (m : Memory α) (sole : Run (Draft α) (Fault α) α),
    (s.course r).drive (.start (.blank m r.aspect)) = (s.course r).drive sole ∧ sole.phase = run.phase ∧
      sole.attempt = 1 ∧ Alike run.phase run.state sole.state

theorem Repeated.step {run run' : Run (Draft α) (Fault α) α} {t : Task} (h : s.Repeated r run)
    (hp : run.phase = .working t) (hs : (s.course r).StepsTo run t run') : s.Repeated r run' := by
  cases hs with
  | @done state ha =>
    intro _
    have hne : run.phase ≠ .fallback := by simp [hp]
    obtain ⟨m, sole, hdrive, hphase, hattempt, halike⟩ := h hne
    rw [hp] at hphase halike
    rw [course_act] at ha
    have hsame := halike.act (s := s) (r := r)
    rw [ha] at hsame
    obtain ⟨hnone, hnext⟩ := hsame
    have hact : (s.course r).act t sole.state = ((s.act r t sole.state).1, none) := Prod.ext rfl hnone.symm
    exact ⟨m, _, hdrive.trans (Course.drive_of_act hact hphase rfl), rfl, hattempt, hnext rfl⟩
  | @again state cause delay ha =>
    -- the attempt that follows starts over, with nothing but the memory
    intro _
    have hact : (s.course r).act .idle (.blank state.memory r.aspect) = (.blank state.memory r.aspect, none) := rfl
    exact ⟨state.memory, _, Course.drive_of_act hact rfl rfl, rfl, rfl, rfl, trivial⟩
  | out ha => exact fun hne => absurd rfl hne

/-- **The last attempt** of a run that is done can be made by itself. -/
theorem exists_sole_run {m : Memory α} {run : Run (Draft α) (Fault α) α} (hrun : s.run m r = .ok run)
    (hdone : run.phase = .done) : ∃ m' sole, s.run m' r = .ok sole ∧ sole.phase = .done ∧ sole.attempt = 1 ∧
      sole.state.memory = run.state.memory ∧ sole.state.markup = run.state.markup := by
  have hstart : s.Repeated r (.start (.blank m r.aspect)) := fun _ => ⟨m, _, rfl, rfl, rfl, rfl, trivial⟩
  obtain ⟨last, hrepeated, -, rfl⟩ := (s.course r).of_drive_start (s.Repeated r) hstart
    (fun _ _ _ h hp hs => h.step hp hs) hrun
  have hphase : last.phase = .done := hdone
  have hne : last.phase ≠ .fallback := by simp [hphase]
  obtain ⟨m', sole, hdrive, hsole, hattempt, halike⟩ := hrepeated hne
  rw [hphase] at hsole halike
  obtain ⟨hmemory, hmarkup⟩ := halike
  exact ⟨m', sole.close, hdrive.trans (Course.drive_of_done hsole), hsole, hattempt, hmemory.symm, hmarkup.symm⟩

/-! ## Deliveries -/

theorem account_of_run {m : Memory α} {run : Run (Draft α) (Fault α) α} (hrun : s.run m r = .ok run) :
    (s.course r).Account run := by
  obtain ⟨last, -, haccount, rfl⟩ := (s.course r).of_drive_start (fun _ => True) trivial
    (fun _ _ _ _ _ _ => trivial) hrun
  exact haccount

/-- A run that is done is delivered, and its delivery says so. -/
theorem deliver_of_done {m : Memory α} {run : Run (Draft α) (Fault α) α} (hrun : s.run m r = .ok run)
    (hdone : run.phase = .done) (hasks : r.exemption? = none) : ∃ d after, s.deliver m r = .ok (d, after) ∧
      d.history.getLast? = some .done ∧ d.result.metadata.attempts = run.attempt ∧
      d.result.warnings = run.state.warnings ∧ d.result.markup = run.state.markup := by
  obtain ⟨debug, hdraft⟩ := s.draftResult_eq r run
  refine ⟨_, _, deliver_of_run hasks hrun, (account_of_run hrun).last.trans (congrArg some hdone), ?_⟩
  rw [runResult_of_done s r hdone, hdraft]
  exact ⟨rfl, rfl, rfl⟩

/-- A delivery that says so is that of a run that is done. -/
theorem exists_run_of_deliver {m after : Memory α} {d : Delivery α} (hd : s.deliver m r = .ok (d, after))
    (hdone : d.history.getLast? = some .done) : r.exemption? = none ∧ ∃ run, s.run m r = .ok run ∧ run.phase = .done ∧
      d.result.metadata.attempts = run.attempt ∧ d.result.warnings = run.state.warnings ∧
      d.result.markup = run.state.markup := by
  cases hexempt : r.exemption? with
  | some exemption =>
    unfold deliver at hd
    rw [hexempt] at hd
    obtain ⟨rfl, -⟩ := Prod.mk.inj (Except.ok.inj hd)
    exact nomatch hdone
  | none =>
    have hrun := hd
    unfold deliver at hrun
    rw [hexempt] at hrun
    obtain ⟨run, hrun, hpair⟩ := bind_eq_ok_iff.mp hrun
    obtain ⟨hdelivery, -⟩ := Prod.mk.inj (pure_eq_ok_iff.mp hpair)
    have hhistory : run.history = d.history := congrArg Delivery.history hdelivery
    have hphase : run.phase = .done := by
      have hlast := (account_of_run hrun).last
      rw [hhistory, hdone] at hlast
      exact (Option.some.inj hlast).symm
    obtain ⟨d', after', hd', -, hresult⟩ := deliver_of_done hrun hphase hexempt
    obtain ⟨rfl, -⟩ := Prod.mk.inj (Except.ok.inj (hd.symm.trans hd'))
    exact ⟨rfl, run, hrun, hphase, hresult⟩

/-- A delivery by a single attempt, which got a reply. -/
structure SoleDelivery (s : Studio α) (m : Memory α) (r : DrawingRequest α) (reply : Reply α) (d : Delivery α) :
    Prop where
  delivered : ∃ after, s.deliver m r = .ok (d, after)
  done : d.history.getLast? = some .done
  single : d.result.metadata.attempts = 1
  reply : s.model m.asked r.fullPrompt = reply

theorem SoleDelivery.warnings {m : Memory α} {d : Delivery α} {reply : Reply α} (h : s.SoleDelivery m r reply d) :
    d.result.warnings = s.notes r m.asked := by
  obtain ⟨after, hd⟩ := h.delivered
  obtain ⟨-, run, hrun, hdone, hattempts, hwarnings, -⟩ := exists_run_of_deliver hd h.done
  obtain ⟨earlier, hattempt, -, hnoted⟩ := notes_of_done hrun hdone
  have hfirst : earlier = 0 := by
    have hone := h.single
    rw [hattempts, hattempt] at hone
    omega
  rw [hwarnings, hnoted, hfirst]
  rfl

/-- **Warnings are kept from attempt to attempt.** If a request is delivered by a run that is done, behind attempts that
have failed in whatever way, then a single attempt with the memory they have left delivers the same drawing. The
warnings are those of a single attempt that gets the last reply, whichever studio makes it, but behind what was noted of
the replies that were given up; so they are the same just if nothing was noted of any of these. -/
theorem deliver_warnings {m after : Memory α} {d : Delivery α} (hd : s.deliver m r = .ok (d, after))
    (hdone : d.history.getLast? = some .done) : ∃ earlier : Nat, d.result.metadata.attempts = earlier + 1 ∧
      (∃ m' d', s.SoleDelivery m' r (s.model (m.asked + earlier) r.fullPrompt) d' ∧
        d'.result.markup = d.result.markup) ∧
      ∀ (t : Studio α) (m' : Memory α) (d' : Delivery α), t.config.padding = s.config.padding →
        t.SoleDelivery m' r (s.model (m.asked + earlier) r.fullPrompt) d' →
          d.result.warnings = s.notesFrom r m.asked earlier ++ d'.result.warnings ∧
          (d.result.warnings = d'.result.warnings ↔ ∀ n < earlier, s.notes r (m.asked + n) = []) := by
  obtain ⟨hasks, run, hrun, hphase, hattempts, hwarnings, hmarkup⟩ := exists_run_of_deliver hd hdone
  obtain ⟨earlier, hattempt, hasked, hnoted⟩ := notes_of_done hrun hphase
  refine ⟨earlier, ?_, ?_, ?_⟩
  · rw [hattempts, hattempt]
    rfl
  · obtain ⟨m', sole, hsole, hsoleDone, hone, hmemory, hsame⟩ := exists_sole_run hrun hphase
    obtain ⟨before, hbefore, hsoleAsked, -⟩ := notes_of_done hsole hsoleDone
    obtain ⟨d', after', hd', hdone', hattempts', -, hmarkup'⟩ := deliver_of_done hsole hsoleDone hasks
    have hquestion : m'.asked = m.asked + earlier := by
      rw [hmemory] at hsoleAsked
      omega
    refine ⟨m', d', ⟨⟨after', hd'⟩, hdone', ?_, ?_⟩, hmarkup'.trans (hsame.trans hmarkup.symm)⟩
    · rw [hattempts', hone]
      rfl
    · rw [hquestion]
  · intro t m' d' hpadding hsole
    have hlast : d'.result.warnings = s.notes r (m.asked + earlier) := by
      rw [hsole.warnings]
      unfold notes
      rw [hsole.reply, hpadding]
    rw [hwarnings, hnoted, hlast, List.append_left_eq_self, notesFrom_eq_nil_iff]
    exact ⟨rfl, Iff.rfl⟩

end

end Studio

/-! ## A second thought -/

/-- A reply without anything to draw. -/
def emptyReply : String := "\x7b\"layers\":[]\x7d"

/-- A model that replies with nothing to draw first, and with a dot then. -/
def secondThought : Model Float := fun n _ => if n = 0 then .text emptyReply else .text dotReply

/-- The studio of that model. -/
def hastyStudio : Studio Float := .ofModel .standard secondThought

theorem secondThought_replies (prompt : Prompt) :
    secondThought 0 prompt = .text emptyReply ∧ secondThought 1 prompt = .text dotReply :=
  ⟨if_pos rfl, if_neg Nat.one_ne_zero⟩

/-- Two things are repaired in the first reply, which is refused all the same. -/
theorem notesFrom_hastyStudio :
    hastyStudio.notesFrom dotRequest 0 1 = ["Set schema version", "Added default canvas"] := by
  have hnotes : Studio.replyNotes (Config.standard : Config Float).padding .square emptyReply =
      ["Set schema version", "Added default canvas"] := by decide +kernel
  have hreply : hastyStudio.model 0 dotRequest.fullPrompt = .text emptyReply :=
    (secondThought_replies dotRequest.fullPrompt).1
  have hfirst : hastyStudio.notesFrom dotRequest 0 1 = hastyStudio.notes dotRequest 0 := by simp [Studio.notesFrom]
  rw [hfirst, Studio.notes_of_text hreply]
  exact hnotes

/-- The dot is read four steps and three more after the start. -/
theorem hastyStudio_reads : ((hastyStudio.course dotRequest).after 7
    (.start (.blank (.fresh .standard) .square))).map readingOf = some (.working .resolvingLayout, 2, true, some 1) := by
  decide +kernel

theorem hastyStudio_draws : ∃ run, hastyStudio.run (.fresh .standard) dotRequest = .ok run ∧ run.phase = .done ∧
    run.state.memory.asked = 2 ∧ run.state.document.layers.length = 1 :=
  exists_drawn_of_reading hastyStudio_reads

/-- The delivery of a run in a new studio that is done after a number of questions. -/
theorem exists_delivery_of_run {s : Studio Float} {earlier : Nat} (hdrawn : ∃ run,
    s.run (.fresh .standard) dotRequest = .ok run ∧ run.phase = .done ∧ run.state.memory.asked = earlier + 1 ∧
      run.state.document.layers.length = 1) :
    ∃ d after, s.deliver (.fresh .standard) dotRequest = .ok (d, after) ∧ d.history.getLast? = some .done ∧
      d.result.metadata.attempts = earlier + 1 ∧
      d.result.warnings = s.notesFrom dotRequest 0 earlier ++ s.notes dotRequest earlier := by
  obtain ⟨run, hrun, hdone, hasked, -⟩ := hdrawn
  obtain ⟨before, hattempt, hquestions, hnoted⟩ := Studio.notes_of_done hrun hdone
  have hfresh : (Memory.fresh .standard : Memory Float).asked = 0 := rfl
  rw [hfresh, Nat.zero_add] at hquestions hnoted
  obtain rfl : before = earlier := by omega
  obtain ⟨d, after, hd, hhistory, hattempts, hwarnings, -⟩ := Studio.deliver_of_done hrun hdone rfl
  refine ⟨d, after, hd, hhistory, ?_, hwarnings.trans hnoted⟩
  rw [hattempts, hattempt]
  rfl

/-- A studio whose model replies with the dot at once delivers it in a single attempt. -/
theorem dotStudio_delivers : ∃ d, (dotStudio 0).SoleDelivery (.fresh .standard) dotRequest (.text dotReply) d := by
  obtain ⟨d, after, hd, hhistory, hattempts, -⟩ := exists_delivery_of_run (dot_is_drawn 0)
  have hreply : dotModel 0 0 dotRequest.fullPrompt = .text dotReply := if_neg (Nat.not_lt_zero 0)
  exact ⟨d, ⟨after, hd⟩, hhistory, hattempts, hreply⟩

theorem deliver_warnings_hasty : ∃ d after d', hastyStudio.deliver (.fresh .standard) dotRequest = .ok (d, after) ∧
    d.history.getLast? = some .done ∧
    (dotStudio 0).SoleDelivery (.fresh .standard) dotRequest (.text dotReply) d' ∧
    d.result.warnings = ["Set schema version", "Added default canvas"] ++ d'.result.warnings := by
  obtain ⟨d, after, hd, hhistory, hattempts, -⟩ := exists_delivery_of_run hastyStudio_draws
  obtain ⟨d', hsole⟩ := dotStudio_delivers
  obtain ⟨earlier, hcount, -, hwarnings⟩ := Studio.deliver_warnings hd hhistory
  obtain rfl : earlier = 1 := by omega
  have hreply : hastyStudio.model 1 dotRequest.fullPrompt = .text dotReply :=
    (secondThought_replies dotRequest.fullPrompt).2
  have hlast : hastyStudio.model ((Memory.fresh .standard : Memory Float).asked + 1) dotRequest.fullPrompt =
      .text dotReply := hreply
  rw [hlast] at hwarnings
  obtain ⟨hkept, -⟩ := hwarnings (dotStudio 0) (.fresh .standard) d' rfl hsole
  exact ⟨d, after, d', hd, hhistory, hsole, hkept.trans (congrArg (· ++ d'.result.warnings) notesFrom_hastyStudio)⟩

/-- **The warnings are not those of a single attempt** at the last reply: what was repaired in a reply that was given up
is reported with a drawing that has nothing of it. -/
theorem deliver_warns_of_discarded : ∃ d after d',
    hastyStudio.deliver (.fresh .standard) dotRequest = .ok (d, after) ∧ d.history.getLast? = some .done ∧
      d.result.metadata.attempts = 2 ∧ hastyStudio.model 1 dotRequest.fullPrompt = .text dotReply ∧
      (dotStudio 0).SoleDelivery (.fresh .standard) dotRequest (.text dotReply) d' ∧
      "Added default canvas" ∈ d.result.warnings ∧ d.result.warnings ≠ d'.result.warnings := by
  obtain ⟨d, after, hd, hhistory, hattempts, hwarnings⟩ := exists_delivery_of_run hastyStudio_draws
  obtain ⟨d', hsole⟩ := dotStudio_delivers
  have hreply : hastyStudio.model 1 dotRequest.fullPrompt = .text dotReply :=
    (secondThought_replies dotRequest.fullPrompt).2
  have hdot : (dotStudio 0).model (Memory.fresh .standard : Memory Float).asked dotRequest.fullPrompt = .text dotReply :=
    hsole.reply
  have hlast : d'.result.warnings = hastyStudio.notes dotRequest 1 := by
    rw [hsole.warnings, Studio.notes_of_text hdot, Studio.notes_of_text hreply]
    rfl
  rw [notesFrom_hastyStudio] at hwarnings
  refine ⟨d, after, d', hd, hhistory, hattempts, hreply, hsole, ?_, ?_⟩
  · simp [hwarnings]
  · rw [hwarnings, hlast, ne_eq, List.append_left_eq_self]
    exact List.cons_ne_nil _ _

end Drawing
