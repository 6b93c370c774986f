import Drawing.Number.Double
import Drawing.Number.Exact
import Drawing.Proofs.Fallible
import Drawing.Studio.Run
import Mathlib.Data.Int.Order.Basic
import Mathlib.Data.List.Chain
import Mathlib.Data.List.Range

/-!
# `Drawing/Proofs/Studio/Retry.lean` — what a run has come to

A run is driven until all its tasks are done or its attempts are used up. Whatever its tasks do, the run keeps
its books: how many attempts there were, which of them failed and how long was waited behind each are tied to
one another at every step (`Course.Kept`), so that at the end

> **the run has an account** — as many errors in its history as failures on its list, as many attempts as
> failures or one more, a wait between any two attempts, and never more than five tasks to an attempt.

The one thing that can stop a run short is a wait that is no number.
-/

namespace Drawing

/-! ## The phase diagram -/

/-- Which phases may stand next to each other in a history. -/
inductive Phase.Leads : Phase → Phase → Prop where
  | on (t : Task) : Leads (.working t) t.next
  | astray (t : Task) : Leads (.working t) .error
  | again : Leads .error (.working .buildingPrompt)
  | out : Leads .error .fallback

/-- Whether a task is under way in a phase. -/
def Phase.isWorking : Phase → Bool
  | working _ => true
  | _ => false

theorem Phase.Leads.of_error {q : Phase} (h : Leads .error q) :
    q = .working .buildingPrompt ∨ q = .fallback := by
  cases h with
  | again => exact .inl rfl
  | out => exact .inr rfl

theorem path_snoc {history : List Phase} {p q : Phase}
    (h : (history ++ [p]).IsChain Phase.Leads) (hq : p.Leads q) :
    (history ++ [p] ++ [q]).IsChain Phase.Leads := by
  refine h.append (List.isChain_singleton q) fun x hx y hy => ?_
  obtain rfl : p = x := by simpa using hx
  obtain rfl : q = y := by simpa using hy
  exact hq

/-- A history that is a path through the diagram says what is behind each of its errors: the next attempt, or
the end of the history if that is a fallback. -/
theorem behind_error {history : List Phase} {p : Phase} (hp : p ≠ .error)
    (hl : history.getLast? = some p) (hc : history.IsChain Phase.Leads) {i : Nat}
    (hi : history[i]? = some .error) :
    history[i + 1]? = some (.working .buildingPrompt) ∨
      history[i + 1]? = some .fallback ∧ i + 2 = history.length := by
  obtain ⟨hlt, hi⟩ := List.getElem?_eq_some_iff.mp hi
  rw [List.isChain_iff_getElem] at hc
  have hlt' : i + 1 < history.length := by
    rcases Nat.lt_or_ge (i + 1) history.length with h | h
    · exact h
    · have hlast : history.length - 1 = i := by omega
      rw [List.getLast?_eq_getElem?, hlast, List.getElem?_eq_getElem hlt, hi] at hl
      exact absurd (Option.some.inj hl).symm hp
  have hn : Phase.Leads .error history[i + 1] := hi ▸ hc i hlt'
  rw [List.getElem?_eq_getElem hlt']
  rcases hn.of_error with hq | hq
  · exact .inl (congrArg some hq)
  · refine .inr ⟨congrArg some hq, ?_⟩
    rcases Nat.lt_or_ge (i + 2) history.length with h | h
    · -- nothing is behind a fallback
      exact nomatch (hq ▸ hc (i + 1) h : Phase.Leads .fallback history[i + 2])
    · omega

/-! ## Counting phases -/

namespace Run

variable {σ ε δ : Type}

/-- A run without any attempts left. -/
def giveUp (r : Run σ ε δ) : Run σ ε δ := { r with phase := .fallback }

/-- The tasks taken up so far. -/
def tasks (r : Run σ ε δ) : Nat := r.history.countP Phase.isWorking

/-- The errors so far. -/
def errors (r : Run σ ε δ) : Nat := r.history.count .error

@[simp] theorem tasks_takeUp (r : Run σ ε δ) (t : Task) : (r.takeUp t).tasks = r.tasks + 1 := by
  simp only [tasks, takeUp, List.countP_append]
  rfl

@[simp] theorem errors_takeUp (r : Run σ ε δ) (t : Task) : (r.takeUp t).errors = r.errors := by
  simp only [errors, takeUp, List.count_append]
  rfl

@[simp] theorem tasks_fail (r : Run σ ε δ) (t : Task) (state : σ) (cause : ε) :
    (r.fail t state cause).tasks = r.tasks := by
  simp only [tasks, fail, List.countP_append]
  rfl

@[simp] theorem errors_fail (r : Run σ ε δ) (t : Task) (state : σ) (cause : ε) :
    (r.fail t state cause).errors = r.errors + 1 := by
  simp only [errors, fail, List.count_append]
  rfl

@[simp] theorem tasks_retry (r : Run σ ε δ) (p : Phase) (d : δ) : (r.retry p d).tasks = r.tasks := rfl

@[simp] theorem tasks_giveUp (r : Run σ ε δ) : r.giveUp.tasks = r.tasks := rfl

end Run

/-! ## Single steps -/

namespace Course

variable {σ ε δ φ : Type} {c : Course σ ε δ φ}

/-- What a step can come to: the task is done; it has failed and another attempt is made; or it has failed in
the last attempt. -/
inductive StepsTo (c : Course σ ε δ φ) (r : Run σ ε δ) (t : Task) : Run σ ε δ → Prop where
  | done {state : σ} (h : c.act t r.state = (state, none)) :
      StepsTo c r t ((r.takeUp t).complete t state)
  | again {state : σ} {cause : ε} {d : δ} (h : c.act t r.state = (state, some cause))
      (hl : (r.attempt : Int) < c.limit) (hd : c.wait r.attempt = .ok d) :
      StepsTo c r t (((r.takeUp t).fail t state cause).retry (.working .buildingPrompt) d)
  | out {state : σ} {cause : ε} (h : c.act t r.state = (state, some cause))
      (hl : c.limit ≤ r.attempt) :
      StepsTo c r t ((r.takeUp t).fail t state cause).giveUp

theorem recover_of_lt {r : Run σ ε δ} (hl : (r.attempt : Int) < c.limit) :
    c.recover r = do return r.retry (.working .buildingPrompt) (← c.wait r.attempt) := by
  unfold recover Phase.afterFailure
  rw [decide_eq_true hl, if_pos rfl]

theorem recover_of_le {r : Run σ ε δ} (hl : c.limit ≤ r.attempt) :
    c.recover r = .ok r.giveUp := by
  unfold recover Phase.afterFailure
  rw [decide_eq_false (not_lt.mpr hl), if_neg (by decide)]
  rfl

theorem stepsTo_of_step {r s : Run σ ε δ} {t : Task} (h : c.step r t = .ok s) : c.StepsTo r t s := by
  unfold step at h
  split at h
  · next state ha => exact Except.ok.inj h ▸ .done ha
  · next state cause ha =>
    rcases lt_or_ge (r.attempt : Int) c.limit with hl | hl
    · rw [recover_of_lt (r := (r.takeUp t).fail t state cause) hl] at h
      obtain ⟨d, hd, h⟩ := bind_eq_ok_iff.mp h
      exact Except.ok.inj h ▸ .again ha hl hd
    · rw [recover_of_le (r := (r.takeUp t).fail t state cause) hl] at h
      exact Except.ok.inj h ▸ .out ha hl

/-- A step fails only for a wait that an attempt yet to be made calls for. -/
theorem wait_of_step_error {r : Run σ ε δ} {t : Task} {e : φ} (h : c.step r t = .error e) :
    (r.attempt : Int) < c.limit ∧ c.wait r.attempt = .error e := by
  unfold step at h
  split at h
  · exact nomatch h
  · next state cause _ =>
    rcases lt_or_ge (r.attempt : Int) c.limit with hl | hl
    · rw [recover_of_lt (r := (r.takeUp t).fail t state cause) hl] at h
      rcases bind_eq_error_iff.mp h with h | ⟨d, -, h⟩
      · exact ⟨hl, h⟩
      · exact nomatch h
    · rw [recover_of_le (r := (r.takeUp t).fail t state cause) hl] at h
      exact nomatch h

/-! ## Whole runs -/

/-- What every step keeps holds where a driven run comes to its end, and where it is stopped short. -/
theorem drive_cases (P : Run σ ε δ → Prop)
    (hstep : ∀ r s t, P r → r.phase = .working t → c.StepsTo r t s → P s) {r : Run σ ε δ} (hr : P r) :
    (∃ s, P s ∧ (∀ t, s.phase ≠ .working t) ∧ c.drive r = .ok s.close) ∨
      ∃ s t e, P s ∧ s.phase = .working t ∧ (s.attempt : Int) < c.limit ∧
        c.wait s.attempt = .error e ∧ c.drive r = .error e := by
  induction r using Course.drive.induct c with
  | case1 r t hp e hs =>
    obtain ⟨hl, he⟩ := wait_of_step_error hs
    exact .inr ⟨r, t, e, hr, hp, hl, he, by rw [drive_working c hp, hs]; rfl⟩
  | case2 r t hp s hs ih =>
    -- the run goes on from where the step has come to, with the invariant kept
    rw [drive_working c hp, hs]
    exact ih (hstep r s t hr hp (stepsTo_of_step hs))
  | case3 r hp =>
    refine .inl ⟨r, hr, hp, ?_⟩
    rw [drive]
    split
    · next t ht => exact absurd ht (hp t)
    · rfl

/-! ## The books of a run -/

/-- How the attempts of a run compare with its failures: one is under way that has not failed, or every
attempt there may be has. -/
def Balanced (limit : Int) (r : Run σ ε δ) : Prop :=
  match r.phase with
  | .working _ | .done => r.attempt = r.failures.length + 1 ∧ (r.attempt : Int) ≤ max 1 limit
  | .error => False
  | .fallback => r.attempt = r.failures.length ∧ (r.attempt : Int) = max 1 limit

/-- What holds of a run between two steps. -/
structure Kept (c : Course σ ε δ φ) (r : Run σ ε δ) : Prop where
  path : (r.history ++ [r.phase]).IsChain Phase.Leads
  tasks : r.tasks + r.phase.remaining ≤ 5 * r.attempt + 1
  errors : r.errors = r.failures.length
  numbered : r.failures.map (·.attempt) = List.range' 1 r.failures.length
  waits : (List.range' 1 (r.attempt - 1)).mapM c.wait = .ok r.delays
  balance : Balanced c.limit r

theorem kept_start (c : Course σ ε δ φ) (state : σ) : c.Kept (.start state) where
  path := List.isChain_singleton _
  tasks := Nat.le_refl 6
  errors := rfl
  numbered := rfl
  waits := rfl
  balance := ⟨rfl, le_max_left _ _⟩

/-- The failure of an attempt is the next one on the list. -/
theorem Kept.numbered_fail {r : Run σ ε δ} {t : Task} (hk : c.Kept r) (hp : r.phase = .working t)
    (state : σ) (cause : ε) :
    ((r.takeUp t).fail t state cause).failures.map (·.attempt) =
      List.range' 1 ((r.takeUp t).fail t state cause).failures.length := by
  have hb := hk.balance
  rw [Balanced, hp] at hb
  simp [Run.fail, Run.takeUp, hk.numbered, List.range'_concat, hb.1, Nat.add_comm]

theorem Kept.errors_fail {r : Run σ ε δ} (hk : c.Kept r) (t : Task) (state : σ) (cause : ε) :
    ((r.takeUp t).fail t state cause).errors =
      ((r.takeUp t).fail t state cause).failures.length := by
  rw [Run.errors_fail, Run.errors_takeUp, hk.errors]
  simp [Run.fail, Run.takeUp]

/-- Another attempt is made behind the wait for the one before it. -/
theorem Kept.waits_retry {r : Run σ ε δ} {t : Task} {d : δ} (hk : c.Kept r)
    (hp : r.phase = .working t) (hd : c.wait r.attempt = .ok d) :
    (List.range' 1 r.attempt).mapM c.wait = .ok (r.delays ++ [d]) := by
  have hb := hk.balance
  rw [Balanced, hp] at hb
  have hr : List.range' 1 r.attempt = List.range' 1 (r.attempt - 1) ++ [r.attempt] := by
    rw [hb.1, List.range'_concat]
    simp [Nat.add_comm]
  rw [hr]
  exact mapM_append_ok hk.waits (mapM_eq_ok_iff.mpr (.cons hd .nil))

theorem Kept.step {r s : Run σ ε δ} {t : Task} (hk : c.Kept r) (hp : r.phase = .working t)
    (hs : c.StepsTo r t s) : c.Kept s := by
  have path := hk.path
  have tasks := hk.tasks
  have balance := hk.balance
  rw [hp] at path tasks
  rw [Balanced, hp] at balance
  have htask : 1 ≤ t.remaining := by cases t <;> decide
  cases hs with
  | @done state h =>
    refine ⟨path_snoc path (.on t), ?_, ?_, hk.numbered, hk.waits, ?_⟩
    · have hn : t.next.remaining + 1 ≤ t.remaining := t.remaining_next
      calc (r.takeUp t).tasks + t.next.remaining
          = r.tasks + (t.next.remaining + 1) := by rw [Run.tasks_takeUp, Nat.add_right_comm, Nat.add_assoc]
        _ ≤ r.tasks + t.remaining := Nat.add_le_add_left hn _
        _ ≤ 5 * r.attempt + 1 := tasks
    · exact (r.errors_takeUp t).trans hk.errors
    · cases t <;> exact balance
  | @again state cause d h hl hd =>
    refine ⟨path_snoc (path_snoc path (.astray t)) .again, ?_, hk.errors_fail t state cause,
      hk.numbered_fail hp state cause, hk.waits_retry hp hd, ?_, ?_⟩
    · calc ((r.takeUp t).fail t state cause).tasks + 5
          = r.tasks + 1 + 5 := by rw [Run.tasks_fail, Run.tasks_takeUp]
        _ ≤ r.tasks + t.remaining + 5 := by omega
        _ ≤ 5 * (r.attempt + 1) + 1 := by have := tasks; simp only [Phase.remaining] at this; omega
    · simp [Run.retry, Run.fail, Run.takeUp, balance.1]
    · simp only [Run.retry, Run.fail, Run.takeUp]
      omega
  | @out state cause h hl =>
    refine ⟨path_snoc (path_snoc path (.astray t)) .out, ?_, hk.errors_fail t state cause,
      hk.numbered_fail hp state cause, hk.waits, ?_, ?_⟩
    · calc ((r.takeUp t).fail t state cause).tasks + 0
          = r.tasks + 1 := by rw [Run.tasks_fail, Run.tasks_takeUp]
        _ ≤ r.tasks + t.remaining := Nat.add_le_add_left htask _
        _ ≤ 5 * r.attempt + 1 := tasks
    · simp [Run.giveUp, Run.fail, Run.takeUp, balance.1]
    · simp only [Run.giveUp, Run.fail, Run.takeUp]
      omega

/-! ## Runs at their end -/

/-- What the books of a run show when it has been driven to its end. -/
structure Account (c : Course σ ε δ φ) (r : Run σ ε δ) : Prop where
  ended :
    (r.phase = .done ∧ r.attempt = r.failures.length + 1 ∧ (r.attempt : Int) ≤ max 1 c.limit) ∨
      (r.phase = .fallback ∧ r.attempt = r.failures.length ∧ (r.attempt : Int) = max 1 c.limit)
  last : r.history.getLast? = some r.phase
  tasks : r.tasks ≤ 5 * r.attempt + 1
  errors : r.errors = r.failures.length
  behind : ∀ i : Nat, r.history[i]? = some .error →
    r.history[i + 1]? = some (.working .buildingPrompt) ∨
      r.history[i + 1]? = some .fallback ∧ i + 2 = r.history.length
  numbered : r.failures.map (·.attempt) = List.range' 1 r.failures.length
  waits : (List.range' 1 (r.attempt - 1)).mapM c.wait = .ok r.delays

theorem Kept.phase_ne_error {r : Run σ ε δ} (hk : c.Kept r) : r.phase ≠ .error := by
  intro h
  have hb := hk.balance
  rw [Balanced, h] at hb
  exact hb

/-- The phase that closes a run is no task and no error. -/
theorem Kept.counts_close {r : Run σ ε δ} (hk : c.Kept r) (hend : ∀ t, r.phase ≠ .working t) :
    r.close.tasks = r.tasks ∧ r.close.errors = r.errors := by
  simp only [Run.tasks, Run.errors, Run.close, List.countP_append, List.count_append]
  cases hp : r.phase with
  | working t => exact absurd hp (hend t)
  | done => exact ⟨rfl, rfl⟩
  | error => exact absurd hp hk.phase_ne_error
  | fallback => exact ⟨rfl, rfl⟩

theorem Kept.account_close {r : Run σ ε δ} (hk : c.Kept r) (hend : ∀ t, r.phase ≠ .working t) :
    c.Account r.close := by
  obtain ⟨htasks, herrors⟩ := hk.counts_close hend
  have hlast : (r.history ++ [r.phase]).getLast? = some r.phase := List.getLast?_concat
  refine ⟨?_, hlast, ?_, herrors.trans hk.errors,
    fun i => behind_error hk.phase_ne_error hlast hk.path, hk.numbered, hk.waits⟩
  · have hb := hk.balance
    cases hp : r.phase with
    | working t => exact absurd hp (hend t)
    | done => rw [Balanced, hp] at hb; exact .inl ⟨hp, hb⟩
    | error => exact absurd hp hk.phase_ne_error
    | fallback => rw [Balanced, hp] at hb; exact .inr ⟨hp, hb⟩
  · rw [htasks]
    exact (Nat.le_add_right _ _).trans hk.tasks

/-- A run comes to its end with its books kept, and so with whatever else every step keeps, unless a wait
between two attempts is no number. -/
theorem drive_start {state : σ} (P : Run σ ε δ → Prop) (hP : P (.start state))
    (hstep : ∀ r s t, P r → r.phase = .working t → c.StepsTo r t s → P s) :
    (∃ s, P s ∧ c.Kept s ∧ (∀ t, s.phase ≠ .working t) ∧ c.drive (.start state) = .ok s.close) ∨
      ∃ (k : Nat) (e : φ), 1 ≤ k ∧ (k : Int) < c.limit ∧ c.wait k = .error e ∧
        c.drive (.start state) = .error e := by
  rcases drive_cases (fun r => c.Kept r ∧ P r)
    (fun r s t hr hp hs => ⟨hr.1.step hp hs, hstep r s t hr.2 hp hs⟩) ⟨c.kept_start state, hP⟩
    with h | h
  · obtain ⟨s, ⟨hk, hs⟩, hend, h⟩ := h
    exact .inl ⟨s, hs, hk, hend, h⟩
  · obtain ⟨s, t, e, ⟨hk, -⟩, hp, hl, he, h⟩ := h
    have hb := hk.balance
    rw [Balanced, hp] at hb
    exact .inr ⟨_, e, hb.1 ▸ Nat.le_add_left 1 _, hl, he, h⟩

/-- A run that has come to its end has closed one of which all this holds. -/
theorem of_drive_start {state : σ} (P : Run σ ε δ → Prop) (hP : P (.start state))
    (hstep : ∀ r s t, P r → r.phase = .working t → c.StepsTo r t s → P s) {run : Run σ ε δ}
    (hrun : c.drive (.start state) = .ok run) : ∃ s, P s ∧ c.Account s.close ∧ run = s.close := by
  rcases drive_start P hP hstep with ⟨s, hs, hkept, hend, hdrive⟩ | ⟨_, _, -, -, -, hdrive⟩
  · exact ⟨s, hs, hkept.account_close hend, Except.ok.inj (hrun.symm.trans hdrive)⟩
  · exact nomatch hrun.symm.trans hdrive

theorem Account.attempt_pos {r : Run σ ε δ} (ha : c.Account r) : 1 ≤ r.attempt := by
  rcases ha.ended with ⟨-, h, -⟩ | ⟨-, -, h⟩ <;> omega

theorem Account.wait {r : Run σ ε δ} (ha : c.Account r) {k : Nat} (hk : 1 ≤ k) (hr : k < r.attempt) :
    ∃ d, c.wait k = .ok d := by
  have hmem : k ∈ List.range' 1 (r.attempt - 1) := List.mem_range'_1.mpr ⟨hk, by omega⟩
  obtain ⟨d, -, hd⟩ := exists_ok_of_mem ha.waits hmem
  exact ⟨d, hd⟩

/-- A run whose tasks all fail calls for every wait between its attempts. -/
theorem not_drive_of_wait_error {state : σ} (hact : ∀ t state, (c.act t state).2 ≠ none) {k : Nat}
    {e : φ} (hk : 1 ≤ k) (hl : (k : Int) < c.limit) (he : c.wait k = .error e) (r : Run σ ε δ) :
    c.drive (.start state) ≠ .ok r := by
  intro h
  have hstep : ∀ r s t, r.phase ≠ .done → r.phase = .working t → c.StepsTo r t s →
      s.phase ≠ .done := by
    intro r s t _ _ hs
    cases hs with
    | done ha => exact absurd (congrArg Prod.snd ha) (hact t r.state)
    | again => simp [Run.retry]
    | out => simp [Run.giveUp]
  rcases drive_start (fun s => s.phase ≠ .done) (by simp [Run.start]) hstep with h' | h'
  · obtain ⟨s, hs, hkept, hend, h'⟩ := h'
    obtain ⟨hp, -⟩ | ⟨-, -, hn⟩ := (hkept.account_close hend).ended
    · exact hs hp
    · obtain ⟨d, hd⟩ := (hkept.account_close hend).wait hk (by omega)
      cases he.symm.trans hd
  · obtain ⟨_, _, -, -, -, h'⟩ := h'
    cases h.symm.trans h'

end Course

/-! ## Runs of given outcomes -/

/-- A run whose successive tasks come out as told, failing with a cause or not; the state counts the tasks
carried out. -/
def Course.ofOutcomes {ε α : Type} [Scalar α] (outcome : Nat → Option ε) (base : Numeral α)
    (limit : Int) : Course Nat ε α (Fault α) where
  act _ n := (n + 1, outcome n)
  wait k := backoff (.whole k) base
  limit

section

variable {ε α : Type} [Scalar α] {outcome : Nat → Option ε} {base : Numeral α} {limit : Int}

/-- The state of such a run counts its tasks, and its failures are those among the outcomes so far. -/
structure Course.Tallied (outcome : Nat → Option ε) (r : Run Nat ε α) : Prop where
  tasks : r.tasks = r.state
  causes : r.failures.map (·.cause) = (List.range r.state).filterMap outcome

theorem Course.Tallied.step {r s : Run Nat ε α} {t : Task} (hr : Tallied outcome r)
    (hs : (ofOutcomes outcome base limit).StepsTo r t s) : Tallied outcome s := by
  have hrange : (List.range (r.state + 1)).filterMap outcome =
      r.failures.map (·.cause) ++ (outcome r.state).toList := by
    rw [List.range_succ, List.filterMap_append, hr.causes]
    cases h : outcome r.state <;> simp [h]
  cases hs with
  | done h =>
    obtain ⟨rfl, ho⟩ := Prod.mk.inj h
    refine ⟨(r.tasks_takeUp t).trans (congrArg (· + 1) hr.tasks), ?_⟩
    simpa [ho, Run.complete, Run.takeUp] using hrange.symm
  | @again state cause d h hl hd =>
    obtain ⟨rfl, ho⟩ := Prod.mk.inj h
    refine ⟨?_, ?_⟩
    · rw [Run.tasks_retry, Run.tasks_fail, Run.tasks_takeUp, hr.tasks]
      rfl
    · simpa [ho, Run.retry, Run.fail, Run.takeUp] using hrange.symm
  | @out state cause h hl =>
    obtain ⟨rfl, ho⟩ := Prod.mk.inj h
    refine ⟨?_, ?_⟩
    · rw [Run.tasks_giveUp, Run.tasks_fail, Run.tasks_takeUp, hr.tasks]
      rfl
    · simpa [ho, Run.giveUp, Run.fail, Run.takeUp] using hrange.symm

/-- Whatever the outcomes, the run comes to its end with an account of them, or is stopped by a wait between
two attempts that is no number. All runs come to their end exactly if there is no such wait. -/
theorem drive_ofOutcomes {ε α : Type} [Inhabited ε] [Scalar α] (base : Numeral α) (limit : Int) :
    (∀ outcome : Nat → Option ε,
      (∃ r, (Course.ofOutcomes outcome base limit).drive (.start 0) = .ok r ∧
        (Course.ofOutcomes outcome base limit).Account r ∧ Course.Tallied outcome r) ∨
      ∃ (k : Nat) (fault : Fault α), 1 ≤ k ∧ (k : Int) < limit ∧
        backoff (.whole k) base = .error fault ∧
        (Course.ofOutcomes outcome base limit).drive (.start 0) = .error fault) ∧
    ((∀ outcome : Nat → Option ε,
      ∃ r, (Course.ofOutcomes outcome base limit).drive (.start 0) = .ok r) ↔
      ∀ k : Nat, 1 ≤ k → (k : Int) < limit → ∃ d, backoff (.whole k) base = .ok d) := by
  have hcases (outcome : Nat → Option ε) := Course.drive_start (c := .ofOutcomes outcome base limit)
    (Course.Tallied outcome) ⟨rfl, rfl⟩ fun r s t hr _ hs => hr.step hs
  refine ⟨fun outcome => ?_, fun h k hk hl => ?_, fun h outcome => ?_⟩
  · rcases hcases outcome with ⟨s, ht, hkept, hend, hd⟩ | h
    · refine .inl ⟨s.close, hd, hkept.account_close hend, ?_, ht.causes⟩
      exact (hkept.counts_close hend).1.trans ht.tasks
    · exact .inr h
  · -- a run all of whose tasks fail calls for the wait
    obtain ⟨r, hr⟩ := h fun _ => some default
    cases hw : backoff (.whole k) base with
    | ok d => exact ⟨d, rfl⟩
    | error fault =>
      exact absurd hr (Course.not_drive_of_wait_error (fun _ _ => Option.some_ne_none _) hk hl hw r)
  · rcases hcases outcome with ⟨s, -, -, -, hd⟩ | ⟨k, fault, hk, hl, hw, -⟩
    · exact ⟨_, hd⟩
    · obtain ⟨d, hd⟩ := h k hk hl
      exact nomatch hw.symm.trans hd

/-- Attempts are counted from one on, so the wait behind one is just its share of the base. -/
theorem backoff_attempt (k : Nat) (base : Numeral α) :
    backoff (.whole k) base =
      (Numeral.whole k : Numeral α).times base >>= fun elapsed => elapsed.quotient (.whole 1000) := by
  have helapsed : (if (Numeral.whole k : Numeral α).isPositive then (.whole k : Numeral α)
      else .whole 0) = .whole k := by
    rcases Nat.eq_zero_or_pos k with rfl | hk
    · rfl
    · exact if_pos (decide_eq_true (Int.natCast_pos.mpr hk))
  unfold backoff
  simp only [helapsed]

/-- The wait for a whole base is one rounded quotient, as long as that is finite. -/
theorem backoff_whole (k : Nat) (n : Int) :
    backoff (.whole k) (.whole n : Numeral α) =
      match (Scalar.ofRat? (mkRat (k * n) 1 / mkRat 1000 1) : Option α) with
      | some x => .ok x
      | none => .error (.number .quotientTooLarge) := by
  rw [backoff_attempt]
  rfl

end

/-- A base beyond every double stops a run behind its first attempt. -/
theorem drive_hugeBase :
    (Course.ofOutcomes (fun _ => some ()) (.whole (tenTo 400) : Numeral Float) 2).drive (.start 0) =
      .error (.number .quotientTooLarge) := by
  have hnone :
      (Scalar.ofRat? (mkRat ((1 : Nat) * (tenTo 400 : Nat)) 1 / mkRat 1000 1) : Option Float) = none :=
    Option.isNone_iff_eq_none.mp (by decide +kernel)
  have hwait : backoff (.whole (1 : Nat)) (.whole (tenTo 400) : Numeral Float) =
      .error (.number .quotientTooLarge) := by
    rw [backoff_whole, hnone]
  have hstep : (Course.ofOutcomes (fun _ => some ()) (.whole (tenTo 400) : Numeral Float) 2).step
      (.start 0) .idle = .error (.number .quotientTooLarge) := by
    show ((do return Run.retry _ _ (← backoff (.whole (1 : Nat)) (.whole (tenTo 400)))) :
      Except (Fault Float) (Run Nat Unit Float)) = _
    rw [hwait]
    rfl
  rw [Course.drive_working _ rfl, hstep]
  rfl

/-- On the rationals there is every wait, so every run comes to its end. -/
theorem exists_backoff_exact (k : Nat) (base : Numeral Rat) : ∃ d, backoff (.whole k) base = .ok d := by
  cases base with
  | whole n => exact ⟨_, backoff_whole k n⟩
  | real x => exact ⟨_, backoff_attempt k (.real x)⟩

end Drawing
