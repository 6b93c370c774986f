import Drawing.Studio.Phase

/-!
# `Drawing/Studio/Run.lean` — runs with retries

A run drives a piece of work through its tasks. What the tasks do is left open: a `Course` says what they do
to the state of the work and whether they fail, how long to wait behind a failed attempt, and how many
attempts there are. A failed task keeps what it has done to the state.

Every step either does a task or uses up an attempt, so a run ends (`Course.weight_step`).
-/

namespace Drawing

/-- A task that failed. -/
structure Failure (ε : Type) where
  attempt : Nat
  task : Task
  cause : ε
  deriving Repr

/-- A run: where it stands, what has happened, and the state of the work. -/
structure Run (σ ε δ : Type) where
  /-- The number of the attempt, from one on. -/
  attempt : Nat
  phase : Phase
  /-- The phases so far, in order. -/
  history : List Phase
  failures : List (Failure ε)
  /-- The waits so far, in order. -/
  delays : List δ
  state : σ

/-- How a run goes. -/
structure Course (σ ε δ φ : Type) where
  /-- Carries out a task: the state behind it, and why it failed if it did. -/
  act : Task → σ → σ × Option ε
  /-- The wait behind a failed attempt, or why there is none. -/
  wait : Nat → Except φ δ
  /-- The number of attempts; there is always a first one. -/
  limit : Int

namespace Run

variable {σ ε δ : Type}

/-- The run that has not begun. -/
def start (state : σ) : Run σ ε δ := ⟨1, .working .idle, [], [], [], state⟩

/-- A run at the end of its phases. -/
def close (r : Run σ ε δ) : Run σ ε δ := { r with history := r.history ++ [r.phase] }

/-- A run in which a task is taken up. -/
def takeUp (r : Run σ ε δ) (t : Task) : Run σ ε δ := { r with history := r.history ++ [.working t] }

/-- A run in which a task is done. -/
def complete (r : Run σ ε δ) (t : Task) (state : σ) : Run σ ε δ := { r with state, phase := t.next }

/-- A run in which a task has failed. -/
def fail (r : Run σ ε δ) (t : Task) (state : σ) (cause : ε) : Run σ ε δ :=
  { r with
    state
    phase := .error
    history := r.history ++ [.error]
    failures := r.failures ++ [⟨r.attempt, t, cause⟩] }

/-- A run in which another attempt is made after a wait. -/
def retry (r : Run σ ε δ) (phase : Phase) (delay : δ) : Run σ ε δ :=
  { r with phase, attempt := r.attempt + 1, delays := r.delays ++ [delay] }

end Run

namespace Course

variable {σ ε δ φ : Type}

/-- What follows a failure: another attempt after a wait, or the end. -/
def recover (c : Course σ ε δ φ) (r : Run σ ε δ) : Except φ (Run σ ε δ) :=
  match Phase.afterFailure ((r.attempt : Int) < c.limit) with
  | .working t => do return r.retry (.working t) (← c.wait r.attempt)
  | phase => .ok { r with phase }

/-- Takes up a task. -/
def step (c : Course σ ε δ φ) (r : Run σ ε δ) (t : Task) : Except φ (Run σ ε δ) :=
  match c.act t r.state with
  | (state, none) => .ok ((r.takeUp t).complete t state)
  | (state, some cause) => c.recover ((r.takeUp t).fail t state cause)

/-- The attempts and tasks that a run may still need. -/
def weight (c : Course σ ε δ φ) (r : Run σ ε δ) : Nat × Nat :=
  ((c.limit - r.attempt).toNat, r.phase.remaining)

/-- Another attempt leaves fewer attempts, the end fewer tasks. -/
theorem weight_recover (c : Course σ ε δ φ) {r s : Run σ ε δ} {n : Nat} (h : c.recover r = .ok s)
    (hn : 0 < n) :
    Prod.Lex (· < ·) (· < ·) (c.weight s) ((c.limit - r.attempt).toNat, n) := by
  unfold recover Phase.afterFailure at h
  by_cases hl : (r.attempt : Int) < c.limit
  · rw [decide_eq_true hl, if_pos rfl] at h
    cases hw : c.wait r.attempt with
    | error e => simp [hw, bind, Except.bind] at h
    | ok d =>
      simp only [hw, bind, Except.bind, pure, Except.pure, Except.ok.injEq] at h
      subst h
      apply Prod.Lex.left
      simp only [Run.retry]
      omega
  · rw [decide_eq_false hl, if_neg (by decide)] at h
    simp only [Except.ok.injEq] at h
    subst h
    exact Prod.Lex.right _ hn

/-- Every step brings a run nearer to its end. -/
theorem weight_step (c : Course σ ε δ φ) {r s : Run σ ε δ} {t : Task} (hp : r.phase = .working t)
    (h : c.step r t = .ok s) : Prod.Lex (· < ·) (· < ·) (c.weight s) (c.weight r) := by
  unfold step at h
  have hr : c.weight r = ((c.limit - r.attempt).toNat, t.remaining) := by simp [weight, hp, Phase.remaining]
  rw [hr]
  split at h
  · simp only [Except.ok.injEq] at h
    subst h
    exact Prod.Lex.right _ t.remaining_next
  · have := weight_recover c h (show 0 < t.remaining by cases t <;> decide)
    exact this

/-- Drives a run to its end. -/
def drive (c : Course σ ε δ φ) (r : Run σ ε δ) : Except φ (Run σ ε δ) :=
  match _hp : r.phase with
  | .working t =>
    match _hs : c.step r t with
    | .error e => .error e
    | .ok s => c.drive s
  | _ => .ok r.close
termination_by c.weight r
decreasing_by exact weight_step c _hp _hs

/-- A run at work is driven on from behind its next step. -/
theorem drive_working (c : Course σ ε δ φ) {r : Run σ ε δ} {t : Task} (hp : r.phase = .working t) :
    c.drive r = c.step r t >>= c.drive := by
  rw [drive]
  split
  · next t' ht =>
    obtain rfl : t = t' := by simpa [hp] using ht
    split
    · next e hs => rw [hs]; rfl
    · next s hs => rw [hs]; rfl
  · next ht => exact absurd hp (ht t)

end Course

end Drawing
