import Drawing.Json.Printer
import Drawing.Number.Arithmetic

/-!
# `Drawing/Studio/Phase.lean` — the phases of a run

A run goes through its tasks in a fixed order. Each task that is done leads to the next one, the last one
to the end; a task that fails leads back to the prompt as long as attempts are left, and else out of the
run. Which phase follows is decided here, without carrying out anything.
-/

namespace Drawing

/-- The tasks of a run, in order. -/
inductive Task where
  | idle
  | buildingPrompt
  | awaitingModel
  | validating
  | resolvingLayout
  | autoFitting
  deriving Repr, DecidableEq, BEq

/-- The phases of a run. -/
inductive Phase where
  /-- At work on a task. -/
  | working (task : Task)
  /-- All tasks are done. -/
  | done
  /-- A task has failed. -/
  | error
  /-- No attempts are left. -/
  | fallback
  deriving Repr, DecidableEq, BEq

namespace Task

/-- All tasks, in order. -/
def all : List Task :=
  [idle, buildingPrompt, awaitingModel, validating, resolvingLayout, autoFitting]

def name : Task → String
  | idle => "idle"
  | buildingPrompt => "building_prompt"
  | awaitingModel => "awaiting_model"
  | validating => "validating"
  | resolvingLayout => "resolving_layout"
  | autoFitting => "auto_fitting"

/-- The phase behind a task that is done. -/
def next : Task → Phase
  | idle => .working buildingPrompt
  | buildingPrompt => .working awaitingModel
  | awaitingModel => .working validating
  | validating => .working resolvingLayout
  | resolvingLayout => .working autoFitting
  | autoFitting => .done

/-- How many tasks there are from a task on. -/
def remaining : Task → Nat
  | idle => 6
  | buildingPrompt => 5
  | awaitingModel => 4
  | validating => 3
  | resolvingLayout => 2
  | autoFitting => 1

end Task

namespace Phase

def all : List Phase := Task.all.map working ++ [done, error, fallback]

def name : Phase → String
  | working task => task.name
  | done => "done"
  | error => "error"
  | fallback => "fallback"

def ofName? (name : String) : Option Phase := all.find? fun p => p.name == name

/-- The phase that raw data names. -/
def named {α : Type} [DecimalText α] (v : Json α) : Except (Fault α) Phase :=
  match v with
  | .str name =>
    match ofName? name with
    | some p => .ok p
    | none => .error (.unknownPhase v.shown)
  | v => .error (.unknownPhase v.shown)

/-- The phase behind a phase whose task is done. -/
def successor {α : Type} : Phase → Except (Fault α) Phase
  | working task => .ok task.next
  | p => .error (.noSuccessor p.name)

/-- How many tasks there are from a phase on, if none fails. -/
def remaining : Phase → Nat
  | working task => task.remaining
  | _ => 0

/-- The phase behind a task that has failed: another attempt, as long as any are left. -/
def afterFailure (attemptsLeft : Bool) : Phase := if attemptsLeft then working .buildingPrompt else fallback

/-- The phase behind a task that has failed in an attempt: another attempt, as long as the limit is not
reached. -/
def afterAttempt {α : Type} [Scalar α] (attempt limit : Numeral α) : Phase :=
  afterFailure (attempt.isBelow limit)

end Phase

/-- Doing a task brings the end nearer. -/
theorem Task.remaining_next (t : Task) : t.next.remaining < t.remaining := by cases t <;> decide

/-! ## Waiting -/

/-- The seconds to wait behind a failed attempt. The wait grows with the number of the attempt, by a base in
milliseconds. -/
def backoff {α : Type} [Scalar α] (attempt base : Numeral α) : Except (Fault α) α := do
  let elapsed : Numeral α := if attempt.isPositive then attempt else .whole 0
  (← elapsed.times base).quotient (.whole 1000)

end Drawing
