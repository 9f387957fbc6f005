import Mathlib.Algebra.Order.Ring.Rat
import Mathlib.Data.Rat.Lemmas
import TempestSdk.Library.Runs

/-!
# The lifecycle of a job row

What each call of `JobStore` does to one row of the job table, as the
conditional `UPDATE` it issues: a `WHERE` on the row and the columns it sets.
The runs of these updates are all a row can go through; the laws of the
lifecycle are invariants of these runs.
-/

namespace TempestSdk

namespace Jobs

open Runs

/-- `JobStatusEnum`. -/
inductive JobStatus where
  | queued
  | running
  | done
  | failed
  | cancelled
  deriving DecidableEq

/-- `TERMINAL_JOB_STATUSES`. -/
@[grind =] def JobStatus.terminal : JobStatus → Bool
  | .done => true
  | .failed => true
  | .cancelled => true
  | _ => false

/-- `CANCELLABLE_JOB_STATUSES`. -/
def JobStatus.cancellable : JobStatus → Bool
  | .queued => true
  | .running => true
  | _ => false

/-- A Python float, as far as comparisons tell them apart. -/
inductive PyFloat where
  | nan
  | negInf
  | posInf
  | num (value : ℚ)
  deriving DecidableEq

namespace PyFloat

/-- `<` in Python: nothing compares with NaN. -/
def lt : PyFloat → PyFloat → Bool
  | .nan, _ => false
  | _, .nan => false
  | .negInf, .negInf => false
  | .negInf, _ => true
  | _, .negInf => false
  | .posInf, _ => false
  | _, .posInf => true
  | .num left, .num right => decide (left < right)

/-- `min(max(progress, 0.0), 1.0)`.  `max` and `min` keep their first
argument unless the second one is strictly beyond it. -/
def clamp (progress : PyFloat) : PyFloat :=
  let raised := if progress.lt (.num 0) then .num 0 else progress
  if lt (.num 1) raised then .num 1 else raised

/-- `<` in the database.  PostgreSQL takes NaN for greater than any number;
SQLite stores NaN as `NULL`, which no comparison accepts. -/
def sqlLess (nanGreatest : Bool) : PyFloat → PyFloat → Bool
  | .nan, _ => false
  | _, .nan => nanGreatest
  | left, right => left.lt right

end PyFloat

def staleJobError : String :=
  "The worker stopped responding while this job was running, " ++
    "and the claim budget is spent."

def storeOwnedJobColumns : List String :=
  ["id", "is_active", "created_at", "updated_at", "kind", "status", "stage",
    "progress", "params", "payload", "result_id", "error", "attempts",
    "max_attempts", "started_at", "finished_at"]

/-- A job row.  `project` is what the columns of the subclass hold. -/
structure Job where
  kind : String
  status : JobStatus
  stage : String
  progress : PyFloat
  params : String
  payload : Option (List UInt8)
  resultId : Option Nat
  error : Option String
  attempts : Nat
  maxAttempts : Int
  startedAt : Option Int
  finishedAt : Option Int
  project : String → Option String

/-- `BaseJobModel.new_job`, with the column defaults the insert adds. -/
def newJob (kind params : String) (payload : Option (List UInt8)) (maxAttempts : Int) : Job :=
  { kind, status := .queued, stage := "", progress := .num 0, params, payload
    resultId := none, error := none, attempts := 0, maxAttempts
    startedAt := none, finishedAt := none, project := fun _ => none }

structure JobStoreSettings where
  projectColumns : List String
  staleAfter : Option Int
  /-- The database orders NaN above every number, as PostgreSQL does. -/
  nanGreatest : Bool

/-- What `_project_values` raises. -/
inductive ValuesError where
  | unknown (names : List String)
  | owned (names : List String)
  deriving DecidableEq

def projectValues (settings : JobStoreSettings) (values : List (String × Option String)) :
    Except ValuesError (List (String × Option String)) :=
  let names := values.map Prod.fst
  let unknown := names.filter fun name =>
    !(storeOwnedJobColumns ++ settings.projectColumns).contains name
  let owned := names.filter storeOwnedJobColumns.contains
  if unknown ≠ [] then .error (.unknown (unknown.mergeSort (· ≤ ·)))
  else if owned ≠ [] then .error (.owned (owned.mergeSort (· ≤ ·)))
  else .ok values

/-- Set the project columns that `values` names. -/
def setProject (project : String → Option String) :
    List (String × Option String) → String → Option String
  | [] => project
  | (name, value) :: rest => setProject (Function.update project name value) rest

/-- One conditional `UPDATE` of a job row, with the clock it was built
with. -/
inductive JobUpdate where
  | claim (now : Int)
  | reportProgress (progress : PyFloat) (stage : Option String)
  | succeed (now : Int) (resultId : Option Nat)
      (values : List (String × Option String))
  | fail (now : Int) (reason : String)
  | cancel (now : Int) (reason : Option String)
  /-- The first statement of `reclaim_stale`. -/
  | giveUp (cutoff now : Int)
  /-- The second statement of `reclaim_stale`. -/
  | requeue (cutoff : Int)
  deriving DecidableEq

/-- A `RUNNING` row claimed before the cutoff. -/
def Job.stale (job : Job) (cutoff : Int) : Bool :=
  decide (job.status = .running) && job.startedAt.any fun started => decide (started < cutoff)

namespace JobUpdate

/-- The `WHERE`. -/
@[grind =] def guard (settings : JobStoreSettings) (job : Job) : JobUpdate → Bool
  | .claim _ => decide (job.status = .queued)
  | .reportProgress progress _ => decide (job.status = .running) &&
      job.progress.sqlLess settings.nanGreatest progress.clamp
  | .succeed _ _ _ => !job.status.terminal
  | .fail _ _ => !job.status.terminal
  | .cancel _ _ => job.status.cancellable
  | .giveUp cutoff _ => job.stale cutoff &&
      decide (job.maxAttempts ≤ job.attempts)
  | .requeue cutoff => job.stale cutoff &&
      decide (job.attempts < job.maxAttempts)

def values (job : Job) : JobUpdate → Job
  | .claim now =>
    { job with
      status := .running
      startedAt := some now
      attempts := job.attempts + 1 }
  | .reportProgress progress stage =>
    { job with
      progress := progress.clamp
      stage := stage.getD job.stage }
  | .succeed now resultId values =>
    { job with
      status := .done, resultId, error := none, payload := none
      finishedAt := some now, progress := .num 1
      project := setProject job.project values }
  | .fail now reason =>
    { job with
      status := .failed, resultId := none, error := some reason
      payload := none, finishedAt := some now }
  | .cancel now reason =>
    { job with
      status := .cancelled, error := reason, payload := none
      finishedAt := some now }
  | .giveUp _ now =>
    { job with
      status := .failed, error := some staleJobError, payload := none
      finishedAt := some now }
  | .requeue _ => { job with status := .queued, startedAt := none }

def closes : JobUpdate → Bool
  | .succeed _ _ _ => true
  | .fail _ _ => true
  | .cancel _ _ => true
  | .giveUp _ _ => true
  | _ => false

/-- The updates of `_finish`. -/
def finishes : JobUpdate → Bool
  | .succeed _ _ _ => true
  | .fail _ _ => true
  | _ => false

def isClaim : JobUpdate → Bool
  | .claim _ => true
  | _ => false

def reportsNumber : JobUpdate → Bool
  | .reportProgress progress _ => decide (progress ≠ .nan)
  | _ => true

end JobUpdate

def Job.apply (settings : JobStoreSettings) (job : Job) (update : JobUpdate) : Option Job :=
  if update.guard settings job then some (update.values job) else none

section Updates

variable {settings : JobStoreSettings} {job next : Job} {update : JobUpdate}

theorem apply_eq_some : job.apply settings update = some next ↔
    update.guard settings job = true ∧ update.values job = next := by
  simp [Job.apply]

theorem apply_of_terminal (terminal : job.status.terminal = true) :
    job.apply settings update = none := by
  cases update <;> cases status : job.status <;>
    simp_all [Job.apply, JobUpdate.guard, JobStatus.terminal, JobStatus.cancellable, Job.stale]

theorem terminal_of_closes (applied : job.apply settings update = some next)
    (closes : update.closes = true) : next.status.terminal = true := by
  obtain ⟨_, rfl⟩ := (apply_eq_some).mp applied
  cases update <;> simp_all [JobUpdate.values, JobUpdate.closes,
    JobStatus.terminal]

theorem attempts_of_apply (applied : job.apply settings update = some next) :
    next.attempts = job.attempts + (if update.isClaim then 1 else 0) := by
  obtain ⟨_, rfl⟩ := (apply_eq_some).mp applied
  cases update <;> rfl

theorem finish_matches (finishes : update.finishes = true)
    (unmatched : job.apply settings update = none) :
    job.status.terminal = true := by
  cases update <;> simp_all [Job.apply, JobUpdate.guard, JobUpdate.finishes]

theorem reportProgress_of_apply {progress : PyFloat} {stage : Option String}
    (applied : job.apply settings (.reportProgress progress stage) = some next) :
    job.status = .running ∧ job.progress.sqlLess settings.nanGreatest progress.clamp = true ∧
      next = { job with
          progress := progress.clamp, stage := stage.getD job.stage } := by
  obtain ⟨matched, rfl⟩ := (apply_eq_some).mp applied
  simp only [JobUpdate.guard, Bool.and_eq_true, decide_eq_true_eq] at matched
  exact ⟨matched.1, matched.2, rfl⟩

end Updates

def PyFloat.AtMost (low high : PyFloat) : Prop :=
  ∃ least most : ℚ, low = .num least ∧ high = .num most ∧ least ≤ most

theorem PyFloat.AtMost.trans {low middle high : PyFloat}
    (first : low.AtMost middle) (second : middle.AtMost high) :
    low.AtMost high := by
  obtain ⟨least, between, rfl, rfl, lower⟩ := first
  obtain ⟨again, most, same, rfl, upper⟩ := second
  cases same
  exact ⟨least, most, rfl, rfl, lower.trans upper⟩

/-- What holds of a row whatever was done to it. -/
structure Job.Sound (job : Job) : Prop where
  budget : (job.attempts : Int) ≤ job.maxAttempts
  waiting : job.status = .queued → (job.attempts : Int) < job.maxAttempts
  started : PyFloat.AtMost (.num 0) job.progress
  bounded : job.progress.AtMost (.num 1)
  full : job.status = .done → job.progress = .num 1
  emptied : job.status.terminal = true → job.payload = none
  stamped : job.finishedAt.isSome = job.status.terminal

theorem atMost_num {least most : ℚ} :
    PyFloat.AtMost (.num least) (.num most) ↔ least ≤ most := by
  constructor
  · rintro ⟨low, high, sameLow, sameHigh, ordered⟩
    cases sameLow
    cases sameHigh
    exact ordered
  · intro ordered
    exact ⟨least, most, rfl, rfl, ordered⟩

theorem clamp_bounds {progress : PyFloat} (number : progress ≠ .nan) :
    PyFloat.AtMost (.num 0) progress.clamp ∧ progress.clamp.AtMost (.num 1) := by
  have ordered : ¬(1 : ℚ) < 0 := not_lt.mpr zero_le_one
  cases progress with
  | nan => exact absurd rfl number
  | negInf => simp [PyFloat.clamp, PyFloat.lt, ordered, atMost_num]
  | posInf => simp [PyFloat.clamp, PyFloat.lt, atMost_num]
  | num value =>
    simp only [PyFloat.clamp, PyFloat.lt, decide_eq_true_eq]
    by_cases negative : value < 0
    · simp [negative, ordered, atMost_num]
    · by_cases beyond : 1 < value
      · simp [negative, beyond, atMost_num]
      · simp [negative, beyond, atMost_num]
        exact ⟨not_lt.mp negative, not_lt.mp beyond⟩

theorem sound_newJob (kind params : String) (payload : Option (List UInt8))
    {maxAttempts : Int} (budget : 1 ≤ maxAttempts) :
    (newJob kind params payload maxAttempts).Sound where
  budget := by
    simp [newJob]
    omega
  waiting := by
    simp [newJob]
    omega
  started := by simp [newJob, atMost_num]
  bounded := by simp [newJob, atMost_num]
  full := by simp [newJob]
  emptied := by simp [newJob, JobStatus.terminal]
  stamped := rfl

section Updates

variable {settings : JobStoreSettings} {job next : Job} {update : JobUpdate}

theorem Job.Sound.progress_atMost (sound : job.Sound) (number : update.reportsNumber = true)
    (applied : job.apply settings update = some next) :
    job.progress.AtMost next.progress := by
  obtain ⟨matched, rfl⟩ := (apply_eq_some).mp applied
  obtain ⟨value, top, same, _, bounded⟩ := sound.bounded
  cases update with
  | reportProgress progress stage =>
    simp only [JobUpdate.reportsNumber, decide_eq_true_eq] at number
    obtain ⟨zero, latest, _, written, _⟩ := (clamp_bounds number).1
    simp only [JobUpdate.guard, same, written, PyFloat.sqlLess, PyFloat.lt,
      Bool.and_eq_true, decide_eq_true_eq] at matched
    simp only [JobUpdate.values, same, written, atMost_num]
    exact matched.2.le
  | succeed now resultId values => simpa [JobUpdate.values] using sound.bounded
  | _ =>
    simp only [JobUpdate.values, same, atMost_num]
    exact le_rfl

theorem Job.Sound.apply (sound : job.Sound) (number : update.reportsNumber = true)
    (applied : job.apply settings update = some next) : next.Sound := by
  have forward := sound.progress_atMost number applied
  obtain ⟨matched, rfl⟩ := (apply_eq_some).mp applied
  cases update with
  | claim now =>
    simp only [JobUpdate.guard, decide_eq_true_eq] at matched
    have room := sound.waiting matched
    refine ⟨?_, by simp [JobUpdate.values], sound.started, sound.bounded,
      by simp [JobUpdate.values], by simp [JobUpdate.values,
        JobStatus.terminal], ?_⟩
    · simp only [JobUpdate.values, Nat.cast_add, Nat.cast_one]
      omega
    · have open_ := sound.stamped
      simpa [JobUpdate.values, matched, JobStatus.terminal] using open_
  | reportProgress progress stage =>
    simp only [JobUpdate.guard, Bool.and_eq_true, decide_eq_true_eq] at matched
    simp only [JobUpdate.reportsNumber, decide_eq_true_eq] at number
    have bounds := clamp_bounds number
    refine ⟨sound.budget, sound.waiting, bounds.1, bounds.2, ?_, sound.emptied, sound.stamped⟩
    simp [JobUpdate.values, matched.1]
  | succeed now resultId values =>
    refine ⟨sound.budget, by simp [JobUpdate.values], ?_, ?_, ?_, ?_, rfl⟩
    · simp [JobUpdate.values, atMost_num]
    · simp [JobUpdate.values, atMost_num]
    · simp [JobUpdate.values]
    · simp [JobUpdate.values]
  | requeue cutoff =>
    simp only [JobUpdate.guard, Bool.and_eq_true, decide_eq_true_eq, Job.stale] at matched
    obtain ⟨⟨running, _⟩, room⟩ := matched
    refine ⟨sound.budget, fun _ => room, sound.started, sound.bounded,
      by simp [JobUpdate.values], by simp [JobUpdate.values,
        JobStatus.terminal], ?_⟩
    have open_ := sound.stamped
    simpa [JobUpdate.values, running, JobStatus.terminal] using open_
  | _ =>
    refine ⟨sound.budget, by simp [JobUpdate.values], sound.started,
      sound.bounded, by simp [JobUpdate.values], ?_, rfl⟩
    simp [JobUpdate.values]

end Updates

section Runs

variable {settings : JobStoreSettings} {job later : Job}
  {updates : List JobUpdate}

theorem Job.Sound.run (sound : job.Sound)
    (numbers : ∀ update ∈ updates, update.reportsNumber = true)
    (run : exec (Job.apply settings) job updates = some later) :
    later.Sound ∧ job.progress.AtMost later.progress := by
  induction updates generalizing job with
  | nil =>
    cases run
    obtain ⟨value, _, same, _⟩ := sound.bounded
    exact ⟨sound, by rw [same]; exact (atMost_num).mpr le_rfl⟩
  | cons update rest induction =>
    obtain ⟨next, applied, remaining⟩ := exec_cons.mp run
    have number := numbers update List.mem_cons_self
    obtain ⟨final, further⟩ := induction (sound.apply number applied)
      (fun other member => numbers other (List.mem_cons_of_mem _ member))
      remaining
    exact ⟨final, (sound.progress_atMost number applied).trans further⟩

theorem run_of_terminal (terminal : job.status.terminal = true)
    (run : exec (Job.apply settings) job updates = some later) :
    updates = [] ∧ later = job := by
  cases updates with
  | nil =>
    cases run
    exact ⟨rfl, rfl⟩
  | cons update rest =>
    obtain ⟨next, applied, _⟩ := exec_cons.mp run
    rw [apply_of_terminal terminal] at applied
    cases applied

theorem closes_last {before after : List JobUpdate} {update : JobUpdate}
    (run : exec (Job.apply settings) job (before ++ update :: after) = some later)
    (closes : update.closes = true) : after = [] := by
  obtain ⟨middle, _, rest⟩ := exec_append.mp run
  obtain ⟨next, applied, remaining⟩ := exec_cons.mp rest
  exact (run_of_terminal (terminal_of_closes applied closes) remaining).1

end Runs

end Jobs

end TempestSdk
