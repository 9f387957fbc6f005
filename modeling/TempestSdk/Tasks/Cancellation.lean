import TempestSdk.Library.Runs

/-!
# Work that can be interrupted

`run_cancellable` as a task of an event loop beside the task of its work.  A
task that is cancelled while it waits for a future cancels that future; a
future that is done already is not cancelled any more, and the task finds the
cancellation where it goes on.  The predicate does not keep a cancellation to
itself, and what the work raises is an `Exception` or a `CancelledError`.
-/

namespace TempestSdk.Cancellation

variable {Result Error : Type}

inductive Ending (Result Error : Type) where
  | returned (result : Result)
  | raised (error : Error)
  | cancelled

/-- The task of the work, with how often it was cancelled. -/
inductive Work (Result Error : Type) where
  | pending (cancels : Nat)
  | finished (ending : Ending Result Error)

inductive Outcome (Result Error : Type) where
  | returned (result : Result)
  | raised (error : Error)
  /-- `StageInterruptedError`. -/
  | interrupted
  /-- `CancelledError`. -/
  | cancelled

inductive Point (Result Error : Type) where
  /-- `asyncio.wait`. -/
  | waiting
  /-- `interrupted()`. -/
  | polling
  /-- `await task` in the `finally`, on the way out. -/
  | cleaning (cause : Outcome Result Error)
  | exited (outcome : Outcome Result Error)

/-- `thrown`: a `CancelledError` is raised where the call goes on.
`cancellations` counts those of the caller. -/
structure Call (Result Error : Type) where
  work : Work Result Error
  point : Point Result Error
  thrown : Bool
  stop_event : Option Bool
  cancellations : Nat

inductive Action (Result Error : Type) where
  | work_ends (ending : Ending Result Error)
  | answer (answered : Except Error Bool)
  /-- The call goes on: after a timeout, because the work is done, or with a
  `CancelledError`. -/
  | resume
  | cancel

def Work.isFinished : Work Result Error → Bool
  | .pending _ => false
  | .finished _ => true

def Outcome.ofEnding : Ending Result Error → Outcome Result Error
  | .returned result => .returned result
  | .raised error => .raised error
  | .cancelled => .cancelled

namespace Call

/-- The start; without a positive interval there is a `ValueError` and no
task. -/
def run_cancellable (poll_seconds : Rat) (stop_event : Option Bool) :
    Option (Call Result Error) :=
  if poll_seconds ≤ 0 then none
  else
    some {
      work := .pending 0
      point := .waiting
      thrown := false
      stop_event
      cancellations := 0 }

variable (call : Call Result Error)

def stop_the_thread : Call Result Error :=
  { call with stop_event := call.stop_event.map fun _ => true }

/-- The `finally`, entered for a cause. -/
def leave (cause : Outcome Result Error) : Call Result Error :=
  match call.work with
  | .finished _ => { call with point := .exited cause, thrown := false }
  | .pending cancels =>
    { call.stop_the_thread with
      work := .pending (cancels + 1)
      point := .cleaning cause
      thrown := false }

def cancel : Option (Call Result Error) :=
  let counted := { call with cancellations := call.cancellations + 1 }
  match call.point with
  | .waiting => some { counted with thrown := true }
  | .polling => some { counted with thrown := true }
  | .cleaning _ =>
    match call.work with
    | .pending cancels => some { counted with work := .pending (cancels + 1) }
    | .finished _ => some { counted with thrown := true }
  | .exited _ => none

def resume : Option (Call Result Error) :=
  match call.point with
  | .waiting =>
    if call.thrown then some (call.leave .cancelled)
    else
      match call.work with
      | .finished ending => some (call.leave (.ofEnding ending))
      | .pending _ => some { call with point := .polling }
  | .polling => if call.thrown then some (call.leave .cancelled) else none
  | .cleaning cause =>
    -- whatever `await task` raises is suppressed
    match call.work with
    | .finished _ => some { call with point := .exited cause, thrown := false }
    | .pending _ => none
  | .exited _ => none

def answer (answered : Except Error Bool) : Option (Call Result Error) :=
  match call.point with
  | .polling =>
    if call.thrown then none
    else
      match answered with
      | .error _ => some { call with point := .waiting }
      | .ok false => some { call with point := .waiting }
      | .ok true => some (call.stop_the_thread.leave .interrupted)
  | _ => none

def step (call : Call Result Error) : Action Result Error → Option (Call Result Error)
  | .work_ends ending =>
    match call.work with
    | .pending _ => some { call with work := .finished ending }
    | .finished _ => none
  | .answer answered => call.answer answered
  | .resume => call.resume
  | .cancel => call.cancel

/-- A cancellation of the caller comes before the call leaves for another
cause. -/
def Heard (call : Call Result Error) : Action Result Error → Prop
  | .cancel => ∀ cause, call.point = .cleaning cause → cause = .cancelled
  | _ => True

/-- Before it leaves, the call knows of every cancellation; it exits when the
work is finished. -/
def Sound (call : Call Result Error) : Prop :=
  match call.point with
  | .waiting => 0 < call.cancellations → call.thrown = true
  | .polling => 0 < call.cancellations → call.thrown = true
  | .cleaning _ => True
  | .exited _ => call.work.isFinished = true

def Told (call : Call Result Error) : Prop :=
  match call.point with
  | .waiting => True
  | .polling => True
  | .cleaning cause => 0 < call.cancellations → cause = .cancelled
  | .exited outcome => 0 < call.cancellations → outcome = .cancelled

variable {call next : Call Result Error}

theorem leave_sound (cause : Outcome Result Error) : (call.leave cause).Sound := by
  unfold leave
  split
  next work =>
    change call.work.isFinished = true
    rw [work]
    rfl
  next => trivial

theorem leave_told {cause : Outcome Result Error}
    (told : 0 < call.cancellations → cause = .cancelled) :
    (call.leave cause).Told := by
  unfold leave
  split
  next => exact told
  next => exact told

theorem told_of_waiting (waiting : call.point = .waiting) : call.Told := by
  unfold Told
  rw [waiting]
  trivial

theorem told_of_polling (polling : call.point = .polling) : call.Told := by
  unfold Told
  rw [polling]
  trivial

/-- What is true of a step in any point: it keeps the call sound, it is heard
exactly when the next state tells of it, and it takes nothing back. -/
structure Kept (call : Call Result Error) (action : Action Result Error)
    (next : Call Result Error) : Prop where
  sound : next.Sound
  exact : call.Told → (call.Heard action ↔ next.Told)
  back : next.Told → call.Told

theorem resume_kept (sound : call.Sound) (taken : call.resume = some next) :
    call.Kept .resume next := by
  unfold resume at taken
  split at taken
  next waiting =>
    have known : 0 < call.cancellations → call.thrown = true := by
      unfold Sound at sound
      rwa [waiting] at sound
    have here := told_of_waiting waiting
    split at taken
    next =>
      cases taken
      exact ⟨leave_sound _, fun _ => iff_of_true trivial
        (leave_told fun _ => rfl), fun _ => here⟩
    next calm =>
      split at taken
      next =>
        cases taken
        exact ⟨leave_sound _, fun _ => iff_of_true trivial
          (leave_told fun cancelled => absurd (known cancelled) calm),
          fun _ => here⟩
      next =>
        cases taken
        exact ⟨known, fun _ => iff_of_true trivial trivial, fun _ => here⟩
  next polling =>
    have here := told_of_polling polling
    split at taken
    next =>
      cases taken
      exact ⟨leave_sound _, fun _ => iff_of_true trivial
        (leave_told fun _ => rfl), fun _ => here⟩
    next => cases taken
  next cause cleaning =>
    split at taken
    next work =>
      cases taken
      have same : call.Told ↔ Told { call with point := .exited cause, thrown := false } := by
        unfold Told
        rw [cleaning]
      refine ⟨?_, fun told => iff_of_true trivial (same.mp told), same.mpr⟩
      change call.work.isFinished = true
      rw [work]
      rfl
    next => cases taken
  next => cases taken

theorem answer_kept {answered : Except Error Bool} (sound : call.Sound)
    (taken : call.answer answered = some next) :
    call.Kept (.answer answered) next := by
  unfold answer at taken
  split at taken
  next polling =>
    have known : 0 < call.cancellations → call.thrown = true := by
      unfold Sound at sound
      rwa [polling] at sound
    have here := told_of_polling polling
    split at taken
    next => cases taken
    next calm =>
      split at taken
      next =>
        cases taken
        exact ⟨known, fun _ => iff_of_true trivial trivial, fun _ => here⟩
      next =>
        cases taken
        exact ⟨known, fun _ => iff_of_true trivial trivial, fun _ => here⟩
      next =>
        cases taken
        exact ⟨leave_sound _, fun _ => iff_of_true trivial
          (leave_told fun cancelled => absurd (known cancelled) calm),
          fun _ => here⟩
  next => cases taken

theorem cancel_kept (taken : call.cancel = some next) : call.Kept .cancel next := by
  have awaiting : ∀ {point : Point Result Error}, call.point = point →
      (∀ cause, point ≠ .cleaning cause) → call.Heard .cancel := by
    intro point here other cause cleaning
    exact absurd (here.symm.trans cleaning) (other cause)
  have cleaned : ∀ {cause work thrown}, call.point = .cleaning cause →
      call.Kept .cancel { call with
        work, thrown, cancellations := call.cancellations + 1 } := by
    intro cause work thrown cleaning
    refine ⟨?_, fun _ => ?_, ?_⟩
    · unfold Sound
      rw [cleaning]
      trivial
    · unfold Told
      rw [cleaning]
      constructor
      · intro heard _
        exact heard cause cleaning
      · intro told other cleaning'
        rw [cleaning] at cleaning'
        cases cleaning'
        exact told (Nat.succ_pos _)
    · unfold Told
      rw [cleaning]
      intro told _
      exact told (Nat.succ_pos _)
  unfold cancel at taken
  dsimp only at taken
  split at taken
  next waiting =>
    cases taken
    refine ⟨?_, fun _ => iff_of_true (awaiting waiting fun _ => by simp)
      (told_of_waiting waiting), fun _ => told_of_waiting waiting⟩
    unfold Sound
    rw [waiting]
    exact fun _ => rfl
  next polling =>
    cases taken
    refine ⟨?_, fun _ => iff_of_true (awaiting polling fun _ => by simp)
      (told_of_polling polling), fun _ => told_of_polling polling⟩
    unfold Sound
    rw [polling]
    exact fun _ => rfl
  next cause cleaning =>
    split at taken
    next =>
      cases taken
      exact cleaned cleaning
    next =>
      cases taken
      exact cleaned cleaning
  next => cases taken

theorem work_ends_kept {ending : Ending Result Error} (sound : call.Sound)
    (taken : call.step (.work_ends ending) = some next) :
    call.Kept (.work_ends ending) next := by
  unfold step at taken
  dsimp only at taken
  split at taken
  next cancels work =>
    cases taken
    refine ⟨?_, fun told => iff_of_true trivial told, id⟩
    unfold Sound at sound ⊢
    dsimp only
    split at sound
    next => exact sound
    next => exact sound
    next => trivial
    next =>
      rw [work] at sound
      cases sound
  next => cases taken

theorem step_kept (sound : call.Sound) {action : Action Result Error}
    (taken : call.step action = some next) : call.Kept action next := by
  cases action with
  | work_ends ending => exact work_ends_kept sound taken
  | answer answered => exact answer_kept sound taken
  | resume => exact resume_kept sound taken
  | cancel => exact cancel_kept taken

theorem leave_cancellations (cause : Outcome Result Error) :
    (call.leave cause).cancellations = call.cancellations := by
  unfold leave
  split
  next => rfl
  next => rfl

theorem step_cancellations {action : Action Result Error}
    (taken : call.step action = some next) :
    0 < next.cancellations ↔ 0 < call.cancellations ∨ action = .cancel := by
  cases action with
  | cancel =>
    refine iff_of_true ?_ (.inr rfl)
    change call.cancel = some next at taken
    unfold cancel at taken
    dsimp only at taken
    split at taken
    next =>
      cases taken
      exact Nat.succ_pos _
    next =>
      cases taken
      exact Nat.succ_pos _
    next =>
      split at taken
      next =>
        cases taken
        exact Nat.succ_pos _
      next =>
        cases taken
        exact Nat.succ_pos _
    next => cases taken
  | work_ends ending =>
    unfold step at taken
    dsimp only at taken
    split at taken
    next =>
      cases taken
      simp
    next => cases taken
  | answer answered =>
    change call.answer answered = some next at taken
    unfold answer at taken
    split at taken
    next =>
      split at taken
      next => cases taken
      next =>
        split at taken
        next =>
          cases taken
          simp
        next =>
          cases taken
          simp
        next =>
          cases taken
          rw [leave_cancellations]
          simp [stop_the_thread]
    next => cases taken
  | resume =>
    change call.resume = some next at taken
    unfold resume at taken
    split at taken
    next =>
      split at taken
      next =>
        cases taken
        rw [leave_cancellations]
        simp
      next =>
        split at taken
        next =>
          cases taken
          rw [leave_cancellations]
          simp
        next =>
          cases taken
          simp
    next =>
      split at taken
      next =>
        cases taken
        rw [leave_cancellations]
        simp
      next => cases taken
    next =>
      split at taken
      next =>
        cases taken
        simp
      next => cases taken
    next => cases taken

theorem exec_cancellations {start final : Call Result Error}
    {schedule : List (Action Result Error)} (fresh : start.cancellations = 0)
    (run : Runs.exec step start schedule = some final) :
    0 < final.cancellations ↔ .cancel ∈ schedule := by
  have kept : ∀ (past : List (Action Result Error)) (call : Call Result Error)
      (action : Action Result Error) (next : Call Result Error),
      (0 < call.cancellations ↔ .cancel ∈ past) → call.step action = some next →
          (0 < next.cancellations ↔ .cancel ∈ past ++ [action]) := by
    intro past call action next known taken
    rw [step_cancellations taken, known, List.mem_append, List.mem_singleton, eq_comm]
  have begun : 0 < start.cancellations ↔ .cancel ∈ ([] : List (Action Result Error)) := by
    simp [fresh]
  have counted := Runs.exec_history kept begun run
  simpa using counted

end Call

open Call

/-- When the call returns or raises, the work is finished; it raises the
cancellation of its caller, if there was one, exactly when every one was
heard. -/
theorem run_cancellable_iff (poll_seconds : Rat) (stop_event : Option Bool)
    {start final : Call Result Error} {schedule : List (Action Result Error)}
    {outcome : Outcome Result Error}
    (begun : run_cancellable poll_seconds stop_event = some start)
    (run : Runs.exec step start schedule = some final)
    (exited : final.point = .exited outcome) :
    final.work.isFinished = true ∧ (Runs.Meets step Heard start schedule ↔
        (.cancel ∈ schedule → outcome = .cancelled)) := by
  have fresh : start.point = .waiting ∧ start.cancellations = 0 := by
    unfold run_cancellable at begun
    split at begun
    next => cases begun
    next =>
      cases begun
      exact ⟨rfl, rfl⟩
  have sound : start.Sound := by
    unfold Sound
    rw [fresh.1, fresh.2]
    exact fun positive => absurd positive (Nat.lt_irrefl 0)
  have told := told_of_waiting fresh.1
  have final_sound : final.Sound :=
    Runs.exec_invariant (fun _ _ _ sound taken => (step_kept sound taken).sound) sound run
  unfold Sound at final_sound
  rw [exited] at final_sound
  refine ⟨final_sound, ?_⟩
  have ends : (final.Sound → final.Told) ↔ (.cancel ∈ schedule → outcome = .cancelled) := by
    rw [← exec_cancellations fresh.2 run]
    unfold Sound Told
    rw [exited]
    exact ⟨fun told => told final_sound, fun told _ => told⟩
  rw [← ends]
  have exact : ∀ (call : Call Result Error) (action : Action Result Error)
      (next : Call Result Error), call.Sound ∧ call.Told → True → call.step action = some next →
          (call.Heard action ↔ (next.Sound → next.Told)) := by
    rintro call action next ⟨sound, told⟩ - taken
    have kept := step_kept sound taken
    rw [kept.exact told]
    exact ⟨fun told _ => told, fun told => told kept.sound⟩
  have kept : ∀ (call : Call Result Error) (action : Action Result Error)
      (next : Call Result Error), call.Sound ∧ call.Told → True →
        call.step action = some next → (next.Sound → next.Told) → next.Sound ∧ next.Told := by
    rintro call action next ⟨sound, -⟩ - taken told
    have after := (step_kept sound taken).sound
    exact ⟨after, told after⟩
  have back : ∀ (call : Call Result Error) (action : Action Result Error)
      (next : Call Result Error), call.step action = some next →
        (next.Sound → next.Told) → call.Sound → call.Told := by
    intro call action next taken told sound
    have after := step_kept sound taken
    exact after.back (told after.sound)
  have free : Runs.Meets step (fun _ _ => True) start schedule :=
    Runs.Meets.of_forall fun _ _ => trivial
  exact Runs.meets_iff_good exact kept back free ⟨sound, told⟩ (fun _ => told) run

theorem run_cancellable_iff_waiting : let schedule : List (Action Nat Nat) :=
      [.resume, .answer (.ok false), .cancel, .resume, .cancel,
        .work_ends (.returned 7), .resume]
    ∃ start final : Call Nat Nat, run_cancellable 2 none = some start ∧
      Runs.exec step start schedule = some final ∧
      final.point = .exited .cancelled ∧
      (final.work.isFinished = true ∧ (Runs.Meets step Heard start schedule ↔
          (.cancel ∈ schedule → (Outcome.cancelled : Outcome Nat Nat) = .cancelled))) :=
  ⟨_, _, rfl, rfl, rfl, run_cancellable_iff 2 none rfl rfl rfl⟩

theorem cancellation_lost_in_cleanup : ∃ start final : Call Nat Nat,
      run_cancellable 2 none = some start ∧
      Runs.exec step start [.resume, .answer (.ok true), .cancel,
        .work_ends .cancelled, .resume] = some final ∧
      final.point = .exited .interrupted ∧ final.cancellations = 1 :=
  ⟨_, _, rfl, rfl, rfl, rfl⟩

end TempestSdk.Cancellation
