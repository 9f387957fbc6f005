import TempestSdk.Genai.BatchingKept
import TempestSdk.Library.Runs

/-!
# Runs of the batch scheduler

No submit is left waiting, as long as the worker is not cancelled before its
first step.
-/

namespace TempestSdk.Batching

variable {Item Result Error : Type}

def Worker.isCreated : Worker Item → Bool
  | .created _ => true
  | _ => false

def Worker.batch : Worker Item → List (Entry Item)
  | .waiting batch _ | .handling batch => batch
  | _ => []

/-- The steps the worker may take before it is at the queue again. -/
def Worker.steps : Worker Item → Nat
  | .idle => 0
  | .created _ => 1
  | .waiting _ _ => 2
  | .handling _ => 1

namespace Scheduler

variable {config : Config} {scheduler next : Scheduler Item Result Error}
  {held batch : List (Entry Item)}

def Awaits (scheduler : Scheduler Item Result Error) (held : List (Entry Item)) : Prop :=
  ∀ number : Nat, scheduler.futures[number]? = some .pending →
    ∃ entry ∈ held ++ scheduler.queue, entry.future = number

structure Live (scheduler : Scheduler Item Result Error) : Prop where
  awaits : scheduler.Awaits scheduler.worker.batch
  rests : scheduler.worker = .idle → scheduler.queue = []
  begins : scheduler.worker ≠ .created true

theorem Kept.cancelWorker (kept : scheduler.Kept config) :
    scheduler.cancelWorker.Kept config := by
  have keeps := kept.keeps
  unfold Scheduler.cancelWorker
  split
  case h_1 => exact kept
  case h_2 cancelled created =>
    rw [created] at keeps
    refine ⟨keeps.mono (List.Sublist.refl _), ?_, ?_⟩
    · intro batch cancelled impossible
      cases impossible
    · intro batch impossible
      cases impossible
  case h_3 batch cancelled waiting =>
    rw [waiting] at keeps
    refine ⟨keeps.mono (List.Sublist.refl _), ?_, ?_⟩
    · intro other flag same
      cases same
      exact kept.forming batch cancelled waiting
    · intro other impossible
      cases impossible
  case h_4 batch handling =>
    refine ⟨⟨keeps.numbered, keeps.ordered, keeps.own, keeps.sized,
      keeps.placed, keeps.chosen⟩, kept.forming, kept.handling⟩

theorem Kept.step (kept : scheduler.Kept config) {action : Action Item Result Error}
    (taken : step config scheduler action = some next) : next.Kept config := by
  have keeps := kept.keeps
  cases action with
  | submit item =>
    simp only [Batching.step] at taken
    cases taken
    split
    case isTrue => exact kept
    case isFalse => exact kept.submit item
  | begin waits =>
    simp only [Batching.step] at taken
    split at taken
    case h_1 created =>
      cases taken
      rw [created] at keeps
      exact keeps.loop waits
    case h_2 created =>
      cases taken
      rw [created] at keeps
      refine ⟨keeps.mono (List.Sublist.refl _), ?_, ?_⟩
      · intro batch cancelled impossible
        cases impossible
      · intro batch impossible
        cases impossible
    case h_3 => cases taken
  | arrive waits =>
    simp only [Batching.step] at taken
    split at taken
    case h_1 batch waiting =>
      split at taken
      case isTrue => cases taken
      case isFalse filled =>
        cases taken
        obtain ⟨some_item, room⟩ := kept.forming batch false waiting
        rw [waiting] at keeps
        exact keeps.form waits room (.inl some_item)
    case h_2 => cases taken
  | timeout =>
    simp only [Batching.step] at taken
    split at taken
    case h_1 batch waiting =>
      cases taken
      obtain ⟨some_item, room⟩ := kept.forming batch false waiting
      rw [waiting] at keeps
      exact keeps.hand some_item (Nat.le_of_lt room)
    case h_2 => cases taken
  | interrupt =>
    simp only [Batching.step] at taken
    split at taken
    case h_1 batch waiting =>
      cases taken
      exact keeps.cancelled.abandon
    case h_2 => cases taken
  | answer answer waits =>
    simp only [Batching.step] at taken
    split at taken
    case h_1 batch handling =>
      cases taken
      have handed := kept.handling batch handling
      rw [handling] at keeps
      exact keeps.answer handed waits answer
    case h_2 => cases taken
  | cancelWorker =>
    cases taken
    exact kept.cancelWorker
  | cancelCaller future =>
    cases taken
    refine ⟨keeps.settled ?_, kept.forming, kept.handling⟩
    intro pair member value
    cases List.mem_singleton.mp member
    intro impossible
    cases impossible
  | aclose =>
    cases taken
    exact ⟨⟨keeps.numbered, keeps.ordered, keeps.own, keeps.sized,
      keeps.placed, keeps.chosen⟩, kept.forming, kept.handling⟩

def Begun (scheduler : Scheduler Item Result Error) : Action Item Result Error → Prop
  | .cancelWorker => scheduler.worker.isCreated = false
  | _ => True

instance (scheduler : Scheduler Item Result Error) :
    DecidablePred scheduler.Begun
  | .cancelWorker => inferInstanceAs (Decidable (scheduler.worker.isCreated = false))
  | .submit _ | .begin _ | .arrive _ | .timeout | .interrupt | .answer _ _
  | .cancelCaller _ | .aclose => .isTrue trivial

structure Covers (outcomes : List (Nat × Future Result Error))
    (entries : List (Entry Item)) : Prop where
  all : ∀ entry ∈ entries, ∃ pair ∈ outcomes, pair.1 = entry.future
  done : ∀ pair ∈ outcomes, pair.2 ≠ .pending

theorem covers_allTo (entries : List (Entry Item))
    {outcome : Future Result Error} (done : outcome ≠ .pending) :
    Covers (allTo entries outcome) entries := by
  refine ⟨?_, ?_⟩
  · intro entry member
    exact ⟨_, List.mem_map.mpr ⟨entry, member, rfl⟩, rfl⟩
  · intro pair member
    obtain ⟨entry, _inside, rfl⟩ := List.mem_map.mp member
    exact done

theorem covers_inPosition {entries : List (Entry Item)} {results : List Result}
    (same : results.length = entries.length) :
    Covers (inPosition entries results : List (Nat × Future Result Error)) entries := by
  refine ⟨?_, ?_⟩
  · intro entry member
    obtain ⟨position, found⟩ := List.mem_iff_getElem?.mp member
    have small : position < results.length := by
      rw [same]
      exact (List.getElem?_eq_some_iff.mp found).1
    have pair : (entry, results[position]) ∈ entries.zip results := by
      apply List.mem_iff_getElem?.mpr
      refine ⟨position, List.getElem?_zip_eq_some.mpr ⟨found, ?_⟩⟩
      exact List.getElem?_eq_getElem small
    exact ⟨_, List.mem_map.mpr ⟨_, pair, rfl⟩, rfl⟩
  · intro pair member
    obtain ⟨inside, _member, rfl⟩ := List.mem_map.mp member
    intro impossible
    cases impossible

theorem Awaits.settled (awaits : scheduler.Awaits batch)
    {outcomes : List (Nat × Future Result Error)}
    (covers : Covers outcomes batch) :
    (scheduler.settled outcomes).Awaits [] := by
  intro number pending
  obtain ⟨before, apart⟩ := pending_settleAll covers.done pending
  obtain ⟨entry, member, same⟩ := awaits number before
  rcases List.mem_append.mp member with held | queued
  · obtain ⟨pair, inside, equal⟩ := covers.all entry held
    exact absurd (equal.trans same) (apart pair inside)
  · exact ⟨entry, queued, same⟩

theorem Awaits.form (awaits : scheduler.Awaits held) (waits : Bool) :
    (scheduler.form config waits held).Live := by
  have still : Awaits { scheduler with
      queue := scheduler.queue.drop (config.max_batch - held.length) }
      (held ++ scheduler.queue.take (config.max_batch - held.length)) := by
    intro number pending
    obtain ⟨entry, member, same⟩ := awaits number pending
    refine ⟨entry, ?_, same⟩
    rw [List.append_assoc, List.take_append_drop]
    exact member
  unfold Scheduler.form
  dsimp only
  split
  case isTrue =>
    refine ⟨still, ?_, ?_⟩
    · intro idle
      cases idle
    · intro created
      cases created
  case isFalse =>
    refine ⟨still, ?_, ?_⟩
    · intro idle
      cases idle
    · intro created
      cases created

theorem Awaits.loop (awaits : scheduler.Awaits []) (waits : Bool) :
    (scheduler.loop config waits).Live := by
  unfold Scheduler.loop
  split
  case isTrue empty =>
    refine ⟨awaits, fun _idle => List.isEmpty_iff.mp empty, ?_⟩
    intro created
    cases created
  case isFalse => exact awaits.form waits

theorem Awaits.abandon (awaits : scheduler.Awaits []) : scheduler.abandon.Live := by
  refine ⟨?_, fun _idle => rfl, ?_⟩
  · intro number pending
    have covers : Covers (allTo scheduler.queue
        (.cancelled : Future Result Error)) scheduler.queue := by
      apply covers_allTo
      intro impossible
      cases impossible
    obtain ⟨before, apart⟩ := pending_settleAll covers.done pending
    obtain ⟨entry, member, same⟩ := awaits number before
    obtain ⟨pair, inside, equal⟩ := covers.all entry member
    exact absurd (equal.trans same) (apart pair inside)
  · intro created
    cases created

theorem Awaits.failed (awaits : scheduler.Awaits batch) (failure : Failure Error) :
    (scheduler.settled (allTo batch (.exception failure))).Awaits [] := by
  apply awaits.settled
  apply covers_allTo
  intro impossible
  cases impossible

theorem Awaits.cancelled (awaits : scheduler.Awaits batch) :
    (scheduler.settled (allTo batch .cancelled)).Awaits [] := by
  apply awaits.settled
  apply covers_allTo
  intro impossible
  cases impossible

theorem Awaits.answer (awaits : scheduler.Awaits batch) (waits : Bool)
    (answer : Answer Result Error) :
    (scheduler.answer config waits batch answer).Live := by
  cases answer with
  | error error => exact (awaits.failed (.handler error)).loop waits
  | cancelled =>
    unfold Scheduler.answer
    dsimp only
    split
    case isTrue => exact awaits.cancelled.abandon
    case isFalse => exact awaits.cancelled.loop waits
  | fatal error => exact (awaits.failed (.raised error)).abandon
  | unsized => exact (awaits.failed .unsized).loop waits
  | results results =>
    unfold Scheduler.answer
    dsimp only
    split
    case isTrue same =>
      have settled : Awaits { scheduler.settled (inPosition batch results) with
          answered := scheduler.answered ++ [(batch, results)] } [] :=
        awaits.settled (covers_inPosition same)
      exact settled.loop waits
    case isFalse => exact (awaits.failed (.count results.length batch.length)).loop waits

theorem Live.submit (live : scheduler.Live) (item : Item) : (scheduler.submit item).Live := by
  obtain ⟨_handed, _answered, queue, futures, _submitted⟩ :=
    scheduler.submit_adds item
  have worker := scheduler.submit_worker item
  have same : (scheduler.submit item).worker.batch = scheduler.worker.batch := by
    rcases worker with ⟨_busy, same⟩ | ⟨idle, created⟩
    · rw [same]
    · rw [idle, created]
      rfl
  refine ⟨?_, ?_, ?_⟩
  · intro number pending
    rw [same, queue]
    rw [futures] at pending
    rcases Nat.lt_or_ge number scheduler.futures.length with small | large
    · rw [List.getElem?_append_left small] at pending
      obtain ⟨entry, member, equal⟩ := live.awaits number pending
      refine ⟨entry, ?_, equal⟩
      rw [← List.append_assoc]
      exact List.mem_append_left _ member
    · have inside := (List.getElem?_eq_some_iff.mp pending).1
      rw [List.length_append, List.length_singleton] at inside
      refine ⟨⟨item, scheduler.futures.length⟩, by simp, ?_⟩
      exact Nat.le_antisymm large (Nat.le_of_lt_succ inside)
  · intro idle
    rcases worker with ⟨busy, same⟩ | ⟨_idle, created⟩
    · rw [same] at idle
      exact absurd idle busy
    · rw [created] at idle
      cases idle
  · rcases worker with ⟨_busy, same⟩ | ⟨_idle, created⟩
    · rw [same]
      exact live.begins
    · rw [created]
      intro impossible
      cases impossible

theorem Live.cancelWorker (live : scheduler.Live) (begun : scheduler.worker.isCreated = false) :
    scheduler.cancelWorker.Live := by
  have awaits := live.awaits
  unfold Scheduler.cancelWorker
  split
  case h_1 => exact live
  case h_2 created =>
    rw [created] at begun
    cases begun
  case h_3 batch cancelled waiting =>
    rw [waiting] at awaits
    refine ⟨awaits, ?_, ?_⟩
    · intro idle
      cases idle
    · intro created
      cases created
  case h_4 => exact ⟨awaits, live.rests, live.begins⟩

theorem Live.step (live : scheduler.Live) {action : Action Item Result Error}
    (begun : scheduler.Begun action)
    (taken : step config scheduler action = some next) : next.Live := by
  have awaits := live.awaits
  cases action with
  | submit item =>
    simp only [Batching.step] at taken
    cases taken
    split
    case isTrue => exact live
    case isFalse => exact live.submit item
  | begin waits =>
    simp only [Batching.step] at taken
    split at taken
    case h_1 created =>
      cases taken
      rw [created] at awaits
      exact awaits.loop waits
    case h_2 created => exact absurd created live.begins
    case h_3 => cases taken
  | arrive waits =>
    simp only [Batching.step] at taken
    split at taken
    case h_1 batch waiting =>
      split at taken
      case isTrue => cases taken
      case isFalse =>
        cases taken
        rw [waiting] at awaits
        exact awaits.form waits
    case h_2 => cases taken
  | timeout =>
    simp only [Batching.step] at taken
    split at taken
    case h_1 batch waiting =>
      cases taken
      rw [waiting] at awaits
      refine ⟨awaits, ?_, ?_⟩
      · intro idle
        cases idle
      · intro created
        cases created
    case h_2 => cases taken
  | interrupt =>
    simp only [Batching.step] at taken
    split at taken
    case h_1 batch waiting =>
      cases taken
      rw [waiting] at awaits
      exact awaits.cancelled.abandon
    case h_2 => cases taken
  | answer answer waits =>
    simp only [Batching.step] at taken
    split at taken
    case h_1 batch handling =>
      cases taken
      rw [handling] at awaits
      exact awaits.answer waits answer
    case h_2 => cases taken
  | cancelWorker =>
    cases taken
    exact live.cancelWorker begun
  | cancelCaller future =>
    cases taken
    refine ⟨?_, live.rests, live.begins⟩
    intro number pending
    have done : ∀ pair ∈ [(future, (.cancelled : Future Result Error))], pair.2 ≠ .pending := by
      intro pair member
      cases List.mem_singleton.mp member
      intro impossible
      cases impossible
    exact awaits number (pending_settleAll done pending).1
  | aclose =>
    cases taken
    exact ⟨awaits, live.rests, live.begins⟩

theorem Live.initial : (initial : Scheduler Item Result Error).Live := by
  refine ⟨?_, fun _idle => rfl, ?_⟩
  · intro number pending
    cases pending
  · intro created
    cases created

/-- What the worker has left to do: the steps it can take for the items in the
queue, and those for the items in hand. -/
def work (scheduler : Scheduler Item Result Error) : Nat :=
  3 * scheduler.queue.length + scheduler.worker.steps

theorem work_form (waits : Bool) (filled : 0 < scheduler.queue.length) :
    (scheduler.form config waits held).work ≤ 3 * scheduler.queue.length + 1 ∧
      (held.length < config.max_batch → (scheduler.form config waits held).work ≤
          3 * scheduler.queue.length) := by
  unfold Scheduler.form work
  dsimp only
  split
  case isTrue waiting =>
    have small := waiting.1
    rw [List.length_append, List.length_take] at small
    simp only [Worker.steps, List.length_drop]
    omega
  case isFalse =>
    simp only [hand, Worker.steps, List.length_drop]
    omega

theorem work_loop (waits : Bool) :
    (scheduler.loop config waits).work ≤ 3 * scheduler.queue.length := by
  unfold Scheduler.loop
  split
  case isTrue => exact Nat.le_refl _
  case isFalse filled =>
    have some_item : 0 < scheduler.queue.length :=
      List.length_pos_of_ne_nil fun empty => filled (by rw [empty]; rfl)
    have less := @work_form Item Result Error config scheduler [] waits some_item
    exact less.2 config.positive

theorem work_answer (waits : Bool) (answer : Answer Result Error) :
    (scheduler.answer config waits batch answer).work ≤ 3 * scheduler.queue.length := by
  cases answer with
  | error => exact work_loop waits
  | cancelled =>
    unfold Scheduler.answer
    dsimp only
    split
    case isTrue => exact Nat.zero_le _
    case isFalse => exact work_loop waits
  | fatal => exact Nat.zero_le _
  | unsized => exact work_loop waits
  | results results =>
    unfold Scheduler.answer
    dsimp only
    split
    case isTrue => exact work_loop waits
    case isFalse => exact work_loop waits

end Scheduler

def Action.workerSteps : Action Item Result Error → Nat
  | .begin _ | .arrive _ | .timeout | .interrupt | .answer _ _ => 1
  | .submit _ | .cancelWorker | .cancelCaller _ | .aclose => 0

def Action.brings : Action Item Result Error → Nat
  | .submit _ => 4
  | _ => 0

namespace Scheduler

variable {config : Config} {scheduler next : Scheduler Item Result Error}

theorem work_submit (item : Item) : (scheduler.submit item).work ≤ scheduler.work + 4 := by
  obtain ⟨_handed, _answered, queue, _futures, _submitted⟩ :=
    scheduler.submit_adds item
  unfold work
  rw [queue, List.length_append, List.length_singleton]
  rcases scheduler.submit_worker item with ⟨_busy, same⟩ | ⟨idle, created⟩
  · rw [same]
    omega
  · rw [idle, created]
    simp only [Worker.steps]
    omega

theorem work_cancelWorker : scheduler.cancelWorker.work = scheduler.work := by
  unfold cancelWorker work
  cases worker : scheduler.worker with
  | idle | created | waiting | handling => simp [worker, Worker.steps]

theorem step_paid {action : Action Item Result Error}
    (taken : step config scheduler action = some next) :
    action.workerSteps + next.work ≤ scheduler.work + action.brings := by
  cases action with
  | submit item =>
    simp only [Batching.step] at taken
    cases taken
    simp only [Action.workerSteps, Action.brings]
    have more := @work_submit Item Result Error scheduler item
    split
    case isTrue => omega
    case isFalse => omega
  | begin waits =>
    simp only [Batching.step] at taken
    have less := @work_loop Item Result Error config scheduler waits
    split at taken
    case h_1 created =>
      cases taken
      rw [work.eq_def scheduler, created]
      simp only [Action.workerSteps, Action.brings, Worker.steps]
      omega
    case h_2 created =>
      cases taken
      simp only [Action.workerSteps, Action.brings, work, created, Worker.steps]
      omega
    case h_3 => cases taken
  | arrive waits =>
    simp only [Batching.step] at taken
    split at taken
    case h_1 batch waiting =>
      split at taken
      case isTrue => cases taken
      case isFalse filled =>
        cases taken
        have some_item : 0 < scheduler.queue.length :=
          List.length_pos_of_ne_nil fun empty => filled (by rw [empty]; rfl)
        have less := (@work_form Item Result Error config scheduler batch waits some_item).1
        rw [work.eq_def scheduler, waiting]
        simp only [Action.workerSteps, Action.brings, Worker.steps]
        omega
    case h_2 => cases taken
  | timeout =>
    simp only [Batching.step] at taken
    split at taken
    case h_1 batch waiting =>
      cases taken
      simp only [Action.workerSteps, Action.brings, work, hand, waiting, Worker.steps]
      omega
    case h_2 => cases taken
  | interrupt =>
    simp only [Batching.step] at taken
    split at taken
    case h_1 batch waiting =>
      cases taken
      simp only [Action.workerSteps, Action.brings, work, abandon, waiting,
        Worker.steps, List.length_nil]
      omega
    case h_2 => cases taken
  | answer answer waits =>
    simp only [Batching.step] at taken
    split at taken
    case h_1 batch handling =>
      cases taken
      have less := @work_answer Item Result Error config scheduler batch waits answer
      rw [work.eq_def scheduler, handling]
      simp only [Action.workerSteps, Action.brings, Worker.steps]
      omega
    case h_2 => cases taken
  | cancelWorker =>
    cases taken
    rw [work_cancelWorker]
    simp only [Action.workerSteps, Action.brings]
    omega
  | cancelCaller future =>
    cases taken
    simp only [Action.workerSteps, Action.brings, work, settled]
    omega
  | aclose =>
    cases taken
    simp only [Action.workerSteps, Action.brings, work]
    omega

theorem can_step (busy : scheduler.worker ≠ .idle) :
    ∃ action : Action Item Result Error, action.workerSteps = 1 ∧
      ∃ next, step config scheduler action = some next := by
  cases worker : scheduler.worker with
  | idle => exact absurd worker busy
  | created cancelled =>
    refine ⟨.begin false, rfl, ?_⟩
    cases cancelled with
    | false => exact ⟨_, by simp only [Batching.step, worker]; rfl⟩
    | true => exact ⟨_, by simp only [Batching.step, worker]; rfl⟩
  | waiting batch cancelled =>
    cases cancelled with
    | false => exact ⟨.timeout, rfl, _, by simp only [Batching.step, worker]; rfl⟩
    | true => exact ⟨.interrupt, rfl, _, by simp only [Batching.step, worker]; rfl⟩
  | handling batch =>
    exact ⟨.answer .cancelled false, rfl, _, by
      simp only [Batching.step, worker]; rfl⟩

theorem Live.settled (live : scheduler.Live) (idle : scheduler.worker = .idle) :
    (.pending : Future Result Error) ∉ scheduler.futures := by
  intro member
  obtain ⟨number, pending⟩ := List.mem_iff_getElem?.mp member
  obtain ⟨entry, inside, _same⟩ := live.awaits number pending
  rw [idle, live.rests idle] at inside
  cases inside

/-- In a run that does not cancel a worker before its first step: the batches
are of a size and in order, a result is the one in the position of its item, and
no future is left pending when the worker is done.  Until then the worker can
take a step, of which there are no more than the work there is. -/
theorem nothing_lost (config : Config) {schedule : List (Action Item Result Error)}
    {reached : Scheduler Item Result Error}
    (begun : Runs.Meets (step config) Begun .initial schedule)
    (run : Runs.exec (step config) .initial schedule = some reached) :
    (∀ batch ∈ reached.handed, 0 < batch.length ∧ batch.length ≤ config.max_batch) ∧
    (reached.handed.flatten.map Entry.future).Pairwise (· < ·) ∧
    (∀ entry ∈ reached.handed.flatten, reached.submitted[entry.future]? = some entry.item) ∧
    (∀ number value, reached.futures[number]? = some (.result value) →
      ∃ batch ∈ reached.handed, ∃ results, (batch, results) ∈ reached.answered ∧
          Place batch results number value) ∧
    (reached.worker = .idle → .pending ∉ reached.futures) ∧
    (.pending ∈ reached.futures → ∃ action : Action Item Result Error,
      action.workerSteps = 1 ∧ ∃ next, step config reached action = some next) ∧
    ∀ more final, Runs.exec (step config) reached more = some final →
      (more.map Action.workerSteps).sum + final.work ≤
        reached.work + (more.map Action.brings).sum := by
  have kept : reached.Kept config := by
    apply Runs.exec_invariant _ kept_initial run
    intro scheduler action next kept taken
    exact kept.step taken
  have live : reached.Live := by
    apply Runs.exec_invariant_of_meets _ begun Live.initial run
    intro scheduler action next live begun taken
    exact live.step begun taken
  have keeps := kept.keeps
  have in_line : reached.handed.flatten.Sublist (reached.line reached.worker.held) := by
    unfold line
    rw [List.append_assoc]
    exact List.sublist_append_left _ _
  refine ⟨keeps.sized, ?_, ?_, ?_, live.settled, ?_, ?_⟩
  · exact keeps.ordered.sublist (in_line.map _)
  · intro entry member
    exact keeps.own entry (in_line.mem member)
  · intro number value found
    obtain ⟨batch, results, answered, place⟩ := keeps.placed number value found
    exact ⟨batch, keeps.chosen _ answered, results, answered, place⟩
  · intro pending
    apply can_step
    intro idle
    exact live.settled idle pending
  · intro more final further
    apply Runs.exec_cost _ further
    intro scheduler action next taken
    exact step_paid taken

end Scheduler

open Scheduler

def pairs : Config := ⟨2, by decide⟩

def together : List (Action Nat Nat Nat) :=
  [.submit 5, .submit 6, .begin false, .answer (.results [50, 60]) false]

theorem nothing_lost_together : ∃ reached,
    Runs.exec (step pairs) .initial together = some reached ∧
    reached.futures = [.result 50, .result 60] ∧
    (reached.handed.flatten.map Entry.future).Pairwise (· < ·) ∧
    (.pending : Future Nat Nat) ∉ reached.futures := by
  have begun : Runs.Meets (step pairs) Begun .initial together := by
    decide
  refine ⟨_, rfl, rfl, ?_, ?_⟩
  · exact (nothing_lost pairs begun rfl).2.1
  · exact (nothing_lost pairs begun rfl).2.2.2.2.1 rfl

/-- A worker that is cancelled before its first step leaves the queue as it is:
after `aclose` the future is still pending and no worker is there. -/
theorem left_pending : ((Runs.exec (step pairs) (.initial : Scheduler Nat Nat Nat)
      [.submit 5, .cancelWorker, .begin false, .aclose]).map fun reached =>
        (reached.worker.isCreated, reached.work, reached.closed,
          reached.futures)) = some (false, 3, true, [.pending]) := by
  decide

end TempestSdk.Batching
