import TempestSdk.Db.InboxEffects

/-!
# Whose attempt a worker of the inbox ends

The statements that end an attempt look at the status of the row and not at
the worker that claimed it.  A worker whose claim was swept ends nothing as
long as the attempt that took its place is over when it comes to write; when
that one still runs, the late write ends it.
-/

namespace TempestSdk

namespace Inbox

open Runs ReadCommitted Traced

def InboxDb.stale (db : InboxDb) (tx : TxId) (eventId : EventId) : Bool :=
  let workers := claims (db.events.history eventId)
  decide (tx ∈ workers) && decide (workers.getLast? ≠ some tx)

def InboxDb.ending (db : InboxDb) : InboxAction → Option (TxId × EventId × EventUpdate)
  | .mark tx now =>
    match db.phase tx with
    | .handling eventId => some (tx, eventId, .mark tx now)
    | _ => none
  | .fail tx eventId error => some (tx, eventId, .giveUp tx (truncated error))
  | .readmits tx =>
    match db.phase tx with
    | .passed eventId message => some (tx, eventId, .readmits tx message)
    | _ => none
  | _ => none

def InboxDb.late (db : InboxDb) (action : InboxAction) : Bool :=
  match db.ending action with
  | some (tx, eventId, update) =>
    !db.stale tx eventId || !(db.events.rows.visible tx eventId).any fun event =>
        event.guard update
  | none => true

/-- Whoever has ended an attempt, in an open transaction, made the last claim
of the event or none. -/
def Owned (db : InboxDb) : Prop :=
  ∀ tx eventId, (db.phase tx).ended = some eventId → db.stale tx eventId = false

theorem Fits.ended {tx : TxId} {phase : Phase}
    {work : EventId → List EventUpdate} {eventId : EventId}
    (fits : Fits tx phase work) (ended : phase.ended = some eventId) :
    work eventId ≠ [] := by
  cases fits <;> simp_all [Phase.ended]

theorem Fits.unended {tx : TxId} {phase : Phase}
    {work : EventId → List EventUpdate} {eventId : EventId}
    (fits : Fits tx phase work) (attempt : phase.attempt = some eventId)
    (unended : phase.ended ≠ some eventId) : work = fun _ => [] := by
  cases fits <;> simp_all [Phase.ended, Phase.attempt]

theorem Fits.unopened {tx : TxId} {phase : Phase}
    {work : EventId → List EventUpdate} {eventId claimed : EventId}
    (fits : Fits tx phase work)
    (unopened : phase = .idle ∨ phase = .working claimed) :
    work eventId = [] := by
  cases fits <;> simp_all

theorem Fits.ended_of_nil {tx : TxId} {phase : Phase}
    (fits : Fits tx phase fun _ => []) : phase.ended = none := by
  cases ended : phase.ended with
  | none => rfl
  | some eventId => exact absurd rfl (fits.ended ended)

section Steps

variable {inbox : TxId → WebhookInbox} {db next : InboxDb}
  {action : InboxAction} {tx : TxId} {eventId : EventId}
  {update : EventUpdate}

theorem unopened_of_fail {error : String}
    (taken : db.step inbox (.fail tx eventId error) = some next) :
    db.phase tx = .idle ∨ db.phase tx = .working eventId := by
  simp only [InboxDb.step] at taken
  split at taken
  · next idle => exact .inl idle
  · next claimed working =>
      split at taken
      · next same => exact .inr (same ▸ working)
      · simp at taken
  · simp at taken

theorem stale_of_history (history : next.events.history eventId = db.events.history eventId) :
    next.stale tx eventId = db.stale tx eventId := by
  simp only [InboxDb.stale, history]

theorem not_guard_of_late {event : WebhookEvent} (late : db.late action = true)
    (ending : db.ending action = some (tx, eventId, update))
    (stale : db.stale tx eventId = true)
    (found : db.events.rows.visible tx eventId = some event) :
    event.guard update = false := by
  simpa [InboxDb.late, ending, stale, found] using late

theorem Issues.current {phase : Phase} {version : Option WebhookEvent}
    (late : db.late action = true) (owned : Owned db)
    (issues : Issues inbox db action tx eventId update phase)
    (made : applyUpdate (db.events.rows.visible tx eventId) update =
      some version) {ended : EventId} (ends : phase.ended = some ended) :
    ended = eventId ∧ db.stale tx eventId = false := by
  have current : db.ending action = some (tx, eventId, update) →
      db.stale tx eventId = false := by
    intro ending
    by_contra stale
    rw [Bool.not_eq_false] at stale
    cases seen : db.events.rows.visible tx eventId with
    | none =>
      rw [seen] at made
      obtain ⟨delivery, maxAttempts, now, rfl, _⟩ := applyUpdate_none made
      cases issues
      cases ends
    | some event =>
      rw [seen] at made
      have guard := (applyUpdate_some.mp made).1
      rw [not_guard_of_late late ending stale seen] at guard
      cases guard
  cases issues with
  | mark handling =>
    cases ends
    exact ⟨rfl, current (by simp [InboxDb.ending, handling])⟩
  | giveUp unopened =>
    cases ends
    exact ⟨rfl, current rfl⟩
  | readmits passed =>
    cases ends
    exact ⟨rfl, current (by simp [InboxDb.ending, passed])⟩
  | delay readmitted =>
    cases ends
    exact ⟨rfl, owned tx eventId (by rw [readmitted]; rfl)⟩
  | _ => cases ends

theorem Owned.goto (owned : Owned db) {phase : Phase} {events : Traced TxId EventId applyUpdate}
    (history : events.history = db.events.history)
    (ended : ∀ eventId, phase.ended = some eventId → db.stale tx eventId = false) :
    Owned ({ db with events }.goto tx phase) := by
  intro other eventId ends
  rw [stale_of_history (congrFun history eventId)]
  by_cases same : other = tx
  · subst same
    simp only [InboxDb.goto, Function.update_self] at ends
    exact ended eventId ends
  · simp only [InboxDb.goto, Function.update_of_ne same] at ends
    exact owned other eventId ends

theorem Owned.step (owned : Owned db) (sound : Sound db) (late : db.late action = true)
    (taken : db.step inbox action = some next) : Owned next := by
  cases step_outcome taken with
  | unchanged => exact owned
  | ticked => exact owned
  | moved fits unended =>
    apply owned.goto rfl
    rw [unended]
    intro eventId ends
    cases ends
  | @wrote _ tx eventId update phase version free made issues =>
    apply owned.goto (history_write ..)
    intro ended ends
    obtain ⟨rfl, current⟩ := issues.current late owned made ends
    exact current
  | @rolledBack _ tx phase own closed =>
    have quiet : ∀ eventId, phase.ended = some eventId → db.stale tx eventId = false := by
      simp [closed.ended_of_nil]
    exact owned.goto rfl quiet
  | @committed tx phase closed marks =>
    intro other eventId ends
    by_cases same : other = tx
    · subst same
      simp [InboxDb.commit, closed.ended_of_nil] at ends
    · simp only [InboxDb.commit, Function.update_of_ne same] at ends
      have idle : db.events.work tx eventId = [] :=
        work_eq_nil_of_other same ((sound.fits other).ended ends)
      have history : (db.commit tx phase).events.history eventId =
          db.events.history eventId := by
        simp [InboxDb.commit, Traced.commit, idle]
      rw [stale_of_history history]
      exact owned other eventId ends

theorem Owned.unchanged (owned : Owned db) (sound : Sound db) (late : db.late action = true)
    (taken : db.step inbox action = some next)
    (own : action.worker = some tx)
    (attempt : (db.phase tx).attempt = some eventId ∨ ∃ error, action = .fail tx eventId error)
    (stale : db.stale tx eventId = true) :
    next.events.rows.committed eventId = db.events.rows.committed eventId ∧
      next.events.rows.pending eventId = db.events.rows.pending eventId ∧
      next.effects eventId = db.effects eventId := by
  have unended : (db.phase tx).ended ≠ some eventId := by
    intro ended
    rw [owned tx eventId ended] at stale
    cases stale
  have idle : db.events.work tx eventId = [] := by
    rcases attempt with claimed | ⟨error, rfl⟩
    · rw [(sound.fits tx).unended claimed unended]
    · exact (sound.fits tx).unopened (unopened_of_fail taken)
  cases step_outcome taken with
  | unchanged => exact ⟨rfl, rfl, rfl⟩
  | ticked => exact ⟨rfl, rfl, rfl⟩
  | moved fits _ => exact ⟨rfl, rfl, rfl⟩
  | @wrote _ worker key update phase version free made issues =>
    have ends : phase.ended = some key → key = eventId → worker = tx → False := by
      rintro ends rfl rfl
      obtain ⟨_, current⟩ := issues.current late owned made ends
      rw [current] at stale
      cases stale
    cases issues with
    | mark handling =>
      cases own
      rw [handling] at attempt
      exact (ends rfl (by simpa [Phase.attempt] using attempt) rfl).elim
    | giveUp unopened =>
      cases own
      refine (ends rfl ?_ rfl).elim
      rcases attempt with claimed | ⟨error, same⟩
      · rcases unopened with idle | working
        · simp [idle, Phase.attempt] at claimed
        · simpa [working, Phase.attempt] using claimed
      · cases same
        rfl
    | readmits passed =>
      cases own
      rw [passed] at attempt
      exact (ends rfl (by simpa [Phase.attempt] using attempt) rfl).elim
    | delay readmitted =>
      cases own
      rw [readmitted] at attempt
      exact (ends rfl (by simpa [Phase.attempt] using attempt) rfl).elim
    | record idle clear =>
      cases own
      simp [idle, Phase.attempt] at attempt
    | claim idle =>
      cases own
      simp [idle, Phase.attempt] at attempt
    | giveUpStale sweeping =>
      cases own
      simp [sweeping, Phase.attempt] at attempt
    | readmitStale sweeping =>
      cases own
      simp [sweeping, Phase.attempt] at attempt
  | @rolledBack _ worker phase same closed =>
    rw [own, Option.some.injEq] at same
    subst same
    exact ⟨rfl, pending_rollback_of_idle idle, rfl⟩
  | @committed worker phase closed marks =>
    cases own
    have claimed : (db.phase tx).attempt = some eventId := by
      rcases attempt with claimed | ⟨error, same⟩
      · exact claimed
      · cases same
    have unhandled : (db.phase tx).handled = none := by
      cases at_ : db.phase tx with
      | handling key => exact absurd at_ (marks key)
      | marked key =>
        rw [at_] at claimed unended
        exact absurd claimed unended
      | _ => rfl
    refine ⟨committed_commit_of_idle idle, pending_commit_of_idle idle, ?_⟩
    simp only [InboxDb.commit, unhandled]

end Steps

theorem owned_start : Owned .start := by
  simp [Owned, InboxDb.start, Phase.ended]

/-- In a run whose late workers find the attempts that replaced theirs over,
no step of a late worker's `process` or `fail` touches the event. -/
theorem stale_worker_ends_nothing (inbox : TxId → WebhookInbox)
    (schedule : List InboxAction) (action : InboxAction)
    {state next : InboxDb} {worker : TxId} {eventId : EventId}
    (meets : Meets (InboxDb.step inbox)
      (fun db action => db.late action = true) .start (schedule ++ [action]))
    (run : exec (InboxDb.step inbox) .start schedule = some state)
    (taken : state.step inbox action = some next)
    (own : action.worker = some worker)
    (attempt : (state.phase worker).attempt = some eventId ∨
      ∃ error, action = .fail worker eventId error)
    (stale : state.stale worker eventId = true) :
    next.events.rows.committed eventId = state.events.rows.committed eventId ∧
      next.events.rows.pending eventId = state.events.rows.pending eventId ∧
      next.effects eventId = state.effects eventId := by
  obtain ⟨met, last⟩ := Meets.of_append meets
  have kept : ∀ (db : InboxDb) action later, Owned db ∧ Sound db →
      db.late action = true → db.step inbox action = some later →
        Owned later ∧ Sound later := by
    intro db action later kept late taken
    exact ⟨kept.1.step kept.2 late taken, kept.2.step taken⟩
  obtain ⟨owned, sound⟩ :=
    exec_invariant_of_meets kept met ⟨owned_start, sound_start⟩ run
  exact owned.unchanged sound (last state run).1 taken own attempt stale

/-- The claim of the first worker is swept, and a second worker claims the
event and finishes it. -/
def reclaimedAndFinished : List InboxAction :=
  [.record 1 0 sampleDelivery 0, .commit 1, .claim 1 0 0, .commit 1,
    .handle 1, .tick 61, .sweep 3 61, .readmitting 3, .readmitStale 3 0,
    .commit 3, .claim 2 0 61, .commit 2, .handle 2, .mark 2 61, .commit 2]

theorem stale_worker_ends_nothing_finished : ∃ state next,
    exec (InboxDb.step sampleInbox) .start reclaimedAndFinished = some state ∧
      state.step sampleInbox (.mark 1 61) = some next ∧
      next.effects 0 = state.effects 0 := by
  refine ⟨_, _, rfl, rfl, ?_⟩
  exact (stale_worker_ends_nothing sampleInbox reclaimedAndFinished
    (.mark 1 61) (by decide) rfl rfl rfl (.inl rfl) (by decide)).2.2

/-- The first worker fails late and closes the event that the second worker is
processing; or it succeeds late, and the effects of the second worker will be
rolled back. -/
theorem stale_worker_ends_newer_attempt : ∃ state event failed closed succeeded,
    exec (InboxDb.step sampleInbox) .start
      [.record 1 0 sampleDelivery 0, .commit 1, .claim 1 0 0, .commit 1,
        .handle 1, .tick 61, .sweep 3 61, .readmitting 3, .readmitStale 3 0,
        .commit 3, .claim 2 0 61, .commit 2, .handle 2] = some state ∧
      state.events.rows.committed 0 = some event ∧
      event.status = .processing ∧
      claims (state.events.history 0) = [1, 2] ∧
      exec (InboxDb.step sampleInbox) state
        [.raised 1, .fail 1 0 "TimeoutError: ", .commit 1] = some failed ∧
      failed.events.rows.committed 0 = some closed ∧
      closed.status = .failed ∧
      exec (InboxDb.step sampleInbox) state [.mark 1 61, .commit 1] = some succeeded ∧
      succeeded.effects 0 = [1] :=
  ⟨_, _, _, _, _, rfl, rfl, rfl, rfl, rfl, rfl, rfl, rfl, rfl⟩

end Inbox

end TempestSdk
