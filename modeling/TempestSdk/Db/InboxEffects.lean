import TempestSdk.Db.WebhookInbox

/-!
# What a webhook event is done with, and how often

In every run of the inbox the database effects of a handler are durable
exactly for the `PROCESSED` events, once each, and a closed event stays as it
is.  The budget of an event is kept as long as the second statement of `fail`
does not readmit a spent event, which the first one has left alone because
the event was not spent then.
-/

namespace TempestSdk

namespace Inbox

open Runs ReadCommitted Traced

theorem Fits.opener {tx : TxId} {phase : Phase}
    {work : EventId → List EventUpdate} (fits : Fits tx phase work)
    (eventId : EventId) :
    ∀ update ∈ (work eventId).head?, update.isDelay = false := by
  have single : ∀ (key : EventId) (first : EventUpdate)
      (rest : List EventUpdate), first.isDelay = false →
        ∀ update ∈ (only key (first :: rest) eventId).head?, update.isDelay = false := by
    intro key first rest starts update member
    by_cases same : eventId = key
    · subst same
      simp only [only_self, List.head?_cons, Option.mem_some_iff] at member
      rw [← member]
      exact starts
    · simp [only_of_ne _ same] at member
  cases fits with
  | sweeping sweeps =>
    intro update member
    have sweep := sweeps eventId update (List.mem_of_mem_head? member)
    cases update <;> simp_all [EventUpdate.sweeps, EventUpdate.isDelay]
  | idle => simp
  | working => simp
  | handling => simp
  | passed => simp
  | _ => exact single _ _ _ rfl

theorem Fits.marks {tx : TxId} {phase : Phase}
    {work : EventId → List EventUpdate} (fits : Fits tx phase work) :
    (∃ eventId now, phase = .marked eventId ∧ work = only eventId [.mark tx now]) ∨
      ((∀ eventId, phase ≠ .marked eventId) ∧
        ∀ eventId, ∀ update ∈ work eventId, update.isMark = false) := by
  have single : ∀ (key : EventId) (updates : List EventUpdate),
      (∀ update ∈ updates, update.isMark = false) →
        ∀ eventId, ∀ update ∈ only key updates eventId, update.isMark = false := by
    intro key updates others eventId update member
    by_cases same : eventId = key
    · subst same
      rw [only_self] at member
      exact others update member
    · simp [only_of_ne _ same] at member
  cases fits with
  | marked => exact .inl ⟨_, _, rfl, rfl⟩
  | sweeping sweeps =>
    refine .inr ⟨by simp, ?_⟩
    intro eventId update member
    have sweep := sweeps eventId update member
    cases update <;> simp_all [EventUpdate.sweeps, EventUpdate.isMark]
  | idle => exact .inr (by simp)
  | working => exact .inr (by simp)
  | handling => exact .inr (by simp)
  | passed => exact .inr (by simp)
  | _ =>
    refine .inr ⟨by simp, single _ _ ?_⟩
    simp [EventUpdate.isMark]

/-- What holds of an inbox whatever its workers did. -/
structure Sound (db : InboxDb) : Prop where
  fits : ∀ tx, Fits tx (db.phase tx) (db.events.work tx)
  once : ∀ eventId, (db.effects eventId).length =
    if isDone (db.events.rows.committed eventId) then 1 else 0

section Steps

variable {inbox : TxId → WebhookInbox} {db next : InboxDb}
  {action : InboxAction} {tx : TxId} {eventId : EventId}
  {update : EventUpdate}

variable {phase : Phase}

theorem Issues.fits {version : Option WebhookEvent} {free made}
    (issues : Issues inbox db action tx eventId update phase)
    (before : Fits tx (db.phase tx) (db.events.work tx)) :
    Fits tx phase ((db.events.write tx eventId update version free made).work tx) := by
  have first : db.events.work tx = (fun _ => []) →
      (db.events.write tx eventId update version free made).work tx =
        only eventId [update] := by
    intro idle
    exact work_write_only (idle.trans (only_nil eventId).symm)
  have swept : update.sweeps = true →
      (∀ key, ∀ other ∈ db.events.work tx key, other.sweeps = true) →
        ∀ key, ∀ other ∈ (db.events.write tx eventId update version free
          made).work tx key, other.sweeps = true := by
    intro sweep sweeps key other member
    by_cases same : key = eventId
    · subst same
      rw [work_write_self] at member
      rcases List.mem_append.mp member with older | latest
      · exact sweeps key other older
      · rw [List.mem_singleton.mp latest]
        exact sweep
    · rw [work_write_of_key same] at member
      exact sweeps key other member
  generalize worked : db.events.work tx = work at before first swept
  cases issues with
  | record idle clear =>
    rw [idle] at before
    cases before
    rw [first rfl]
    exact .recorded
  | claim idle =>
    rw [idle] at before
    cases before
    rw [first rfl]
    exact .claimed
  | mark handling =>
    rw [handling] at before
    cases before
    rw [first rfl]
    exact .marked
  | giveUp unopened =>
    rcases unopened with idle | working
    · rw [idle] at before
      cases before
      rw [first rfl]
      exact .gaveUp
    · rw [working] at before
      cases before
      rw [first rfl]
      exact .gaveUp
  | readmits passed =>
    rw [passed] at before
    cases before
    rw [first rfl]
    exact .readmitted
  | delay readmitted =>
    rw [readmitted] at before
    cases before
    rw [work_write_only worked]
    exact .delayed
  | giveUpStale sweeping =>
    rw [sweeping] at before
    cases before with
    | sweeping sweeps => exact .sweeping (swept rfl sweeps)
  | readmitStale sweeping =>
    rw [sweeping] at before
    cases before with
    | sweeping sweeps => exact .sweeping (swept rfl sweeps)

theorem Sound.advance (sound : Sound db) {events : Traced TxId EventId applyUpdate}
    (committed : events.rows.committed = db.events.rows.committed)
    (others : ∀ other, other ≠ tx → events.work other = db.events.work other)
    (fits : Fits tx phase (events.work tx)) :
    Sound ({ db with events }.goto tx phase) where
  fits := by
    intro other
    by_cases same : other = tx
    · subst same
      simpa [InboxDb.goto] using fits
    · simp only [InboxDb.goto, Function.update_of_ne same, others other same]
      exact sound.fits other
  once := by
    intro eventId
    simp only [InboxDb.goto, committed]
    exact sound.once eventId

theorem Sound.commit (sound : Sound db) (closed : Fits tx phase fun _ => [])
    (marks : ∀ eventId, db.phase tx ≠ .handling eventId) :
    Sound (db.commit tx phase) where
  fits := by
    intro other
    by_cases same : other = tx
    · subst same
      simpa [InboxDb.commit] using closed
    · simp only [InboxDb.commit, Function.update_of_ne same, work_commit_of_ne same]
      exact sound.fits other
  once := by
    intro eventId
    have before := sound.once eventId
    have run := db.events.exec_work tx eventId
    rcases (sound.fits tx).marks with
      ⟨marked, now, at_, worked⟩ | ⟨unmarked, others⟩
    · simp only [InboxDb.commit, at_, Phase.handled]
      by_cases same : eventId = marked
      · subst same
        rw [worked, only_self] at run
        obtain ⟨version, made, done_⟩ := exec_cons.mp run
        cases done_
        cases found : db.events.rows.committed eventId with
        | none =>
          rw [found] at made
          simp [applyUpdate] at made
        | some event =>
          rw [found] at made before
          obtain ⟨guard, same⟩ := applyUpdate_some.mp made
          simp only [WebhookEvent.guard, decide_eq_true_eq] at guard
          have closed : (db.events.commit tx).rows.committed eventId =
              some (event.values (.mark tx now)) := same.symm
          simp only [isDone, Option.any_some, guard, reduceCtorEq,
            decide_false, Bool.false_eq_true, if_false,
            List.length_eq_zero_iff] at before
          simp [closed, before, isDone, WebhookEvent.values]
      · rw [committed_commit_of_idle (by rw [worked, only_of_ne _ same])]
        simpa [same] using before
    · have kept : (db.commit tx phase).effects = db.effects := by
        simp only [InboxDb.commit]
        cases at_ : db.phase tx with
        | handling eventId => exact absurd at_ (marks eventId)
        | marked eventId => exact absurd at_ (unmarked eventId)
        | _ => rfl
      have open_ : isDone ((db.commit tx phase).events.rows.committed eventId) =
          isDone (db.events.rows.committed eventId) :=
        isDone_of_run ((sound.fits tx).opener eventId) (others eventId) run
      rw [kept, before, open_]

theorem Sound.step (sound : Sound db)
    (taken : db.step inbox action = some next) : Sound next := by
  cases step_outcome taken with
  | unchanged => exact sound
  | ticked => exact ⟨sound.fits, sound.once⟩
  | moved fits unended => exact sound.advance rfl (fun _ _ => rfl) (fits _ (sound.fits _))
  | wrote issues =>
    exact sound.advance rfl (fun _ different => work_write_of_tx different)
      (issues.fits (sound.fits _))
  | @rolledBack _ tx phase own closed =>
    have worked : Fits tx phase ((db.events.rollback tx).work tx) := by
      rw [work_rollback_self]
      exact closed
    exact sound.advance rfl (fun _ different =>
      work_rollback_of_ne different) worked
  | committed closed marks => exact sound.commit closed marks

abbrev Later (db next : InboxDb) : Prop :=
  Grown (fun update => EventUpdate.isDelay update = false) db.events next.events

theorem Sound.later (sound : Sound db)
    (taken : db.step inbox action = some next) : Later db next := by
  cases step_outcome taken with
  | unchanged => exact grown_of_history rfl
  | ticked => exact grown_of_history rfl
  | moved fits unended => exact grown_of_history rfl
  | wrote issues => exact grown_of_history rfl
  | rolledBack own closed => exact grown_of_history rfl
  | committed closed marks => exact grown_commit fun eventId => (sound.fits _).opener eventId

variable {event : WebhookEvent}

theorem closed_of_later (later : Later db next)
    (found : db.events.rows.committed eventId = some event)
    (terminal : event.status.terminal = true) :
    next.events.rows.committed eventId = some event := by
  apply later.closed found
  intro update opens
  cases made : applyUpdate (some event) update with
  | none => rfl
  | some version =>
    rw [applyUpdate_of_terminal terminal made] at opens
    cases opens

/-- The second statement of `fail` does not run on a row that the first one
would give up. -/
def InboxDb.unspent (db : InboxDb) : InboxAction → Bool
  | .readmits tx =>
    match db.phase tx with
    | .passed eventId message =>
      !(db.events.rows.visible tx eventId).any fun event =>
        event.guard (.giveUp tx message)
    | _ => true
  | _ => true

def Lawful (db : InboxDb) : Prop :=
  ∀ eventId event, db.events.rows.HasVersion eventId event → event.Sound

theorem Issues.sound (lawful : Lawful db) (unspent : db.unspent action = true)
    (issues : Issues inbox db action tx eventId update phase)
    (made : applyUpdate (db.events.rows.visible tx eventId) update =
      some (some event)) : event.Sound := by
  cases seen : db.events.rows.visible tx eventId with
  | none =>
    rw [seen] at made
    obtain ⟨delivery, maxAttempts, now, rfl, same⟩ := applyUpdate_none made
    cases same
    cases issues with
    | record idle clear => exact sound_recorded _ _ (inbox tx).tries
  | some earlier =>
    rw [seen] at made
    obtain ⟨guard, same⟩ := applyUpdate_some.mp made
    cases same
    apply (lawful eventId earlier (.of_visible seen)).values guard
    rintro worker message rfl
    cases issues with
    | readmits passed =>
      simp only [WebhookEvent.guard, decide_eq_true_eq] at guard
      simpa [InboxDb.unspent, passed, seen, WebhookEvent.guard, guard] using unspent

theorem Lawful.step (lawful : Lawful db) (unspent : db.unspent action = true)
    (taken : db.step inbox action = some next) : Lawful next := by
  cases step_outcome taken with
  | unchanged => exact lawful
  | ticked => exact lawful
  | moved fits unended => exact lawful
  | @wrote _ _ _ _ _ version free made issues =>
    intro key event found
    rcases versions_write found with older | ⟨rfl, rfl⟩
    · exact lawful key event older
    · exact issues.sound lawful unspent made
  | rolledBack own closed =>
    intro key event found
    exact lawful key event found.of_rollback
  | committed closed marks =>
    intro key event found
    exact lawful key event found.of_commit

def Distinct (db : InboxDb) : Prop :=
  ∀ first second event other, db.events.rows.HasVersion first event →
      db.events.rows.HasVersion second other →
        event.delivery.identity = other.delivery.identity → first = second

theorem Sound.clear (sound : Sound db) {delivery : Delivery}
    (idle : db.phase tx = .idle) (clear : db.conflict tx delivery = .clear)
    (found : db.events.rows.HasVersion eventId event) :
    event.delivery.identity ≠ delivery.identity := by
  have fits := sound.fits tx
  rw [idle] at fits
  have worked : db.events.work tx eventId = [] := by
    generalize db.events.work tx = work at fits
    cases fits
    rfl
  have listed : eventId ∈ db.events.rows.keys := by
    by_contra absent
    obtain ⟨committed, pending⟩ := db.events.rows.covered eventId absent
    rcases found with present | ⟨owner, present⟩
    · simp [committed] at present
    · simp [pending] at present
  intro same
  simp only [InboxDb.conflict] at clear
  split at clear
  · simp at clear
  · next visible =>
      split at clear
      · simp at clear
      · next pending =>
          rcases found with committed | ⟨owner, held⟩
          · apply visible
            rw [List.any_eq_true]
            refine ⟨eventId, listed, ?_⟩
            rw [visible_of_work_nil worked, committed]
            simp [same]
          · apply pending
            rw [List.any_eq_true]
            refine ⟨eventId, listed, ?_⟩
            simp [held, same]

theorem Issues.identity (sound : Sound db)
    (issues : Issues inbox db action tx eventId update phase)
    (made : applyUpdate (db.events.rows.visible tx eventId) update = some (some event)) :
    (∃ earlier, db.events.rows.HasVersion eventId earlier ∧ event.delivery = earlier.delivery) ∨
      ∀ key other, db.events.rows.HasVersion key other →
        other.delivery.identity ≠ event.delivery.identity := by
  cases seen : db.events.rows.visible tx eventId with
  | none =>
    rw [seen] at made
    obtain ⟨delivery, maxAttempts, now, rfl, same⟩ := applyUpdate_none made
    cases same
    cases issues with
    | record idle clear => exact .inr fun key other found => sound.clear idle clear found
  | some earlier =>
    rw [seen] at made
    obtain ⟨next, same, delivery, _⟩ := applyUpdate_keeps made
    cases same
    exact .inl ⟨earlier, .of_visible seen, delivery⟩

theorem Distinct.step (distinct : Distinct db) (sound : Sound db)
    (taken : db.step inbox action = some next) : Distinct next := by
  cases step_outcome taken with
  | unchanged => exact distinct
  | ticked => exact distinct
  | moved fits unended => exact distinct
  | @wrote _ tx eventId update phase version free made issues =>
    intro first second event other foundFirst foundSecond same
    rcases versions_write foundFirst with olderFirst | ⟨rfl, rfl⟩
    · rcases versions_write foundSecond with olderSecond | ⟨rfl, rfl⟩
      · exact distinct first second event other olderFirst olderSecond same
      · rcases issues.identity sound made with
          ⟨earlier, found, kept⟩ | fresh
        · apply distinct first second event earlier olderFirst found
          rw [same, kept]
        · exact absurd same (fresh first event olderFirst)
    · rcases versions_write foundSecond with olderSecond | ⟨rfl, _⟩
      · rcases issues.identity sound made with
          ⟨earlier, found, kept⟩ | fresh
        · apply distinct first second earlier other found olderSecond
          rw [← same, kept]
        · exact absurd same.symm (fresh second other olderSecond)
      · rfl
  | rolledBack own closed =>
    intro first second event other foundFirst foundSecond same
    exact distinct first second event other foundFirst.of_rollback foundSecond.of_rollback same
  | committed closed marks =>
    intro first second event other foundFirst foundSecond same
    exact distinct first second event other foundFirst.of_commit foundSecond.of_commit same

end Steps

theorem sound_start : Sound .start where
  fits := fun _ => .idle
  once := by simp [InboxDb.start, Traced.empty, Rows.empty, Rows.settled,
    isDone]

theorem lawful_start : Lawful .start := by
  simp [Lawful, InboxDb.start, Traced.empty, Rows.HasVersion, Rows.empty, Rows.settled]

theorem distinct_start : Distinct .start := by
  simp [Distinct, InboxDb.start, Traced.empty, Rows.HasVersion, Rows.empty, Rows.settled]

section Whole

variable {inbox : TxId → WebhookInbox} {db next : InboxDb}
  {schedule : List InboxAction}

theorem Sound.run (sound : Sound db) (run : exec (InboxDb.step inbox) db schedule = some next) :
    Sound next ∧ Later db next := by
  apply exec_invariant _ ⟨sound, grown_of_history rfl⟩ run
  intro middle action later kept taken
  obtain ⟨sound, grown⟩ := kept
  exact ⟨sound.step taken, grown.trans (sound.later taken)⟩

theorem Distinct.run (distinct : Distinct db) (sound : Sound db)
    (run : exec (InboxDb.step inbox) db schedule = some next) :
    Distinct next := by
  have both : Distinct next ∧ Sound next := by
    apply exec_invariant _ ⟨distinct, sound⟩ run
    intro middle action later kept taken
    exact ⟨kept.1.step kept.2 taken, kept.2.step taken⟩
  exact both.1

theorem Lawful.run (lawful : Lawful db) (meets : Meets (InboxDb.step inbox)
      (fun db action => db.unspent action = true) db schedule)
    (run : exec (InboxDb.step inbox) db schedule = some next) :
    Lawful next :=
  exec_invariant_of_meets (fun _ _ _ lawful unspent taken => lawful.step unspent taken) meets
    lawful run

end Whole

/-- The handler's effects are durable once for a `PROCESSED` event and never
for another; closed events stay as they are; an event of a provider is
recorded once.  In a run whose `fail`s do not readmit a spent event, no event
is claimed more often than its budget allows, and an event that waits has an
attempt left. -/
theorem inbox_exactly_once (inbox : TxId → WebhookInbox)
    (first second : List InboxAction) {state final : InboxDb}
    (before : exec (InboxDb.step inbox) .start first = some state)
    (after : exec (InboxDb.step inbox) state second = some final) :
    (∀ eventId, (final.effects eventId).length ≤ 1 ∧ (final.effects eventId ≠ [] ↔
        ∃ event, final.events.rows.committed eventId = some event ∧
          event.status = .processed)) ∧
    (∀ eventId event, state.events.rows.committed eventId = some event →
      event.status.terminal = true → final.events.rows.committed eventId = some event) ∧
    (∀ one two event other, final.events.rows.committed one = some event →
        final.events.rows.committed two = some other →
          event.delivery.identity = other.delivery.identity → one = two) ∧
    (Meets (InboxDb.step inbox) (fun db action => db.unspent action = true) .start
        (first ++ second) →
      ∀ eventId event, final.events.rows.committed eventId = some event →
        ((claims (final.events.history eventId)).length : Int) ≤ event.maxAttempts ∧
          (event.status = .received → (event.attempts : Int) < event.maxAttempts)) := by
  have whole : exec (InboxDb.step inbox) .start (first ++ second) =
      some final := exec_append.mpr ⟨state, before, after⟩
  obtain ⟨soundState, _⟩ := sound_start.run before
  obtain ⟨sound, grown⟩ := soundState.run after
  refine ⟨?_, ?_, ?_, ?_⟩
  · intro eventId
    have once := sound.once eventId
    rw [← isDone_iff, ← List.length_pos_iff]
    cases closed : isDone (final.events.rows.committed eventId) <;>
      simp [closed] at once <;> simp [once]
  · intro eventId event found terminal
    exact closed_of_later grown found terminal
  · intro one two event other foundOne foundTwo same
    exact (distinct_start.run sound_start whole) one two event other
      (.inl foundOne) (.inl foundTwo) same
  · intro meets eventId event found
    have lawful := lawful_start.run meets whole
    have kept := lawful eventId event (.inl found)
    have past := final.events.past eventId
    rw [found] at past
    have counted := attempts_of_run past
    simp only [Option.elim_none, Nat.zero_add] at counted
    rw [← counted]
    exact ⟨kept.budget, kept.waiting⟩

/-- Two attempts, no backoff, and a minute before a claim is stale. -/
def sampleInbox : TxId → WebhookInbox := fun _ =>
  { maxAttempts := 2, backoffBase := 0, staleAfter := some 60
    tries := by decide, waits := by decide
    lasts := by
      rintro after ⟨rfl⟩
      decide }

def sampleDelivery : Delivery where
  provider := "stripe"
  externalId := "evt_1"
  eventType := "charge.refunded"
  payload := "{}"

def failedAttempt : List InboxAction :=
  [.record 1 0 sampleDelivery 0, .commit 1, .claim 1 0 0, .commit 1,
    .handle 1, .raised 1, .fail 1 0 "TimeoutError: ", .readmits 1, .delay 1,
    .commit 1]

/-- Two workers race for the second attempt, and one of them finishes it. -/
def secondAttempt : List InboxAction :=
  [.record 3 1 sampleDelivery 0, .claim 1 0 0, .commit 1, .claim 2 0 0,
    .handle 1, .mark 1 0, .commit 1]

theorem inbox_exactly_once_retried : ∃ state final,
    exec (InboxDb.step sampleInbox) .start failedAttempt = some state ∧
      exec (InboxDb.step sampleInbox) state secondAttempt = some final ∧
      ∀ eventId event, final.events.rows.committed eventId = some event →
        ((claims (final.events.history eventId)).length : Int) ≤ event.maxAttempts ∧
          (event.status = .received → (event.attempts : Int) < event.maxAttempts) := by
  refine ⟨_, _, rfl, rfl, ?_⟩
  exact (inbox_exactly_once sampleInbox failedAttempt secondAttempt rfl rfl).2.2.2 (by decide)

/-- Between the two statements of a `fail`, the claim is swept and the event
is claimed again: the second statement readmits an event that has used its
budget up, and the event is claimed a third time. -/
theorem readmitted_when_spent : ∃ state event final claimed,
    exec (InboxDb.step sampleInbox) .start
      [.record 1 0 sampleDelivery 0, .commit 1, .claim 1 0 0, .commit 1,
        .handle 1, .raised 1, .tick 61, .fail 1 0 "TimeoutError: ",
        .sweep 3 61, .readmitting 3, .readmitStale 3 0, .commit 3,
        .claim 2 0 61, .commit 2, .readmits 1, .delay 1, .commit 1] =
        some state ∧
      state.events.rows.committed 0 = some event ∧
      event.status = .received ∧ event.attempts = 2 ∧
      event.maxAttempts = 2 ∧
      exec (InboxDb.step sampleInbox) state [.claim 4 0 61, .commit 4] = some final ∧
      final.events.rows.committed 0 = some claimed ∧
      claimed.maxAttempts = 2 ∧
      claims (final.events.history 0) = [1, 2, 4] := by
  refine ⟨_, _, _, _, rfl, rfl, rfl, rfl, rfl, rfl, rfl, rfl, rfl⟩

end Inbox

end TempestSdk
