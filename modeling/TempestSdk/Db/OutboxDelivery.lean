import TempestSdk.Db.Outbox

/-!
# The outbox loses nothing

In every run of any number of relays, an event that is `SENT` was published,
an event is `FAILED` when its budget is used up and is not handed to `publish`
from then on, and every other event waits and is picked by the next drain that
finds it due and unlocked.
-/

namespace TempestSdk

namespace Outbox

open Runs ReadCommitted Traced

section Updates

variable {event next : OutboxEvent} {after : Option OutboxEvent}
  {update : OutboxUpdate}

theorem markFailure_cases {relay : OutboxRelay} {now : Int} {error : String}
    (marked : markFailure relay now event error = some next) :
    next.attempts = event.attempts + 1 ∧
      next.maxAttempts = event.maxAttempts ∧ next.topic = event.topic ∧
      next.payload = event.payload ∧
      ((next.status = .failed ∧ event.maxAttempts ≤ (event.attempts + 1 : Nat)) ∨
        (next.status = event.status ∧
          ((event.attempts + 1 : Nat) : Int) < event.maxAttempts)) := by
  simp only [markFailure] at marked
  split at marked
  · next spent =>
      cases marked
      exact ⟨rfl, rfl, rfl, rfl, .inl ⟨rfl, spent⟩⟩
  · next room =>
      obtain ⟨availableAt, _, rfl⟩ := Option.map_eq_some_iff.mp marked
      exact ⟨rfl, rfl, rfl, rfl, .inr ⟨rfl, Int.not_le.mp room⟩⟩

theorem applyUpdate_cases (made : applyUpdate (some event) update = some after) :
    (∃ now, update = .pick now ∧ event.due now = true ∧ after = some event) ∨
      (∃ now, update = .sent now ∧
        after = some { event with status := .sent, sentAt := some now }) ∨
      ∃ relay now error next, update = .failure relay now error ∧
        markFailure relay now event error = some next ∧
        after = some next := by
  cases update with
  | add topic payload maxAttempts now => simp [applyUpdate] at made
  | pick now =>
    simp only [applyUpdate, Option.ite_none_right_eq_some, Option.some.injEq] at made
    exact .inl ⟨now, rfl, made.1, made.2.symm⟩
  | sent now =>
    cases made
    exact .inr (.inl ⟨now, rfl, rfl⟩)
  | failure relay now error =>
    obtain ⟨next, marked, rfl⟩ := Option.map_eq_some_iff.mp made
    exact .inr (.inr ⟨relay, now, error, next, rfl, marked, rfl⟩)

theorem applyUpdate_keeps (made : applyUpdate (some event) update = some after) :
    ∃ next, after = some next ∧ next.topic = event.topic ∧ next.payload = event.payload ∧
      next.maxAttempts = event.maxAttempts := by
  rcases applyUpdate_cases made with
    ⟨now, _, _, rfl⟩ | ⟨now, _, rfl⟩ | ⟨relay, now, error, next, _, marked, rfl⟩
  · exact ⟨event, rfl, rfl, rfl, rfl⟩
  · exact ⟨_, rfl, rfl, rfl, rfl⟩
  · obtain ⟨_, budget, topic, payload, _⟩ := markFailure_cases marked
    exact ⟨next, rfl, topic, payload, budget⟩

theorem applyUpdate_of_settled (settled : event.status ≠ .pending)
    (opens : update.opens = true) :
    applyUpdate (some event) update = none := by
  cases update <;> simp_all [applyUpdate, OutboxUpdate.opens, OutboxEvent.due]

theorem keeps_of_run {updates : List OutboxUpdate}
    (run : exec applyUpdate (some event) updates = some after) :
    ∃ later, after = some later ∧ later.topic = event.topic ∧ later.payload = event.payload ∧
      later.maxAttempts = event.maxAttempts := by
  induction updates generalizing event with
  | nil =>
    cases run
    exact ⟨event, rfl, rfl, rfl, rfl⟩
  | cons update rest induction =>
    obtain ⟨middle, made, remaining⟩ := exec_cons.mp run
    obtain ⟨next, rfl, topic, payload, budget⟩ := applyUpdate_keeps made
    obtain ⟨later, same, topics, payloads, budgets⟩ := induction remaining
    exact ⟨later, same, topics.trans topic, payloads.trans payload, budgets.trans budget⟩

end Updates

/-- What holds of a row whose budget is at least one attempt. -/
structure OutboxEvent.Sound (event : OutboxEvent) : Prop where
  budget : (event.attempts : Int) ≤ event.maxAttempts
  failed : event.status = .failed ↔ event.maxAttempts ≤ (event.attempts : Int)

theorem sound_newEvent (topic payload : String) {maxAttempts : Int}
    (now : Int) (budget : 1 ≤ maxAttempts) :
    (newEvent topic payload maxAttempts now).Sound where
  budget := by
    simp only [newEvent]
    omega
  failed := by
    simp only [newEvent, reduceCtorEq, false_iff]
    omega

theorem OutboxEvent.Sound.settle {event next : OutboxEvent}
    {update : OutboxUpdate} (sound : event.Sound)
    (pending : event.status = .pending)
    (made : applyUpdate (some event) update = some (some next)) :
    next.Sound := by
  have room : ¬event.maxAttempts ≤ (event.attempts : Int) := by
    intro spent
    rw [sound.failed.mpr spent] at pending
    cases pending
  rcases applyUpdate_cases made with
    ⟨now, _, _, same⟩ | ⟨now, _, same⟩ | ⟨relay, now, error, marked, _, ran, same⟩
  · cases same
    exact sound
  · cases same
    exact ⟨sound.budget, by simpa using room⟩
  · cases same
    obtain ⟨tried, budget, _, _, outcome⟩ := markFailure_cases ran
    rcases outcome with ⟨failed, spent⟩ | ⟨kept, left⟩
    · refine ⟨by omega, ?_⟩
      rw [failed, tried, budget]
      simpa using spent
    · refine ⟨by omega, ?_⟩
      rw [kept, pending, tried, budget]
      simpa using left

/-- What the open transaction of a worker wrote in each phase. -/
inductive Fits : Phase → (EventId → List OutboxUpdate) → Prop where
  | idle : Fits .idle fun _ => []
  | added {eventId : EventId} {topic payload : String}
      {maxAttempts now : Int} :
      Fits (.added eventId) (only eventId [.add topic payload maxAttempts now])
  | selecting {now : Int} {batch : List EventId}
      {work : EventId → List OutboxUpdate} (distinct : batch.Nodup)
      (picked : ∀ eventId ∈ batch, work eventId = [.pick now])
      (passed : ∀ eventId, eventId ∉ batch → work eventId = []) :
      Fits (.selecting now batch) work
  | publishing {todo : List EventId} {work : EventId → List OutboxUpdate}
      (distinct : todo.Nodup)
      (picked : ∀ eventId ∈ todo, ∃ now, work eventId = [.pick now])
      (settled : ∀ eventId, eventId ∉ todo → work eventId = [] ∨
        ∃ now update, work eventId = [.pick now, update] ∧ update.settles = true) :
      Fits (.publishing todo) work

theorem Fits.opener {phase : Phase} {work : EventId → List OutboxUpdate}
    (fits : Fits phase work) (eventId : EventId) :
    ∀ update ∈ (work eventId).head?, update.opens = true := by
  cases fits with
  | idle => simp
  | @added key topic payload maxAttempts now =>
    by_cases same : eventId = key
    · subst same
      simp [OutboxUpdate.opens]
    · simp [only_of_ne _ same]
  | @selecting now batch work distinct picked passed =>
    by_cases member : eventId ∈ batch
    · simp [picked eventId member, OutboxUpdate.opens]
    · simp [passed eventId member]
  | @publishing todo work distinct picked settled =>
    by_cases member : eventId ∈ todo
    · obtain ⟨now, worked⟩ := picked eventId member
      simp [worked, OutboxUpdate.opens]
    · rcases settled eventId member with idle | ⟨now, update, worked, _⟩
      · simp [idle]
      · simp [worked, OutboxUpdate.opens]

inductive Outcome (relay : TxId → OutboxRelay) (db : OutboxDb) :
    OutboxAction → OutboxDb → Prop where
  | ticked {elapsed : Nat} :
      Outcome relay db (.tick elapsed) { db with clock := db.clock + elapsed }
  | moved {action : OutboxAction} {tx : TxId} {phase : Phase}
      (fits : ∀ work, Fits (db.phase tx) work → Fits phase work) :
      Outcome relay db action (db.goto tx phase)
  | added {tx : TxId} {eventId : EventId} {topic payload : String}
      {maxAttempts now : Int} {version : Option OutboxEvent} {free made}
      (idle : db.phase tx = .idle) :
      Outcome relay db (.add tx eventId topic payload maxAttempts now) ({ db with
          events := db.events.write tx eventId
            (.add topic payload maxAttempts now) version free made
          }.goto tx (.added eventId))
  | picked {tx : TxId} {eventId : EventId} {now : Int}
      {batch : List EventId} {version : Option OutboxEvent} {free made}
      (selecting : db.phase tx = .selecting now batch)
      (fresh : eventId ∉ batch) :
      Outcome relay db (.pick tx eventId) ({ db with
          events := db.events.write tx eventId (.pick now) version free made
          }.goto tx (.selecting now (batch ++ [eventId])))
  | published {tx : TxId} {eventId : EventId} {todo : List EventId}
      {error : Option String} {version : Option OutboxEvent} {free made}
      (publishing : db.phase tx = .publishing (eventId :: todo)) :
      Outcome relay db (.publish tx error) ({ db.hand eventId error with
          events := db.events.write tx eventId (db.note (relay tx) error)
            version free made }.goto tx (.publishing todo))
  | overflowed {tx : TxId} {eventId : EventId} {todo : List EventId}
      {error : Option String}
      (publishing : db.phase tx = .publishing (eventId :: todo)) :
      Outcome relay db (.publish tx error) ((db.hand eventId error).rollback tx)
  | committed {tx : TxId} : Outcome relay db (.commit tx) (db.commit tx)
  | rolledBack {tx : TxId} : Outcome relay db (.rollback tx) (db.rollback tx)

section Steps

variable {relay : TxId → OutboxRelay} {db next : OutboxDb}
  {action : OutboxAction} {tx : TxId} {eventId : EventId}

theorem step_outcome (taken : db.step relay action = some next) :
    Outcome relay db action next := by
  cases action with
  | tick elapsed =>
    cases taken
    exact .ticked
  | add tx eventId topic payload maxAttempts now =>
    simp only [OutboxDb.step] at taken
    split at taken
    · next idle =>
        split at taken
        · simp at taken
        · obtain ⟨⟨matched, events⟩, stated, rfl⟩ :=
            Option.map_eq_some_iff.mp taken
          rcases statement_cases stated with
            ⟨rfl, version, free, made, rfl⟩ | ⟨rfl, rfl, _⟩
          · exact .added idle
          · exact .moved (by simp [idle])
    · simp at taken
  | drain tx now =>
    simp only [OutboxDb.step] at taken
    split at taken
    · next idle =>
        split at taken
        · cases taken
          apply Outcome.moved
          rw [idle]
          intro work fits
          cases fits
          exact .selecting List.nodup_nil (by simp) (by simp)
        · simp at taken
    · simp at taken
  | pick tx eventId =>
    simp only [OutboxDb.step] at taken
    split at taken
    · next now batch selecting =>
        split at taken
        · simp at taken
        · next room =>
            obtain ⟨⟨matched, events⟩, stated, rfl⟩ :=
              Option.map_eq_some_iff.mp taken
            rcases statement_cases stated with
              ⟨rfl, version, free, made, rfl⟩ | ⟨rfl, rfl, _⟩
            · exact .picked selecting fun member => room (.inl member)
            · exact .moved (by simp [selecting])
    · simp at taken
  | selected tx =>
    simp only [OutboxDb.step] at taken
    split at taken
    · next now batch selecting =>
        cases taken
        apply Outcome.moved
        rw [selecting]
        intro work fits
        cases fits with
        | selecting distinct picked passed =>
          exact .publishing distinct (fun eventId member => ⟨now, picked eventId member⟩)
            (fun eventId absent => .inl (passed eventId absent))
    · simp at taken
  | publish tx error =>
    simp only [OutboxDb.step] at taken
    split at taken
    · next eventId todo publishing =>
        split at taken
        · next events stated =>
            cases taken
            rcases statement_cases stated with
              ⟨_, version, free, made, rfl⟩ | ⟨missed, _, _⟩
            · exact .published publishing
            · cases missed
        · cases taken
          exact .overflowed publishing
        · simp at taken
    · simp at taken
  | commit tx =>
    simp only [OutboxDb.step] at taken
    split at taken
    · cases taken
      exact .committed
    · cases taken
      exact .committed
    · simp at taken
  | rollback tx =>
    cases taken
    exact .rolledBack

/-- What holds of an outbox whatever its workers did. -/
structure Sound (db : OutboxDb) : Prop where
  fits : ∀ tx, Fits (db.phase tx) (db.events.work tx)
  sent : ∀ eventId event, db.events.rows.HasVersion eventId event →
    event.status = .sent → 0 < db.published eventId

theorem Sound.head (sound : Sound db) {todo : List EventId}
    (publishing : db.phase tx = .publishing (eventId :: todo)) :
    ∃ event, db.events.rows.committed eventId = some event ∧ event.status = .pending ∧
      db.events.rows.visible tx eventId = some event := by
  have fits := sound.fits tx
  rw [publishing] at fits
  have run := db.events.exec_work tx eventId
  generalize db.events.work tx = work at fits run
  cases fits with
  | publishing distinct picked settled =>
    obtain ⟨now, worked⟩ := picked eventId List.mem_cons_self
    rw [worked] at run
    obtain ⟨version, made, kept⟩ := exec_cons.mp run
    cases kept
    cases found : db.events.rows.committed eventId with
    | none =>
      rw [found] at made
      simp [applyUpdate] at made
    | some event =>
      rw [found] at made
      simp only [applyUpdate, Option.ite_none_right_eq_some,
        Option.some.injEq, OutboxEvent.due, Bool.and_eq_true,
        decide_eq_true_eq] at made
      exact ⟨event, rfl, made.1.1, made.2.symm⟩

theorem settles_note (relay : OutboxRelay) (error : Option String) :
    (db.note relay error).settles = true := by
  cases error <;> rfl

theorem fits_goto {phase : Phase} {events : Traced TxId EventId applyUpdate}
    {handed published : EventId → Nat}
    (fits : ∀ tx, Fits (db.phase tx) (db.events.work tx))
    (others : ∀ other, other ≠ tx → events.work other = db.events.work other)
    (own : Fits phase (events.work tx)) (other : TxId) :
    Fits ((({ db with events, handed, published } : OutboxDb).goto tx phase).phase other)
      (events.work other) := by
  by_cases same : other = tx
  · subst same
    simpa [OutboxDb.goto] using own
  · simp only [OutboxDb.goto, Function.update_of_ne same, others other same]
    exact fits other

theorem Sound.fits_step (sound : Sound db)
    (taken : db.step relay action = some next) (other : TxId) :
    Fits (next.phase other) (next.events.work other) := by
  cases step_outcome taken with
  | ticked => exact sound.fits other
  | moved fits => exact fits_goto sound.fits (fun _ _ => rfl) (fits _ (sound.fits _)) other
  | @added tx eventId topic payload maxAttempts now version free made idle =>
    apply fits_goto sound.fits fun _ different => work_write_of_tx different
    have before := sound.fits tx
    rw [idle] at before
    generalize worked : db.events.work tx = work at before
    cases before
    rw [work_write_only (worked.trans (only_nil eventId).symm)]
    exact .added
  | @picked tx eventId now batch version free made selecting fresh =>
    apply fits_goto sound.fits fun _ different => work_write_of_tx different
    have before := sound.fits tx
    rw [selecting] at before
    generalize worked : db.events.work tx = work at before
    cases before with
    | selecting distinct picked passed =>
      refine .selecting ?_ ?_ ?_
      · rw [List.nodup_append]
        refine ⟨distinct, by simp, ?_⟩
        intro key member last single
        rw [List.mem_singleton.mp single]
        rintro rfl
        exact fresh member
      · intro key member
        rcases List.mem_append.mp member with older | latest
        · have different : key ≠ eventId := by
            rintro rfl
            exact fresh older
          rw [work_write_of_key different, worked]
          exact picked key older
        · obtain rfl := List.mem_singleton.mp latest
          rw [work_write_self, worked, passed key fresh]
          rfl
      · intro key absent
        simp only [List.mem_append, List.mem_singleton, not_or] at absent
        rw [work_write_of_key absent.2, worked]
        exact passed key absent.1
  | @published tx eventId todo error version free made publishing =>
    apply fits_goto sound.fits fun _ different => work_write_of_tx different
    have before := sound.fits tx
    rw [publishing] at before
    generalize worked : db.events.work tx = work at before
    cases before with
    | publishing distinct picked settled =>
      obtain ⟨fresh, rest⟩ := List.nodup_cons.mp distinct
      refine .publishing rest ?_ ?_
      · intro key member
        have different : key ≠ eventId := by
          rintro rfl
          exact fresh member
        rw [work_write_of_key different, worked]
        exact picked key (List.mem_cons_of_mem _ member)
      · intro key absent
        by_cases same : key = eventId
        · subst same
          obtain ⟨now, first⟩ := picked key List.mem_cons_self
          refine .inr ⟨now, db.note (relay tx) error, ?_, settles_note (relay tx) error⟩
          rw [work_write_self, worked, first]
          rfl
        · rw [work_write_of_key same, worked]
          exact settled key (by simp [same, absent])
  | @overflowed tx eventId todo error publishing =>
    apply fits_goto sound.fits fun _ different =>
      work_rollback_of_ne different
    rw [work_rollback_self]
    exact .idle
  | @committed tx =>
    apply fits_goto sound.fits fun _ different => work_commit_of_ne different
    rw [work_commit_self]
    exact .idle
  | @rolledBack tx =>
    apply fits_goto sound.fits fun _ different =>
      work_rollback_of_ne different
    rw [work_rollback_self]
    exact .idle

theorem published_hand (db : OutboxDb) (eventId key : EventId) (error : Option String) :
    db.published key ≤ (db.hand eventId error).published key := by
  cases error with
  | some error => exact Nat.le_refl _
  | none =>
    by_cases same : key = eventId
    · subst same
      simp [OutboxDb.hand]
    · simp [OutboxDb.hand, same]

theorem Sound.sent_step (sound : Sound db)
    (taken : db.step relay action = some next) (key : EventId)
    (event : OutboxEvent) (found : next.events.rows.HasVersion key event)
    (sent : event.status = .sent) : 0 < next.published key := by
  cases step_outcome taken with
  | ticked => exact sound.sent key event found sent
  | moved fits => exact sound.sent key event found sent
  | @added tx eventId topic payload maxAttempts now version free made idle =>
    rcases versions_write found with older | ⟨rfl, rfl⟩
    · exact sound.sent key event older sent
    · cases seen : db.events.rows.visible tx key with
      | none =>
        rw [seen] at made
        cases made
        cases sent
      | some earlier =>
        rw [seen] at made
        cases made
  | @picked tx eventId now batch version free made selecting fresh =>
    rcases versions_write found with older | ⟨rfl, rfl⟩
    · exact sound.sent key event older sent
    · cases seen : db.events.rows.visible tx key with
      | none =>
        rw [seen] at made
        cases made
      | some earlier =>
        rw [seen] at made
        simp only [applyUpdate, Option.ite_none_right_eq_some, Option.some.injEq] at made
        rw [← made.2] at sent
        exact sound.sent key earlier (.of_visible seen) sent
  | @published tx eventId todo error version free made publishing =>
    rcases versions_write found with older | ⟨rfl, rfl⟩
    · exact Nat.lt_of_lt_of_le (sound.sent key event older sent)
        (published_hand db eventId key error)
    · cases error with
      | none => simp [OutboxDb.hand, OutboxDb.goto]
      | some error =>
        obtain ⟨earlier, _, pending, seen⟩ := sound.head publishing
        change applyUpdate (db.events.rows.visible tx key)
          (.failure (relay tx) db.clock error) = _ at made
        rw [seen] at made
        obtain ⟨later, marked, same⟩ := Option.map_eq_some_iff.mp made
        cases same
        obtain ⟨_, _, _, _, ⟨failed, _⟩ | ⟨kept, _⟩⟩ :=
          markFailure_cases marked
        · rw [failed] at sent
          cases sent
        · rw [kept, pending] at sent
          cases sent
  | @overflowed tx eventId todo error publishing =>
    exact Nat.lt_of_lt_of_le (sound.sent key event found.of_rollback sent)
      (published_hand db eventId key error)
  | committed => exact sound.sent key event found.of_commit sent
  | rolledBack => exact sound.sent key event found.of_rollback sent

theorem Sound.step (sound : Sound db) (taken : db.step relay action = some next) : Sound next :=
  ⟨sound.fits_step taken, sound.sent_step taken⟩

def Lawful (db : OutboxDb) : Prop :=
  ∀ eventId event, db.events.rows.HasVersion eventId event → 1 ≤ event.maxAttempts → event.Sound

theorem Lawful.step (lawful : Lawful db) (sound : Sound db)
    (taken : db.step relay action = some next) : Lawful next := by
  intro key event found budget
  cases step_outcome taken with
  | ticked => exact lawful key event found budget
  | moved fits => exact lawful key event found budget
  | @added tx eventId topic payload maxAttempts now version free made idle =>
    rcases versions_write found with older | ⟨rfl, rfl⟩
    · exact lawful key event older budget
    · cases seen : db.events.rows.visible tx key with
      | none =>
        rw [seen] at made
        cases made
        exact sound_newEvent topic payload now budget
      | some earlier =>
        rw [seen] at made
        cases made
  | @picked tx eventId now batch version free made selecting fresh =>
    rcases versions_write found with older | ⟨rfl, rfl⟩
    · exact lawful key event older budget
    · cases seen : db.events.rows.visible tx key with
      | none =>
        rw [seen] at made
        cases made
      | some earlier =>
        rw [seen] at made
        simp only [applyUpdate, Option.ite_none_right_eq_some, Option.some.injEq] at made
        rw [← made.2] at budget ⊢
        exact lawful key earlier (.of_visible seen) budget
  | @published tx eventId todo error version free made publishing =>
    rcases versions_write found with older | ⟨rfl, rfl⟩
    · exact lawful key event older budget
    · obtain ⟨earlier, _, pending, seen⟩ := sound.head publishing
      have noted : applyUpdate (some earlier) (db.note (relay tx) error) =
          some (some event) := by
        rw [← seen]
        exact made
      obtain ⟨_, same, _, _, kept⟩ := applyUpdate_keeps noted
      cases same
      rw [kept] at budget
      exact (lawful key earlier (.of_visible seen) budget).settle pending noted
  | overflowed publishing => exact lawful key event found.of_rollback budget
  | committed => exact lawful key event found.of_commit budget
  | rolledBack => exact lawful key event found.of_rollback budget

abbrev Later (db next : OutboxDb) : Prop :=
  Grown (fun update => OutboxUpdate.opens update = true) db.events next.events

theorem Sound.later (sound : Sound db)
    (taken : db.step relay action = some next) : Later db next := by
  cases step_outcome taken with
  | committed => exact grown_commit fun eventId => (sound.fits _).opener eventId
  | _ => exact grown_of_history rfl

theorem settled_of_later {event : OutboxEvent} (later : Later db next)
    (found : db.events.rows.committed eventId = some event)
    (settled : event.status ≠ .pending) :
    next.events.rows.committed eventId = some event :=
  later.closed found fun _ opens => applyUpdate_of_settled settled opens

theorem Sound.handed_step (sound : Sound db) {event : OutboxEvent}
    (found : db.events.rows.committed eventId = some event)
    (settled : event.status ≠ .pending)
    (taken : db.step relay action = some next) :
    next.handed eventId = db.handed eventId := by
  have other : ∀ {tx key todo}, db.phase tx = .publishing (key :: todo) → eventId ≠ key := by
    rintro tx key todo publishing rfl
    obtain ⟨earlier, same, pending, _⟩ := sound.head publishing
    rw [found, Option.some.injEq] at same
    rw [same] at settled
    exact settled pending
  cases step_outcome taken with
  | @published tx key todo error version free made publishing =>
    exact Function.update_of_ne (other publishing) _ _
  | @overflowed tx key todo error publishing =>
    exact Function.update_of_ne (other publishing) _ _
  | _ => rfl

end Steps

theorem sound_start : Sound .start where
  fits := fun _ => .idle
  sent := by
    simp [OutboxDb.start, Traced.empty, Rows.HasVersion, Rows.empty, Rows.settled]

theorem lawful_start : Lawful .start := by
  simp [Lawful, OutboxDb.start, Traced.empty, Rows.HasVersion, Rows.empty, Rows.settled]

section Whole

variable {relay : TxId → OutboxRelay} {db next : OutboxDb}
  {schedule : List OutboxAction}

theorem Sound.run (sound : Sound db) (lawful : Lawful db)
    (run : exec (OutboxDb.step relay) db schedule = some next) :
    Sound next ∧ Lawful next ∧ Later db next := by
  apply exec_invariant _ ⟨sound, lawful, grown_of_history rfl⟩ run
  intro middle action later kept taken
  obtain ⟨sound, lawful, grown⟩ := kept
  exact ⟨sound.step taken, lawful.step sound taken, grown.trans (sound.later taken)⟩

theorem Sound.handed_run (sound : Sound db) {eventId : EventId} {event : OutboxEvent}
    (found : db.events.rows.committed eventId = some event)
    (settled : event.status ≠ .pending)
    (run : exec (OutboxDb.step relay) db schedule = some next) :
    next.handed eventId = db.handed eventId := by
  have kept : Sound next ∧ next.events.rows.committed eventId = some event ∧
      next.handed eventId = db.handed eventId := by
    apply exec_invariant _ ⟨sound, found, rfl⟩ run
    intro middle action later kept taken
    obtain ⟨sound, present, same⟩ := kept
    refine ⟨sound.step taken, ?_, ?_⟩
    · exact settled_of_later (sound.later taken) present settled
    · rw [sound.handed_step present settled taken, same]
  exact kept.2.2

theorem Sound.picks (sound : Sound db) {tx : TxId} {eventId : EventId} {event : OutboxEvent}
    (found : db.events.rows.committed eventId = some event)
    (pending : event.status = .pending) (due : event.availableAt ≤ db.clock)
    (idle : db.phase tx = .idle)
    (free : db.events.rows.free tx eventId = true) :
    ∃ picked, exec (OutboxDb.step relay) db
        [.drain tx db.clock, .pick tx eventId] = some picked ∧
      picked.phase tx = .selecting db.clock [eventId] := by
  have worked : db.events.work tx eventId = [] := by
    have fits := sound.fits tx
    rw [idle] at fits
    generalize db.events.work tx = work at fits
    cases fits
    rfl
  have seen : db.events.rows.visible tx eventId = some event := by
    rw [visible_of_work_nil worked, found]
  have room : ¬(relay tx).batchSize ≤ ((([] : List EventId).length : Nat) : Int) := by
    have positive := (relay tx).positive
    simp only [List.length_nil]
    omega
  have made : applyUpdate (db.events.rows.visible tx eventId)
      (.pick db.clock) = some (some event) := by
    rw [seen]
    simp [applyUpdate, OutboxEvent.due, pending, due]
  have stated := statement_of_free free made
  have drained : db.step relay (.drain tx db.clock) =
      some (db.goto tx (.selecting db.clock [])) := by
    simp [OutboxDb.step, idle]
  have picked : (db.goto tx (.selecting db.clock [])).step relay
      (.pick tx eventId) = some ({ db.goto tx (.selecting db.clock []) with
          events := db.events.write tx eventId (.pick db.clock) (some event)
            free made }.goto tx (.selecting db.clock [eventId])) := by
    simp only [OutboxDb.step, OutboxDb.goto, Function.update_self,
      List.not_mem_nil, false_or, if_neg room, OutboxDb.run, stated]
    rfl
  refine ⟨_, exec_cons.mpr ⟨_, drained, exec_cons.mpr ⟨_, picked, rfl⟩⟩, ?_⟩
  simp [OutboxDb.goto]

end Whole

/-- What is `SENT` was published.  With a budget of at least one attempt, the
attempts stay within it, and an event is `FAILED` when they reached it.  A
`FAILED` event stays as it is and is not handed to `publish` from then on;
every event that is neither is `PENDING` and picked when it is due and
unlocked; and no event is lost. -/
theorem outbox_loses_nothing (relay : TxId → OutboxRelay)
    (first second : List OutboxAction) {state final : OutboxDb}
    (before : exec (OutboxDb.step relay) .start first = some state)
    (after : exec (OutboxDb.step relay) state second = some final) :
    (∀ eventId event, final.events.rows.committed eventId = some event →
      (event.status = .sent → 0 < final.published eventId) ∧
      (1 ≤ event.maxAttempts → (event.attempts : Int) ≤ event.maxAttempts ∧
        (event.status = .failed ↔ event.maxAttempts ≤ (event.attempts : Int))) ∧
      (event.status ≠ .sent → event.status ≠ .failed → event.status = .pending ∧
        ∀ tx, event.availableAt ≤ final.clock → final.phase tx = .idle →
          final.events.rows.free tx eventId = true →
          ∃ picked, exec (OutboxDb.step relay) final
              [.drain tx final.clock, .pick tx eventId] = some picked ∧
            picked.phase tx = .selecting final.clock [eventId])) ∧
    ∀ eventId event, state.events.rows.committed eventId = some event →
      (∃ later, final.events.rows.committed eventId = some later ∧
        later.topic = event.topic ∧ later.payload = event.payload ∧
        later.maxAttempts = event.maxAttempts) ∧
      (event.status = .failed → final.events.rows.committed eventId = some event ∧
          final.handed eventId = state.handed eventId) := by
  obtain ⟨soundState, lawfulState, _⟩ := sound_start.run lawful_start before
  obtain ⟨sound, lawful, later⟩ := soundState.run lawfulState after
  constructor
  · intro eventId event found
    refine ⟨sound.sent eventId event (.inl found), ?_, ?_⟩
    · intro budget
      have row := lawful eventId event (.inl found) budget
      exact ⟨row.budget, row.failed⟩
    · intro unsent unfailed
      have pending : event.status = .pending := by
        cases status : event.status with
        | pending => rfl
        | sent => exact absurd status unsent
        | failed => exact absurd status unfailed
      exact ⟨pending, fun tx due idle free =>
        sound.picks found pending due idle free⟩
  · intro eventId event found
    constructor
    · obtain ⟨updates, grown, _⟩ := later eventId
      have run := exec_of_history grown
      rw [found] at run
      exact keeps_of_run run
    · intro failed
      have settled : event.status ≠ .pending := by
        rw [failed]
        decide
      exact ⟨settled_of_later later found settled, soundState.handed_run found settled after⟩

def sampleRelay : TxId → OutboxRelay := fun _ =>
  { batchSize := 10, backoffBase := 0, positive := by decide }

/-- Two events with one attempt and with two; the first drain is lost after a
publish, the second fails both events, and the third sends the one left. -/
def drainedTwice : List OutboxAction :=
  [.add 1 0 "orders" "{}" 1 0, .commit 1, .add 1 1 "orders" "{}" 2 0,
    .commit 1, .drain 2 0, .pick 2 0, .selected 2, .publish 2 none,
    .rollback 2, .drain 2 0, .pick 2 0, .pick 2 1, .selected 2,
    .publish 2 (some "refused"), .publish 2 (some "refused"), .commit 2]

def lastDrain : List OutboxAction :=
  [.drain 3 0, .pick 3 0, .pick 3 1, .selected 3, .publish 3 none, .commit 3]

theorem outbox_loses_nothing_drained : ∃ state final event,
    exec (OutboxDb.step sampleRelay) .start drainedTwice = some state ∧
      exec (OutboxDb.step sampleRelay) state lastDrain = some final ∧
      state.events.rows.committed 0 = some event ∧
      event.status = .failed ∧
      final.handed 0 = state.handed 0 := by
  refine ⟨_, _, _, rfl, rfl, rfl, rfl, ?_⟩
  exact (((outbox_loses_nothing sampleRelay drainedTwice lastDrain rfl rfl).2 0 _ rfl).2 rfl).2

theorem attempts_without_budget : ∃ state waiting final failed,
    exec (OutboxDb.step sampleRelay) .start
        [.add 1 0 "orders" "{}" 0 0, .commit 1] = some state ∧
      state.events.rows.committed 0 = some waiting ∧
      waiting.status = .pending ∧
      waiting.maxAttempts ≤ (waiting.attempts : Int) ∧
      exec (OutboxDb.step sampleRelay) state
        [.drain 2 0, .pick 2 0, .selected 2, .publish 2 (some "refused"),
          .commit 2] = some final ∧
      final.events.rows.committed 0 = some failed ∧
      failed.maxAttempts < (failed.attempts : Int) := by
  refine ⟨_, _, _, _, rfl, rfl, rfl, ?_, rfl, rfl, ?_⟩
  · decide
  · decide

end Outbox

end TempestSdk
