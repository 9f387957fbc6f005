import Mathlib.Algebra.Group.Int.Defs
import TempestSdk.Db.WebhookEvents
import TempestSdk.Library.Datetime
import TempestSdk.Library.Traced

/-!
# The webhook inbox

The calls of `WebhookInbox` under READ COMMITTED, any number of them at a
time.  `record`, `claim`, `fail` and `reclaim_stale` are a transaction each;
`process` is a claim, then the transaction of the handler and the mark, and a
`fail` when that one is rolled back.  A schedule interleaves the statements,
commits, rollbacks and crashes of any number of workers.

The inbox keeps, next to the table, which handlers' database effects are
durable: no call reads that.
-/

namespace TempestSdk

namespace Inbox

open Runs ReadCommitted

abbrev EventId := Nat

/-- What a `WebhookInbox` was built with. -/
structure WebhookInbox where
  maxAttempts : Int
  backoffBase : Int
  staleAfter : Option Int
  tries : 1 ≤ maxAttempts
  waits : 0 ≤ backoffBase
  lasts : ∀ after ∈ staleAfter, 0 < after

def WebhookInbox.init (maxAttempts backoffBase : Int)
    (staleAfter : Option Int) : Except String WebhookInbox :=
  if tries : maxAttempts < 1 then .error "max_attempts must be at least 1"
  else if waits : backoffBase < 0 then
    .error "backoff_base_seconds must not be negative"
  else if lasts : staleAfter.any fun after => after ≤ 0 then
    .error "stale_after must be positive"
  else
    .ok
      { maxAttempts, backoffBase, staleAfter
        tries := by omega
        waits := by omega
        lasts := by
          rintro after rfl
          simpa using lasts }

/-- `utcnow() + timedelta(seconds=delay)` with the delay of `fail`. -/
def WebhookInbox.retryAt (inbox : WebhookInbox) (now : Int) (attempts : Nat) : Option Int :=
  PyDatetime.shift now (inbox.backoffBase * 2 ^ (attempts - 1))

inductive Phase where
  | idle
  | recorded (eventId : EventId)
  | claimed (eventId : EventId)
  /-- The claim is committed, and no transaction is open. -/
  | working (eventId : EventId)
  | handling (eventId : EventId)
  | marked (eventId : EventId)
  /-- The first statement of `fail` gave the event up, -/
  | gaveUp (eventId : EventId)
  | passed (eventId : EventId) (message : String)
  | readmitted (eventId : EventId)
  | delayed (eventId : EventId)
  /-- `reclaim_stale` is at its first or second statement. -/
  | sweeping (cutoff : Int) (first : Bool)

/-- The event whose handler wrote through the open session. -/
def Phase.handled : Phase → Option EventId
  | .handling eventId => some eventId
  | .marked eventId => some eventId
  | _ => none

/-- The event that the worker is processing or failing. -/
def Phase.attempt : Phase → Option EventId
  | .working eventId => some eventId
  | .handling eventId => some eventId
  | .marked eventId => some eventId
  | .gaveUp eventId => some eventId
  | .passed eventId _ => some eventId
  | .readmitted eventId => some eventId
  | .delayed eventId => some eventId
  | _ => none

/-- The event whose attempt the open transaction ends. -/
def Phase.ended : Phase → Option EventId
  | .marked eventId => some eventId
  | .gaveUp eventId => some eventId
  | .readmitted eventId => some eventId
  | .delayed eventId => some eventId
  | _ => none

/-- What a worker does next.  `now` is the clock its call has read. -/
inductive InboxAction where
  | tick (elapsed : Nat)
  | record (tx : TxId) (eventId : EventId) (delivery : Delivery) (now : Int)
  | claim (tx : TxId) (eventId : EventId) (now : Int)
  | handle (tx : TxId)
  | mark (tx : TxId) (now : Int)
  /-- The transaction of the handler fails and is rolled back. -/
  | raised (tx : TxId)
  | fail (tx : TxId) (eventId : EventId) (error : String)
  | readmits (tx : TxId)
  | delay (tx : TxId)
  | sweep (tx : TxId) (now : Int)
  | giveUpStale (tx : TxId) (eventId : EventId)
  | readmitting (tx : TxId)
  | readmitStale (tx : TxId) (eventId : EventId)
  | commit (tx : TxId)
  | rollback (tx : TxId)

def InboxAction.worker : InboxAction → Option TxId
  | .tick _ => none
  | .record tx _ _ _ => some tx
  | .claim tx _ _ => some tx
  | .handle tx => some tx
  | .mark tx _ => some tx
  | .raised tx => some tx
  | .fail tx _ _ => some tx
  | .readmits tx => some tx
  | .delay tx => some tx
  | .sweep tx _ => some tx
  | .giveUpStale tx _ => some tx
  | .readmitting tx => some tx
  | .readmitStale tx _ => some tx
  | .commit tx => some tx
  | .rollback tx => some tx

structure InboxDb where
  events : Traced TxId EventId applyUpdate
  clock : Int
  phase : TxId → Phase
  /-- The workers whose handler's database effects are durable. -/
  effects : EventId → List TxId

/-- What `ON CONFLICT DO NOTHING` finds. -/
inductive Conflict where
  | clear
  | duplicate
  /-- Another transaction has inserted the same event and is still open. -/
  | waiting
  deriving DecidableEq

namespace InboxDb

def start : InboxDb where
  events := .empty
  clock := 0
  phase := fun _ => .idle
  effects := fun _ => []

def goto (db : InboxDb) (tx : TxId) (phase : Phase) : InboxDb :=
  { db with phase := Function.update db.phase tx phase }

def run (db : InboxDb) (tx : TxId) (eventId : EventId) (update : EventUpdate)
    (next : Bool → Phase) : Option InboxDb :=
  (db.events.statement tx eventId update).map fun (matched, events) =>
    { db with events }.goto tx (next matched)

/-- The unique constraint on `(provider, external_id)`. -/
def conflict (db : InboxDb) (tx : TxId) (delivery : Delivery) : Conflict :=
  let same : WebhookEvent → Bool := fun event =>
    decide (event.delivery.identity = delivery.identity)
  if db.events.rows.keys.any fun key =>
      (db.events.rows.visible tx key).any same then .duplicate
  else if db.events.rows.keys.any fun key =>
      (db.events.rows.pending key).any fun version =>
        version.2.any same then .waiting
  else .clear

def commit (db : InboxDb) (tx : TxId) (phase : Phase) : InboxDb :=
  { db with
    events := db.events.commit tx
    phase := Function.update db.phase tx phase
    effects :=
      match (db.phase tx).handled with
      | some eventId => Function.update db.effects eventId (db.effects eventId ++ [tx])
      | none => db.effects }

def rollback (db : InboxDb) (tx : TxId) (phase : Phase) : InboxDb :=
  { db with
    events := db.events.rollback tx
    phase := Function.update db.phase tx phase }

def step (inbox : TxId → WebhookInbox) (db : InboxDb) : InboxAction → Option InboxDb
  | .tick elapsed => some { db with clock := db.clock + elapsed }
  | .record tx eventId delivery now =>
    match db.phase tx with
    | .idle =>
      if delivery.provider = "" ∨ delivery.externalId = "" then some db
      else if eventId ∈ db.events.rows.keys ∨ db.clock < now then none
      else
        match db.conflict tx delivery with
        | .duplicate => some db
        | .waiting => none
        | .clear =>
          db.run tx eventId (.record delivery (inbox tx).maxAttempts now)
            fun matched => if matched then .recorded eventId else .idle
    | _ => none
  | .claim tx eventId now =>
    match db.phase tx with
    | .idle =>
      if now ≤ db.clock then
        db.run tx eventId (.claim tx now) fun matched =>
          if matched then .claimed eventId else .idle
      else none
    | _ => none
  | .handle tx =>
    match db.phase tx with
    | .working eventId => some (db.goto tx (.handling eventId))
    | _ => none
  | .mark tx now =>
    match db.phase tx with
    | .handling eventId =>
      if now ≤ db.clock then
        match db.events.statement tx eventId (.mark tx now) with
        | some (true, events) => some ({ db with events }.goto tx (.marked eventId))
        -- `_AlreadyFinishedError`
        | some (false, _) => some (db.rollback tx .idle)
        | none => none
      else none
    | _ => none
  | .raised tx =>
    match (db.phase tx).handled with
    | some eventId => some (db.rollback tx (.working eventId))
    | none => none
  | .fail tx eventId error =>
    let first :=
      db.run tx eventId (.giveUp tx (truncated error)) fun matched =>
        if matched then .gaveUp eventId
        else .passed eventId (truncated error)
    match db.phase tx with
    | .idle => first
    | .working claimed => if claimed = eventId then first else none
    | _ => none
  | .readmits tx =>
    match db.phase tx with
    | .passed eventId message =>
      db.run tx eventId (.readmits tx message) fun matched =>
        if matched then .readmitted eventId else .idle
    | _ => none
  | .delay tx =>
    match db.phase tx with
    | .readmitted eventId =>
      match db.events.rows.visible tx eventId with
      | some event =>
        match (inbox tx).retryAt db.clock event.attempts with
        | some availableAt =>
          db.run tx eventId (.delay availableAt) fun _ =>
            .delayed eventId
        | none => some (db.rollback tx .idle)
      | none => none
    | _ => none
  | .sweep tx now =>
    match db.phase tx, (inbox tx).staleAfter with
    | .idle, some staleAfter =>
      if now ≤ db.clock then
        some (db.goto tx (.sweeping (now - staleAfter) true))
      else none
    | _, _ => none
  | .giveUpStale tx eventId =>
    match db.phase tx with
    | .sweeping cutoff true =>
      db.run tx eventId (.giveUpStale cutoff) fun _ =>
        .sweeping cutoff true
    | _ => none
  | .readmitting tx =>
    match db.phase tx with
    | .sweeping cutoff true => some (db.goto tx (.sweeping cutoff false))
    | _ => none
  | .readmitStale tx eventId =>
    match db.phase tx with
    | .sweeping cutoff false =>
      db.run tx eventId (.readmitStale cutoff) fun _ =>
        .sweeping cutoff false
    | _ => none
  | .commit tx =>
    match db.phase tx with
    | .recorded _ => some (db.commit tx .idle)
    | .claimed eventId => some (db.commit tx (.working eventId))
    | .marked _ => some (db.commit tx .idle)
    | .gaveUp _ => some (db.commit tx .idle)
    | .delayed _ => some (db.commit tx .idle)
    | .sweeping _ false => some (db.commit tx .idle)
    | _ => none
  | .rollback tx => some (db.rollback tx .idle)

end InboxDb

open Traced

/-- What the open transaction of a worker wrote in each phase. -/
inductive Fits (tx : TxId) : Phase → (EventId → List EventUpdate) → Prop where
  | idle : Fits tx .idle fun _ => []
  | recorded {eventId : EventId} {delivery : Delivery}
      {maxAttempts now : Int} :
      Fits tx (.recorded eventId) (only eventId [.record delivery maxAttempts now])
  | claimed {eventId : EventId} {now : Int} :
      Fits tx (.claimed eventId) (only eventId [.claim tx now])
  | working {eventId : EventId} : Fits tx (.working eventId) fun _ => []
  | handling {eventId : EventId} : Fits tx (.handling eventId) fun _ => []
  | marked {eventId : EventId} {now : Int} :
      Fits tx (.marked eventId) (only eventId [.mark tx now])
  | gaveUp {eventId : EventId} {message : String} :
      Fits tx (.gaveUp eventId) (only eventId [.giveUp tx message])
  | passed {eventId : EventId} {message : String} :
      Fits tx (.passed eventId message) fun _ => []
  | readmitted {eventId : EventId} {message : String} :
      Fits tx (.readmitted eventId) (only eventId [.readmits tx message])
  | delayed {eventId : EventId} {message : String} {availableAt : Int} :
      Fits tx (.delayed eventId) (only eventId [.readmits tx message, .delay availableAt])
  | sweeping {cutoff : Int} {first : Bool}
      {work : EventId → List EventUpdate}
      (sweeps : ∀ eventId, ∀ update ∈ work eventId, update.sweeps = true) :
      Fits tx (.sweeping cutoff first) work

/-- The statement an action issues, with the phase it leads to. -/
inductive Issues (inbox : TxId → WebhookInbox) (db : InboxDb) :
    InboxAction → TxId → EventId → EventUpdate → Phase → Prop where
  | record {tx : TxId} {eventId : EventId} {delivery : Delivery} {now : Int}
      (idle : db.phase tx = .idle)
      (clear : db.conflict tx delivery = .clear) :
      Issues inbox db (.record tx eventId delivery now) tx eventId
        (.record delivery (inbox tx).maxAttempts now) (.recorded eventId)
  | claim {tx : TxId} {eventId : EventId} {now : Int}
      (idle : db.phase tx = .idle) :
      Issues inbox db (.claim tx eventId now) tx eventId (.claim tx now) (.claimed eventId)
  | mark {tx : TxId} {eventId : EventId} {now : Int}
      (handling : db.phase tx = .handling eventId) :
      Issues inbox db (.mark tx now) tx eventId (.mark tx now) (.marked eventId)
  | giveUp {tx : TxId} {eventId : EventId} {error : String}
      (unopened : db.phase tx = .idle ∨ db.phase tx = .working eventId) :
      Issues inbox db (.fail tx eventId error) tx eventId
        (.giveUp tx (truncated error)) (.gaveUp eventId)
  | readmits {tx : TxId} {eventId : EventId} {message : String}
      (passed : db.phase tx = .passed eventId message) :
      Issues inbox db (.readmits tx) tx eventId (.readmits tx message) (.readmitted eventId)
  | delay {tx : TxId} {eventId : EventId} {availableAt : Int}
      (readmitted : db.phase tx = .readmitted eventId) :
      Issues inbox db (.delay tx) tx eventId (.delay availableAt) (.delayed eventId)
  | giveUpStale {tx : TxId} {eventId : EventId} {cutoff : Int}
      (sweeping : db.phase tx = .sweeping cutoff true) :
      Issues inbox db (.giveUpStale tx eventId) tx eventId
        (.giveUpStale cutoff) (.sweeping cutoff true)
  | readmitStale {tx : TxId} {eventId : EventId} {cutoff : Int}
      (sweeping : db.phase tx = .sweeping cutoff false) :
      Issues inbox db (.readmitStale tx eventId) tx eventId
        (.readmitStale cutoff) (.sweeping cutoff false)

inductive Outcome (inbox : TxId → WebhookInbox) (db : InboxDb) :
    InboxAction → InboxDb → Prop where
  | unchanged {action : InboxAction} : Outcome inbox db action db
  | ticked {elapsed : Nat} :
      Outcome inbox db (.tick elapsed) { db with clock := db.clock + elapsed }
  /-- The worker moves on, after a statement that matched nothing or after
  none. -/
  | moved {action : InboxAction} {tx : TxId} {phase : Phase}
      (fits : ∀ work, Fits tx (db.phase tx) work → Fits tx phase work)
      (unended : phase.ended = none) :
      Outcome inbox db action (db.goto tx phase)
  | wrote {action : InboxAction} {tx : TxId} {eventId : EventId}
      {update : EventUpdate} {phase : Phase} {version : Option WebhookEvent}
      {free made} (issues : Issues inbox db action tx eventId update phase) :
      Outcome inbox db action ({ db with
          events := db.events.write tx eventId update version free made
          }.goto tx phase)
  | rolledBack {action : InboxAction} {tx : TxId} {phase : Phase}
      (own : action.worker = some tx) (closed : Fits tx phase fun _ => []) :
      Outcome inbox db action (db.rollback tx phase)
  | committed {tx : TxId} {phase : Phase}
      (closed : Fits tx phase fun _ => [])
      (marks : ∀ eventId, db.phase tx ≠ .handling eventId) :
      Outcome inbox db (.commit tx) (db.commit tx phase)

section Steps

variable {inbox : TxId → WebhookInbox} {db next : InboxDb}
  {action : InboxAction} {tx : TxId} {eventId : EventId}
  {update : EventUpdate}

theorem outcome_of_run {phase : Bool → Phase}
    (issues : Issues inbox db action tx eventId update (phase true))
    (missed : ∀ work, Fits tx (db.phase tx) work → Fits tx (phase false) work)
    (unended : (phase false).ended = none)
    (ran : db.run tx eventId update phase = some next) :
    Outcome inbox db action next := by
  obtain ⟨⟨matched, events⟩, stated, rfl⟩ := Option.map_eq_some_iff.mp ran
  rcases statement_cases stated with
    ⟨rfl, version, free, made, rfl⟩ | ⟨rfl, rfl, _⟩
  · exact .wrote issues
  · exact .moved missed unended

theorem step_outcome (taken : db.step inbox action = some next) :
    Outcome inbox db action next := by
  cases action with
  | tick elapsed =>
    cases taken
    exact .ticked
  | record tx eventId delivery now =>
    simp only [InboxDb.step] at taken
    split at taken
    · next idle =>
        split at taken
        · cases taken
          exact .unchanged
        · split at taken
          · simp at taken
          · split at taken
            · cases taken
              exact .unchanged
            · simp at taken
            · next clear =>
                apply outcome_of_run _ _ rfl taken
                · exact .record idle clear
                · simp [idle]
    · simp at taken
  | claim tx eventId now =>
    simp only [InboxDb.step] at taken
    split at taken
    · next idle =>
        split at taken
        · apply outcome_of_run _ _ rfl taken
          · exact .claim idle
          · simp [idle]
        · simp at taken
    · simp at taken
  | handle tx =>
    simp only [InboxDb.step] at taken
    split at taken
    · next eventId working =>
        cases taken
        apply Outcome.moved _ rfl
        rw [working]
        intro work fits
        cases fits
        exact .handling
    · simp at taken
  | mark tx now =>
    simp only [InboxDb.step] at taken
    split at taken
    · next eventId handling =>
        split at taken
        · split at taken
          · next events stated =>
              cases taken
              rcases statement_cases stated with
                ⟨_, version, free, made, rfl⟩ | ⟨missed, _, _⟩
              · exact .wrote (.mark handling)
              · cases missed
          · cases taken
            exact .rolledBack rfl .idle
          · simp at taken
        · simp at taken
    · simp at taken
  | raised tx =>
    simp only [InboxDb.step] at taken
    split at taken
    · cases taken
      exact .rolledBack rfl .working
    · simp at taken
  | fail tx eventId error =>
    have first : ∀ (unopened : db.phase tx = .idle ∨ db.phase tx = .working eventId),
        (db.run tx eventId (.giveUp tx (truncated error)) fun matched =>
          if matched then .gaveUp eventId
          else .passed eventId (truncated error)) = some next →
        Outcome inbox db (.fail tx eventId error) next := by
      intro unopened ran
      apply outcome_of_run _ _ rfl ran
      · exact .giveUp unopened
      · intro work fits
        rcases unopened with idle | working
        · rw [idle] at fits
          cases fits
          exact .passed
        · rw [working] at fits
          cases fits
          exact .passed
    simp only [InboxDb.step] at taken
    split at taken
    · next idle => exact first (.inl idle) taken
    · next claimed working =>
        split at taken
        · next same =>
            subst same
            exact first (.inr working) taken
        · simp at taken
    · simp at taken
  | readmits tx =>
    simp only [InboxDb.step] at taken
    split at taken
    · next eventId message passed =>
        apply outcome_of_run _ _ rfl taken
        · exact .readmits passed
        · rw [passed]
          intro work fits
          cases fits
          exact .idle
    · simp at taken
  | delay tx =>
    simp only [InboxDb.step] at taken
    split at taken
    · next eventId readmitted =>
        split at taken
        · next event found =>
            split at taken
            · obtain ⟨⟨matched, events⟩, stated, rfl⟩ :=
                Option.map_eq_some_iff.mp taken
              rcases statement_cases stated with
                ⟨rfl, version, free, made, rfl⟩ | ⟨_, _, missed⟩
              · exact .wrote (.delay readmitted)
              · rw [found] at missed
                simp [applyUpdate, WebhookEvent.guard] at missed
            · cases taken
              exact .rolledBack rfl .idle
        · simp at taken
    · simp at taken
  | sweep tx now =>
    simp only [InboxDb.step] at taken
    split at taken
    · next idle _ =>
        split at taken
        · cases taken
          apply Outcome.moved _ rfl
          rw [idle]
          intro work fits
          cases fits
          exact .sweeping (by simp)
        · simp at taken
    · simp at taken
  | giveUpStale tx eventId =>
    simp only [InboxDb.step] at taken
    split at taken
    · next cutoff sweeping =>
        apply outcome_of_run _ _ rfl taken
        · exact .giveUpStale sweeping
        · simp [sweeping]
    · simp at taken
  | readmitting tx =>
    simp only [InboxDb.step] at taken
    split at taken
    · next cutoff sweeping =>
        cases taken
        apply Outcome.moved _ rfl
        rw [sweeping]
        intro work fits
        cases fits with
        | sweeping sweeps => exact .sweeping sweeps
    · simp at taken
  | readmitStale tx eventId =>
    simp only [InboxDb.step] at taken
    split at taken
    · next cutoff sweeping =>
        apply outcome_of_run _ _ rfl taken
        · exact .readmitStale sweeping
        · simp [sweeping]
    · simp at taken
  | commit tx =>
    simp only [InboxDb.step] at taken
    split at taken
    case h_7 => simp at taken
    all_goals next phase =>
        cases taken
        exact .committed (by constructor) (by simp [phase])
  | rollback tx =>
    cases taken
    exact .rolledBack rfl .idle

end Steps

end Inbox

end TempestSdk
