import TempestSdk.Db.Transaction
import TempestSdk.Library.Runs

/-!
# The lifecycle of a webhook event

A row of the inbox table and the conditional `UPDATE`s of `WebhookInbox`: the
`WHERE` of each on a row and the columns it sets.  An update names the worker
that issued it, which no statement reads.  Times are in microseconds.
-/

namespace TempestSdk

namespace Inbox

open Runs

/-- `WebhookEventStatusEnum`. -/
inductive WebhookEventStatus where
  | received
  | processing
  | processed
  | failed
  deriving DecidableEq

/-- `PROCESSED` and `FAILED`. -/
def WebhookEventStatus.terminal : WebhookEventStatus → Bool
  | .processed => true
  | .failed => true
  | _ => false

def staleWebhookError : String :=
  "The worker stopped responding while processing this event, " ++
    "and the attempt budget is spent."

/-- `error[:_ERROR_MAX_LENGTH]`. -/
def truncated (error : String) : String :=
  String.ofList (error.toList.take 2000)

structure Delivery where
  provider : String
  externalId : String
  eventType : String
  payload : String
  deriving DecidableEq

def Delivery.identity (delivery : Delivery) : String × String :=
  (delivery.provider, delivery.externalId)

structure WebhookEvent where
  delivery : Delivery
  status : WebhookEventStatus
  attempts : Nat
  maxAttempts : Int
  availableAt : Int
  startedAt : Option Int
  processedAt : Option Int
  lastError : Option String

/-- The row `record` inserts. -/
def recorded (delivery : Delivery) (maxAttempts now : Int) : WebhookEvent where
  delivery := delivery
  status := .received
  attempts := 0
  maxAttempts := maxAttempts
  availableAt := now
  startedAt := none
  processedAt := none
  lastError := none

inductive EventUpdate where
  | record (delivery : Delivery) (maxAttempts now : Int)
  | claim (worker : TxId) (now : Int)
  /-- The mark that `process` sets in the transaction of the handler. -/
  | mark (worker : TxId) (now : Int)
  /-- The first statement of `fail`. -/
  | giveUp (worker : TxId) (message : String)
  /-- The second statement of `fail`. -/
  | readmits (worker : TxId) (message : String)
  /-- The third statement of `fail`, which looks at the id alone. -/
  | delay (availableAt : Int)
  /-- The first statement of `reclaim_stale`. -/
  | giveUpStale (cutoff : Int)
  /-- The second statement of `reclaim_stale`. -/
  | readmitStale (cutoff : Int)
  deriving DecidableEq

namespace WebhookEvent

/-- A `PROCESSING` row claimed before the cutoff. -/
def stale (event : WebhookEvent) (cutoff : Int) : Bool :=
  decide (event.status = .processing) &&
    event.startedAt.any fun started => decide (started < cutoff)

def spent (event : WebhookEvent) : Bool :=
  decide (event.maxAttempts ≤ event.attempts)

/-- The `WHERE` of an `UPDATE`. -/
def guard (event : WebhookEvent) : EventUpdate → Bool
  | .record _ _ _ => false
  | .claim _ now => decide (event.status = .received) && decide (event.availableAt ≤ now)
  | .mark _ _ => decide (event.status = .processing)
  | .giveUp _ _ => decide (event.status = .processing) && event.spent
  | .readmits _ _ => decide (event.status = .processing)
  | .delay _ => true
  | .giveUpStale cutoff => event.stale cutoff && event.spent
  | .readmitStale cutoff => event.stale cutoff && !event.spent

/-- The columns an `UPDATE` sets. -/
def values (event : WebhookEvent) : EventUpdate → WebhookEvent
  | .record _ _ _ => event
  | .claim _ now =>
    { event with
      status := .processing
      startedAt := some now
      attempts := event.attempts + 1 }
  | .mark _ now =>
    { event with
      status := .processed, processedAt := some now, lastError := none }
  | .giveUp _ message => { event with status := .failed, lastError := some message }
  | .readmits _ message =>
    { event with
      status := .received, startedAt := none, lastError := some message }
  | .delay availableAt => { event with availableAt }
  | .giveUpStale _ => { event with status := .failed, lastError := some staleWebhookError }
  | .readmitStale _ => { event with status := .received, startedAt := none }

end WebhookEvent

def applyUpdate : Option WebhookEvent → EventUpdate → Option (Option WebhookEvent)
  | none, .record delivery maxAttempts now => some (some (recorded delivery maxAttempts now))
  | none, _ => none
  | some event, update => if event.guard update then some (some (event.values update)) else none

/-- The row is there and `PROCESSED`. -/
def isDone (row : Option WebhookEvent) : Bool :=
  row.any fun event => decide (event.status = .processed)

theorem isDone_iff {row : Option WebhookEvent} : isDone row = true ↔
    ∃ event, row = some event ∧ event.status = .processed := by
  simp [isDone, Option.any_eq_true]

namespace EventUpdate

def claimant : EventUpdate → Option TxId
  | .claim worker _ => some worker
  | _ => none

def isMark : EventUpdate → Bool
  | .mark _ _ => true
  | _ => false

def isDelay : EventUpdate → Bool
  | .delay _ => true
  | _ => false

/-- The statements of `reclaim_stale`. -/
def sweeps : EventUpdate → Bool
  | .giveUpStale _ => true
  | .readmitStale _ => true
  | _ => false

end EventUpdate

def claims (history : List EventUpdate) : List TxId :=
  history.filterMap EventUpdate.claimant

@[simp] theorem claims_cons (update : EventUpdate)
    (history : List EventUpdate) :
    claims (update :: history) = update.claimant.toList ++ claims history := by
  cases claimed : update.claimant <;> simp [claims, claimed]

section Statements

variable {event : WebhookEvent} {before after : Option WebhookEvent}
  {update : EventUpdate}

theorem applyUpdate_some : applyUpdate (some event) update = some after ↔
      event.guard update = true ∧ some (event.values update) = after := by
  simp [applyUpdate]

theorem applyUpdate_none (made : applyUpdate none update = some after) :
    ∃ delivery maxAttempts now, update = .record delivery maxAttempts now ∧
      after = some (recorded delivery maxAttempts now) := by
  cases update <;> simp_all [applyUpdate]

theorem applyUpdate_of_terminal (terminal : event.status.terminal = true)
    (made : applyUpdate (some event) update = some after) :
    update.isDelay = true := by
  obtain ⟨guard, _⟩ := (applyUpdate_some).mp made
  cases update <;> cases status : event.status <;>
    simp_all [WebhookEvent.guard, WebhookEventStatus.terminal,
      WebhookEvent.stale, EventUpdate.isDelay]

theorem applyUpdate_keeps (made : applyUpdate (some event) update = some after) :
    ∃ next, after = some next ∧ next.delivery = event.delivery ∧
      next.maxAttempts = event.maxAttempts := by
  obtain ⟨_, rfl⟩ := (applyUpdate_some).mp made
  refine ⟨_, rfl, ?_⟩
  cases update <;> exact ⟨rfl, rfl⟩

theorem processed_of_applyUpdate {next : WebhookEvent}
    (made : applyUpdate before update = some (some next))
    (open_ : ∀ event, before = some event → event.status ≠ .processed)
    (other : update.isMark = false) : next.status ≠ .processed := by
  cases before with
  | none =>
    obtain ⟨delivery, maxAttempts, now, _, same⟩ := applyUpdate_none made
    cases same
    simp [recorded]
  | some event =>
    obtain ⟨_, same⟩ := (applyUpdate_some).mp made
    cases same
    have kept := open_ event rfl
    cases update <;> simp_all [WebhookEvent.values, EventUpdate.isMark]

end Statements

structure WebhookEvent.Sound (event : WebhookEvent) : Prop where
  budget : (event.attempts : Int) ≤ event.maxAttempts
  waiting : event.status = .received → (event.attempts : Int) < event.maxAttempts

theorem sound_recorded (delivery : Delivery) {maxAttempts : Int} (now : Int)
    (budget : 1 ≤ maxAttempts) :
    (recorded delivery maxAttempts now).Sound where
  budget := by
    simp only [recorded]
    omega
  waiting := by
    simp only [recorded]
    omega

theorem WebhookEvent.Sound.values {event : WebhookEvent}
    {update : EventUpdate} (sound : event.Sound)
    (guard : event.guard update = true)
    (unspent : ∀ worker message, update = .readmits worker message →
      event.spent = false) : (event.values update).Sound := by
  cases update with
  | record delivery maxAttempts now => exact sound
  | claim worker now =>
    simp only [WebhookEvent.guard, Bool.and_eq_true, decide_eq_true_eq] at guard
    have room := sound.waiting guard.1
    refine ⟨?_, by simp [WebhookEvent.values]⟩
    simp only [WebhookEvent.values]
    omega
  | readmits worker message =>
    have room := unspent worker message rfl
    simp only [WebhookEvent.spent, decide_eq_false_iff_not, Int.not_le] at room
    exact ⟨sound.budget, fun _ => room⟩
  | readmitStale cutoff =>
    simp only [WebhookEvent.guard, WebhookEvent.spent, Bool.and_eq_true,
      Bool.not_eq_true', decide_eq_false_iff_not, Int.not_le] at guard
    exact ⟨sound.budget, fun _ => guard.2⟩
  | delay availableAt => exact ⟨sound.budget, sound.waiting⟩
  | _ => exact ⟨sound.budget, by simp [WebhookEvent.values]⟩

section Runs

variable {before after : Option WebhookEvent} {updates : List EventUpdate}

theorem run_of_terminal {event : WebhookEvent} (terminal : event.status.terminal = true)
    (opener : ∀ update ∈ updates.head?, update.isDelay = false)
    (run : exec applyUpdate (some event) updates = some after) :
    updates = [] := by
  cases updates with
  | nil => rfl
  | cons update rest =>
    obtain ⟨next, made, _⟩ := exec_cons.mp run
    have first : update.isDelay = false := opener update rfl
    rw [applyUpdate_of_terminal terminal made] at first
    cases first

theorem run_without_mark {event : WebhookEvent}
    (others : ∀ update ∈ updates, update.isMark = false)
    (open_ : ∀ event, before = some event → event.status ≠ .processed)
    (run : exec applyUpdate before updates = some (some event)) :
    event.status ≠ .processed := by
  induction updates generalizing before with
  | nil =>
    cases run
    exact open_ event rfl
  | cons update rest induction =>
    obtain ⟨next, made, remaining⟩ := exec_cons.mp run
    apply induction (fun other member =>
      others other (List.mem_cons_of_mem _ member)) _ remaining
    rintro event rfl
    exact processed_of_applyUpdate made open_ (others update List.mem_cons_self)

theorem isDone_of_run (opener : ∀ update ∈ updates.head?, update.isDelay = false)
    (others : ∀ update ∈ updates, update.isMark = false)
    (run : exec applyUpdate before updates = some after) :
    isDone after = isDone before := by
  cases was : isDone before with
  | true =>
    obtain ⟨event, rfl, processed⟩ := (isDone_iff).mp was
    have terminal : event.status.terminal = true := by
      rw [processed]
      rfl
    obtain rfl := run_of_terminal terminal opener run
    cases run
    exact was
  | false =>
    by_contra closed
    rw [Bool.not_eq_false] at closed
    obtain ⟨event, rfl, processed⟩ := (isDone_iff).mp closed
    refine run_without_mark others ?_ run processed
    rintro earlier rfl status
    rw [(isDone_iff).mpr ⟨earlier, rfl, status⟩] at was
    cases was

theorem attempts_of_run {event : WebhookEvent}
    (run : exec applyUpdate before updates = some (some event)) :
    event.attempts = before.elim 0 WebhookEvent.attempts + (claims updates).length := by
  induction updates generalizing before with
  | nil =>
    cases run
    rfl
  | cons update rest induction =>
    obtain ⟨next, made, remaining⟩ := exec_cons.mp run
    rw [induction remaining]
    cases before with
    | none =>
      obtain ⟨delivery, maxAttempts, now, rfl, rfl⟩ :=
        applyUpdate_none made
      simp [EventUpdate.claimant, recorded]
    | some event =>
      obtain ⟨_, rfl⟩ := (applyUpdate_some).mp made
      cases update with
      | claim worker now =>
        simp [EventUpdate.claimant, WebhookEvent.values]
        omega
      | _ => simp [EventUpdate.claimant, WebhookEvent.values]

end Runs

end Inbox

end TempestSdk
