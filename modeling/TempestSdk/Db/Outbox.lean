import Mathlib.Algebra.Group.Int.Defs
import TempestSdk.Db.Transaction
import TempestSdk.Library.Datetime
import TempestSdk.Library.Traced

/-!
# The transactional outbox

Rows of the outbox table, and any number of `OutboxRelay` workers that drain
them on a database with `SKIP LOCKED`.  A drain is one transaction: it locks a
batch, hands its events to `publish` one by one, and commits what it noted on
them together.  What was handed to `publish` stays handed when the transaction
is lost.  Times are in microseconds.
-/

namespace TempestSdk

namespace Outbox

open Runs ReadCommitted Traced

abbrev EventId := Nat

/-- `OutboxStatusEnum`. -/
inductive OutboxStatus where
  | pending
  | sent
  | failed
  deriving DecidableEq

structure OutboxEvent where
  topic : String
  payload : String
  status : OutboxStatus
  attempts : Nat
  maxAttempts : Int
  availableAt : Int
  sentAt : Option Int
  lastError : Option String

def newEvent (topic payload : String) (maxAttempts now : Int) : OutboxEvent where
  topic := topic
  payload := payload
  status := .pending
  attempts := 0
  maxAttempts := maxAttempts
  availableAt := now
  sentAt := none
  lastError := none

/-- What an `OutboxRelay` was built with. -/
structure OutboxRelay where
  batchSize : Int
  backoffBase : Int
  positive : 0 < batchSize

/-- The check of `OutboxRelay.__init__`. -/
def OutboxRelay.init (batchSize backoffBase : Int) : Except String OutboxRelay :=
  if positive : batchSize ≤ 0 then .error "batch_size must be positive"
  else .ok { batchSize, backoffBase, positive := by omega }

/-- The `WHERE` of `drain_once`. -/
def OutboxEvent.due (event : OutboxEvent) (now : Int) : Bool :=
  decide (event.status = .pending) && decide (event.availableAt ≤ now)

/-- `_mark_failure`; `none` is an `OverflowError`. -/
def markFailure (relay : OutboxRelay) (now : Int) (event : OutboxEvent)
    (error : String) : Option OutboxEvent :=
  let tried :=
    { event with attempts := event.attempts + 1, lastError := some error }
  if tried.maxAttempts ≤ tried.attempts then
    some { tried with status := .failed }
  else
    (PyDatetime.shift now (relay.backoffBase * 2 ^ (tried.attempts - 1))).map fun availableAt =>
      { tried with availableAt }

/-- What a transaction does to one row of the outbox. -/
inductive OutboxUpdate where
  | add (topic payload : String) (maxAttempts now : Int)
  /-- `FOR UPDATE SKIP LOCKED` picks the row. -/
  | pick (now : Int)
  | sent (now : Int)
  | failure (relay : OutboxRelay) (now : Int) (error : String)

def applyUpdate : Option OutboxEvent → OutboxUpdate → Option (Option OutboxEvent)
  | none, .add topic payload maxAttempts now =>
    some (some (newEvent topic payload maxAttempts now))
  | none, _ => none
  | some _, .add _ _ _ _ => none
  | some event, .pick now => if event.due now then some (some event) else none
  | some event, .sent now => some (some { event with status := .sent, sentAt := some now })
  | some event, .failure relay now error => (markFailure relay now event error).map some

/-- A transaction starts on a row by adding or by picking it. -/
def OutboxUpdate.opens : OutboxUpdate → Bool
  | .add _ _ _ _ => true
  | .pick _ => true
  | _ => false

/-- What a drain notes on a row after `publish`. -/
def OutboxUpdate.settles : OutboxUpdate → Bool
  | .sent _ => true
  | .failure _ _ _ => true
  | _ => false

inductive Phase where
  | idle
  | added (eventId : EventId)
  /-- The `SELECT` of `drain_once` is locking its batch. -/
  | selecting (now : Int) (batch : List EventId)
  | publishing (todo : List EventId)

inductive OutboxAction where
  | tick (elapsed : Nat)
  /-- `save_with_outbox` of a new event. -/
  | add (tx : TxId) (eventId : EventId) (topic payload : String)
      (maxAttempts now : Int)
  | drain (tx : TxId) (now : Int)
  | pick (tx : TxId) (eventId : EventId)
  | selected (tx : TxId)
  /-- `publish` returns, or raises this error. -/
  | publish (tx : TxId) (error : Option String)
  | commit (tx : TxId)
  /-- The worker crashes or is cancelled, or the commit fails. -/
  | rollback (tx : TxId)

structure OutboxDb where
  events : Traced TxId EventId applyUpdate
  clock : Int
  phase : TxId → Phase
  /-- How often each event was handed to `publish`. -/
  handed : EventId → Nat
  /-- How often `publish` returned for it. -/
  published : EventId → Nat

namespace OutboxDb

def start : OutboxDb where
  events := .empty
  clock := 0
  phase := fun _ => .idle
  handed := fun _ => 0
  published := fun _ => 0

def goto (db : OutboxDb) (tx : TxId) (phase : Phase) : OutboxDb :=
  { db with phase := Function.update db.phase tx phase }

def run (db : OutboxDb) (tx : TxId) (eventId : EventId)
    (update : OutboxUpdate) (next : Bool → Phase) : Option OutboxDb :=
  (db.events.statement tx eventId update).map fun (matched, events) =>
    { db with events }.goto tx (next matched)

def commit (db : OutboxDb) (tx : TxId) : OutboxDb :=
  { db with events := db.events.commit tx }.goto tx .idle

def rollback (db : OutboxDb) (tx : TxId) : OutboxDb :=
  { db with events := db.events.rollback tx }.goto tx .idle

/-- `publish` was called for the event, and returned or raised. -/
def hand (db : OutboxDb) (eventId : EventId) (error : Option String) : OutboxDb :=
  { db with
    handed := Function.update db.handed eventId (db.handed eventId + 1)
    published :=
      match error with
      | none => Function.update db.published eventId (db.published eventId + 1)
      | some _ => db.published }

def note (relay : OutboxRelay) (db : OutboxDb) : Option String → OutboxUpdate
  | none => .sent db.clock
  | some error => .failure relay db.clock error

def step (relay : TxId → OutboxRelay) (db : OutboxDb) : OutboxAction → Option OutboxDb
  | .tick elapsed => some { db with clock := db.clock + elapsed }
  | .add tx eventId topic payload maxAttempts now =>
    match db.phase tx with
    | .idle =>
      if eventId ∈ db.events.rows.keys ∨ db.clock < now then none
      else
        db.run tx eventId (.add topic payload maxAttempts now)
          fun matched => if matched then .added eventId else .idle
    | _ => none
  | .drain tx now =>
    match db.phase tx with
    | .idle =>
      if now ≤ db.clock then some (db.goto tx (.selecting now []))
      else none
    | _ => none
  | .pick tx eventId =>
    match db.phase tx with
    | .selecting now batch =>
      if eventId ∈ batch ∨ (relay tx).batchSize ≤ batch.length then none
      else
        db.run tx eventId (.pick now) fun matched =>
          .selecting now (if matched then batch ++ [eventId] else batch)
    | _ => none
  | .selected tx =>
    match db.phase tx with
    | .selecting _ batch => some (db.goto tx (.publishing batch))
    | _ => none
  | .publish tx error =>
    match db.phase tx with
    | .publishing (eventId :: todo) =>
      let db := db.hand eventId error
      match db.events.statement tx eventId (db.note (relay tx) error) with
      | some (true, events) => some ({ db with events }.goto tx (.publishing todo))
      | some (false, _) => some (db.rollback tx)
      | none => none
    | _ => none
  | .commit tx =>
    match db.phase tx with
    | .added _ => some (db.commit tx)
    | .publishing [] => some (db.commit tx)
    | _ => none
  | .rollback tx => some (db.rollback tx)

end OutboxDb

end Outbox

end TempestSdk
