import TempestSdk.Queue.Dedup
import TempestSdk.Queue.RetryChain

/-!
# Deduplication and dead letters together

One message in the retry topology, with both middlewares installed.  The broker
holds copies of the message, hands one to a worker, and takes it back when the
connection is lost or the worker dies; the worker that lost its connection goes
on, and its answer comes too late.  The dead-letter middleware may be outside
the deduplication or inside: what it tells the sink comes before the broker is
answered, before the claim is released or after.
-/

namespace TempestSdk.Queue.Redelivery

open RetryChain (Chain Circulates)

/-- The three exchanges of the topology differ where it matters. -/
structure Config where
  chain : Chain
  backend : Backend
  ttl : Nat
  message : Message
  not_retry : chain.dead_exchange ≠ chain.retry_exchange
  not_main : chain.dead_exchange ≠ chain.main_exchange

/-- A copy in a queue, and the delivery it is handed out to. -/
structure Copy where
  queue : String
  message : Amqp.Message
  since : Nat
  holder : Option Nat
deriving DecidableEq

/-- A delivery in a worker, with the message as it was handed out. -/
structure Worker where
  message : Amqp.Message
  delivery : Delivery
  raised : Bool
  reported : Bool
deriving DecidableEq

structure State where
  store : DedupStore
  copies : List Copy
  workers : Nat → Option Worker
  raises : Nat
  completed : Bool
  acked : Bool
  discarded : Bool
  sink : List DeadLetter

def published (config : Config) : State where
  store := DedupStore.empty
  copies := [⟨config.chain.topology.main.name, ⟨config.chain.routing_key, []⟩, 0, none⟩]
  workers := fun _ => none
  raises := 0
  completed := false
  acked := false
  discarded := false
  sink := []

namespace State

def setWorker (state : State) (id : Nat) (worker : Worker) : State :=
  { state with workers := Function.update state.workers id (some worker) }

def requeue (state : State) (id : Nat) : State :=
  { state with copies := state.copies.map fun copy =>
      if copy.holder = some id then { copy with holder := none } else copy }

def die (state : State) (config : Config) (copy : Copy) (reason : Amqp.Reason) : State :=
  let dead := config.chain.broker.deadLetter copy.queue reason copy.message
  { state with
    copies := state.copies.erase copy ++ dead.map fun (queue, message) =>
      ⟨queue, message, state.store.clock, none⟩
    discarded := state.discarded || dead.isEmpty }

def ack (state : State) (copy : Copy) : State :=
  { state with copies := state.copies.erase copy, acked := true }

end State

inductive Action where
  | deliver (id index : Nat)
  | run (id : Nat) (event : Event)
  /-- The dead-letter middleware sees the exception of the handler. -/
  | report (id : Nat)
  | settle (id : Nat)
  | disconnect (id : Nat)
  | crash (id : Nat)
  | expire (index : Nat)
  | tick

def deliver (config : Config) (state : State) (id index : Nat) (copy : Copy) : State :=
  let (store, delivery) :=
    begin config.backend config.ttl id state.store (messageKey config.message)
  { state with
    store := store
    copies := state.copies.set index { copy with holder := some id }
    workers := Function.update state.workers id (some ⟨copy.message, delivery, false, false⟩) }

def run (state : State) (id : Nat) (worker : Worker) (event : Event)
    (store : DedupStore) (moved : Delivery) : State :=
  { state with
    store := store
    workers := Function.update state.workers id (some { worker with
        delivery := moved
        raised := if event = .fail then true else worker.raised })
    raises := if event = .fail then state.raises + 1 else state.raises
    completed := if event = .succeed then true else state.completed }

def report (config : Config) (state : State) (id : Nat) (worker : Worker) : State :=
  { state.setWorker id { worker with reported := true } with
    sink := state.sink ++ reportFailure config.chain.policy.max_attempts worker.message }

/-- The policy is to reject on an error: what was raised is rejected, and
anything else acknowledged.  An answer on a lost connection does nothing. -/
def settle (config : Config) (state : State) (id : Nat) (outcome : Outcome) : State :=
  match state.copies.find? fun copy => copy.holder = some id with
  | none => state
  | some copy =>
    match outcome with
    | .returned | .skipped => state.ack copy
    | .concurrent | .raised | .crashed => state.die config copy .rejected

def expires (config : Config) (clock : Nat) (copy : Copy) : Bool :=
  match (config.chain.broker.argumentsOf copy.queue).bind
      Amqp.QueueArguments.messageTtl with
  | some ttl => copy.since + ttl ≤ clock
  | none => false

def step (config : Config) (state : State) : Action → Option State
  | .deliver id index =>
    match state.workers id, state.copies[index]? with
    | none, some copy =>
      if copy.queue = config.chain.topology.main.name ∧ copy.holder = none then
        some (deliver config state id index copy)
      else none
    | _, _ => none
  | .run id event =>
    (state.workers id).bind fun worker =>
      (act config.ttl id state.store worker.delivery event).map
        fun (store, moved) => run state id worker event store moved
  | .report id =>
    (state.workers id).bind fun worker =>
      if worker.raised = true ∧ worker.reported = false ∧
          worker.delivery.phase ≠ .ended .crashed then
        some (report config state id worker)
      else none
  | .settle id =>
    (state.workers id).bind fun worker =>
      match worker.delivery.phase with
      | .ended .crashed => none
      | .ended outcome =>
        if worker.raised = true ∧ worker.reported = false then none
        else some (settle config state id outcome)
      | _ => none
  | .disconnect id => some (state.requeue id)
  | .crash id =>
    (state.workers id).map fun worker =>
      (state.requeue id).setWorker id { worker with delivery := worker.delivery.crash }
  | .expire index =>
    state.copies[index]?.bind fun copy =>
      if copy.holder = none ∧ expires config state.store.clock copy then
        some (state.die config copy .expired)
      else none
  | .tick => some { state with store := state.store.tick }

def DeadLettered (config : Config) (state : State) : Prop :=
  state.sink ≠ [] ∨ ∃ copy ∈ state.copies, copy.queue = config.chain.topology.dead.name

/-- A message that was never handled to the end is not acknowledged, and not
given up before the handler raised as often as allowed; and what counts as an
attempt is that the handler raised. -/
structure AtLeastOnce (config : Config) (state : State) : Prop where
  acknowledged : state.acked = true → state.completed = true
  given_up : state.completed = false → state.discarded = true ∨ DeadLettered config state →
    config.chain.policy.max_attempts ≤ state.raises
  budget : ∀ copy ∈ state.copies, deliveryAttempt copy.message ≤ state.raises + 1

def MarkFound (state : State) : Action → Prop
  | .run id .read => ∀ worker key, state.workers id = some worker →
      worker.delivery.phase = .reading → worker.delivery.key = some key →
      state.store.current .redis key ≠ none
  | _ => True

/-- No rejection of a delivery that found another one in progress reaches the
broker. -/
def NotConcurrent (state : State) : Action → Prop
  | .settle id => ∀ worker, state.workers id = some worker →
      worker.delivery.phase = .ended .concurrent →
      ∀ copy ∈ state.copies, copy.holder ≠ some id
  | _ => True

end TempestSdk.Queue.Redelivery
