import Mathlib.Data.List.Basic

/-!
# The batch scheduler

`BatchScheduler` between the awaits of its worker.  What the worker does at
once, from one await to the next, is one step; whether it still waits for more
items is up to the clock.  A future is known by its number, in the order of the
submits.
-/

namespace TempestSdk.Batching

variable {Item Result Error : Type}

structure Config where
  max_batch : Nat
  /-- `ValueError` otherwise. -/
  positive : 0 < max_batch

structure Entry (Item : Type) where
  item : Item
  future : Nat
deriving DecidableEq

inductive Failure (Error : Type) where
  | handler (error : Error)
  /-- `RuntimeError("handler raised ...")`. -/
  | raised (error : Error)
  /-- `RuntimeError("handler must return a list ...")`. -/
  | unsized
  /-- `RuntimeError("handler returned ... results for ... items")`. -/
  | count (results items : Nat)
deriving DecidableEq

inductive Future (Result Error : Type) where
  | pending
  | result (value : Result)
  | exception (failure : Failure Error)
  | cancelled
deriving DecidableEq

inductive Answer (Result Error : Type) where
  | results (results : List Result)
  | unsized
  | error (error : Error)
  | cancelled
  /-- `KeyboardInterrupt`, `SystemExit`. -/
  | fatal (error : Error)

inductive Worker (Item : Type) where
  | idle
  | created (cancelled : Bool)
  /-- In `wait_for`, with the items it has taken. -/
  | waiting (batch : List (Entry Item)) (cancelled : Bool)
  | handling (batch : List (Entry Item))

structure Scheduler (Item Result Error : Type) where
  queue : List (Entry Item)
  futures : List (Future Result Error)
  submitted : List Item
  worker : Worker Item
  /-- `task.cancelling()` of the worker. -/
  cancelling : Bool
  closed : Bool
  /-- The batches the handler was called with, oldest first. -/
  handed : List (List (Entry Item))
  answered : List (List (Entry Item) × List Result)

def Future.set (outcome : Future Result Error) : Future Result Error → Future Result Error
  | .pending => outcome
  | done => done

def settle (futures : List (Future Result Error)) (number : Nat)
    (outcome : Future Result Error) : List (Future Result Error) :=
  futures.modify number outcome.set

def settleAll (futures : List (Future Result Error)) :
    List (Nat × Future Result Error) → List (Future Result Error)
  | [] => futures
  | (number, outcome) :: rest => settleAll (settle futures number outcome) rest

/-- `_fail_all` and `_cancel_all`. -/
def allTo (entries : List (Entry Item)) (outcome : Future Result Error) :
    List (Nat × Future Result Error) :=
  entries.map fun entry => (entry.future, outcome)

def inPosition (entries : List (Entry Item)) (results : List Result) :
    List (Nat × Future Result Error) :=
  (entries.zip results).map fun pair => (pair.1.future, .result pair.2)

namespace Scheduler

def initial : Scheduler Item Result Error where
  queue := []
  futures := []
  submitted := []
  worker := .idle
  cancelling := false
  closed := false
  handed := []
  answered := []

/-- The worker goes away for good: `_abandon_queue`. -/
def abandon (scheduler : Scheduler Item Result Error) : Scheduler Item Result Error :=
  { scheduler with
    queue := []
    futures := settleAll scheduler.futures (allTo scheduler.queue .cancelled)
    worker := .idle }

def hand (scheduler : Scheduler Item Result Error) (batch : List (Entry Item)) :
    Scheduler Item Result Error :=
  { scheduler with
    worker := .handling batch, handed := scheduler.handed ++ [batch] }

/-- The batch takes what is queued, up to its size; it then waits for more or
is dispatched. -/
def form (scheduler : Scheduler Item Result Error) (config : Config)
    (waits : Bool) (batch : List (Entry Item)) : Scheduler Item Result Error :=
  let room := config.max_batch - batch.length
  let taken := batch ++ scheduler.queue.take room
  let left := { scheduler with queue := scheduler.queue.drop room }
  if taken.length < config.max_batch ∧ waits then
    { left with worker := .waiting taken false }
  else left.hand taken

/-- The head of the loop of `_run`. -/
def loop (scheduler : Scheduler Item Result Error) (config : Config)
    (waits : Bool) : Scheduler Item Result Error :=
  if scheduler.queue.isEmpty then { scheduler with worker := .idle }
  else scheduler.form config waits []

def settled (scheduler : Scheduler Item Result Error)
    (outcomes : List (Nat × Future Result Error)) :
    Scheduler Item Result Error :=
  { scheduler with futures := settleAll scheduler.futures outcomes }

/-- `_dispatch` after the handler, and the head of the loop. -/
def answer (scheduler : Scheduler Item Result Error) (config : Config)
    (waits : Bool) (batch : List (Entry Item)) :
    Answer Result Error → Scheduler Item Result Error
  | .error error =>
    (scheduler.settled (allTo batch (.exception (.handler error)))).loop config waits
  | .cancelled =>
    let left := scheduler.settled (allTo batch .cancelled)
    if scheduler.cancelling then left.abandon else left.loop config waits
  | .fatal error => (scheduler.settled (allTo batch (.exception (.raised error)))).abandon
  | .unsized => (scheduler.settled (allTo batch (.exception .unsized))).loop config waits
  | .results results =>
    if results.length = batch.length then
      { scheduler.settled (inPosition batch results) with
        answered := scheduler.answered ++ [(batch, results)] }.loop config waits
    else
      (scheduler.settled (allTo batch
        (.exception (.count results.length batch.length)))).loop config waits

def submit (scheduler : Scheduler Item Result Error) (item : Item) :
    Scheduler Item Result Error :=
  let queued := { scheduler with
    queue := scheduler.queue ++ [⟨item, scheduler.futures.length⟩]
    futures := scheduler.futures ++ [.pending]
    submitted := scheduler.submitted ++ [item] }
  match scheduler.worker with
  | .idle => { queued with worker := .created false, cancelling := false }
  | _ => queued

def cancelWorker (scheduler : Scheduler Item Result Error) : Scheduler Item Result Error :=
  match scheduler.worker with
  | .idle => scheduler
  | .created _ => { scheduler with worker := .created true }
  | .waiting batch _ => { scheduler with worker := .waiting batch true }
  | .handling _ => { scheduler with cancelling := true }

end Scheduler

inductive Action (Item Result Error : Type) where
  | submit (item : Item)
  | begin (waits : Bool)
  | arrive (waits : Bool)
  | timeout
  /-- The cancellation reaches the worker where it waits. -/
  | interrupt
  | answer (answer : Answer Result Error) (waits : Bool)
  | cancelWorker
  | cancelCaller (future : Nat)
  | aclose

open Scheduler

def step (config : Config) (scheduler : Scheduler Item Result Error) :
    Action Item Result Error → Option (Scheduler Item Result Error)
  | .submit item => some (if scheduler.closed then scheduler else scheduler.submit item)
  | .begin waits =>
    match scheduler.worker with
    | .created false => some (scheduler.loop config waits)
    | .created true => some { scheduler with worker := .idle }
    | _ => none
  | .arrive waits =>
    match scheduler.worker with
    | .waiting batch false =>
      if scheduler.queue.isEmpty then none
      else some (scheduler.form config waits batch)
    | _ => none
  | .timeout =>
    match scheduler.worker with
    | .waiting batch false => some (scheduler.hand batch)
    | _ => none
  | .interrupt =>
    match scheduler.worker with
    | .waiting batch true => some (scheduler.settled (allTo batch .cancelled)).abandon
    | _ => none
  | .answer answer waits =>
    match scheduler.worker with
    | .handling batch => some (scheduler.answer config waits batch answer)
    | _ => none
  | .cancelWorker => some scheduler.cancelWorker
  | .cancelCaller future => some (scheduler.settled [(future, .cancelled)])
  | .aclose => some { scheduler with closed := true }

end TempestSdk.Batching
