import TempestSdk.Library.Runs

/-!
# Graceful shutdown

The requests that `GracefulShutdownMiddleware` counts.  `call_next` returns
when the response starts, so a request leaves the counter while the chunks of
its body are still to be sent.  What stands between two awaits is one step.
-/

namespace TempestSdk.Graceful

inductive Request where
  /-- Answered with `503`. -/
  | refused
  /-- `call_next` has not returned. -/
  | handling
  /-- The response has started; the number of chunks still to be sent. -/
  | sending (chunks : Nat)
  /-- `call_next` raised. -/
  | failed
deriving DecidableEq

def Request.unsent : Request → Bool
  | .handling => true
  | .sending chunks => decide (0 < chunks)
  | .refused | .failed => false

/-- A call of `wait_drained`. -/
inductive Waiter where
  /-- In `self._idle.wait()`. -/
  | parked
  | woken
  | returned (drained : Bool)
deriving DecidableEq

def Waiter.notify : Waiter → Waiter
  | .parked => .woken
  | waiter => waiter

structure GracefulShutdownMiddleware where
  in_flight : Int
  draining : Bool
  /-- `_idle.is_set()`. -/
  idle : Bool
  requests : List Request
  waiters : List Waiter
  /-- What `wait_drained` returned, each time with the requests at that
  moment. -/
  returns : List (Bool × List Request)
deriving DecidableEq

inductive Action where
  | dispatch (exempt : Bool)
  /-- `call_next` returns a response whose body has so many chunks. -/
  | respond (request chunks : Nat)
  /-- `call_next` raises. -/
  | raise (request : Nat)
  | chunk (request : Nat)
  | begin_drain
  | wait_drained
  /-- A call of `wait_drained` goes on after the event. -/
  | wake (waiter : Nat)
  /-- A call of `wait_drained` runs into `drain_timeout`. -/
  | timeout (waiter : Nat)
deriving DecidableEq

def Sent (requests : List Request) : Prop :=
  ∀ request ∈ requests, request.unsent = false

instance (requests : List Request) : Decidable (Sent requests) :=
  List.decidableBAll (fun request : Request => request.unsent = false) requests

namespace GracefulShutdownMiddleware

def initial : GracefulShutdownMiddleware where
  in_flight := 0
  draining := false
  idle := true
  requests := []
  waiters := []
  returns := []

def letIn (server : GracefulShutdownMiddleware) : GracefulShutdownMiddleware :=
  { server with
    in_flight := server.in_flight + 1
    idle := false
    requests := server.requests ++ [.handling] }

/-- The `finally` of `dispatch`. -/
def release (server : GracefulShutdownMiddleware) : GracefulShutdownMiddleware :=
  if server.in_flight - 1 = 0 then
    { server with
      in_flight := server.in_flight - 1
      idle := true
      waiters := server.waiters.map Waiter.notify }
  else { server with in_flight := server.in_flight - 1 }

/-- The end of `call_next` of a request. -/
def leave (server : GracefulShutdownMiddleware) (request : Nat)
    (outcome : Request) : Option GracefulShutdownMiddleware :=
  if server.requests[request]? = some .handling then
    some { server with
      requests := server.requests.set request outcome }.release
  else none

def answer (server : GracefulShutdownMiddleware) (drained : Bool) :
    GracefulShutdownMiddleware :=
  { server with returns := server.returns ++ [(drained, server.requests)] }

def step (server : GracefulShutdownMiddleware) : Action → Option GracefulShutdownMiddleware
  | .dispatch exempt =>
    if server.draining = true ∧ exempt = false then
      some { server with requests := server.requests ++ [.refused] }
    else some server.letIn
  | .respond request chunks => server.leave request (.sending chunks)
  | .raise request => server.leave request .failed
  | .chunk request =>
    match server.requests[request]? with
    | some (.sending (chunks + 1)) =>
      some { server with
        requests := server.requests.set request (.sending chunks) }
    | _ => none
  | .begin_drain => some { server with draining := true }
  | .wait_drained =>
    if server.in_flight = 0 ∨ server.idle = true then
      some ({ server with
        waiters := server.waiters ++ [Waiter.returned true] }.answer true)
    else some { server with waiters := server.waiters ++ [.parked] }
  | .wake waiter =>
    if server.waiters[waiter]? = some .woken then
      some ({ server with
        waiters := server.waiters.set waiter (Waiter.returned true) }.answer true)
    else none
  | .timeout waiter =>
    if server.waiters[waiter]? = some .parked ∨ server.waiters[waiter]? = some .woken then
      some ({ server with
        waiters := server.waiters.set waiter (Waiter.returned false) }.answer false)
    else none

/-- Where `wait_drained` finds the counter at zero no body is still being
sent, and no request is admitted between the event and the call that waits
for it. -/
def Quiet (server : GracefulShutdownMiddleware) : Action → Prop
  | .dispatch exempt => .woken ∈ server.waiters → server.draining = true ∧ exempt = false
  | .respond request chunks =>
    server.in_flight = 1 → .parked ∈ server.waiters →
      Sent (server.requests.set request (.sending chunks))
  | .raise request =>
    server.in_flight = 1 → .parked ∈ server.waiters → Sent (server.requests.set request .failed)
  | .wait_drained => server.in_flight = 0 → Sent server.requests
  | _ => True

instance (server : GracefulShutdownMiddleware) :
    (action : Action) → Decidable (server.Quiet action)
  | .dispatch exempt => inferInstanceAs (Decidable (.woken ∈ server.waiters →
      server.draining = true ∧ exempt = false))
  | .respond request chunks => inferInstanceAs (Decidable
      (server.in_flight = 1 → .parked ∈ server.waiters →
        Sent (server.requests.set request (.sending chunks))))
  | .raise request => inferInstanceAs (Decidable
      (server.in_flight = 1 → .parked ∈ server.waiters →
        Sent (server.requests.set request .failed)))
  | .chunk _ => .isTrue trivial
  | .begin_drain => .isTrue trivial
  | .wait_drained => inferInstanceAs (Decidable
      (server.in_flight = 0 → Sent server.requests))
  | .wake _ => .isTrue trivial
  | .timeout _ => .isTrue trivial

def handling (server : GracefulShutdownMiddleware) : Nat :=
  server.requests.count .handling

/-- The counter counts the requests in `call_next`, and the event is set while
there is none. -/
structure Counted (server : GracefulShutdownMiddleware) : Prop where
  counter : server.in_flight = server.handling
  event : server.idle = true ↔ server.in_flight = 0

variable {server next : GracefulShutdownMiddleware}

theorem counted_initial : Counted initial where
  counter := rfl
  event := by decide

variable {outcome : Request}

theorem leave_cases {request : Nat} (left : server.leave request outcome = some next) :
    ∃ inside : request < server.requests.length, server.requests[request] = .handling ∧
      next = { server with
        requests := server.requests.set request outcome }.release := by
  unfold leave at left
  split at left
  · next found =>
      obtain ⟨inside, value⟩ := List.getElem?_eq_some_iff.mp found
      exact ⟨inside, value, (Option.some.inj left).symm⟩
  · cases left

theorem handling_set {request : Nat} (inside : request < server.requests.length)
    (found : server.requests[request] = .handling)
    (ended : outcome ≠ .handling) :
    (server.requests.set request outcome).count .handling + 1 = server.handling := by
  have some_handling : 0 < server.requests.count .handling :=
    List.count_pos_iff.mpr (found ▸ List.getElem_mem inside)
  rw [List.count_set inside, found]
  simp only [beq_self_eq_true, if_true, handling]
  rw [if_neg (by simpa using ended)]
  omega

theorem Counted.release (counted : server.Counted) {request : Nat}
    (inside : request < server.requests.length)
    (found : server.requests[request] = .handling)
    (ended : outcome ≠ .handling) :
    ({ server with
      requests := server.requests.set request outcome } :
        GracefulShutdownMiddleware).release.Counted := by
  have fewer := handling_set inside found ended
  have counter := counted.counter
  unfold GracefulShutdownMiddleware.release
  split
  · next zero =>
      constructor
      · simp only [handling] at fewer counter ⊢
        omega
      · simp [zero]
  · next positive =>
      have busy : server.idle = false := by
        rw [← Bool.not_eq_true, counted.event]
        simp only [handling] at fewer counter
        omega
      constructor
      · simp only [handling] at fewer counter ⊢
        omega
      · simp [positive, busy]

theorem Counted.step (counted : server.Counted) {action : Action}
    (taken : server.step action = some next) : next.Counted := by
  cases action with
  | dispatch exempt =>
    simp only [GracefulShutdownMiddleware.step] at taken
    split at taken
    · cases taken
      exact ⟨by simpa [handling] using counted.counter, counted.event⟩
    · cases taken
      have counter := counted.counter
      constructor
      · simp only [letIn, handling, List.count_append] at counter ⊢
        simp [counter]
      · simp only [letIn, handling] at counter ⊢
        constructor
        · intro absurd
          cases absurd
        · intro zero
          omega
  | respond request chunks =>
    obtain ⟨inside, found, rfl⟩ := leave_cases taken
    exact counted.release inside found nofun
  | raise request =>
    obtain ⟨inside, found, rfl⟩ := leave_cases taken
    exact counted.release inside found nofun
  | chunk request =>
    simp only [GracefulShutdownMiddleware.step] at taken
    split at taken
    · next chunks found =>
        cases taken
        obtain ⟨inside, value⟩ := List.getElem?_eq_some_iff.mp found
        refine ⟨?_, counted.event⟩
        simp only [handling, List.count_set inside, value]
        simpa [handling] using counted.counter
    · cases taken
  | begin_drain =>
    cases taken
    exact ⟨counted.counter, counted.event⟩
  | wait_drained =>
    simp only [GracefulShutdownMiddleware.step] at taken
    split at taken
    · cases taken
      exact ⟨counted.counter, counted.event⟩
    · cases taken
      exact ⟨counted.counter, counted.event⟩
  | wake waiter =>
    simp only [GracefulShutdownMiddleware.step] at taken
    split at taken
    · cases taken
      exact ⟨counted.counter, counted.event⟩
    · cases taken
  | timeout waiter =>
    simp only [GracefulShutdownMiddleware.step] at taken
    split at taken
    · cases taken
      exact ⟨counted.counter, counted.event⟩
    · cases taken

/-- A call that the event has woken finds every body sent, as did the calls
that have returned true. -/
structure Promised (server : GracefulShutdownMiddleware) : Prop where
  woken : .woken ∈ server.waiters → Sent server.requests
  kept : ∀ answer ∈ server.returns, answer.1 = true → Sent answer.2

theorem promised_initial : Promised initial where
  woken := nofun
  kept := nofun

theorem Promised.answer (promised : server.Promised) {drained : Bool} {waiters : List Waiter}
    (fewer : .woken ∈ waiters → .woken ∈ server.waiters)
    (sent : drained = true → Sent server.requests) :
    ({ server with waiters := waiters } :
      GracefulShutdownMiddleware).answer drained |>.Promised where
  woken := fun member => promised.woken (fewer member)
  kept := by
    intro answer member told
    rcases List.mem_append.mp member with earlier | last
    · exact promised.kept answer earlier told
    · obtain rfl := List.mem_singleton.mp last
      exact sent told

theorem Promised.leave (promised : server.Promised) (counted : server.Counted)
    {request : Nat} (inside : request < server.requests.length)
    (found : server.requests[request] = .handling)
    (quiet : server.in_flight = 1 → .parked ∈ server.waiters →
      Sent (server.requests.set request outcome)) :
    ({ server with
      requests := server.requests.set request outcome } :
        GracefulShutdownMiddleware).release.Promised := by
  have none_woken : .woken ∉ server.waiters := by
    intro member
    have sent := promised.woken member _ (List.getElem_mem inside)
    rw [found] at sent
    cases sent
  unfold release
  split
  · next zero =>
      have last : server.in_flight = 1 := by
        have counter := counted.counter
        simp only at zero
        omega
      constructor
      · intro member
        obtain ⟨waiter, present, same⟩ := List.mem_map.mp member
        cases waiter with
        | parked => exact quiet last present
        | woken => exact (none_woken present).elim
        | returned drained => cases same
      · exact promised.kept
  · constructor
    · intro member
      exact (none_woken member).elim
    · exact promised.kept

theorem sent_set {requests : List Request} {request chunks : Nat}
    (inside : request < requests.length)
    (found : requests[request] = .sending (chunks + 1)) : ¬ Sent requests := by
  intro sent
  have done := sent _ (List.getElem_mem inside)
  rw [found] at done
  simp [Request.unsent] at done

theorem mem_set_returned {waiters : List Waiter} {waiter : Nat} {drained : Bool}
    (member : .woken ∈ waiters.set waiter (.returned drained)) :
    .woken ∈ waiters := by
  rcases List.mem_or_eq_of_mem_set member with earlier | same
  · exact earlier
  · cases same

theorem Promised.step (promised : server.Promised) (counted : server.Counted)
    {action : Action} (quiet : server.Quiet action)
    (taken : server.step action = some next) : next.Promised := by
  cases action with
  | dispatch exempt =>
    simp only [GracefulShutdownMiddleware.step] at taken
    split at taken
    · cases taken
      refine ⟨?_, promised.kept⟩
      intro member request inside
      rcases List.mem_append.mp inside with earlier | last
      · exact promised.woken member request earlier
      · obtain rfl := List.mem_singleton.mp last
        rfl
    · next open_ =>
        cases taken
        refine ⟨?_, promised.kept⟩
        intro member
        exact (open_ (quiet member)).elim
  | respond request chunks =>
    obtain ⟨inside, found, rfl⟩ := leave_cases taken
    exact promised.leave counted inside found quiet
  | raise request =>
    obtain ⟨inside, found, rfl⟩ := leave_cases taken
    exact promised.leave counted inside found quiet
  | chunk request =>
    simp only [GracefulShutdownMiddleware.step] at taken
    split at taken
    · next chunks found =>
        cases taken
        obtain ⟨inside, value⟩ := List.getElem?_eq_some_iff.mp found
        refine ⟨?_, promised.kept⟩
        intro member
        exact (sent_set inside value (promised.woken member)).elim
    · cases taken
  | begin_drain =>
    cases taken
    exact ⟨promised.woken, promised.kept⟩
  | wait_drained =>
    simp only [GracefulShutdownMiddleware.step] at taken
    split at taken
    · next zero =>
        cases taken
        have empty : server.in_flight = 0 :=
          zero.elim id counted.event.mp
        apply promised.answer
        · intro member
          simpa using member
        · intro _
          exact quiet empty
    · cases taken
      refine ⟨?_, promised.kept⟩
      intro member
      exact promised.woken (by simpa using member)
  | wake waiter =>
    simp only [GracefulShutdownMiddleware.step] at taken
    split at taken
    · next found =>
        cases taken
        apply promised.answer mem_set_returned
        intro _
        exact promised.woken (List.mem_of_getElem? found)
    · cases taken
  | timeout waiter =>
    simp only [GracefulShutdownMiddleware.step] at taken
    split at taken
    · cases taken
      exact promised.answer mem_set_returned nofun
    · cases taken

theorem run_counted {schedule : List Action} {reached : GracefulShutdownMiddleware}
    (run : Runs.exec step initial schedule = some reached) :
    reached.Counted := by
  apply Runs.exec_invariant _ counted_initial run
  intro server action next counted taken
  exact counted.step taken

/-- One request with a body in two chunks that are sent before the call, and
one that the call waits for. -/
def twoRequests : List Action :=
  [.dispatch false, .respond 0 2, .chunk 0, .chunk 0, .dispatch false,
    .begin_drain, .wait_drained, .respond 1 0, .wake 0]

/-- A call of `wait_drained` that is parked has a request to wait for. -/
def Awaits (server : GracefulShutdownMiddleware) : Prop :=
  .parked ∈ server.waiters → server.idle = false

theorem awaits_initial : Awaits initial := by
  intro parked
  cases parked

theorem Awaits.release {requests : List Request} (awaits : server.Awaits) :
    ({ server with requests } : GracefulShutdownMiddleware).release.Awaits := by
  unfold GracefulShutdownMiddleware.release
  split
  case isTrue =>
    intro parked
    obtain ⟨waiter, _, notified⟩ := List.mem_map.mp parked
    cases waiter <;> cases notified
  case isFalse => exact awaits

theorem Awaits.step (awaits : server.Awaits) {action : Action}
    (taken : server.step action = some next) : next.Awaits := by
  cases action with
  | dispatch exempt =>
    simp only [GracefulShutdownMiddleware.step] at taken
    split at taken
    · cases taken
      exact awaits
    · cases taken
      exact fun _ => rfl
  | respond request chunks | raise request =>
    obtain ⟨_, _, rfl⟩ := leave_cases taken
    exact awaits.release
  | chunk request =>
    simp only [GracefulShutdownMiddleware.step] at taken
    split at taken
    · cases taken
      exact awaits
    · cases taken
  | begin_drain =>
    cases taken
    exact awaits
  | wait_drained =>
    simp only [GracefulShutdownMiddleware.step] at taken
    split at taken
    case isTrue =>
      cases taken
      intro parked
      rcases List.mem_append.mp parked with earlier | own
      · exact awaits earlier
      · cases List.mem_singleton.mp own
    case isFalse busy =>
      cases taken
      exact fun _ => Bool.eq_false_iff.mpr fun idle => busy (.inr idle)
  | wake waiter | timeout waiter =>
    simp only [GracefulShutdownMiddleware.step] at taken
    split at taken
    · cases taken
      intro parked
      rcases List.mem_or_eq_of_mem_set parked with earlier | own
      · exact awaits earlier
      · cases own
    · cases taken

/-- The counter is the number of requests in `call_next`, and no wake-up is
lost: a call of `wait_drained` is parked only while there is one. -/
theorem no_wake_up_lost {schedule : List Action} {reached : GracefulShutdownMiddleware}
    (run : Runs.exec step initial schedule = some reached) :
    reached.in_flight = reached.requests.count .handling ∧
      (.parked ∈ reached.waiters → .handling ∈ reached.requests) := by
  have counted := run_counted run
  refine ⟨counted.counter, ?_⟩
  have awaits : reached.Awaits :=
    Runs.exec_invariant (fun _ _ _ awaits taken => awaits.step taken) awaits_initial run
  intro parked
  have busy : reached.in_flight ≠ 0 := by
    rw [ne_eq, ← counted.event, awaits parked]
    exact Bool.false_ne_true
  rw [counted.counter] at busy
  exact List.count_pos_iff.mp (Nat.pos_of_ne_zero (by exact_mod_cast busy))

theorem no_wake_up_lost_parked :
    ∃ reached, Runs.exec step initial [.dispatch false, .wait_drained] = some reached ∧
      .parked ∈ reached.waiters ∧ .handling ∈ reached.requests := by
  have run : Runs.exec step initial [.dispatch false, .wait_drained] = some _ := rfl
  exact ⟨_, run, .head _, (no_wake_up_lost run).2 (.head _)⟩

end GracefulShutdownMiddleware

end TempestSdk.Graceful
