import Mathlib.Algebra.Order.Ring.Rat
import TempestSdk.Library.Entries
import TempestSdk.Library.Runs

/-!
# The circuit breaker of the HTTP client

Requests to one host, any number at a time.  No block under the client's lock
waits, so a check and the attempt behind it are one step of the event loop, and
so are the end of an attempt and the record of it.  A request is checked once,
before its first attempt.
-/

namespace TempestSdk.HttpClient

structure BreakerState where
  consecutiveFailures : Nat
  openedAt : ℚ
deriving DecidableEq

structure Config where
  failureThreshold : Int
  recoverySeconds : ℚ

def BreakerState.closed : BreakerState := ⟨0, 0⟩

/-- `_breaker_check`; none when it raises `CircuitOpenError`. -/
def breakerCheck (config : Config) (state : BreakerState) (now : ℚ) : Option BreakerState :=
  if config.failureThreshold ≤ 0 then some state
  else if state.openedAt = 0 then some state
  else if now - state.openedAt < config.recoverySeconds then none
  else some { state with openedAt := 0 }

def breakerRecord (config : Config) (state : BreakerState) (now : ℚ)
    (failed : Bool) : BreakerState :=
  if config.failureThreshold ≤ 0 then state
  else if failed then
    let failures := state.consecutiveFailures + 1
    if config.failureThreshold ≤ failures then ⟨failures, now⟩
    else ⟨failures, state.openedAt⟩
  else ⟨0, 0⟩

def isOpen (config : Config) (state : BreakerState) (now : ℚ) : Bool :=
  decide (0 < config.failureThreshold ∧ state.openedAt ≠ 0 ∧
    now - state.openedAt < config.recoverySeconds)

inductive Phase where
  | inFlight
  | sleeping
deriving DecidableEq

structure Request where
  attempt : Nat
  maxAttempts : Nat
  phase : Phase
  probe : Bool
deriving DecidableEq

inductive Outcome where
  | response
  | retryStatus
  | error (retryable : Bool)
deriving DecidableEq

structure Client where
  breaker : BreakerState
  clock : ℚ
  /-- The requests whose outcome has not been recorded. -/
  requests : List Request
  halfOpen : Bool
  /-- Whether the breaker was open, for every attempt that was sent. -/
  sent : List Bool
deriving DecidableEq

inductive Action where
  | start (maxAttempts : Nat)
  | finish (index : Nat) (outcome : Outcome)
  | retry (index : Nat)
  /-- Cancelled, or ended by an exception that is not caught. -/
  | abandon (index : Nat)
  | elapse (duration : ℚ)
deriving DecidableEq

namespace Client

def initial (clock : ℚ) : Client where
  breaker := .closed
  clock := clock
  requests := []
  halfOpen := false
  sent := []

def probing (client : Client) : Bool :=
  client.halfOpen || decide (client.breaker.openedAt ≠ 0)

def probes (client : Client) : Nat := client.requests.countP Request.probe

def send (config : Config) (client : Client) : List Bool :=
  isOpen config client.breaker client.clock :: client.sent

def record (config : Config) (client : Client) (index : Nat) (failed : Bool) : Client :=
  { client with
    breaker := breakerRecord config client.breaker client.clock failed
    requests := client.requests.eraseIdx index
    halfOpen := client.halfOpen && decide (config.failureThreshold ≤ 0) }

def setPhase (client : Client) (index : Nat) (attempts : Nat) (phase : Phase) : Client :=
  { client with
    requests := client.requests.modify index fun request =>
      { request with attempt := request.attempt + attempts, phase := phase } }

end Client

open Client

@[grind =] def step (config : Config) (client : Client) : Action → Option Client
  | .start maxAttempts =>
    match breakerCheck config client.breaker client.clock with
    | none => some client
    | some breaker =>
      let checked := { client with
        breaker := breaker, halfOpen := client.probing }
      if maxAttempts = 0 then some checked
      else
        some { checked with
          requests := client.requests ++ [⟨1, maxAttempts, .inFlight, client.probing⟩]
          sent := client.send config }
  | .finish index outcome =>
    match client.requests[index]? with
    | some ⟨attempt, maxAttempts, .inFlight, _⟩ =>
      match outcome with
      | .response => some (client.record config index false)
      | .retryStatus =>
        if attempt = maxAttempts then
          some (client.record config index true)
        else some (client.setPhase index 0 .sleeping)
      | .error retryable =>
        if attempt = maxAttempts ∨ retryable = false then
          some (client.record config index true)
        else some (client.setPhase index 0 .sleeping)
    | _ => none
  | .retry index =>
    match client.requests[index]? with
    | some ⟨_, _, .sleeping, _⟩ =>
      some { client.setPhase index 1 .inFlight with
        sent := client.send config }
    | _ => none
  | .abandon index =>
    if index < client.requests.length then
      some { client with requests := client.requests.eraseIdx index }
    else none
  | .elapse duration =>
    if 0 ≤ duration then
      some { client with clock := client.clock + duration }
    else none

/-- Nothing was sent while the breaker was open, and one probe at most is in
flight. -/
def Admission (client : Client) : Prop :=
  (∀ sent ∈ client.sent, sent = false) ∧ client.probes ≤ 1

/-- No retry comes due while the breaker is open, and no request comes in
while a probe is in flight. -/
def Gentle (config : Config) (client : Client) : Action → Prop
  | .start maxAttempts => 0 < maxAttempts →
      isOpen config client.breaker client.clock = false →
        client.probing = true → client.probes = 0
  | .retry index => ∀ request ∈ client.requests[index]?,
      request.phase = .sleeping → isOpen config client.breaker client.clock = false
  | _ => True

variable {config : Config} {client next : Client}

theorem breakerCheck_none {state : BreakerState} {now : ℚ} :
    breakerCheck config state now = none ↔ isOpen config state now = true := by
  unfold breakerCheck isOpen
  split
  case isTrue disabled =>
    have not_enabled : ¬ 0 < config.failureThreshold := not_lt.mpr disabled
    simp [not_enabled]
  case isFalse enabled =>
    have enabled : 0 < config.failureThreshold := not_le.mp enabled
    split
    case isTrue closed => simp [closed]
    case isFalse opened =>
      split
      case isTrue waiting => simp [enabled, opened, waiting]
      case isFalse recovered => simp [recovered]

theorem breakerCheck_some {state checked : BreakerState} {now : ℚ}
    (passed : breakerCheck config state now = some checked) :
    isOpen config state now = false := by
  rw [← Bool.not_eq_true, ← breakerCheck_none, passed]
  intro impossible
  cases impossible

namespace Client

theorem probes_eraseIdx_le (client : Client) (index : Nat) :
    (client.requests.eraseIdx index).countP Request.probe ≤ client.probes := by
  apply List.Sublist.countP_le
  exact List.eraseIdx_sublist client.requests index

/-- A request that waits or goes on is the probe that it was. -/
@[simp] theorem probes_setPhase (client : Client) (index attempts : Nat)
    (phase : Phase) : (client.setPhase index attempts phase).probes = client.probes := by
  cases found : client.requests[index]? with
  | none =>
    have outside : client.requests.length ≤ index :=
      List.getElem?_eq_none_iff.mp found
    simp [probes, setPhase, List.modify_eq_self outside]
  | some request =>
    have counted := Entries.countP_modify Request.probe (fun request =>
        { request with attempt := request.attempt + attempts, phase := phase })
      found
    exact Nat.add_right_cancel counted

@[simp] theorem sent_setPhase (client : Client) (index attempts : Nat)
    (phase : Phase) : (client.setPhase index attempts phase).sent = client.sent := rfl

end Client

section

variable (holds : Admission client)

include holds

theorem Admission.mono (same : next.sent = client.sent)
    (fewer : next.probes ≤ client.probes) : Admission next := by
  refine ⟨?_, fewer.trans holds.2⟩
  rw [same]
  exact holds.1

theorem Admission.record (index : Nat)
    (failed : Bool) : Admission (client.record config index failed) := by
  have same : (client.record config index failed).sent = client.sent := rfl
  exact holds.mono same (client.probes_eraseIdx_le index)

theorem Admission.setPhase (index attempts : Nat)
    (phase : Phase) : Admission (client.setPhase index attempts phase) := by
  apply holds.mono (client.sent_setPhase index attempts phase)
  exact (client.probes_setPhase index attempts phase).le

theorem Admission.finish {index : Nat} {outcome : Outcome}
    (taken : step config client (.finish index outcome) = some next) :
    Admission next := by
  simp only [step] at taken
  split at taken
  case h_1 =>
    cases outcome with
    | response =>
      cases taken
      exact holds.record index false
    | retryStatus =>
      dsimp only at taken
      split at taken
      case isTrue last =>
        cases taken
        exact holds.record index true
      case isFalse more =>
        cases taken
        exact holds.setPhase index 0 .sleeping
    | error retryable =>
      dsimp only at taken
      split at taken
      case isTrue last =>
        cases taken
        exact holds.record index true
      case isFalse more =>
        cases taken
        exact holds.setPhase index 0 .sleeping
  case h_2 => cases taken

theorem start_exact {maxAttempts : Nat}
    (taken : step config client (.start maxAttempts) = some next) :
    Gentle config client (.start maxAttempts) ↔ Admission next := by
  simp only [step] at taken
  split at taken
  case h_1 refused =>
    cases taken
    have opened := (breakerCheck_none).mp refused
    apply iff_of_true _ holds
    intro _several closed
    rw [opened] at closed
    cases closed
  case h_2 checked passed =>
    have closed := breakerCheck_some passed
    split at taken
    case isTrue none_made =>
      cases taken
      apply iff_of_true _ (holds.mono rfl le_rfl)
      intro several
      omega
    case isFalse several =>
      cases taken
      have one_more : (client.requests ++
          [Request.mk 1 maxAttempts .inFlight client.probing]).countP Request.probe =
          client.probes + if client.probing then 1 else 0 := by
        rw [List.countP_append, List.countP_singleton]
        rfl
      constructor
      · intro gentle
        refine ⟨?_, ?_⟩
        · intro sent member
          rcases List.mem_cons.mp member with first | earlier
          · exact first.trans closed
          · exact holds.1 sent earlier
        · refine one_more.trans_le ?_
          have alone := gentle (Nat.pos_of_ne_zero several) closed
          split
          case isTrue probing => exact (alone probing).symm ▸ le_rfl
          case isFalse => exact holds.2
      · intro after _several _closed probing
        have bound := one_more.symm.trans_le after.2
        rw [if_pos probing] at bound
        omega

theorem retry_exact {index : Nat} (taken : step config client (.retry index) = some next) :
    Gentle config client (.retry index) ↔ Admission next := by
  simp only [step] at taken
  split at taken
  case h_1 attempt maxAttempts probe found =>
    cases taken
    constructor
    · intro gentle
      refine ⟨?_, (holds.setPhase index 1 .inFlight).2⟩
      intro sent member
      rcases List.mem_cons.mp member with first | earlier
      · exact first.trans (gentle _ found rfl)
      · exact holds.1 sent earlier
    · intro after _request _there _sleeping
      exact after.1 _ List.mem_cons_self
  case h_2 => cases taken

theorem step_exact {action : Action} (taken : step config client action = some next) :
    Gentle config client action ↔ Admission next := by
  cases action with
  | start maxAttempts => exact start_exact holds taken
  | finish index outcome => exact iff_of_true trivial (holds.finish taken)
  | retry index => exact retry_exact holds taken
  | abandon index =>
    simp only [step] at taken
    split at taken
    case isTrue =>
      cases taken
      apply iff_of_true trivial
      exact holds.mono rfl (client.probes_eraseIdx_le index)
    case isFalse => cases taken
  | elapse duration =>
    simp only [step] at taken
    split at taken
    case isTrue =>
      cases taken
      exact iff_of_true trivial (holds.mono rfl le_rfl)
    case isFalse => cases taken

end

theorem gentle_of_disabled {action : Action} (disabled : step config client action = none) :
    Gentle config client action := by
  cases action with
  | start maxAttempts =>
    simp only [step] at disabled
    split at disabled
    case h_1 => cases disabled
    case h_2 =>
      split at disabled
      case isTrue => cases disabled
      case isFalse => cases disabled
  | retry index =>
    intro request found sleeping
    obtain ⟨attempt, maxAttempts, phase, probe⟩ := request
    cases sleeping
    simp only [step, Option.mem_def.mp found] at disabled
    cases disabled
  | finish | abandon | elapse => trivial

theorem admission_initial (clock : ℚ) : Admission (.initial clock) := by
  refine ⟨?_, Nat.zero_le 1⟩
  intro sent member
  cases member

/-- Requests go out as the breaker means them to as long as no retry comes due
while it is open and no request comes in beside a probe. -/
theorem admission_iff (config : Config) (clock : ℚ) (schedule : List Action) :
    Runs.Meets (step config) (Gentle config) (.initial clock) schedule ↔
      ∀ front, front <+: schedule → ∀ reached,
        Runs.exec (step config) (.initial clock) front = some reached →
        Admission reached := by
  apply Runs.meets_iff_reached _ _ (admission_initial clock)
  · intro client action next holds taken
    exact step_exact holds taken
  · intro client action disabled
    exact gentle_of_disabled disabled

def halfMinute : Config := ⟨1, 30⟩

/-- A request sleeps between two attempts while another one trips the breaker,
and its second attempt goes out all the same.  When the breaker has recovered,
every request that comes in is a probe. -/
theorem sent_while_open : (Runs.exec (step halfMinute) (.initial 1)
      [.start 3, .finish 0 .retryStatus, .start 1, .finish 1 (.error false),
        .retry 0]).map Client.sent = some [true, false, false] ∧
    (Runs.exec (step halfMinute) (.initial 1)
      [.start 1, .finish 0 (.error false), .elapse 30, .start 1,
        .start 1]).map Client.probes = some 2 := by
  refine ⟨?_, ?_⟩
  · with_unfolding_all decide
  · with_unfolding_all decide

end TempestSdk.HttpClient
