import TempestSdk.Library.Counter
import TempestSdk.Library.Runs

/-!
# Attempt throttling

`AttemptThrottle` over one key of its backend.  A call is a chain of backend
verbs, one at a time, with the verbs of other calls in between, and a verb may
fail, or its caller be cancelled, before or after the backend has executed it.
-/

namespace TempestSdk.Throttle

open Counter (Entry)

structure AttemptThrottle where
  maxAttempts : Int
  windowSeconds : Int
  failOpen : Bool
  /-- The backend offers `decr`. -/
  decr : Bool
  attempts_allowed : 1 ≤ maxAttempts
  window_positive : 0 < windowSeconds

theorem allowed_of_not_few {maxAttempts : Int}
    (enough : ¬ maxAttempts < 1) : 1 ≤ maxAttempts := Int.not_lt.mp enough

theorem positive_of_not_short {windowSeconds : Int}
    (long : ¬ windowSeconds ≤ 0) : 0 < windowSeconds := Int.not_le.mp long

def AttemptThrottle.init (maxAttempts windowSeconds : Int)
    (failOpen decr : Bool) : Except String AttemptThrottle :=
  if few : maxAttempts < 1 then .error "max_attempts must be >= 1"
  else if short : windowSeconds ≤ 0 then .error "window_seconds must be > 0"
  else
    .ok ⟨maxAttempts, windowSeconds, failOpen, decr, allowed_of_not_few few,
      positive_of_not_short short⟩

structure ThrottleStatus where
  attempts : Int
  blocked : Bool
  retryAfterSeconds : Int
deriving DecidableEq

/-- What `fail_open` answers. -/
def ThrottleStatus.empty : ThrottleStatus := ⟨0, false, 0⟩

def AttemptThrottle.status (throttle : AttemptThrottle) (attempts ttl : Int) : ThrottleStatus :=
  let blocked := decide (throttle.maxAttempts ≤ attempts)
  let retry := if 0 < ttl then ttl else throttle.windowSeconds
  ⟨attempts, blocked, if blocked then retry else 0⟩

inductive Operation where
  | status
  | hit
  | reset
  | reserve
  | release (slot : Nat)
  | raiseIfBlocked
deriving DecidableEq

/-- The verb a call runs next, and the count it has read so far. -/
inductive Phase where
  | getting
  | incrementing
  | expiring (attempts : Int)
  | asking (attempts : Int)
  | decrementing
  | deleting
deriving DecidableEq

inductive Outcome where
  | answered (status : ThrottleStatus)
  /-- `TooManyRequestsException`. -/
  | refused (retryAfterSeconds : Int)
  /-- `reset` and `release` return nothing. -/
  | returned
  | raised
  | cancelled
deriving DecidableEq

inductive Progress where
  | running (phase : Phase)
  | ended (outcome : Outcome)
deriving DecidableEq

structure Call where
  operation : Operation
  progress : Progress
deriving DecidableEq

/-- How a verb ends for its caller.  One that was not answered may have been
executed. -/
inductive Fate where
  | answered
  | failed (executed : Bool)
  | cancelled (executed : Bool)
deriving DecidableEq

def Fate.executed : Fate → Bool
  | .answered => true
  | .failed executed | .cancelled executed => executed

def Fate.isFailed : Fate → Bool
  | .failed _ => true
  | _ => false

namespace AttemptThrottle

variable (throttle : AttemptThrottle)

def start : Operation → Progress
  | .status | .raiseIfBlocked => .running .getting
  | .hit | .reserve => .running .incrementing
  | .reset => .running .deleting
  | .release _ => if throttle.decr then .running .decrementing else .ended .returned

def conclude (status : ThrottleStatus) : Operation → Outcome
  | .reserve =>
    if throttle.maxAttempts < status.attempts then
      .refused status.retryAfterSeconds
    else .answered status
  | .raiseIfBlocked =>
    if status.blocked then .refused status.retryAfterSeconds
    else .answered status
  | .status | .hit => .answered status
  | .reset | .release _ => .returned

/-- `except Exception`. -/
def recover (operation : Operation) : Outcome :=
  if throttle.failOpen then throttle.conclude .empty operation else .raised

/-- The verb of the phase: what the backend keeps, and how the call goes on
when it has the answer. -/
def perform (clock : Int) (stored : Option Entry) (operation : Operation) :
    Phase → Option Entry × Progress
  | .getting =>
    let attempts := (Counter.get clock stored).getD 0
    (stored, if attempts = 0 then
        .ended (throttle.conclude (throttle.status 0 0) operation)
      else .running (.asking attempts))
  | .incrementing =>
    let (attempts, counted) := Counter.incr clock stored
    (counted, if attempts = 1 then .running (.expiring attempts)
      else .running (.asking attempts))
  | .expiring attempts =>
    (Counter.expire clock throttle.windowSeconds stored, .running (.asking attempts))
  | .asking attempts =>
    let ttl := Counter.ttl clock stored
    (stored, .ended (throttle.conclude (throttle.status attempts ttl) operation))
  | .decrementing =>
    let (remaining, counted) := Counter.decr clock stored
    (counted, if remaining ≤ 0 then .running .deleting else .ended .returned)
  | .deleting => (none, .ended .returned)

end AttemptThrottle

structure State where
  clock : Int
  counter : Option Entry
  calls : List Call
  /-- Calls of `reserve` that took a slot or were let past since the last
  reset, and slots given back since then.  The code keeps neither. -/
  reserved : List Nat
  released : List Nat

namespace State

def initial : State where
  clock := 0
  counter := none
  calls := []
  reserved := []
  released := []

def outstanding (state : State) : List Nat :=
  state.reserved.filter fun slot => decide (slot ∉ state.released)

def value (state : State) : Int := Counter.value state.clock state.counter

/-- What the executed verb means for the slots.  `INCR` decides on a
reservation. -/
def book (state : State) (throttle : AttemptThrottle) (id : Nat) : Operation → Phase → State
  | .reserve, .incrementing =>
    if (Counter.incr state.clock state.counter).1 ≤ throttle.maxAttempts then
      { state with reserved := id :: state.reserved }
    else state
  | .release slot, .decrementing => { state with released := slot :: state.released }
  | .reset, .deleting => { state with reserved := [], released := [] }
  | _, _ => state

def execute (state : State) (throttle : AttemptThrottle) (id : Nat)
    (operation : Operation) (phase : Phase) : State :=
  { state.book throttle id operation phase with
    counter :=
      (throttle.perform state.clock state.counter operation phase).1 }

/-- A reservation whose error `fail_open` swallows. -/
def letPast (state : State) (throttle : AttemptThrottle) (id : Nat) : Operation → Fate → State
  | .reserve, .failed _ =>
    if throttle.failOpen then
      { state with reserved := state.reserved.insert id }
    else state
  | _, _ => state

def after (state : State) (throttle : AttemptThrottle) (id : Nat)
    (operation : Operation) (phase : Phase) (fate : Fate) : State :=
  let executed :=
    if fate.executed then state.execute throttle id operation phase else state
  executed.letPast throttle id operation fate

end State

inductive Action where
  | begin (operation : Operation)
  | command (id : Nat) (fate : Fate)
  | tick
deriving DecidableEq

def settle (throttle : AttemptThrottle) (state : State)
    (operation : Operation) (phase : Phase) : Fate → Progress
  | .answered => (throttle.perform state.clock state.counter operation phase).2
  | .failed _ => .ended (throttle.recover operation)
  | .cancelled _ => .ended .cancelled

def step (throttle : AttemptThrottle) (state : State) : Action → Option State
  | .begin operation =>
    some { state with
      calls := state.calls ++ [⟨operation, throttle.start operation⟩] }
  | .command id fate =>
    match state.calls[id]? with
    | some ⟨operation, .running phase⟩ =>
      some { state.after throttle id operation phase fate with
        calls := state.calls.set id ⟨operation, settle throttle state operation phase fate⟩ }
    | _ => none
  | .tick => some { state with clock := state.clock + 1 }

variable {throttle : AttemptThrottle} {state next : State}

theorem step_command {id : Nat} {fate : Fate}
    (taken : step throttle state (.command id fate) = some next) :
    ∃ operation phase, state.calls[id]? = some ⟨operation, .running phase⟩ ∧
      next = { state.after throttle id operation phase fate with
        calls := state.calls.set id
          ⟨operation, settle throttle state operation phase fate⟩ } := by
  simp only [step] at taken
  split at taken
  case h_1 operation phase found =>
    exact ⟨operation, phase, found, (Option.some.inj taken).symm⟩
  case h_2 => cases taken

@[simp] theorem book_clock (id : Nat) (operation : Operation)
    (phase : Phase) :
    (state.book throttle id operation phase).clock = state.clock := by
  unfold State.book
  split
  · split <;> rfl
  all_goals rfl

@[simp] theorem letPast_counter (id : Nat) (operation : Operation)
    (fate : Fate) :
    (state.letPast throttle id operation fate).counter = state.counter := by
  unfold State.letPast
  split
  · split <;> rfl
  · rfl

def Operation.runs : Operation → Phase → Bool
  | .status, .getting | .status, .asking _ => true
  | .raiseIfBlocked, .getting | .raiseIfBlocked, .asking _ => true
  | .hit, .incrementing | .hit, .expiring _ | .hit, .asking _ => true
  | .reserve, .incrementing | .reserve, .expiring _
  | .reserve, .asking _ => true
  | .reset, .deleting => true
  | .release _, .decrementing | .release _, .deleting => true
  | _, _ => false

def Call.formed (call : Call) : Prop :=
  ∀ phase, call.progress = .running phase → call.operation.runs phase = true

theorem start_formed (operation : Operation) :
    Call.formed ⟨operation, throttle.start operation⟩ := by
  intro phase running
  cases operation with
  | release slot =>
    simp only [AttemptThrottle.start] at running
    split at running
    · cases running
      rfl
    · cases running
  | _ =>
    cases running
    rfl

theorem perform_formed {clock : Int} {stored : Option Entry}
    {operation : Operation} {phase : Phase}
    (runs : operation.runs phase = true) :
    Call.formed ⟨operation, (throttle.perform clock stored operation phase).2⟩ := by
  intro later running
  cases phase with
  | getting =>
    simp only [AttemptThrottle.perform] at running
    split at running
    · cases running
    · cases running
      cases operation <;> first | rfl | cases runs
  | incrementing =>
    simp only [AttemptThrottle.perform] at running
    split at running <;> cases running
    all_goals cases operation <;> first | rfl | cases runs
  | expiring attempts =>
    cases running
    cases operation <;> first | rfl | cases runs
  | asking attempts => cases running
  | decrementing =>
    simp only [AttemptThrottle.perform] at running
    split at running
    · cases running
      cases operation <;> first | rfl | cases runs
    · cases running
  | deleting => cases running

theorem settle_formed {operation : Operation} {phase : Phase} {fate : Fate}
    (runs : operation.runs phase = true) :
    Call.formed ⟨operation, settle throttle state operation phase fate⟩ := by
  cases fate with
  | answered => exact perform_formed runs
  | failed executed =>
    intro later running
    cases running
  | cancelled executed =>
    intro later running
    cases running

theorem step_formed {action : Action} (formed : ∀ call ∈ state.calls, call.formed)
    (taken : step throttle state action = some next) :
    ∀ call ∈ next.calls, call.formed := by
  intro call member
  cases action with
  | begin operation =>
    cases taken
    rcases List.mem_append.mp member with old | new
    · exact formed call old
    · rw [List.mem_singleton.mp new]
      exact start_formed operation
  | command id fate =>
    obtain ⟨operation, phase, found, rfl⟩ := step_command taken
    rcases List.mem_or_eq_of_mem_set member with old | new
    · exact formed call old
    · have runs := formed _ (List.mem_of_getElem? found) phase rfl
      rw [new]
      exact settle_formed runs
  | tick =>
    cases taken
    exact formed call member

end TempestSdk.Throttle
