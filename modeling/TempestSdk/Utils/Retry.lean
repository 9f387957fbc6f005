import Mathlib.Algebra.Order.Field.Rat
import Mathlib.Tactic.Linarith
import Mathlib.Tactic.Positivity

/-!
# Retried calls

`RetryPolicy.sleep_for` in the arithmetic of floats, and the loop that
`async_retry` puts around a coroutine function.
-/

namespace TempestSdk.Retry

inductive Seconds where
  | minusInfinity
  | finite (value : ℚ)
  | infinity
deriving DecidableEq

namespace Seconds

def less : Seconds → Seconds → Bool
  | _, .minusInfinity => false
  | .minusInfinity, _ => true
  | .finite left, .finite right => decide (left < right)
  | .finite _, .infinity => true
  | .infinity, _ => false

/-- Python's `min`: the second only where it is less. -/
def least (left right : Seconds) : Seconds :=
  if right.less left then right else left

def doubled : Seconds → ℕ → Seconds
  | .minusInfinity, _ => .minusInfinity
  | .finite value, times => .finite (value * 2 ^ times)
  | .infinity, _ => .infinity

@[irreducible] def range : ℚ := 2 ^ 1024

/-- The float for a number with few digits: the number in the range of the
floats, and the infinity of its sign past it. -/
def rounded : Seconds → Seconds
  | .minusInfinity => .minusInfinity
  | .finite value =>
    if range ≤ value then .infinity
    else if value ≤ -range then .minusInfinity
    else .finite value
  | .infinity => .infinity

theorem range_pos : 0 < range := by
  unfold range
  positivity

theorem rounded_finite {value : ℚ} (below : value < range)
    (above : -range < value) : rounded (.finite value) = .finite value := by
  rw [rounded, if_neg (not_le.mpr below), if_neg (not_le.mpr above)]

theorem finite_of_rounded {value : ℚ} (same : rounded (.finite value) = .finite value) :
    value < range ∧ -range < value := by
  by_cases past : range ≤ value
  · simp [rounded, past] at same
  · by_cases before : value ≤ -range
    · simp [rounded, past, before] at same
    · exact ⟨not_le.mp past, not_le.mp before⟩

theorem rounded_rounded (seconds : Seconds) : seconds.rounded.rounded = seconds.rounded := by
  cases seconds with
  | minusInfinity => rfl
  | infinity => rfl
  | finite value =>
    by_cases below : value < range
    · by_cases above : -range < value
      · rw [rounded_finite below above, rounded_finite below above]
      · rw [rounded, if_neg (not_le.mpr below), if_pos (not_lt.mp above)]
        rfl
    · rw [rounded, if_pos (not_lt.mp below)]
      rfl

theorem least_minusInfinity (seconds : Seconds) :
    seconds.least .minusInfinity = .minusInfinity := by
  cases seconds <;> rfl

theorem least_infinity (seconds : Seconds) : seconds.least .infinity = seconds := by
  cases seconds <;> rfl

theorem least_finite (value most : ℚ) :
    least (.finite value) (.finite most) = .finite (min value most) := by
  by_cases cut : most < value
  · simp [least, less, cut, min_eq_right cut.le]
  · simp [least, less, cut, min_eq_left (not_lt.mp cut)]

theorem rounded_least (seconds : Seconds) {limit : Seconds} (ranged : limit.rounded = limit) :
    seconds.rounded.least limit = (seconds.least limit).rounded := by
  cases limit with
  | minusInfinity => rw [least_minusInfinity, least_minusInfinity, ranged]
  | infinity => rw [least_infinity, least_infinity]
  | finite most =>
    have ⟨below, above⟩ := finite_of_rounded ranged
    cases seconds with
    | minusInfinity => rfl
    | infinity => exact ranged.symm
    | finite value =>
      rw [least_finite]
      by_cases past : range ≤ value
      · rw [min_eq_right (below.le.trans past), ranged, rounded, if_pos past]
        rfl
      · by_cases before : value ≤ -range
        · rw [min_eq_left (before.trans above.le), rounded, if_neg past, if_pos before]
          rfl
        · rw [rounded_finite (not_le.mp past) (not_le.mp before), least_finite, rounded_finite]
          · exact (min_le_right value most).trans_lt below
          · exact lt_min (not_le.mp before) above

end Seconds

structure Double where
  seconds : Seconds
  ranged : seconds.rounded = seconds
deriving DecidableEq

namespace Double

def of (seconds : Seconds) : Double :=
  ⟨seconds.rounded, seconds.rounded_rounded⟩

def least (left right : Double) : Double :=
  if right.seconds.less left.seconds then right else left

theorem least_of (seconds : Seconds) (limit : Double) :
    (of seconds).least limit = of (seconds.least limit.seconds) := by
  have same := Seconds.rounded_least seconds limit.ranged
  unfold Seconds.least at same
  unfold least of
  split at same
  · rename_i cut
    rw [if_pos cut]
    cases limit
    simpa [Seconds.least] using same
  · rename_i kept
    rw [if_neg kept]
    simpa [Seconds.least] using same

end Double

structure RetryPolicy where
  max_attempts : ℕ
  backoff_initial_seconds : Double
  backoff_max_seconds : Double

/-- The exponent of the integer `2 ** exponent` as a float; the conversion
raises `OverflowError` past the range of the floats. -/
def powerOfTwo (exponent : ℕ) : Option ℕ :=
  if exponent < 1024 then some exponent else none

/-- `none` is an `OverflowError`. -/
def RetryPolicy.sleepFor (policy : RetryPolicy) (attempt : ℕ) : Option Double :=
  (powerOfTwo (attempt - 1)).map fun exponent =>
    (Double.of (policy.backoff_initial_seconds.seconds.doubled exponent)).least
      policy.backoff_max_seconds

/-- What awaiting the wrapped function comes to. -/
inductive Outcome (Value Error : Type) where
  | returned (value : Value)
  | raised (error : Error)
deriving DecidableEq

inductive Failure (Error : Type) where
  /-- An exception of the wrapped function, raised again. -/
  | own (error : Error)
  | overflowError
  | assertionError
deriving DecidableEq

inductive Event (Error : Type) where
  | called (attempt : ℕ)
  | warned (attempt attempts : ℕ) (error : Error) (delay : Double)
  | slept (delay : Double)
  | gaveUp (attempts : ℕ) (error : Error)

structure Run (Value Error : Type) where
  events : List (Event Error)
  outcome : Outcome Value (Failure Error)

section

variable {Value Error : Type}

def Run.after (events : List (Event Error)) (run : Run Value Error) : Run Value Error :=
  ⟨events ++ run.events, run.outcome⟩

/-- The loop over the attempts that are left. `listed` tells the exceptions in
`exceptions`, `outcome` what each call of the function comes to. -/
def RetryPolicy.loop (policy : RetryPolicy) (listed : Error → Bool)
    (outcome : ℕ → Outcome Value Error) : List ℕ → Run Value Error
  | [] => ⟨[], .raised .assertionError⟩
  | attempt :: rest =>
    match outcome attempt with
    | .returned value => ⟨[.called attempt], .returned value⟩
    | .raised error =>
      if listed error then
        if attempt = policy.max_attempts then
          ⟨[.called attempt, .gaveUp policy.max_attempts error], .raised (.own error)⟩
        else
          match policy.sleepFor attempt with
          | none => ⟨[.called attempt], .raised .overflowError⟩
          | some delay =>
            (policy.loop listed outcome rest).after [.called attempt,
                .warned attempt policy.max_attempts error delay,
                .slept delay]
      else ⟨[.called attempt], .raised (.own error)⟩

/-- The wrapper around a function; `none` is the `ValueError` of a policy
without attempts. -/
def asyncRetry (policy : RetryPolicy) (listed : Error → Bool) :
    Option ((ℕ → Outcome Value Error) → Run Value Error) :=
  if policy.max_attempts < 1 then none
  else some fun outcome =>
    policy.loop listed outcome (List.range' 1 policy.max_attempts)

def calls (events : List (Event Error)) : List ℕ :=
  events.filterMap fun
    | .called attempt => some attempt
    | _ => none

def sleeps (events : List (Event Error)) : List Double :=
  events.filterMap fun
    | .slept delay => some delay
    | _ => none

def Retryable (listed : Error → Bool) (outcome : Outcome Value Error) : Prop :=
  ∃ error, outcome = .raised error ∧ listed error = true

def Outcome.passed : Outcome Value Error → Outcome Value (Failure Error)
  | .returned value => .returned value
  | .raised error => .raised (.own error)

/-- The float of the `k`-th wait on the curve of the policy. -/
def RetryPolicy.wait (policy : RetryPolicy) (k : ℕ) : Double :=
  .of ((policy.backoff_initial_seconds.seconds.doubled (k - 1)).least
    policy.backoff_max_seconds.seconds)

theorem RetryPolicy.wait_finite {policy : RetryPolicy} {initial most : ℚ}
    (first : policy.backoff_initial_seconds.seconds = .finite initial)
    (cap : policy.backoff_max_seconds.seconds = .finite most)
    (forward : 0 ≤ initial) (k : ℕ) :
    (policy.wait k).seconds = .finite (min (initial * 2 ^ (k - 1)) most) := by
  have ranged := policy.backoff_max_seconds.ranged
  rw [cap] at ranged
  have ⟨below, above⟩ := Seconds.finite_of_rounded ranged
  have waited : 0 ≤ initial * 2 ^ (k - 1) := by positivity
  change ((policy.backoff_initial_seconds.seconds.doubled (k - 1)).least
    policy.backoff_max_seconds.seconds).rounded = _
  rw [first, cap, Seconds.doubled, Seconds.least_finite, Seconds.rounded_finite]
  · exact (min_le_right _ _).trans_lt below
  · exact lt_min ((neg_neg_of_pos Seconds.range_pos).trans_le waited) above

/-- A run with its last call: the calls are the first ones, only the last may
be a success or an exception that is not listed, it is one of these or the
last attempt, and what it came to is what the wrapper comes to. -/
structure Lawful (policy : RetryPolicy) (listed : Error → Bool)
    (outcome : ℕ → Outcome Value Error) (run : Run Value Error)
    (last : ℕ) : Prop where
  called : calls run.events = List.range' 1 last
  bounded : last ≤ policy.max_attempts
  retried : ∀ k, 1 ≤ k → k < last → Retryable listed (outcome k)
  stopped : ¬Retryable listed (outcome last) ∨ last = policy.max_attempts
  passed : run.outcome = (outcome last).passed
  waited : sleeps run.events = (List.range' 1 (last - 1)).map policy.wait

variable {policy : RetryPolicy} {listed : Error → Bool}
  {outcome : ℕ → Outcome Value Error}

theorem sleepFor_some {attempt : ℕ} (within : attempt < 1025) :
    policy.sleepFor attempt = some (policy.wait attempt) := by
  have small : attempt - 1 < 1024 := by omega
  simp [RetryPolicy.sleepFor, powerOfTwo, small, RetryPolicy.wait, Double.least_of]

theorem sleepFor_none {attempt : ℕ} (past : 1025 ≤ attempt) :
    policy.sleepFor attempt = none := by
  have large : ¬attempt - 1 < 1024 := by omega
  simp [RetryPolicy.sleepFor, powerOfTwo, large]

theorem loop_stopped {last : ℕ} (rest : List ℕ)
    (stopped : ¬Retryable listed (outcome last) ∨ last = policy.max_attempts) :
    ∃ events, policy.loop listed outcome (last :: rest) =
      ⟨.called last :: events, (outcome last).passed⟩ ∧
      calls events = [] ∧ sleeps events = [] := by
  cases came : outcome last with
  | returned value => exact ⟨[], by simp [RetryPolicy.loop, came, Outcome.passed], rfl, rfl⟩
  | raised error =>
    by_cases caught : listed error = true
    · rcases stopped with refused | final
      · exact absurd ⟨error, came, caught⟩ refused
      · refine ⟨[.gaveUp policy.max_attempts error], ?_, rfl, rfl⟩
        rw [RetryPolicy.loop, came]
        simp only [caught, if_pos final, if_true, Outcome.passed]
    · exact ⟨[], by simp [RetryPolicy.loop, came, caught, Outcome.passed],
        rfl, rfl⟩

theorem loop_overflow {last : ℕ} (rest : List ℕ) (retryable : Retryable listed (outcome last))
    (more : last ≠ policy.max_attempts) (past : 1025 ≤ last) :
    policy.loop listed outcome (last :: rest) = ⟨[.called last], .raised .overflowError⟩ := by
  obtain ⟨error, came, caught⟩ := retryable
  simp [RetryPolicy.loop, came, caught, more, sleepFor_none past]

theorem loop_waits {attempt : ℕ} (rest : List ℕ)
    (retryable : Retryable listed (outcome attempt))
    (more : attempt ≠ policy.max_attempts) (within : attempt < 1025) :
    ∃ error, policy.loop listed outcome (attempt :: rest) =
      (policy.loop listed outcome rest).after [.called attempt,
        .warned attempt policy.max_attempts error (policy.wait attempt),
        .slept (policy.wait attempt)] := by
  obtain ⟨error, came, caught⟩ := retryable
  exact ⟨error, by
    simp [RetryPolicy.loop, came, caught, more, sleepFor_some within]⟩

def Ended (policy : RetryPolicy) (listed : Error → Bool)
    (outcome : ℕ → Outcome Value Error) (last : ℕ)
    (result : Outcome Value (Failure Error)) : Prop :=
  (result = (outcome last).passed ∧
    (¬Retryable listed (outcome last) ∨ last = policy.max_attempts)) ∨
  (result = .raised .overflowError ∧ Retryable listed (outcome last) ∧
    last < policy.max_attempts ∧ 1025 ≤ last)

/-- The loop from one attempt on, up to the call it ends with. -/
structure Reaches (policy : RetryPolicy) (listed : Error → Bool)
    (outcome : ℕ → Outcome Value Error) (first last : ℕ)
    (run : Run Value Error) : Prop where
  ordered : first ≤ last
  bounded : last ≤ policy.max_attempts
  called : calls run.events = List.range' first (last + 1 - first)
  retried : ∀ k, first ≤ k → k < last → Retryable listed (outcome k) ∧ k < 1025
  waited : sleeps run.events = (List.range' first (last - first)).map policy.wait
  ended : Ended policy listed outcome last run.outcome

theorem Reaches.stop {first : ℕ} {events : List (Event Error)}
    {result : Outcome Value (Failure Error)}
    (bounded : first ≤ policy.max_attempts) (silent : calls events = [])
    (still : sleeps events = [])
    (ended : Ended policy listed outcome first result) :
    Reaches policy listed outcome first first ⟨.called first :: events, result⟩ where
  ordered := le_rfl
  bounded := bounded
  called := by
    rw [Nat.add_sub_cancel_left]
    exact congrArg (first :: ·) silent
  retried := by omega
  waited := by
    rw [Nat.sub_self]
    exact still
  ended := ended

theorem Reaches.wait {attempt last : ℕ} {run : Run Value Error} (error : Error)
    (retryable : Retryable listed (outcome attempt)) (within : attempt < 1025)
    (reached : Reaches policy listed outcome (attempt + 1) last run) :
    Reaches policy listed outcome attempt last (run.after [.called attempt,
      .warned attempt policy.max_attempts error (policy.wait attempt),
      .slept (policy.wait attempt)]) where
  ordered := (Nat.le_succ attempt).trans reached.ordered
  bounded := reached.bounded
  called := by
    have longer : last + 1 - attempt = last + 1 - (attempt + 1) + 1 := by
      have := reached.ordered
      omega
    rw [longer, List.range'_succ, ← reached.called]
    rfl
  retried := by
    intro k from_attempt below
    rcases Nat.eq_or_lt_of_le from_attempt with same | later
    · exact same ▸ ⟨retryable, within⟩
    · exact reached.retried k later below
  waited := by
    have longer : last - attempt = last - (attempt + 1) + 1 := by
      have := reached.ordered
      omega
    rw [longer, List.range'_succ, List.map_cons, ← reached.waited]
    rfl
  ended := reached.ended

theorem loop_reaches (count : ℕ) : ∀ attempt, attempt + count = policy.max_attempts →
    ∃ last, Reaches policy listed outcome attempt last
      (policy.loop listed outcome (List.range' attempt (count + 1))) := by
  induction count with
  | zero =>
    intro attempt final
    obtain ⟨events, looped, silent, still⟩ := loop_stopped []
      (show ¬Retryable listed (outcome attempt) ∨ attempt = policy.max_attempts from .inr final)
    refine ⟨attempt, ?_⟩
    rw [List.range'_succ, List.range'_zero, looped]
    exact .stop final.le silent still (.inl ⟨rfl, .inr final⟩)
  | succ count later =>
    intro attempt left
    rw [List.range'_succ]
    have more : attempt < policy.max_attempts := by omega
    by_cases retryable : Retryable listed (outcome attempt)
    · by_cases within : attempt < 1025
      · obtain ⟨last, reached⟩ := later (attempt + 1) (by omega)
        obtain ⟨error, looped⟩ := loop_waits
          (List.range' (attempt + 1) (count + 1)) retryable more.ne within
        rw [looped]
        exact ⟨last, reached.wait error retryable within⟩
      · have past : 1025 ≤ attempt := not_lt.mp within
        rw [loop_overflow _ retryable more.ne past]
        exact ⟨attempt, .stop more.le rfl rfl (.inr ⟨rfl, retryable, more, past⟩)⟩
    · obtain ⟨events, looped, silent, still⟩ :=
        loop_stopped (List.range' (attempt + 1) (count + 1))
          (show ¬Retryable listed (outcome attempt) ∨
            attempt = policy.max_attempts from .inl retryable)
      rw [looped]
      exact ⟨attempt, .stop more.le silent still (.inl ⟨rfl, .inl retryable⟩)⟩

theorem loop_lawful_iff (positive : 1 ≤ policy.max_attempts) :
    (∃ last, Lawful policy listed outcome (policy.loop listed outcome
      (List.range' 1 policy.max_attempts)) last) ↔
      ¬(1026 ≤ policy.max_attempts ∧ ∀ k, 1 ≤ k → k ≤ 1025 → Retryable listed (outcome k)) := by
  obtain ⟨count, attempts⟩ : ∃ count, 1 + count = policy.max_attempts :=
    ⟨policy.max_attempts - 1, by omega⟩
  obtain ⟨last, reached⟩ : ∃ last, Reaches policy listed outcome 1 last
      (policy.loop listed outcome (List.range' 1 (count + 1))) :=
    loop_reaches count 1 attempts
  rw [Nat.add_comm count 1, attempts] at reached
  constructor
  · rintro ⟨other, lawful⟩ ⟨many, failing⟩
    have same : other = last := by
      have called := lawful.called.symm.trans reached.called
      simpa using congrArg List.length called
    subst same
    have early : other ≤ 1025 := by
      by_contra late
      have ⟨_, below⟩ := reached.retried 1025 (by omega) (by omega)
      omega
    rcases reached.ended with ⟨_, refused | final⟩ | ⟨overflow, _⟩
    · exact refused (failing other reached.ordered early)
    · omega
    · have own := lawful.passed
      rw [overflow] at own
      cases came : outcome other <;> simp [came, Outcome.passed] at own
  · intro spared
    rcases reached.ended with ⟨passed, stopped⟩ | ⟨_, retryable, more, past⟩
    · exact ⟨last, reached.called, reached.bounded,
        fun k from_first below => (reached.retried k from_first below).1,
        stopped, passed, reached.waited⟩
    · refine absurd ⟨by omega, fun k from_first within => ?_⟩ spared
      rcases Nat.lt_or_ge k last with below | reaching
      · exact (reached.retried k from_first below).1
      · obtain rfl : k = last := by omega
        exact retryable

/-- The wrapper keeps the law unless it has an attempt left when the `1025`th
failure in a row comes. -/
theorem retry_law_iff {wrapped : (ℕ → Outcome Value Error) → Run Value Error}
    (accepted : asyncRetry policy listed = some wrapped)
    (outcome : ℕ → Outcome Value Error) :
    (∃ last, Lawful policy listed outcome (wrapped outcome) last) ↔
      ¬(1026 ≤ policy.max_attempts ∧ ∀ k, 1 ≤ k → k ≤ 1025 → Retryable listed (outcome k)) := by
  have positive : ¬policy.max_attempts < 1 := by
    intro none
    simp [asyncRetry, none] at accepted
  obtain rfl : (fun outcome => policy.loop listed outcome
      (List.range' 1 policy.max_attempts)) = wrapped := by
    simpa [asyncRetry, positive] using accepted
  exact loop_lawful_iff (not_lt.mp positive)

end

def patient (attempts : ℕ) : RetryPolicy where
  max_attempts := attempts
  backoff_initial_seconds := .of (.finite (1 / 2))
  backoff_max_seconds := .of (.finite 8)

def failing (_ : ℕ) : Outcome Unit Unit := .raised ()

theorem patient_law : ∃ last, Lawful (patient 3) (fun _ => true) failing
    ((patient 3).loop (fun _ => true) failing (List.range' 1 3)) last :=
  ((@retry_law_iff _ _ _ _ (fun outcome => (patient 3).loop
    (fun _ => true) outcome (List.range' 1 3)) rfl failing).mpr
      fun many => absurd many.1 (by decide))

theorem stubborn_overflows : ∃ wrapped : (ℕ → Outcome Unit Unit) → Run Unit Unit,
    asyncRetry (patient 1026) (fun _ => true) = some wrapped ∧
    ¬∃ last, Lawful (patient 1026) (fun _ => true) failing (wrapped failing) last :=
  ⟨_, rfl, fun lawful => (loop_lawful_iff (by decide)).mp lawful
    ⟨le_rfl, fun _ _ _ => ⟨(), rfl, rfl⟩⟩⟩

end TempestSdk.Retry
