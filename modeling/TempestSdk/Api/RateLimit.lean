import Mathlib.Algebra.Order.Field.Basic
import Mathlib.Algebra.Order.Floor.Ring
import Mathlib.Algebra.Order.Ring.Rat
import Mathlib.Data.Rat.Floor
import Mathlib.Logic.Function.Basic
import Mathlib.Tactic.Linarith
import Mathlib.Tactic.NormNum
import TempestSdk.Library.Runs
import TempestSdk.Library.SlidingLogs

/-!
# The rate limiter in memory

One sliding window for each key.  A hit that is refused is told how long to
wait, and the wait is over unless the oldest hit is then exactly as old as the
window.  Times are rational numbers of seconds.
-/

namespace TempestSdk.RateLimit

open SlidingLogs (Roomy prune)

structure RateLimitResult where
  allowed : Bool
  remaining : Int
  retryAfter : Int
deriving DecidableEq

structure MemoryRateLimitStore where
  buckets : String → Option (List ℚ)

namespace MemoryRateLimitStore

def empty : MemoryRateLimitStore := ⟨fun _ => none⟩

def bucket (store : MemoryRateLimitStore) (key : String) : List ℚ :=
  (store.buckets key).getD []

def put (store : MemoryRateLimitStore) (key : String) (bucket : List ℚ) :
    MemoryRateLimitStore :=
  ⟨Function.update store.buckets key (some bucket)⟩

def hit (store : MemoryRateLimitStore) (now : ℚ) (key : String)
    (maxRequests : Int) (windowSeconds : ℚ) :
    MemoryRateLimitStore × Except String RateLimitResult :=
  let cutoff := now - windowSeconds
  let bucket := (store.bucket key).dropWhile fun hit => decide (hit < cutoff)
  if maxRequests ≤ bucket.length then
    match bucket with
    | [] => (store.put key bucket, .error "deque index out of range")
    | oldest :: _ =>
      (store.put key bucket, .ok ⟨false, 0, max 1 (oldest + windowSeconds - now).ceil⟩)
  else
    (store.put key (bucket ++ [now]), .ok ⟨true, maxRequests - (bucket.length + 1), 0⟩)

variable {store : MemoryRateLimitStore} {now windowSeconds : ℚ}
variable {key other : String} {maxRequests : Int} {bucket : List ℚ}

@[simp] theorem bucket_put : (store.put key bucket).bucket key = bucket := by
  simp [put, MemoryRateLimitStore.bucket]

theorem bucket_put_of_ne (different : other ≠ key) :
    (store.put key bucket).bucket other = store.bucket other := by
  simp [put, MemoryRateLimitStore.bucket, different]

theorem hit_cases : ((store.hit now key maxRequests windowSeconds).1 =
        store.put key (prune (now - windowSeconds) (store.bucket key)) ∧
      maxRequests ≤ (prune (now - windowSeconds) (store.bucket key)).length) ∨
    ((store.hit now key maxRequests windowSeconds).1 = store.put key
          (prune (now - windowSeconds) (store.bucket key) ++ [now]) ∧
      ((prune (now - windowSeconds) (store.bucket key)).length : Int) < maxRequests) := by
  by_cases full : maxRequests ≤ (prune (now - windowSeconds) (store.bucket key)).length
  · left
    refine ⟨?_, full⟩
    unfold prune at full ⊢
    unfold hit
    dsimp only
    rw [if_pos full]
    split
    · rfl
    · rfl
  · right
    refine ⟨?_, not_le.mp full⟩
    unfold prune at full ⊢
    unfold hit
    dsimp only
    rw [if_neg full]

theorem bucket_hit_of_ne (different : other ≠ key) :
    (store.hit now key maxRequests windowSeconds).1.bucket other = store.bucket other := by
  rcases @hit_cases store now windowSeconds key maxRequests with
    ⟨same, _⟩ | ⟨same, _⟩
  · rw [same]
    exact bucket_put_of_ne different
  · rw [same]
    exact bucket_put_of_ne different

theorem hit_full {oldest : ℚ} {others : List ℚ}
    (front : prune (now - windowSeconds) (store.bucket key) = oldest :: others)
    (full : maxRequests ≤ (oldest :: others).length) :
    store.hit now key maxRequests windowSeconds = (store.put key (oldest :: others),
        .ok ⟨false, 0, max 1 (oldest + windowSeconds - now).ceil⟩) := by
  unfold prune at front
  unfold hit
  dsimp only
  rw [front, if_pos full]

theorem hit_refused {refused : MemoryRateLimitStore} {result : RateLimitResult}
    (answered : store.hit now key maxRequests windowSeconds = (refused, .ok result))
    (denied : result.allowed = false) :
    refused.bucket key = prune (now - windowSeconds) (store.bucket key) ∧
      maxRequests ≤ (refused.bucket key).length ∧
      ∃ oldest, (refused.bucket key).head? = some oldest ∧
        result.retryAfter = max 1 (oldest + windowSeconds - now).ceil := by
  unfold hit at answered
  dsimp only at answered
  split at answered
  case isFalse =>
    cases answered
    cases denied
  case isTrue full =>
    cases front : (store.bucket key).dropWhile
        fun hit => decide (hit < now - windowSeconds) with
    | nil =>
      rw [front] at answered
      cases answered
    | cons oldest others =>
      rw [front] at answered full
      cases answered
      refine ⟨?_, ?_, oldest, ?_, rfl⟩
      · rw [bucket_put]
        exact front.symm
      · rw [bucket_put]
        exact full
      · rw [bucket_put]
        rfl

theorem hit_answered (positive : 0 < maxRequests) :
    ∃ later result, store.hit now key maxRequests windowSeconds = (later, .ok result) ∧
      (result.allowed = true ↔ ((prune (now - windowSeconds) (store.bucket key)).length : Int) <
          maxRequests) := by
  unfold hit prune
  dsimp only
  split
  case isFalse room =>
    refine ⟨_, _, rfl, ?_⟩
    exact iff_of_true rfl (not_le.mp room)
  case isTrue full =>
    cases front : (store.bucket key).dropWhile
        fun hit => decide (hit < now - windowSeconds) with
    | nil =>
      rw [front, List.length_nil] at full
      omega
    | cons oldest others =>
      rw [front] at full
      refine ⟨_, _, rfl, ?_⟩
      exact iff_of_false Bool.false_ne_true (not_lt.mpr full)

end MemoryRateLimitStore

structure Hit where
  now : ℚ
  key : String

structure State where
  store : MemoryRateLimitStore
  clock : ℚ

def State.initial (clock : ℚ) : State := ⟨.empty, clock⟩

def step (limits : String → Int × ℚ) (state : State) (hit : Hit) : Option State :=
  if state.clock ≤ hit.now then
    some ⟨(state.store.hit hit.now hit.key (limits hit.key).1 (limits hit.key).2).1, hit.now⟩
  else none

section

variable {limits : String → Int × ℚ} {state next : State} {hit : Hit}

theorem step_cases (taken : step limits state hit = some next) :
    state.clock ≤ hit.now ∧ next = ⟨(state.store.hit hit.now hit.key
      (limits hit.key).1 (limits hit.key).2).1, hit.now⟩ := by
  unfold step at taken
  split at taken
  case isFalse => cases taken
  case isTrue later => exact ⟨later, (Option.some.inj taken).symm⟩

/-- The buckets of the keys, as their limits left them. -/
structure Steady (limits : String → Int × ℚ) (state : State) : Prop where
  roomy : ∀ key, Roomy (limits key).1.toNat 1 (state.store.bucket key)
  early : ∀ key, ∀ hit ∈ state.store.bucket key, hit ≤ state.clock

theorem Steady.initial (clock : ℚ) : Steady limits (State.initial clock) where
  roomy _ := Roomy.nil
  early _ _ member := by cases member

theorem Steady.kept (steady : Steady limits state)
    (taken : step limits state hit = some next) : Steady limits next := by
  obtain ⟨later, rfl⟩ := step_cases taken
  have pruned_early : ∀ moment ∈ prune (hit.now - (limits hit.key).2)
      (state.store.bucket hit.key), moment ≤ hit.now := by
    intro moment member
    have old := (SlidingLogs.prune_suffix _ _).subset member
    exact (steady.early hit.key moment old).trans later
  constructor
  · intro key
    by_cases same : key = hit.key
    · subst same
      have pruned := (steady.roomy hit.key).prune (hit.now - (limits hit.key).2)
      rcases @MemoryRateLimitStore.hit_cases state.store hit.now
          (limits hit.key).2 hit.key (limits hit.key).1 with
        ⟨kept, _⟩ | ⟨added, room⟩
      · dsimp only
        rw [kept, MemoryRateLimitStore.bucket_put]
        exact pruned
      · dsimp only
        rw [added, MemoryRateLimitStore.bucket_put]
        exact pruned.append (by omega) pruned_early
    · dsimp only
      rw [MemoryRateLimitStore.bucket_hit_of_ne same]
      exact steady.roomy key
  · intro key moment member
    dsimp only at member ⊢
    by_cases same : key = hit.key
    · subst same
      rcases @MemoryRateLimitStore.hit_cases state.store hit.now
          (limits hit.key).2 hit.key (limits hit.key).1 with
        ⟨kept, _⟩ | ⟨added, _⟩
      · rw [kept, MemoryRateLimitStore.bucket_put] at member
        exact pruned_early moment member
      · rw [added, MemoryRateLimitStore.bucket_put] at member
        rcases List.mem_append.mp member with old | new
        · exact pruned_early moment old
        · rw [List.mem_singleton.mp new]
    · rw [MemoryRateLimitStore.bucket_hit_of_ne same] at member
      exact (steady.early key moment member).trans later

theorem steady_of_exec {clock : ℚ} {schedule : List Hit}
    (run : Runs.exec (step limits) (State.initial clock) schedule =
      some state) : Steady limits state :=
  Runs.exec_invariant (fun _ _ _ steady taken => Steady.kept steady taken)
    (Steady.initial clock) run

theorem bucket_of_others {key : String} {waiting : State}
    {meanwhile : List Hit} (others : ∀ hit ∈ meanwhile, hit.key ≠ key)
    (run : Runs.exec (step limits) state meanwhile = some waiting) :
    waiting.store.bucket key = state.store.bucket key := by
  apply @Runs.exec_invariant_of_meets _ _ (step limits) (fun _ hit => hit.key ≠ key)
    (fun later => later.store.bucket key = state.store.bucket key)
    _ _ _ _ (Runs.Meets.of_forall others) rfl run
  intro before hit next same other taken
  obtain ⟨_, rfl⟩ := step_cases taken
  rw [← same]
  exact MemoryRateLimitStore.bucket_hit_of_ne (Ne.symm other)

end

/-- A hit that is refused in a state that can be reached, and the hits of other
keys after it. -/
structure Refusal (limits : String → Int × ℚ) (key : String) (now : ℚ)
    (store refused : MemoryRateLimitStore) (result : RateLimitResult)
    (waiting : State) : Prop where
  reached : ∃ start clock schedule, Runs.exec (step limits) (State.initial start) schedule =
      some ⟨store, clock⟩ ∧ clock ≤ now
  answered : store.hit now key (limits key).1 (limits key).2 = (refused, .ok result)
  denied : result.allowed = false
  waited : ∃ meanwhile, (∀ hit ∈ meanwhile, hit.key ≠ key) ∧
    Runs.exec (step limits) ⟨refused, now⟩ meanwhile = some waiting
  intime : waiting.clock ≤ now + result.retryAfter

/-- The oldest hit that still counts leaves its window in a whole number of
seconds, so it is exactly as old as the window when the wait is over. -/
def Lingers (limits : String → Int × ℚ) (key : String) (now : ℚ)
    (store : MemoryRateLimitStore) : Prop :=
  ∃ oldest, (prune (now - (limits key).2) (store.bucket key)).head? =
    some oldest ∧ ∃ seconds : Nat, 1 ≤ seconds ∧ oldest + (limits key).2 - now = seconds

theorem Refusal.retry {limits : String → Int × ℚ} {key : String} {now : ℚ}
    {store refused : MemoryRateLimitStore} {result : RateLimitResult}
    {waiting : State}
    (refusal : Refusal limits key now store refused result waiting) :
    ∃ later answer, waiting.store.hit (now + result.retryAfter) key (limits key).1
        (limits key).2 = (later, .ok answer) ∧
      (answer.allowed = true ↔ ¬ Lingers limits key now store) := by
  obtain ⟨_, _, _, run, ordered⟩ := refusal.reached
  obtain ⟨meanwhile, others, waits⟩ := refusal.waited
  obtain ⟨pruned, full, oldest, front, wait⟩ :=
    MemoryRateLimitStore.hit_refused refusal.answered refusal.denied
  have steady := steady_of_exec run
  have roomy : Roomy (limits key).1.toNat 1 (refused.bucket key) := by
    rw [pruned]
    exact (steady.roomy key).prune _
  have same : waiting.store.bucket key = refused.bucket key :=
    bucket_of_others others waits
  have limit_positive : 0 < (limits key).1 := by
    have room := roomy.room oldest front
    omega
  obtain ⟨later, answer, answered, verdict⟩ :=
    @MemoryRateLimitStore.hit_answered waiting.store
      (now + result.retryAfter) (limits key).2 key (limits key).1 limit_positive
  refine ⟨later, answer, answered, verdict.trans ?_⟩
  rw [same]
  have one_second : (1 : Int) ≤ result.retryAfter := by
    rw [wait]
    exact le_max_left _ _
  have enough : oldest + (limits key).2 - now ≤ result.retryAfter := by
    have ceiling : (oldest + (limits key).2 - now).ceil ≤ result.retryAfter := by
      rw [wait]
      exact le_max_right _ _
    exact (Rat.le_ceil).trans (by exact_mod_cast ceiling)
  constructor
  · rintro room ⟨first, begins, seconds, some_seconds, gap⟩
    rw [← pruned, front] at begins
    cases begins
    have exact_wait : (result.retryAfter : ℚ) = seconds := by
      rw [wait, gap]
      have ceiling : (seconds : ℚ).ceil = seconds :=
        Rat.ceil_intCast (seconds : Int)
      rw [ceiling, max_eq_right (by exact_mod_cast some_seconds)]
      push_cast
      rfl
    have whole : prune (now + result.retryAfter - (limits key).2)
        (refused.bucket key) = refused.bucket key := by
      apply SlidingLogs.prune_eq_self front
      rw [exact_wait]
      linarith
    rw [whole] at room
    omega
  · intro leaves
    by_contra stays
    apply leaves
    have bound : (limits key).1.toNat ≤ (prune (now + result.retryAfter - (limits key).2)
          (refused.bucket key)).length := by
      omega
    have stands := roomy.head_on_cutoff (List.suffix_refl _) (fun _ first begins => by
        rw [front] at begins
        cases begins
        linarith) bound (by omega)
    have unmoved := roomy.head_of_full (SlidingLogs.prune_suffix _ _) bound
    rw [stands, front] at unmoved
    refine ⟨oldest, by rw [← pruned]; exact front, result.retryAfter.toNat,
      by omega, ?_⟩
    have on_edge := Option.some.inj unmoved
    have natural : ((result.retryAfter.toNat : Int) : ℚ) = result.retryAfter := by
      rw [Int.toNat_of_nonneg (by omega)]
    have same_number : ((result.retryAfter.toNat : Nat) : ℚ) = result.retryAfter := by
      exact_mod_cast natural
    rw [same_number]
    linarith

end TempestSdk.RateLimit
