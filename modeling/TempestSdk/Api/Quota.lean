import Mathlib.Algebra.Order.Ring.Rat
import Mathlib.Logic.Function.Basic

/-!
# Quotas

The rules of a rate limit and the store that keeps their counters in memory.
Every rule is inspected first, and a request is recorded under all of them or
under none.  Times are rational numbers of seconds.
-/

namespace TempestSdk.Quota

/-- Calls of `consume` between two sweeps. -/
def gcEvery : Nat := 1000

structure RateLimitRule where
  maxRequests : Nat
  windowSeconds : ℚ
  /-- The capacity of a token bucket; none for a sliding window. -/
  burst : Option Nat
  scope : String
  requests_positive : 1 ≤ maxRequests
  window_positive : 0 < windowSeconds
  burst_positive : ∀ capacity, burst = some capacity → 1 ≤ capacity

theorem one_le_toNat {number : Int} (enough : ¬ number < 1) : 1 ≤ number.toNat := by omega

theorem positive_of_not_le {length : ℚ} (long : ¬ length ≤ 0) : 0 < length :=
  not_le.mp long

theorem one_request : (1 : Nat) ≤ 1 := Nat.le_refl 1

theorem no_burst {capacity : Nat} (same : none = some capacity) : 1 ≤ capacity :=
  (Option.some_ne_none capacity same.symm).elim

/-- `__post_init__`. -/
def RateLimitRule.init (maxRequests : Int) (windowSeconds : ℚ)
    (burst : Option Int) (scope : String) : Except String RateLimitRule :=
  if few : maxRequests < 1 then .error "max_requests must be >= 1"
  else if short : windowSeconds ≤ 0 then .error "window_seconds must be > 0"
  else
    match burst with
    | none =>
      .ok ⟨maxRequests.toNat, windowSeconds, none, scope, one_le_toNat few,
        positive_of_not_le short, fun _ => no_burst⟩
    | some capacity =>
      if low : capacity < 1 then .error "burst must be >= 1 when set"
      else
        .ok ⟨maxRequests.toNat, windowSeconds, some capacity.toNat, scope,
          one_le_toNat few, positive_of_not_le short,
          fun _ same => Option.some.inj same ▸ one_le_toNat low⟩

namespace RateLimitRule

def isBucket (rule : RateLimitRule) : Bool := rule.burst.isSome

def capacity (rule : RateLimitRule) : Nat :=
  rule.burst.getD rule.maxRequests

def refillPerSecond (rule : RateLimitRule) : ℚ :=
  rule.maxRequests / rule.windowSeconds

/-- `general` is the text of a number under the format `g`. -/
def effectiveScope (general : ℚ → String) (rule : RateLimitRule) : String :=
  if rule.scope ≠ "" then rule.scope
  else
    let label := toString rule.maxRequests ++ "/" ++ general rule.windowSeconds ++ "s"
    match rule.burst with
    | some burst => label ++ "+b" ++ toString burst
    | none => label

end RateLimitRule

structure QuotaResult where
  allowed : Bool
  limit : Nat
  remaining : Int
  resetSeconds : Int
  retryAfter : Int
  scope : String
deriving DecidableEq

/-- What one rule says of a request that is not recorded yet. -/
structure Verdict where
  ok : Bool
  remaining : Int
  reset : Int
  retry : Int
deriving DecidableEq

def windowVerdict (hits : List ℚ) (now : ℚ) (rule : RateLimitRule) : Verdict :=
  let oldestReset : Int :=
    match hits with
    | oldest :: _ => max 1 (oldest + rule.windowSeconds - now).ceil
    | [] => rule.windowSeconds.ceil
  if rule.maxRequests ≤ hits.length then
    ⟨false, 0, oldestReset, oldestReset⟩
  else ⟨true, rule.maxRequests - hits.length - 1, oldestReset, 0⟩

/-- `_window_state`: the pruned hits, the oldest first, and the verdict. -/
def windowState (hits : List ℚ) (now : ℚ) (rule : RateLimitRule) : List ℚ × Verdict :=
  let cutoff := now - rule.windowSeconds
  let pruned := hits.dropWhile fun hit => decide (hit < cutoff)
  (pruned, windowVerdict pruned now rule)

def refill (rule : RateLimitRule) (tokens updatedAt now : ℚ) : ℚ :=
  min (rule.capacity : ℚ) (tokens + max 0 (now - updatedAt) * rule.refillPerSecond)

def bucketVerdict (refilled : ℚ) (rule : RateLimitRule) : Verdict :=
  let reset := max 0 ((rule.capacity - refilled) / rule.refillPerSecond).ceil
  if refilled < 1 then
    let retry := max 1 ((1 - refilled) / rule.refillPerSecond).ceil
    ⟨false, 0, max reset retry, retry⟩
  else ⟨true, (refilled - 1).floor, reset, 0⟩

/-- `_bucket_state`: the tokens before spending, and the verdict. -/
def bucketState (tokens updatedAt now : ℚ) (rule : RateLimitRule) : ℚ × Verdict :=
  let refilled := refill rule tokens updatedAt now
  (refilled, bucketVerdict refilled rule)

structure Candidate where
  rule : RateLimitRule
  verdict : Verdict

def Candidate.binds (candidate best : Candidate) : Bool :=
  candidate.verdict.remaining < best.verdict.remaining ||
    (candidate.verdict.remaining == best.verdict.remaining &&
      best.verdict.reset < candidate.verdict.reset)

/-- `_pick_binding`: the first of those with the least headroom. -/
def pickBinding (first : Candidate) (others : List Candidate) : Candidate :=
  others.foldl (fun best candidate =>
    if candidate.binds best then candidate else best) first

def pickDenied (first : Candidate) (others : List Candidate) : Candidate :=
  others.foldl (fun best candidate =>
    if best.verdict.retry < candidate.verdict.retry then candidate else best)
    first

def allAllow (candidates : List Candidate) : Bool :=
  candidates.all fun candidate => candidate.verdict.ok

/-- What `consume` makes of the verdicts. -/
def quotaResult (general : ℚ → String) : List Candidate → Except String QuotaResult
  | [] => .error "rules must not be empty"
  | first :: others =>
    let candidates := first :: others
    if allAllow candidates then
      let binding := pickBinding first others
      .ok ⟨true, binding.rule.maxRequests, binding.verdict.remaining,
        binding.verdict.reset, 0, binding.rule.effectiveScope general⟩
    else
      match candidates.filter fun candidate =>
          decide (0 < candidate.verdict.retry) with
      | [] => .error "max() arg is an empty sequence"
      | waiting :: more =>
        let denied := pickDenied waiting more
        .ok ⟨false, denied.rule.maxRequests, 0, denied.verdict.reset,
          denied.verdict.retry, denied.rule.effectiveScope general⟩

structure MemoryQuotaStore where
  windows : String → Option (List ℚ)
  buckets : String → Option (ℚ × ℚ)
  expiresAt : String → Option ℚ
  ops : Nat

/-- A rule that was inspected, waiting to be recorded. -/
structure Pending where
  candidate : Candidate
  ruleKey : String
  refilled : ℚ

def ruleKey (general : ℚ → String) (key : String) (rule : RateLimitRule) : String :=
  key ++ "|" ++ rule.effectiveScope general

namespace MemoryQuotaStore

def empty : MemoryQuotaStore where
  windows := fun _ => none
  buckets := fun _ => none
  expiresAt := fun _ => none
  ops := 0

def expired (store : MemoryQuotaStore) (now : ℚ) (ruleKey : String) : Bool :=
  match store.expiresAt ruleKey with
  | some moment => decide (moment ≤ now)
  | none => false

def sweep (store : MemoryQuotaStore) (now : ℚ) : MemoryQuotaStore :=
  { store with
    windows := fun key =>
      if store.expired now key then none else store.windows key
    buckets := fun key =>
      if store.expired now key then none else store.buckets key
    expiresAt := fun key =>
      if store.expired now key then none else store.expiresAt key }

def inspect (general : ℚ → String) (store : MemoryQuotaStore) (now : ℚ)
    (key : String) (rule : RateLimitRule) : MemoryQuotaStore × Pending :=
  let name := ruleKey general key rule
  if rule.isBucket then
    let (tokens, updatedAt) :=
      (store.buckets name).getD ((rule.capacity : ℚ), now)
    let (refilled, verdict) := bucketState tokens updatedAt now rule
    (store, ⟨⟨rule, verdict⟩, name, refilled⟩)
  else
    let hits := (store.windows name).getD []
    let (pruned, verdict) := windowState hits now rule
    ({ store with windows := Function.update store.windows name (some pruned) },
      ⟨⟨rule, verdict⟩, name, 0⟩)

def inspectAll (general : ℚ → String) (now : ℚ) (key : String) :
    List RateLimitRule → MemoryQuotaStore → MemoryQuotaStore × List Pending
  | [], store => (store, [])
  | rule :: rules, store =>
    let (inspected, pending) := store.inspect general now key rule
    let (last, others) := inspectAll general now key rules inspected
    (last, pending :: others)

def record (now : ℚ) (store : MemoryQuotaStore) (pending : Pending) : MemoryQuotaStore :=
  let rule := pending.candidate.rule
  let name := pending.ruleKey
  if rule.isBucket then
    let left := pending.refilled - 1
    { store with
      buckets := Function.update store.buckets name (some (left, now))
      expiresAt := Function.update store.expiresAt name
        (some (now + (rule.capacity - left) / rule.refillPerSecond)) }
  else
    { store with
      windows := Function.update store.windows name
        (some ((store.windows name).getD [] ++ [now]))
      expiresAt := Function.update store.expiresAt name (some (now + rule.windowSeconds)) }

def swept (store : MemoryQuotaStore) (now : ℚ) : MemoryQuotaStore :=
  let counted := { store with ops := store.ops + 1 }
  if counted.ops % gcEvery = 0 then counted.sweep now else counted

def charge (general : ℚ → String) (now : ℚ) (key : String)
    (rules : List RateLimitRule) (store : MemoryQuotaStore) :
    List Candidate × MemoryQuotaStore :=
  let inspected := inspectAll general now key rules store
  let candidates := inspected.2.map Pending.candidate
  (candidates, if allAllow candidates then inspected.2.foldl (record now) inspected.1
    else inspected.1)

def consume (general : ℚ → String) (store : MemoryQuotaStore) (now : ℚ)
    (key : String) (rules : List RateLimitRule) :
    Except String (QuotaResult × MemoryQuotaStore) := do
  if rules.isEmpty then
    throw "rules must not be empty"
  let charged := charge general now key rules (store.swept now)
  let result ← quotaResult general charged.1
  return (result, charged.2)

end MemoryQuotaStore

end TempestSdk.Quota
