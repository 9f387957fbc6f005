import TempestSdk.Api.Quota
import TempestSdk.Library.Visits

/-!
# Quotas in Redis

The Lua script that decides all rules of a request and writes when they all
accept.  The server counts milliseconds.  A window is a sorted set of members,
of which the order among equal scores never matters; a bucket is a hash.
Numbers of the script are rational numbers.
-/

namespace TempestSdk.Quota

inductive RedisValue where
  | zset (members : List (Nat × (Nat × Nat)))
  | hash (tokens : ℚ) (ts : Nat)
deriving DecidableEq

structure StoredKey where
  value : RedisValue
  expiresAt : Nat
deriving DecidableEq

inductive ScriptError where
  | wrongType
deriving DecidableEq

structure Redis where
  keys : String → Option StoredKey
  /-- The number of the next `uuid4`. -/
  serial : Nat

def Redis.empty : Redis where
  keys := fun _ => none
  serial := 0

/-- `ARGV` of a rule. -/
structure RuleArguments where
  bucket : Bool
  limit : Nat
  window : Nat
  capacity : Nat
deriving DecidableEq

def RateLimitRule.arguments (rule : RateLimitRule) : RuleArguments where
  bucket := rule.isBucket
  limit := rule.maxRequests
  window := (rule.windowSeconds * 1000).floor.toNat
  capacity := rule.capacity

/-- `state[i]` of the script. -/
structure RuleState where
  bucket : Bool
  limit : Nat
  remaining : Int
  reset : Int
  retry : Int
  tokens : ℚ
  ttl : Nat
  ok : Bool
deriving DecidableEq

namespace RuleArguments

def windowState (rule : RuleArguments) (now : Nat)
    (members : List (Nat × (Nat × Nat))) : RuleState :=
  let reset : Int :=
    match members with
    | (oldest, _) :: _ => max 1 ((oldest : Int) + rule.window - now)
    | [] => rule.window
  if members.length < rule.limit then
    ⟨false, rule.limit, rule.limit - members.length - 1, reset, 0, 0, rule.window, true⟩
  else ⟨false, rule.limit, 0, reset, reset, 0, rule.window, false⟩

def rate (rule : RuleArguments) : ℚ := rule.limit / rule.window

def tokensAt (rule : RuleArguments) (now : Nat) (held : ℚ) (ts : Nat) : ℚ :=
  min (rule.capacity : ℚ) (held + max 0 ((now : ℚ) - ts) * rule.rate)

def bucketState (rule : RuleArguments) (tokens : ℚ) : RuleState :=
  let reset := max 0 ((rule.capacity - tokens) / rule.rate).ceil
  let ttl := ((rule.capacity * rule.window : ℚ) / rule.limit).ceil.toNat
  if 1 ≤ tokens then
    ⟨true, rule.limit, (tokens - 1).floor, reset, 0, tokens, ttl, true⟩
  else
    let retry := max 1 ((1 - tokens) / rule.rate).ceil
    ⟨true, rule.limit, 0, max reset retry, retry, tokens, ttl, false⟩

/-- `ZREMRANGEBYSCORE key 0 now - window`. -/
def prune (rule : RuleArguments) (now : Nat)
    (members : List (Nat × (Nat × Nat))) : List (Nat × (Nat × Nat)) :=
  members.filter fun member =>
    !decide ((member.1 : Int) ≤ (now : Int) - rule.window)

end RuleArguments

def liveKey (now : Nat) (slot : Option StoredKey) : Option StoredKey :=
  slot.filter fun stored => decide (now ≤ stored.expiresAt)

def decideRule (rule : RuleArguments) (now : Nat) :
    Visits.Visit (Option StoredKey) ScriptError RuleState :=
  fun slot =>
    match rule.bucket, liveKey now slot with
    | false, none => (.ok (rule.windowState now []), none)
    | false, some ⟨.zset members, expiresAt⟩ =>
      let left := rule.prune now members
      (.ok (rule.windowState now left),
        if left.isEmpty then none else some ⟨.zset left, expiresAt⟩)
    | false, some ⟨.hash tokens ts, expiresAt⟩ =>
      (.error .wrongType, some ⟨.hash tokens ts, expiresAt⟩)
    | true, none => (.ok (rule.bucketState (rule.tokensAt now rule.capacity now)), none)
    | true, some ⟨.hash tokens ts, expiresAt⟩ =>
      (.ok (rule.bucketState (rule.tokensAt now tokens ts)), some ⟨.hash tokens ts, expiresAt⟩)
    | true, some ⟨.zset members, expiresAt⟩ =>
      (.error .wrongType, some ⟨.zset members, expiresAt⟩)

def zadd (score : Nat) (member : Nat × Nat)
    (members : List (Nat × (Nat × Nat))) : List (Nat × (Nat × Nat)) :=
  let others := members.filter fun other => decide (other.2 ≠ member)
  let before := others.takeWhile fun other => decide (other.1 ≤ score)
  let behind := others.dropWhile fun other => decide (other.1 ≤ score)
  before ++ (score, member) :: behind

/-- One turn of the second loop: `ZADD` or `HSET`, and `PEXPIRE`. -/
def writeRule (state : RuleState) (member : Nat × Nat) (now : Nat) :
    Visits.Visit (Option StoredKey) ScriptError Unit :=
  fun slot =>
    match state.bucket, liveKey now slot with
    | false, none => (.ok (), some ⟨.zset [(now, member)], now + state.ttl⟩)
    | false, some ⟨.zset members, _⟩ =>
      (.ok (), some ⟨.zset (zadd now member members), now + state.ttl⟩)
    | false, some stored => (.error .wrongType, some stored)
    | true, none => (.ok (), some ⟨.hash (state.tokens - 1) now, now + state.ttl⟩)
    | true, some ⟨.hash _ _, _⟩ =>
      (.ok (), some ⟨.hash (state.tokens - 1) now, now + state.ttl⟩)
    | true, some stored => (.error .wrongType, some stored)

/-- `pick` when every rule accepts, from the first of the states. -/
def RuleState.binds (state best : RuleState) : Bool :=
  state.remaining < best.remaining ||
    (state.remaining == best.remaining && best.reset < state.reset)

def pickState (better : RuleState → RuleState → Bool) :
    List (RateLimitRule × RuleState) → RateLimitRule × RuleState → RateLimitRule × RuleState
  | [], best => best
  | (rule, state) :: others, best =>
    pickState better others (if better state best.2 then (rule, state) else best)

structure RedisQuotaStore where
  namespace_ : String
  failOpen : Bool

inductive QuotaError where
  | emptyRules
  | backend (error : ScriptError)
deriving DecidableEq

namespace RedisQuotaStore

def keyOf (self : RedisQuotaStore) (general : ℚ → String) (key : String)
    (rule : RateLimitRule) : String :=
  self.namespace_ ++ ":" ++ ruleKey general key rule

def answer (general : ℚ → String) (allowed : Bool)
    (chosen : RateLimitRule × RuleState) : QuotaResult where
  allowed := allowed
  limit := chosen.2.limit
  remaining := chosen.2.remaining
  resetSeconds := max 0 ((chosen.2.reset : ℚ) / 1000).ceil
  retryAfter :=
    if allowed then 0 else max 1 ((chosen.2.retry : ℚ) / 1000).ceil
  scope := chosen.1.effectiveScope general

/-- What `fail_open` answers. -/
def opened (general : ℚ → String) (first : RateLimitRule) : QuotaResult where
  allowed := true
  limit := first.maxRequests
  remaining := first.maxRequests - 1
  resetSeconds := first.windowSeconds.ceil
  retryAfter := 0
  scope := first.effectiveScope general

def script (self : RedisQuotaStore) (general : ℚ → String) (now serial : Nat)
    (key : String) (rules : List RateLimitRule)
    (keys : String → Option StoredKey) :
    Except ScriptError (Bool × List RuleState) × (String → Option StoredKey) :=
  let first := rules.map fun rule =>
    (self.keyOf general key rule, decideRule rule.arguments now)
  match Visits.visitAll first keys with
  | (.error error, decided) => (.error error, decided)
  | (.ok states, decided) =>
    if states.all RuleState.ok then
      let second := (rules.zip states).zipIdx.map fun item =>
        (self.keyOf general key item.1.1, writeRule item.1.2 (serial, item.2) now)
      match Visits.visitAll second decided with
      | (.error error, written) => (.error error, written)
      | (.ok _, written) => (.ok (true, states), written)
    else (.ok (false, states), decided)

def consume (self : RedisQuotaStore) (general : ℚ → String) (redis : Redis)
    (now : Nat) (key : String) :
    List RateLimitRule → Except QuotaError QuotaResult × Redis
  | [] => (.error .emptyRules, redis)
  | first :: others =>
    let rules := first :: others
    let (reply, keys) := self.script general now redis.serial key rules redis.keys
    let after : Redis := ⟨keys, redis.serial + 1⟩
    match reply with
    | .error error =>
      if self.failOpen then (.ok (opened general first), after)
      else (.error (.backend error), after)
    | .ok (allowed, states) =>
      match rules.zip states with
      | [] => (.error .emptyRules, after)
      | chosen :: more =>
        let better := if allowed then RuleState.binds
          else fun state best => best.retry < state.retry
        (.ok (answer general allowed (pickState better more chosen)), after)

end RedisQuotaStore

end TempestSdk.Quota
