import TempestSdk.Api.QuotaRedisHistory
import TempestSdk.Api.QuotaRuns

/-!
# Two quota stores

The store in memory and the one in Redis on one sequence of requests.  Both
answer from the requests that were admitted, but a hit that is exactly as old
as its window counts in memory and is gone in Redis.  They agree as long as no
answer turns on such a hit.
-/

namespace TempestSdk.Quota

namespace RedisQuotaStore

section

variable {self : RedisQuotaStore} {general : ℚ → String} {key : String}
variable {rules : List RateLimitRule} {keys : String → Option StoredKey}
variable {hits : List ℚ} {clock now serial : Nat}

theorem keyOf_inj {one two : String} {rule other : RateLimitRule} :
    self.keyOf general one rule = self.keyOf general two other ↔
      ruleKey general one rule = ruleKey general two other :=
  String.append_right_inj _

theorem keyOf_nodup (distinct : (rules.map (ruleKey general key)).Nodup) :
    (rules.map (self.keyOf general key)).Nodup := by
  have joined : rules.map (self.keyOf general key) = (rules.map (ruleKey general key)).map
        fun name => self.namespace_ ++ ":" ++ name := by
    rw [List.map_map]
    rfl
  rw [joined]
  apply List.Nodup.map _ distinct
  intro one two same
  exact (String.append_right_inj _).mp same

theorem script_spec (distinct : (rules.map (self.keyOf general key)).Nodup)
    (whole : ∀ rule ∈ rules, WholeWindow rule)
    (fits : ∀ rule ∈ rules, RedisFits rule
      (keys (self.keyOf general key rule)) hits clock serial)
    (after : clock ≤ now) :
    ∃ allowed last, self.script general now serial key rules keys =
        (.ok (allowed, rules.map fun rule => ruleState rule.arguments now
          (keys (self.keyOf general key rule))), last) ∧
      allowed = rules.all (fun rule => accepts .left rule hits (seconds now)) ∧
      (∀ rule ∈ rules, RedisFits rule (last (self.keyOf general key rule))
        (if allowed then seconds now :: hits else hits) now (serial + 1)) ∧
      ∀ name, name ∉ rules.map (self.keyOf general key) → last name = keys name := by
  let state := fun rule : RateLimitRule =>
    ruleState rule.arguments now (keys (self.keyOf general key rule))
  obtain ⟨decided, first, left, untouched⟩ :=
    @Visits.visitAll_ok String (Option StoredKey) ScriptError RuleState
      RateLimitRule _ (self.keyOf general key)
      (fun rule => decideRule rule.arguments now) state
      (fun rule => (decideRule rule.arguments now
        (keys (self.keyOf general key rule))).2) rules keys distinct
      (by
        intro rule member
        obtain ⟨slot, decided, _leaves⟩ := (fits rule member).decided after
        rw [decided])
  have leaves : ∀ rule ∈ rules, RedisFits rule
      (decided (self.keyOf general key rule)) hits now serial := by
    intro rule member
    obtain ⟨slot, visited, fresh⟩ := (fits rule member).decided after
    rw [left rule member, visited]
    exact fresh
  have verdicts : (rules.map state).all RuleState.ok =
      rules.all fun rule => accepts .left rule hits (seconds now) := by
    rw [List.all_map, Bool.eq_iff_iff, List.all_eq_true, List.all_eq_true]
    apply forall₂_congr
    intro rule member
    rw [← (fits rule member).state_ok after]
    rfl
  cases accepted : rules.all fun rule =>
      accepts .left rule hits (seconds now) with
  | false =>
    rw [accepted] at verdicts
    refine ⟨false, decided, ?_, rfl, ?_, untouched⟩
    · unfold script
      dsimp only
      rw [first]
      dsimp only
      rw [verdicts]
      rfl
    · intro rule member
      rw [if_neg Bool.false_ne_true]
      exact (leaves rule member).later (le_refl _) (Nat.le_succ _)
  | true =>
    rw [accepted] at verdicts
    have zipped : rules.zip (rules.map state) = rules.map fun rule => (rule, state rule) := by
      have pairs : (rules.map id).zip (rules.map state) =
          rules.map fun rule => (rule, state rule) := List.zip_map'
      rwa [List.map_id] at pairs
    have items : ∀ item ∈ (rules.zip (rules.map state)).zipIdx,
        item.1.1 ∈ rules ∧ item.1.2 = state item.1.1 := by
      intro item member
      have inside := List.fst_mem_of_mem_zipIdx member
      rw [zipped] at inside
      obtain ⟨rule, ruled, same⟩ := List.mem_map.mp inside
      rw [← same]
      exact ⟨ruled, rfl⟩
    have names : (rules.zip (rules.map state)).zipIdx.map
        (fun item => self.keyOf general key item.1.1) = rules.map (self.keyOf general key) := by
      have firsts := congrArg (List.map fun pair : RateLimitRule × RuleState =>
        self.keyOf general key pair.1)
        (List.zipIdx_map_fst 0 (rules.zip (rules.map state)))
      rw [List.map_map] at firsts
      refine firsts.trans ?_
      rw [zipped, List.map_map]
      rfl
    have writes : ∀ item ∈ (rules.zip (rules.map state)).zipIdx,
        ∃ last, writeRule item.1.2 (serial, item.2) now
            (decided (self.keyOf general key item.1.1)) = (.ok (), last) ∧
          RedisFits item.1.1 last (seconds now :: hits) now (serial + 1) := by
      intro item member
      obtain ⟨ruled, same⟩ := items item member
      rw [same]
      exact (fits _ ruled).written (whole _ ruled) after (leaves _ ruled)
        (List.all_eq_true.mp accepted _ ruled) item.2
    obtain ⟨last, second, wrote, others⟩ :=
      @Visits.visitAll_ok String (Option StoredKey) ScriptError Unit
        ((RateLimitRule × RuleState) × Nat) _
        (fun item => self.keyOf general key item.1.1)
        (fun item => writeRule item.1.2 (serial, item.2) now) (fun _ => ())
        (fun item => (writeRule item.1.2 (serial, item.2) now
          (decided (self.keyOf general key item.1.1))).2)
        (rules.zip (rules.map state)).zipIdx decided (names ▸ distinct)
        (by
          intro item member
          obtain ⟨slot, written, _fresh⟩ := writes item member
          rw [written])
    refine ⟨true, last, ?_, rfl, ?_, ?_⟩
    · unfold script
      dsimp only
      rw [first]
      dsimp only
      rw [verdicts, if_pos rfl, second]
    · intro rule member
      have there : (rule, state rule) ∈ rules.zip (rules.map state) := by
        rw [zipped]
        exact List.mem_map_of_mem member
      obtain ⟨place, found⟩ := List.mem_iff_getElem?.mp there
      have inside := List.mk_mem_zipIdx_iff_getElem?.mpr found
      obtain ⟨slot, written, fresh⟩ := writes _ inside
      rw [if_pos rfl, wrote _ inside, written]
      exact fresh
    · intro name absent
      rw [others name (names ▸ absent), untouched name absent]

theorem consume_spec {redis : Redis} (some_rule : rules ≠ [])
    (distinct : (rules.map (ruleKey general key)).Nodup)
    (whole : ∀ rule ∈ rules, WholeWindow rule)
    (fits : ∀ rule ∈ rules, RedisFits rule
      (redis.keys (self.keyOf general key rule)) hits clock redis.serial)
    (after : clock ≤ now) :
    ∃ result next, self.consume general redis now key rules = (.ok result, next) ∧
      result.allowed = rules.all (fun rule => accepts .left rule hits (seconds now)) ∧
      next.serial = redis.serial + 1 ∧
      (∀ rule ∈ rules, RedisFits rule (next.keys (self.keyOf general key rule))
        (if result.allowed then seconds now :: hits else hits) now next.serial) ∧
      ∀ name, name ∉ rules.map (self.keyOf general key) → next.keys name = redis.keys name := by
  obtain ⟨allowed, last, reply, decision, fresh, others⟩ :=
    script_spec (keyOf_nodup distinct) whole fits after
  cases rules with
  | nil => exact (some_rule rfl).elim
  | cons first more =>
    unfold consume
    dsimp only
    rw [reply]
    exact ⟨_, _, rfl, decision, rfl, fresh, others⟩

end

end RedisQuotaStore

structure Call where
  milliseconds : Nat
  key : String
deriving DecidableEq

def Call.request (call : Call) : Request := ⟨seconds call.milliseconds, call.key⟩

/-- What each store answers; nothing when it raises. -/
structure Decision where
  memory : Option Bool
  redis : Option Bool
deriving DecidableEq

structure Twin where
  memory : State
  redis : Redis
  clock : Nat
  decisions : List Decision

def Twin.initial (clock : Nat) : Twin where
  memory := .initial (seconds clock)
  redis := .empty
  clock := clock
  decisions := []

def State.latest (state : State) : Option Bool :=
  state.log.head?.map fun entry => entry.result.allowed

def twinStep (quotas : RedisQuotaStore) (general : ℚ → String)
    (rules : List RateLimitRule) (twin : Twin) (call : Call) : Option Twin :=
  if twin.clock ≤ call.milliseconds then
    (step general rules twin.memory call.request).map fun memory =>
      let (reply, redis) := quotas.consume general twin.redis call.milliseconds call.key rules
      ⟨memory, redis, call.milliseconds,
        ⟨memory.latest, reply.toOption.map QuotaResult.allowed⟩ :: twin.decisions⟩
  else none

def Twin.Agree (twin : Twin) : Prop :=
  ∀ decision ∈ twin.decisions, decision.memory = decision.redis

def Slot.hasRoom (edge : Edge) (rule : RateLimitRule) (slot : Slot) (now : ℚ) : Bool :=
  if rule.isBucket then decide (1 ≤ slot.tokens rule now)
  else decide ((seen edge rule now slot.hits).length < rule.maxRequests)

/-- When all rules have room without the hits that are exactly as old as their
window, they also have room with them. -/
def ClearCut (general : ℚ → String) (rules : List RateLimitRule) (twin : Twin)
    (call : Call) : Prop :=
  let now := call.request.now
  let slot := fun rule =>
    (twin.memory.store.swept now).slot (ruleKey general call.key rule)
  (∀ rule ∈ rules, (slot rule).hasRoom .left rule now = true) →
    ∀ rule ∈ rules, (slot rule).hasRoom .counted rule now = true

def Apart (general : ℚ → String) (rules : List RateLimitRule) (twin : Twin)
    (call : Call) : Prop :=
  Separate general rules twin.memory call.request

instance (general : ℚ → String) (rules : List RateLimitRule) (twin : Twin)
    (call : Call) : Decidable (ClearCut general rules twin call) :=
  inferInstanceAs (Decidable ((∀ rule ∈ rules, _) → ∀ rule ∈ rules, _))

instance (general : ℚ → String) (rules : List RateLimitRule) (twin : Twin)
    (call : Call) : Decidable (Apart general rules twin call) :=
  inferInstanceAs (Decidable (Separate general rules _ _))

section

variable {quotas : RedisQuotaStore} {general : ℚ → String}
variable {rules : List RateLimitRule} {twin next : Twin} {call : Call}

/-- Both stores look like the log of the requests. -/
structure Together (quotas : RedisQuotaStore) (general : ℚ → String)
    (rules : List RateLimitRule) (twin : Twin) : Prop where
  agree : twin.Agree
  tracks : Tracks .left general rules twin.memory
  clock : twin.memory.clock = seconds twin.clock
  fits : ∀ entry ∈ twin.memory.log, ∀ rule ∈ rules, RedisFits rule
    (twin.redis.keys (quotas.keyOf general entry.request.key rule))
    (twin.memory.admitted entry.request.key) twin.clock twin.redis.serial
  untouched : ∀ name, (∀ entry ∈ twin.memory.log, ∀ rule ∈ rules,
      quotas.keyOf general entry.request.key rule ≠ name) →
    twin.redis.keys name = none

theorem Together.initial (clock : Nat) :
    Together quotas general rules (Twin.initial clock) where
  agree _ member := by cases member
  tracks := Tracks.initial _
  clock := rfl
  fits _ member := by cases member
  untouched _ _ := rfl

theorem twinStep_cases (taken : twinStep quotas general rules twin call = some next) :
    twin.clock ≤ call.milliseconds ∧ ∃ memory,
      step general rules twin.memory call.request = some memory ∧
      next = ⟨memory, (quotas.consume general twin.redis call.milliseconds
          call.key rules).2, call.milliseconds,
        ⟨memory.latest, (quotas.consume general twin.redis call.milliseconds
          call.key rules).1.toOption.map QuotaResult.allowed⟩ :: twin.decisions⟩ := by
  unfold twinStep at taken
  split at taken
  case isFalse => cases taken
  case isTrue later =>
    obtain ⟨memory, stepped, same⟩ := Option.map_eq_some_iff.mp taken
    exact ⟨later, memory, stepped, same.symm⟩

theorem some_rule_of_step {state last : State} {request : Request}
    (taken : step general rules state request = some last) : rules ≠ [] := by
  rintro rfl
  obtain ⟨_after, result, consumed, _⟩ := step_cases taken
  cases consumed

variable {rule : RateLimitRule}

theorem slotVerdict_ok {edge : Edge} {slot : Slot} {hits : List ℚ} {now : ℚ}
    (fits : Fits edge rule slot hits now) :
    (slotVerdict rule slot now).ok = slot.hasRoom .counted rule now := by
  unfold slotVerdict Slot.hasRoom
  cases kind : rule.isBucket with
  | true =>
    rw [if_pos rfl, if_pos rfl]
    unfold bucketVerdict
    dsimp only
    split
    case isTrue low => exact (decide_eq_false (not_le.mpr low)).symm
    case isFalse enough => exact (decide_eq_true (not_lt.mp enough)).symm
  | false =>
    rw [fits_window kind] at fits
    rw [if_neg Bool.false_ne_true, if_neg Bool.false_ne_true, windowState_pruned fits.ordered]
    unfold windowVerdict
    dsimp only
    split
    case isTrue full => exact (decide_eq_false (not_lt.mpr full)).symm
    case isFalse room => exact (decide_eq_true (not_le.mp room)).symm

theorem hasRoom_left {slot : Slot} {hits : List ℚ} {now : ℚ}
    (fits : Fits .left rule slot hits now) :
    slot.hasRoom .left rule now = accepts .left rule hits now := by
  unfold Slot.hasRoom accepts
  cases kind : rule.isBucket with
  | true =>
    rw [fits_bucket kind] at fits
    rw [if_pos rfl, if_pos rfl, fits.view now (le_refl _)]
  | false =>
    rw [fits_window kind] at fits
    rw [if_neg Bool.false_ne_true, if_neg Bool.false_ne_true,
      fits.view now (le_refl _), List.length_reverse]

theorem hasRoom_left_of_counted {slot : Slot} {now : ℚ}
    (room : slot.hasRoom .counted rule now = true) :
    slot.hasRoom .left rule now = true := by
  unfold Slot.hasRoom at room ⊢
  split
  case isTrue bucket => rwa [if_pos bucket] at room
  case isFalse window =>
    rw [if_neg window] at room
    apply decide_eq_true
    apply lt_of_le_of_lt _ (of_decide_eq_true room)
    unfold seen
    rw [← List.countP_eq_length_filter, ← List.countP_eq_length_filter]
    apply List.countP_mono_left
    intro hit _member kept
    exact decide_eq_true (of_decide_eq_true kept).le

theorem Together.redis_own (together : Together quotas general rules twin)
    (apart : Apart general rules twin call) (member : rule ∈ rules) :
    RedisFits rule (twin.redis.keys (quotas.keyOf general call.key rule))
      (twin.memory.admitted call.key) twin.clock twin.redis.serial := by
  by_cases known : ∃ entry ∈ twin.memory.log, entry.request.key = call.key
  · obtain ⟨entry, logged, same⟩ := known
    rw [← same]
    exact together.fits entry logged rule member
  · have fresh : twin.redis.keys (quotas.keyOf general call.key rule) = none := by
      apply together.untouched
      intro entry logged other other_member same
      apply known
      exact ⟨entry, logged, (apart entry logged rule member other other_member
        (RedisQuotaStore.keyOf_inj.mp same).symm).symm⟩
    rw [State.admitted_eq_nil known, fresh]
    exact RedisFits.empty

theorem Together.step (distinct : (rules.map (RateLimitRule.effectiveScope general)).Nodup)
    (whole : ∀ rule ∈ rules, WholeWindow rule)
    (together : Together quotas general rules twin)
    (apart : Apart general rules twin call)
    (taken : twinStep quotas general rules twin call = some next) :
    ∃ allowed granted, next.decisions = ⟨some allowed, some granted⟩ :: twin.decisions ∧
      (allowed = true → granted = true) ∧
      (ClearCut general rules twin call ↔ (granted = true → allowed = true)) ∧
      (allowed = granted → Together quotas general rules next) := by
  obtain ⟨later, memory, stepped, same⟩ := twinStep_cases taken
  obtain ⟨after, result, consumed, clock, logged⟩ := step_cases stepped
  have some_rule := some_rule_of_step stepped
  have keys := ruleKeys_nodup distinct call.key
  have spec := MemoryQuotaStore.Consumed.of_ok some_rule keys consumed
  obtain ⟨reply, redis, answered, granted, serial, written, others⟩ :=
    RedisQuotaStore.consume_spec some_rule keys whole
      (fun rule member => together.redis_own apart member) later
  have own : ∀ rule ∈ rules, Fits .left rule ((twin.memory.store.swept call.request.now).slot
        (ruleKey general call.key rule)) (twin.memory.admitted call.key) call.request.now := by
    intro rule member
    exact together.tracks.own_swept apart after (fun counts => by cases counts)
      member
  have allowed : result.allowed = rules.all fun rule =>
      ((twin.memory.store.swept call.request.now).slot
        (ruleKey general call.key rule)).hasRoom .counted rule call.request.now := by
    rw [spec.allowed]
    unfold allAllow MemoryQuotaStore.candidates
    rw [List.all_map, Bool.eq_iff_iff, List.all_eq_true, List.all_eq_true]
    apply forall₂_congr
    intro rule member
    rw [← slotVerdict_ok (own rule member)]
    rfl
  have grants : reply.allowed = rules.all fun rule =>
      ((twin.memory.store.swept call.request.now).slot
        (ruleKey general call.key rule)).hasRoom .left rule call.request.now := by
    rw [granted, Bool.eq_iff_iff, List.all_eq_true, List.all_eq_true]
    apply forall₂_congr
    intro rule member
    rw [hasRoom_left (own rule member)]
    rfl
  have latest : memory.latest = some result.allowed := by
    unfold State.latest
    rw [logged]
    rfl
  rw [answered, latest] at same
  subst same
  refine ⟨result.allowed, reply.allowed, rfl, ?_, ?_, ?_⟩
  · rw [allowed, grants, List.all_eq_true, List.all_eq_true]
    intro room rule member
    exact hasRoom_left_of_counted (room rule member)
  · rw [allowed, grants, List.all_eq_true, List.all_eq_true]
    rfl
  · intro equal
    constructor
    · intro decision member
      rcases List.mem_cons.mp member with rfl | earlier
      · rw [equal]
        rfl
      · exact together.agree decision earlier
    · exact together.tracks.kept some_rule distinct apart
        (fun counts => by cases counts) stepped
    · exact clock
    · intro entry member rule ruled
      change entry ∈ memory.log at member
      change RedisFits rule (redis.keys _) (memory.admitted _) call.milliseconds redis.serial
      rw [admitted_cons logged]
      rw [logged] at member
      by_cases known : entry.request.key = call.key
      · have fresh := written rule ruled
        rw [known]
        rw [← equal] at fresh
        cases admits : result.allowed with
        | true =>
          rw [if_pos ⟨rfl, rfl⟩]
          rwa [if_pos admits] at fresh
        | false =>
          rw [if_neg (by simp)]
          rwa [if_neg (by simp [admits])] at fresh
      · have old : entry ∈ twin.memory.log := by
          rcases List.mem_cons.mp member with rfl | earlier
          · exact (known rfl).elim
          · exact earlier
        have absent : quotas.keyOf general entry.request.key rule ∉
            rules.map (quotas.keyOf general call.key) := by
          intro shared
          obtain ⟨other, other_member, named⟩ := List.mem_map.mp shared
          exact known (apart entry old other other_member rule ruled
            (RedisQuotaStore.keyOf_inj.mp named)).symm
        rw [others _ absent, if_neg fun both => known both.2.symm]
        apply (together.fits entry old rule ruled).later later
        rw [serial]
        exact Nat.le_succ _
    · intro name unnamed
      change redis.keys name = none
      change ∀ entry ∈ memory.log, _ at unnamed
      rw [logged] at unnamed
      have absent : name ∉ rules.map (quotas.keyOf general call.key) := by
        intro shared
        obtain ⟨rule, member, named⟩ := List.mem_map.mp shared
        exact unnamed _ List.mem_cons_self rule member named
      rw [others name absent]
      apply together.untouched
      intro entry old
      exact unnamed entry (List.mem_cons_of_mem _ old)

theorem Together.answers (some_rule : rules ≠ [])
    (distinct : (rules.map (RateLimitRule.effectiveScope general)).Nodup)
    (together : Together quotas general rules twin)
    (later : twin.clock ≤ call.milliseconds) :
    ∃ next, twinStep quotas general rules twin call = some next := by
  obtain ⟨result, store, consumed, _spec⟩ :=
    @MemoryQuotaStore.consume_spec general call.key call.request.now
      twin.memory.store rules some_rule (ruleKeys_nodup distinct call.key)
  have after : twin.memory.clock ≤ call.request.now := by
    rw [together.clock]
    exact seconds_le.mpr later
  unfold twinStep
  rw [if_pos later, step_of_consume after consumed]
  exact ⟨_, rfl⟩

theorem Twin.Agree.back (taken : twinStep quotas general rules twin call =
    some next) (agree : next.Agree) : twin.Agree := by
  obtain ⟨_later, memory, _stepped, same⟩ := twinStep_cases taken
  subst same
  intro decision earlier
  exact agree decision (List.mem_cons_of_mem _ earlier)

end

def onServer : RedisQuotaStore := ⟨"quota", true⟩

theorem oncePerMinute_whole : WholeWindow oncePerMinute :=
  ⟨60000, by with_unfolding_all decide⟩

theorem burstOfTwo_whole : WholeWindow burstOfTwo :=
  ⟨10000, by with_unfolding_all decide⟩

end TempestSdk.Quota
