import TempestSdk.Api.QuotaHistory
import TempestSdk.Api.QuotaRedis

/-!
# What the quotas in Redis remember

The sorted sets and hashes against the history of a key, as for the store in
memory.  A hit that is exactly as old as its window is gone.
-/

namespace TempestSdk.Quota

open RateLimits (level)

def seconds (milliseconds : Nat) : ℚ := milliseconds / 1000

theorem seconds_le {one two : Nat} : seconds one ≤ seconds two ↔ one ≤ two := by
  unfold seconds
  rw [div_le_div_iff_of_pos_right (by norm_num : (0 : ℚ) < 1000), Nat.cast_le]

def WholeWindow (rule : RateLimitRule) : Prop :=
  ∃ window : Nat, rule.windowSeconds * 1000 = window

theorem WholeWindow.window {rule : RateLimitRule} (whole : WholeWindow rule) :
    (rule.arguments.window : ℚ) = rule.windowSeconds * 1000 := by
  obtain ⟨window, same⟩ := whole
  have floored : (rule.windowSeconds * 1000).floor = window := by
    rw [same, ← Int.cast_natCast, Rat.floor_intCast]
  have argument : rule.arguments.window = window := by
    change (rule.windowSeconds * 1000).floor.toNat = window
    rw [floored, Int.toNat_natCast]
  rw [argument, same]

theorem WholeWindow.rate {rule : RateLimitRule} (whole : WholeWindow rule) :
    rule.arguments.rate * 1000 = rule.refillPerSecond := by
  have positive := rule.window_positive
  unfold RuleArguments.rate RateLimitRule.refillPerSecond
  rw [whole.window]
  change (rule.maxRequests : ℚ) / (rule.windowSeconds * 1000) * 1000 = _
  rw [div_mul_eq_mul_div, mul_div_mul_right _ _ (by norm_num)]

theorem WholeWindow.refilled {rule : RateLimitRule} (whole : WholeWindow rule) (now ts : Nat) :
    ((now : ℚ) - ts) * rule.arguments.rate =
      (seconds now - seconds ts) * rule.refillPerSecond := by
  rw [← whole.rate]
  unfold seconds
  ring

def members : Option StoredKey → List (Nat × (Nat × Nat))
  | some ⟨.zset members, _⟩ => members
  | _ => []

def redisTokens (rule : RuleArguments) (now : Nat) (slot : Option StoredKey) : ℚ :=
  match liveKey now slot with
  | some ⟨.hash tokens ts, _⟩ => rule.tokensAt now tokens ts
  | _ => rule.tokensAt now rule.capacity now

/-- From `clock` on, the sorted set has as many hits as the window. -/
structure RedisWindow (rule : RateLimitRule) (slot : Option StoredKey)
    (hits : List ℚ) (clock serial : Nat) : Prop where
  view : ∀ now, clock ≤ now → (rule.arguments.prune now (members slot)).length =
      (seen .left rule (seconds now) hits).length
  kind : ∀ stored, slot = some stored → stored.value = .zset (members slot)
  old : ∀ member ∈ members slot, member.2.1 < serial
  past : ∀ member ∈ members slot, member.1 ≤ clock
  expiry : ∀ stored, slot = some stored → ∀ member ∈ members slot,
    member.1 + rule.arguments.window ≤ stored.expiresAt

/-- From `clock` on, the hash has the tokens of the bucket. -/
structure RedisBucket (rule : RateLimitRule) (slot : Option StoredKey)
    (hits : List ℚ) (clock : Nat) : Prop where
  view : ∀ now, clock ≤ now →
    redisTokens rule.arguments now slot = tokens rule hits (seconds now)
  kind : ∀ stored, slot = some stored → ∃ tokens ts, stored.value = .hash tokens ts

section

variable {rule : RateLimitRule} {slot : Option StoredKey} {hits : List ℚ}
variable {clock now serial : Nat}

theorem mem_prune {rule : RuleArguments} {list : List (Nat × (Nat × Nat))}
    {member : Nat × (Nat × Nat)} :
    member ∈ rule.prune now list ↔ member ∈ list ∧ now < member.1 + rule.window := by
  unfold RuleArguments.prune
  rw [List.mem_filter]
  apply and_congr_right
  intro _inside
  simp only [Bool.not_eq_true', decide_eq_false_iff_not, not_le]
  omega

theorem keeps_iff (whole : WholeWindow rule) (hit now : Nat) :
    Edge.left.keeps (seconds now - rule.windowSeconds) (seconds hit) = true ↔
      now < hit + rule.arguments.window := by
  have window := whole.window
  rw [← @Nat.cast_lt ℚ]
  push_cast
  unfold Edge.keeps seconds
  rw [decide_eq_true_eq, window]
  constructor
  · intro kept
    linarith
  · intro kept
    linarith

theorem RedisWindow.later {later after : Nat}
    (fits : RedisWindow rule slot hits clock serial) (passed : clock ≤ later)
    (more : serial ≤ after) : RedisWindow rule slot hits later after where
  view now soon := fits.view now (passed.trans soon)
  kind := fits.kind
  old member inside := (fits.old member inside).trans_le more
  past member inside := (fits.past member inside).trans passed
  expiry := fits.expiry

theorem RedisBucket.later {later : Nat}
    (fits : RedisBucket rule slot hits clock) (passed : clock ≤ later) :
    RedisBucket rule slot hits later where
  view now soon := fits.view now (passed.trans soon)
  kind := fits.kind

theorem tokensAt_full (rule : RuleArguments) (now : Nat) :
    rule.tokensAt now rule.capacity now = rule.capacity := by
  simp [RuleArguments.tokensAt]

theorem RedisWindow.empty : RedisWindow rule none [] clock serial where
  view _ _ := rfl
  kind _ set := by cases set
  old _ inside := by cases inside
  past _ inside := by cases inside
  expiry _ set := by cases set

theorem RedisBucket.empty : RedisBucket rule none [] clock where
  view now _ := tokensAt_full rule.arguments now
  kind _ set := by cases set

theorem liveKey_dead {stored : StoredKey} (expired : stored.expiresAt < now) :
    liveKey now (some stored) = none := by
  unfold liveKey
  rw [Option.filter_some, if_neg]
  simpa using expired

theorem liveKey_live {stored : StoredKey} (live : now ≤ stored.expiresAt) :
    liveKey now (some stored) = some stored := by
  unfold liveKey
  rw [Option.filter_some, if_pos]
  exact decide_eq_true live

theorem liveKey_cases (now : Nat) (slot : Option StoredKey) :
    liveKey now slot = slot ∨ liveKey now slot = none ∧
        ∃ stored, slot = some stored ∧ stored.expiresAt < now := by
  cases slot with
  | none => exact .inl rfl
  | some stored =>
    by_cases live : now ≤ stored.expiresAt
    · exact .inl (liveKey_live live)
    · have dead : stored.expiresAt < now := not_le.mp live
      exact .inr ⟨liveKey_dead dead, stored, rfl, dead⟩

theorem slot_of_live {stored : StoredKey}
    (live : liveKey now slot = some stored) : slot = some stored := by
  rcases liveKey_cases now slot with same | ⟨gone, _⟩
  · rw [← same, live]
  · rw [gone] at live
    cases live

theorem mem_members_of_live {member : Nat × (Nat × Nat)}
    (inside : member ∈ members (liveKey now slot)) : member ∈ members slot := by
  rcases liveKey_cases now slot with same | ⟨gone, _⟩
  · rwa [same] at inside
  · rw [gone] at inside
    cases inside

theorem RedisWindow.prune_live (fits : RedisWindow rule slot hits clock serial) (now : Nat) :
    rule.arguments.prune now (members (liveKey now slot)) =
      rule.arguments.prune now (members slot) := by
  rcases liveKey_cases now slot with same | ⟨gone, stored, set, expired⟩
  · rw [same]
  · rw [gone]
    symm
    apply List.eq_nil_iff_forall_not_mem.mpr
    intro member kept
    obtain ⟨inside, fresh⟩ := (mem_prune).mp kept
    have soon := fits.expiry stored set member inside
    omega

theorem prune_prune {rule : RuleArguments} {later : Nat} (soon : now ≤ later)
    (list : List (Nat × (Nat × Nat))) :
    rule.prune later (rule.prune now list) = rule.prune later list := by
  unfold RuleArguments.prune
  rw [List.filter_filter]
  apply List.filter_congr
  intro member _inside
  rw [Bool.eq_iff_iff, Bool.and_eq_true]
  simp only [Bool.not_eq_true', decide_eq_false_iff_not, not_le]
  omega

/-- `state[i]`, from what is stored. -/
def ruleState (rule : RuleArguments) (now : Nat) (slot : Option StoredKey) : RuleState :=
  if rule.bucket then rule.bucketState (redisTokens rule now slot)
  else rule.windowState now (rule.prune now (members (liveKey now slot)))

theorem RedisWindow.decided (window : rule.isBucket = false)
    (fits : RedisWindow rule slot hits clock serial) (after : clock ≤ now) :
    ∃ left, decideRule rule.arguments now slot =
        (.ok (ruleState rule.arguments now slot), left) ∧
      RedisWindow rule left hits now serial := by
  have kind : rule.arguments.bucket = false := window
  have pruned : ∀ later, now ≤ later → rule.arguments.prune later
          (rule.arguments.prune now (members (liveKey now slot))) =
        rule.arguments.prune later (members slot) := by
    intro later soon
    rw [fits.prune_live, prune_prune soon]
  cases live : liveKey now slot with
  | none =>
    refine ⟨none, ?_, ?_⟩
    · unfold decideRule ruleState
      rw [kind, live]
      rfl
    · rw [live] at pruned
      refine ⟨?_, by simp, by simp [members], by simp [members], by simp⟩
      intro later soon
      rw [← fits.view later (after.trans soon), ← pruned later soon]
      rfl
  | some stored =>
    have set := slot_of_live live
    obtain ⟨value, expiresAt⟩ := stored
    have zset : value = .zset (members slot) := fits.kind _ set
    rw [zset] at live
    rw [live] at pruned
    change ∀ later, now ≤ later → rule.arguments.prune later
      (rule.arguments.prune now (members slot)) = _ at pruned
    have inside : ∀ member ∈ rule.arguments.prune now (members slot),
        member ∈ members slot := fun member kept => ((mem_prune).mp kept).1
    refine ⟨if (rule.arguments.prune now (members slot)).isEmpty then none
      else some ⟨.zset (rule.arguments.prune now (members slot)), expiresAt⟩,
      ?_, ?_⟩
    · unfold decideRule ruleState
      rw [kind, live]
      rfl
    · have left : members (if (rule.arguments.prune now (members slot)).isEmpty then none
          else some ⟨.zset (rule.arguments.prune now (members slot)),
            expiresAt⟩) = rule.arguments.prune now (members slot) := by
        split
        case isTrue empty =>
          rw [List.isEmpty_iff.mp empty]
          rfl
        case isFalse => rfl
      constructor
      · intro later soon
        rw [left, pruned later soon, fits.view later (after.trans soon)]
      · intro stored kept
        rw [left]
        split at kept
        case isTrue => cases kept
        case isFalse =>
          cases kept
          rfl
      · intro member kept
        rw [left] at kept
        exact fits.old member (inside member kept)
      · intro member kept
        rw [left] at kept
        exact (fits.past member (inside member kept)).trans after
      · intro stored kept member there
        rw [left] at there
        split at kept
        case isTrue => cases kept
        case isFalse =>
          cases kept
          exact fits.expiry _ set member (inside member there)

theorem RedisBucket.decided (bucket : rule.isBucket = true)
    (fits : RedisBucket rule slot hits clock) (after : clock ≤ now) :
    ∃ left, decideRule rule.arguments now slot =
        (.ok (ruleState rule.arguments now slot), left) ∧
      RedisBucket rule left hits now := by
  have kind : rule.arguments.bucket = true := bucket
  cases live : liveKey now slot with
  | none =>
    refine ⟨none, ?_, ?_, by simp⟩
    · unfold decideRule ruleState redisTokens
      rw [kind, live]
      rfl
    · intro later soon
      rw [← fits.view later (after.trans soon)]
      rcases liveKey_cases now slot with same | ⟨_gone, stored, set, expired⟩
      · rw [same] at live
        rw [live]
      · have dead : stored.expiresAt < later := expired.trans_le soon
        unfold redisTokens
        rw [set, liveKey_dead dead]
        rfl
  | some stored =>
    have set := slot_of_live live
    obtain ⟨tokens, ts, hash⟩ := fits.kind _ set
    obtain ⟨value, expiresAt⟩ := stored
    change value = _ at hash
    refine ⟨slot, ?_, ?_, fits.kind⟩
    · unfold decideRule ruleState redisTokens
      rw [kind, live, hash, set, hash]
      rfl
    · intro later soon
      exact fits.view later (after.trans soon)

theorem zadd_perm {score : Nat} {member : Nat × Nat} {list : List (Nat × (Nat × Nat))}
    (new : ∀ other ∈ list, other.2 ≠ member) :
    (zadd score member list).Perm ((score, member) :: list) := by
  have others : (list.filter fun other => decide (other.2 ≠ member)) = list := by
    apply List.filter_eq_self.mpr
    intro other inside
    exact decide_eq_true (new other inside)
  unfold zadd
  rw [others]
  dsimp only
  refine List.perm_middle.trans ?_
  rw [List.takeWhile_append_dropWhile]

theorem RedisWindow.written (whole : WholeWindow rule) (window : rule.isBucket = false)
    (fits : RedisWindow rule slot hits now serial) {state : RuleState}
    (kind : state.bucket = rule.isBucket)
    (lives : state.ttl = rule.arguments.window) (place : Nat) :
    ∃ left, writeRule state (serial, place) now slot = (.ok (), left) ∧
      RedisWindow rule left (seconds now :: hits) now (serial + 1) := by
  have new : ∀ other ∈ members (liveKey now slot), other.2 ≠ (serial, place) := by
    intro other inside same
    have before := fits.old other (mem_members_of_live inside)
    rw [same] at before
    exact lt_irrefl _ before
  have all := @zadd_perm now _ _ new
  refine ⟨some ⟨.zset (zadd now (serial, place) (members (liveKey now slot))),
    now + state.ttl⟩, ?_, ?_⟩
  · unfold writeRule
    rw [kind, window]
    cases live : liveKey now slot with
    | none => rfl
    | some stored =>
      have set := slot_of_live live
      obtain ⟨value, expiresAt⟩ := stored
      have zset : value = .zset (members slot) := fits.kind _ set
      rw [zset]
      rfl
  · constructor
    · intro later soon
      have before := fits.view later soon
      have pruned : rule.arguments.prune later (members (liveKey now slot)) =
          rule.arguments.prune later (members slot) := by
        rw [← prune_prune soon, fits.prune_live, prune_prune soon]
      have counted := (all.filter fun member =>
        !decide ((member.1 : Int) ≤ (later : Int) - rule.arguments.window)).length_eq
      change (rule.arguments.prune later (zadd now (serial, place)
        (members (liveKey now slot)))).length = _
      change (rule.arguments.prune later _).length =
        (rule.arguments.prune later _).length at counted
      rw [counted]
      have edge := keeps_iff whole now later
      unfold seen at before ⊢
      unfold RuleArguments.prune at before pruned ⊢
      rw [List.filter_cons, List.filter_cons, pruned]
      by_cases kept : later < now + rule.arguments.window
      · rw [if_pos (edge.mpr kept), if_pos, List.length_cons, List.length_cons, before]
        simp only [Bool.not_eq_true', decide_eq_false_iff_not, not_le]
        omega
      · rw [if_neg (mt edge.mp kept), if_neg, before]
        simp only [Bool.not_eq_true', decide_eq_false_iff_not, not_le]
        omega
    · intro stored set
      cases set
      rfl
    · intro member inside
      rcases List.mem_cons.mp (all.subset inside) with rfl | earlier
      · exact Nat.lt_succ_self _
      · exact (fits.old member (mem_members_of_live earlier)).trans (Nat.lt_succ_self _)
    · intro member inside
      rcases List.mem_cons.mp (all.subset inside) with rfl | earlier
      · exact le_refl _
      · exact fits.past member (mem_members_of_live earlier)
    · intro stored set member inside
      cases set
      change member.1 + _ ≤ now + state.ttl
      rw [lives]
      rcases List.mem_cons.mp (all.subset inside) with rfl | earlier
      · exact le_refl _
      · exact Nat.add_le_add_right (fits.past member (mem_members_of_live earlier)) _

theorem full_after (rule : RateLimitRule) (whole : WholeWindow rule) {later : Nat}
    (passed : now + ((rule.arguments.capacity * rule.arguments.window : ℚ) /
      rule.arguments.limit).ceil.toNat < later) :
    (rule.capacity : ℚ) ≤ (seconds later - seconds now) * rule.refillPerSecond := by
  have positive : (0 : ℚ) < rule.arguments.window := by
    rw [whole.window]
    have window := rule.window_positive
    linarith
  have limited : (0 : ℚ) < rule.arguments.limit := by
    have requests := rule.requests_positive
    exact_mod_cast requests
  have soon : (rule.arguments.capacity * rule.arguments.window : ℚ) /
      rule.arguments.limit ≤ (later : ℚ) - now := by
    have above := @Rat.le_ceil ((rule.arguments.capacity *
      rule.arguments.window : ℚ) / rule.arguments.limit)
    have whole_part : ((rule.arguments.capacity * rule.arguments.window : ℚ) /
        rule.arguments.limit).ceil ≤ (later : Int) - now := by
      omega
    have casted : ((((rule.arguments.capacity * rule.arguments.window : ℚ) /
        rule.arguments.limit).ceil : Int) : ℚ) ≤ (later : ℚ) - now := by
      exact_mod_cast whole_part
    exact above.trans casted
  rw [← whole.refilled]
  unfold RuleArguments.rate
  have enough := (div_le_iff₀ limited).mp soon
  rw [← mul_div_assoc, le_div_iff₀ positive]
  exact enough

theorem RedisBucket.written (whole : WholeWindow rule) (bucket : rule.isBucket = true)
    (fits : RedisBucket rule slot hits now) {state : RuleState}
    (kind : state.bucket = rule.isBucket)
    (lives : state.ttl = ((rule.arguments.capacity * rule.arguments.window : ℚ) /
      rule.arguments.limit).ceil.toNat)
    (held : state.tokens = tokens rule hits (seconds now))
    (token : 1 ≤ tokens rule hits (seconds now)) (member : Nat × Nat) :
    ∃ left, writeRule state member now slot = (.ok (), left) ∧
      RedisBucket rule left (seconds now :: hits) now := by
  refine ⟨some ⟨.hash (state.tokens - 1) now, now + state.ttl⟩, ?_, ?_, ?_⟩
  · unfold writeRule
    rw [kind, bucket]
    cases live : liveKey now slot with
    | none => rfl
    | some stored =>
      have set := slot_of_live live
      obtain ⟨tokens, ts, hash⟩ := fits.kind _ set
      obtain ⟨value, expiresAt⟩ := stored
      change value = _ at hash
      rw [hash]
  · intro later soon
    change _ = min (rule.capacity : ℚ) (tokens rule hits (seconds now) - 1 +
        (seconds later - seconds now) * rule.refillPerSecond)
    unfold redisTokens
    by_cases live : later ≤ now + state.ttl
    · rw [liveKey_live live]
      change min (rule.capacity : ℚ) (state.tokens - 1 +
        max 0 ((later : ℚ) - now) * rule.arguments.rate) = _
      have passed : (0 : ℚ) ≤ (later : ℚ) - now := by
        have cast : (now : ℚ) ≤ later := by exact_mod_cast soon
        linarith
      rw [max_eq_right passed, whole.refilled, held]
    · have dead : now + state.ttl < later := not_le.mp live
      rw [liveKey_dead dead]
      change rule.arguments.tokensAt later (rule.arguments.capacity : ℚ) later = _
      rw [tokensAt_full, min_eq_left]
      · rfl
      · rw [lives] at dead
        have full := full_after rule whole dead
        linarith
  · intro stored set
    cases set
    exact ⟨_, _, rfl⟩

def accepts (edge : Edge) (rule : RateLimitRule) (hits : List ℚ) (now : ℚ) : Bool :=
  if rule.isBucket then decide (1 ≤ tokens rule hits now)
  else decide ((seen edge rule now hits).length < rule.maxRequests)

def RedisFits (rule : RateLimitRule) (slot : Option StoredKey) (hits : List ℚ)
    (clock serial : Nat) : Prop :=
  if rule.isBucket then RedisBucket rule slot hits clock
  else RedisWindow rule slot hits clock serial

theorem redisFits_bucket (bucket : rule.isBucket = true) :
    RedisFits rule slot hits clock serial ↔ RedisBucket rule slot hits clock := by
  unfold RedisFits
  rw [if_pos bucket]

theorem redisFits_window (window : rule.isBucket = false) :
    RedisFits rule slot hits clock serial ↔ RedisWindow rule slot hits clock serial := by
  unfold RedisFits
  rw [if_neg (by simp [window])]

theorem RedisFits.empty : RedisFits rule none [] clock serial := by
  cases kind : rule.isBucket with
  | true => exact (redisFits_bucket kind).mpr RedisBucket.empty
  | false => exact (redisFits_window kind).mpr RedisWindow.empty

theorem RedisFits.later {later after : Nat}
    (fits : RedisFits rule slot hits clock serial) (passed : clock ≤ later)
    (more : serial ≤ after) : RedisFits rule slot hits later after := by
  cases kind : rule.isBucket with
  | true =>
    rw [redisFits_bucket kind] at fits ⊢
    exact fits.later passed
  | false =>
    rw [redisFits_window kind] at fits ⊢
    exact fits.later passed more

theorem RedisFits.decided (fits : RedisFits rule slot hits clock serial) (after : clock ≤ now) :
    ∃ left, decideRule rule.arguments now slot =
        (.ok (ruleState rule.arguments now slot), left) ∧
      RedisFits rule left hits now serial := by
  cases kind : rule.isBucket with
  | true =>
    rw [redisFits_bucket kind] at fits
    obtain ⟨left, decided, leaves⟩ := fits.decided kind after
    exact ⟨left, decided, (redisFits_bucket kind).mpr leaves⟩
  | false =>
    rw [redisFits_window kind] at fits
    obtain ⟨left, decided, leaves⟩ := fits.decided kind after
    exact ⟨left, decided, (redisFits_window kind).mpr leaves⟩

theorem ruleState_bucket (rule : RateLimitRule) (now : Nat) (slot : Option StoredKey) :
    (ruleState rule.arguments now slot).bucket = rule.isBucket := by
  unfold ruleState
  change (if rule.isBucket = true then _ else _ : RuleState).bucket = _
  cases kind : rule.isBucket with
  | true =>
    rw [if_pos rfl]
    unfold RuleArguments.bucketState
    dsimp only
    split <;> rfl
  | false =>
    rw [if_neg Bool.false_ne_true]
    unfold RuleArguments.windowState
    dsimp only
    split <;> rfl

theorem RedisFits.state_ok (fits : RedisFits rule slot hits clock serial)
    (after : clock ≤ now) :
    (ruleState rule.arguments now slot).ok = accepts .left rule hits (seconds now) := by
  unfold ruleState accepts
  change (if rule.isBucket = true then _ else _ : RuleState).ok = _
  cases kind : rule.isBucket with
  | true =>
    rw [redisFits_bucket kind] at fits
    rw [if_pos rfl, if_pos rfl, fits.view now after]
    unfold RuleArguments.bucketState
    dsimp only
    split
    case isTrue enough => exact (decide_eq_true enough).symm
    case isFalse low => exact (decide_eq_false low).symm
  | false =>
    rw [redisFits_window kind] at fits
    rw [if_neg Bool.false_ne_true, if_neg Bool.false_ne_true, fits.prune_live]
    unfold RuleArguments.windowState
    dsimp only
    rw [fits.view now after]
    split
    case isTrue room => exact (decide_eq_true room).symm
    case isFalse full => exact (decide_eq_false full).symm

theorem RedisFits.written (whole : WholeWindow rule)
    {left : Option StoredKey} (fits : RedisFits rule slot hits clock serial)
    (after : clock ≤ now) (leaves : RedisFits rule left hits now serial)
    (accepted : accepts .left rule hits (seconds now) = true) (place : Nat) :
    ∃ last, writeRule (ruleState rule.arguments now slot) (serial, place) now
        left = (.ok (), last) ∧
      RedisFits rule last (seconds now :: hits) now (serial + 1) := by
  have same := ruleState_bucket rule now slot
  cases kind : rule.isBucket with
  | true =>
    rw [redisFits_bucket kind] at fits leaves
    have state : ruleState rule.arguments now slot =
        rule.arguments.bucketState (tokens rule hits (seconds now)) := by
      unfold ruleState
      rw [if_pos (show rule.arguments.bucket = true from kind), fits.view now after]
    have token : 1 ≤ tokens rule hits (seconds now) := by
      unfold accepts at accepted
      rw [if_pos kind] at accepted
      exact of_decide_eq_true accepted
    obtain ⟨last, wrote, fresh⟩ := leaves.written whole kind same
      (by rw [state]; unfold RuleArguments.bucketState; simp [token])
      (by rw [state]; unfold RuleArguments.bucketState; simp [token])
      token (serial, place)
    exact ⟨last, wrote, (redisFits_bucket kind).mpr fresh⟩
  | false =>
    rw [redisFits_window kind] at leaves
    have lives : (ruleState rule.arguments now slot).ttl = rule.arguments.window := by
      unfold ruleState RuleArguments.windowState
      rw [if_neg (by simp [RateLimitRule.arguments, kind])]
      dsimp only
      split <;> rfl
    obtain ⟨last, wrote, fresh⟩ := leaves.written whole kind same lives place
    exact ⟨last, wrote, (redisFits_window kind).mpr fresh⟩

end

end TempestSdk.Quota
