import TempestSdk.Api.Quota
import TempestSdk.Library.RateLimits
import TempestSdk.Library.Runs

/-!
# What a quota store remembers

Of all it is told, a store needs to remember the requests that were admitted.
The store in memory forgets what is too old, some of it when it looks at a key
and some in its sweeps, and still answers as the whole history of the key
would.  An entry counts for one moment longer than the sweep keeps it.
-/

namespace TempestSdk.Quota

open RateLimits (Sorted Windowed Paid level recent within)

/-- Whether a hit as old as the window still counts. -/
inductive Edge where
  | counted
  | left
deriving DecidableEq

def Edge.keeps : Edge → ℚ → ℚ → Bool
  | .counted, cutoff, hit => decide (cutoff ≤ hit)
  | .left, cutoff, hit => decide (cutoff < hit)

def seen (edge : Edge) (rule : RateLimitRule) (now : ℚ) (hits : List ℚ) : List ℚ :=
  hits.filter (edge.keeps (now - rule.windowSeconds))

def tokens (rule : RateLimitRule) (hits : List ℚ) (now : ℚ) : ℚ :=
  level (rule.capacity : ℚ) rule.refillPerSecond hits now

def verdict (rule : RateLimitRule) (hits : List ℚ) (now : ℚ) : Verdict :=
  if rule.isBucket then bucketVerdict (tokens rule hits now) rule
  else windowVerdict (seen .counted rule now hits).reverse now rule

/-- What the three dictionaries hold under one key. -/
structure Slot where
  window : Option (List ℚ)
  bucket : Option (ℚ × ℚ)
  expiresAt : Option ℚ

namespace Slot

def empty : Slot := ⟨none, none, none⟩

def expired (slot : Slot) (now : ℚ) : Bool :=
  match slot.expiresAt with
  | some moment => decide (moment ≤ now)
  | none => false

def sweep (slot : Slot) (now : ℚ) : Slot :=
  if slot.expired now then empty else slot

def hits (slot : Slot) : List ℚ := slot.window.getD []

def tokens (slot : Slot) (rule : RateLimitRule) (now : ℚ) : ℚ :=
  let (held, updatedAt) := slot.bucket.getD ((rule.capacity : ℚ), now)
  refill rule held updatedAt now

def prune (slot : Slot) (rule : RateLimitRule) (now : ℚ) : Slot :=
  if rule.isBucket then slot
  else { slot with window := some (windowState slot.hits now rule).1 }

def record (slot : Slot) (rule : RateLimitRule) (refilled now : ℚ) : Slot :=
  if rule.isBucket then
    let left := refilled - 1
    { slot with
      bucket := some (left, now)
      expiresAt := some (now + (rule.capacity - left) / rule.refillPerSecond) }
  else
    { slot with
      window := some (slot.hits ++ [now])
      expiresAt := some (now + rule.windowSeconds) }

end Slot

section

variable {edge : Edge} {rule : RateLimitRule} {slot : Slot} {hits : List ℚ}
variable {clock now : ℚ}

/-- From `clock` on, the slot of a window looks like the history. -/
structure FitsWindow (edge : Edge) (rule : RateLimitRule) (slot : Slot)
    (hits : List ℚ) (clock : ℚ) : Prop where
  view : ∀ now, clock ≤ now → seen edge rule now slot.hits = (seen edge rule now hits).reverse
  expiry : ∀ moment, slot.expiresAt = some moment →
    ∀ hit ∈ hits, hit + rule.windowSeconds ≤ moment
  ordered : slot.hits.Pairwise (· ≤ ·)
  known : ∀ hit ∈ slot.hits, hit ∈ hits

/-- From `clock` on, the slot of a bucket looks like the history. -/
structure FitsBucket (rule : RateLimitRule) (slot : Slot) (hits : List ℚ)
    (clock : ℚ) : Prop where
  view : ∀ now, clock ≤ now → slot.tokens rule now = tokens rule hits now
  expiry : ∀ moment, slot.expiresAt = some moment →
    ∀ now, clock ≤ now → moment ≤ now → tokens rule hits now = rule.capacity

theorem refill_positive (rule : RateLimitRule) : 0 < rule.refillPerSecond := by
  have some_requests : (0 : ℚ) < rule.maxRequests := by
    exact_mod_cast rule.requests_positive
  exact div_pos some_requests rule.window_positive

theorem tokens_empty (rule : RateLimitRule) (now : ℚ) :
    Slot.empty.tokens rule now = rule.capacity := by
  simp [Slot.tokens, Slot.empty, refill]

theorem FitsWindow.later {later : ℚ} (fits : FitsWindow edge rule slot hits clock)
    (passed : clock ≤ later) : FitsWindow edge rule slot hits later where
  view now after := fits.view now (passed.trans after)
  expiry := fits.expiry
  ordered := fits.ordered
  known := fits.known

theorem FitsBucket.later {later : ℚ} (fits : FitsBucket rule slot hits clock)
    (passed : clock ≤ later) : FitsBucket rule slot hits later where
  view now after := fits.view now (passed.trans after)
  expiry moment set now after := fits.expiry moment set now (passed.trans after)

theorem FitsWindow.empty : FitsWindow edge rule Slot.empty [] clock where
  view _ _ := rfl
  expiry _ set := by cases set
  ordered := List.Pairwise.nil
  known _ member := by cases member

theorem FitsBucket.empty : FitsBucket rule Slot.empty [] clock where
  view now _ := tokens_empty rule now
  expiry _ set := by cases set

theorem seen_eq_nil {limit : ℚ} (early : ∀ hit ∈ hits, hit + rule.windowSeconds ≤ limit)
    (gone : edge = .counted → limit < now) (passed : limit ≤ now) :
    seen edge rule now hits = [] := by
  apply List.filter_eq_nil_iff.mpr
  intro hit member kept
  have bound := early hit member
  cases edge with
  | counted =>
    have late := gone rfl
    have inside := of_decide_eq_true kept
    linarith
  | left =>
    have inside := of_decide_eq_true kept
    linarith

theorem FitsWindow.sweep (fits : FitsWindow edge rule slot hits clock) (after : clock ≤ now)
    (late : edge = .counted → slot.expiresAt ≠ some now) :
    FitsWindow edge rule (slot.sweep now) hits now := by
  unfold Slot.sweep
  split
  case isFalse => exact fits.later after
  case isTrue expired =>
    unfold Slot.expired at expired
    split at expired
    case h_2 => cases expired
    case h_1 moment set =>
      have passed : moment ≤ now := of_decide_eq_true expired
      refine ⟨?_, ?_, List.Pairwise.nil, ?_⟩
      · intro later soon
        have nothing : seen edge rule later hits = [] := by
          apply seen_eq_nil (fits.expiry moment set) _ (passed.trans soon)
          intro counts
          have differs : moment ≠ now := by
            rintro rfl
            exact late counts set
          exact (lt_of_le_of_ne passed differs).trans_le soon
        rw [nothing]
        rfl
      · intro _ unset
        cases unset
      · intro _ member
        cases member

theorem FitsBucket.sweep (fits : FitsBucket rule slot hits clock)
    (after : clock ≤ now) : FitsBucket rule (slot.sweep now) hits now := by
  unfold Slot.sweep
  split
  case isFalse => exact fits.later after
  case isTrue expired =>
    unfold Slot.expired at expired
    split at expired
    case h_2 => cases expired
    case h_1 moment set =>
      have passed : moment ≤ now := of_decide_eq_true expired
      refine ⟨?_, ?_⟩
      · intro later soon
        rw [tokens_empty]
        exact (fits.expiry moment set later (after.trans soon) (passed.trans soon)).symm
      · intro _ unset
        cases unset

theorem windowState_pruned (ordered : hits.Pairwise (· ≤ ·)) :
    (windowState hits now rule).1 = seen .counted rule now hits := by
  simp only [windowState, seen]
  induction hits with
  | nil => rfl
  | cons oldest others induction =>
    obtain ⟨first, rest⟩ := List.pairwise_cons.mp ordered
    by_cases old : oldest < now - rule.windowSeconds
    · have dropped : ¬ Edge.counted.keeps (now - rule.windowSeconds) oldest = true := by
        intro kept
        exact absurd (of_decide_eq_true kept) (not_le.mpr old)
      rw [List.filter_cons_of_neg dropped, ← induction rest]
      simp [old]
    · have all : ∀ hit ∈ oldest :: others,
          Edge.counted.keeps (now - rule.windowSeconds) hit = true := by
        intro hit member
        apply decide_eq_true
        rcases List.mem_cons.mp member with rfl | later
        · exact not_lt.mp old
        · exact (not_lt.mp old).trans (first hit later)
      rw [List.filter_eq_self.mpr all]
      simp [old]

theorem seen_counted_seen {later : ℚ} (soon : now ≤ later) :
    seen edge rule later (seen .counted rule now hits) = seen edge rule later hits := by
  unfold seen
  rw [List.filter_filter]
  apply List.filter_congr
  intro hit _member
  rw [Bool.eq_iff_iff, Bool.and_eq_true]
  constructor
  · exact fun both => both.1
  · intro kept
    refine ⟨kept, decide_eq_true ?_⟩
    cases edge with
    | counted =>
      have inside := of_decide_eq_true kept
      linarith
    | left =>
      have inside := of_decide_eq_true kept
      linarith

theorem FitsWindow.prune (window : rule.isBucket = false)
    (fits : FitsWindow edge rule slot hits now) :
    FitsWindow edge rule (slot.prune rule now) hits now := by
  have pruned : (slot.prune rule now).hits = seen .counted rule now slot.hits := by
    simp only [Slot.prune, window, Bool.false_eq_true, if_false]
    exact windowState_pruned fits.ordered
  refine ⟨?_, ?_, ?_, ?_⟩
  · intro later soon
    rw [pruned, seen_counted_seen soon]
    exact fits.view later soon
  · intro moment set
    apply fits.expiry moment
    simpa [Slot.prune, window] using set
  · rw [pruned]
    exact fits.ordered.filter _
  · intro hit member
    rw [pruned] at member
    exact fits.known hit (List.mem_of_mem_filter member)

theorem FitsWindow.record (window : rule.isBucket = false)
    (fits : FitsWindow edge rule slot hits now) (refilled : ℚ)
    (latest : ∀ hit ∈ hits, hit ≤ now) :
    FitsWindow edge rule (slot.record rule refilled now) (now :: hits) now := by
  have added : (slot.record rule refilled now).hits = slot.hits ++ [now] := by
    simp only [Slot.record, window, Bool.false_eq_true, if_false]
    rfl
  refine ⟨?_, ?_, ?_, ?_⟩
  · intro later soon
    have before := fits.view later soon
    rw [added]
    unfold seen at before ⊢
    rw [List.filter_append, before]
    cases kept : edge.keeps (later - rule.windowSeconds) now with
    | true => simp [kept]
    | false => simp [kept]
  · intro moment set hit member
    have until_now : moment = now + rule.windowSeconds := by
      simp only [Slot.record, window, Bool.false_eq_true, if_false] at set
      exact (Option.some.inj set).symm
    rw [until_now]
    rcases List.mem_cons.mp member with rfl | earlier
    · exact le_refl _
    · linarith [latest hit earlier]
  · rw [added]
    apply List.pairwise_append.mpr
    refine ⟨fits.ordered, List.pairwise_singleton _ _, ?_⟩
    intro hit member other same
    rw [List.mem_singleton.mp same]
    exact latest hit (fits.known hit member)
  · intro hit member
    rw [added] at member
    rcases List.mem_append.mp member with old | new
    · exact List.mem_cons_of_mem _ (fits.known hit old)
    · rw [List.mem_singleton.mp new]
      exact List.mem_cons_self

theorem FitsBucket.prune (bucket : rule.isBucket = true)
    (fits : FitsBucket rule slot hits now) :
    FitsBucket rule (slot.prune rule now) hits now := by
  unfold Slot.prune
  rw [if_pos bucket]
  exact fits

theorem FitsBucket.record (bucket : rule.isBucket = true)
    (fits : FitsBucket rule slot hits now) :
    FitsBucket rule (slot.record rule (slot.tokens rule now) now) (now :: hits) now := by
  have held := fits.view now (le_refl _)
  have refills := refill_positive rule
  unfold Slot.record
  rw [if_pos bucket, held]
  refine ⟨?_, ?_⟩
  · intro later soon
    have gap : max 0 (later - now) = later - now :=
      max_eq_right (sub_nonneg.mpr soon)
    simp only [Slot.tokens, Option.getD_some, refill, gap]
    rfl
  · intro moment set later soon passed
    have full := (Option.some.inj set).symm
    rw [full] at passed
    apply min_eq_left
    have room : (rule.capacity - (tokens rule hits now - 1)) /
        rule.refillPerSecond ≤ later - now := by
      linarith
    have enough := (div_le_iff₀ refills).mp room
    change (rule.capacity : ℚ) ≤ tokens rule hits now - 1 + _
    linarith

def Fits (edge : Edge) (rule : RateLimitRule) (slot : Slot) (hits : List ℚ)
    (clock : ℚ) : Prop :=
  if rule.isBucket then FitsBucket rule slot hits clock
  else FitsWindow edge rule slot hits clock

theorem fits_bucket (bucket : rule.isBucket = true) :
    Fits edge rule slot hits clock ↔ FitsBucket rule slot hits clock := by
  unfold Fits
  rw [if_pos bucket]

theorem fits_window (window : rule.isBucket = false) :
    Fits edge rule slot hits clock ↔ FitsWindow edge rule slot hits clock := by
  unfold Fits
  rw [if_neg (by simp [window])]

theorem Fits.empty : Fits edge rule Slot.empty [] clock := by
  cases kind : rule.isBucket with
  | true => exact (fits_bucket kind).mpr FitsBucket.empty
  | false => exact (fits_window kind).mpr FitsWindow.empty

theorem Fits.sweep (fits : Fits edge rule slot hits clock) (after : clock ≤ now)
    (late : edge = .counted → rule.isBucket = false → slot.expiresAt ≠ some now) :
    Fits edge rule (slot.sweep now) hits now := by
  cases kind : rule.isBucket with
  | true =>
    rw [fits_bucket kind] at fits ⊢
    exact fits.sweep after
  | false =>
    rw [fits_window kind] at fits ⊢
    exact fits.sweep after fun counts => late counts kind

theorem Fits.later {later : ℚ} (fits : Fits edge rule slot hits clock)
    (passed : clock ≤ later) : Fits edge rule slot hits later := by
  cases kind : rule.isBucket with
  | true =>
    rw [fits_bucket kind] at fits ⊢
    exact fits.later passed
  | false =>
    rw [fits_window kind] at fits ⊢
    exact fits.later passed

theorem Fits.prune (fits : Fits edge rule slot hits now) :
    Fits edge rule (slot.prune rule now) hits now := by
  cases kind : rule.isBucket with
  | true =>
    rw [fits_bucket kind] at fits ⊢
    exact fits.prune kind
  | false =>
    rw [fits_window kind] at fits ⊢
    exact fits.prune kind

theorem Fits.record (fits : Fits edge rule slot hits now) (latest : ∀ hit ∈ hits, hit ≤ now) :
    Fits edge rule (slot.record rule (slot.tokens rule now) now) (now :: hits) now := by
  cases kind : rule.isBucket with
  | true =>
    rw [fits_bucket kind] at fits ⊢
    exact fits.record kind
  | false =>
    rw [fits_window kind] at fits ⊢
    exact fits.record kind _ latest

end

def slotVerdict (rule : RateLimitRule) (slot : Slot) (now : ℚ) : Verdict :=
  if rule.isBucket then bucketVerdict (slot.tokens rule now) rule
  else windowVerdict (windowState slot.hits now rule).1 now rule

theorem slotVerdict_of_fits {rule : RateLimitRule} {slot : Slot}
    {hits : List ℚ} {now : ℚ} (fits : Fits .counted rule slot hits now) :
    slotVerdict rule slot now = verdict rule hits now := by
  unfold slotVerdict verdict
  cases kind : rule.isBucket with
  | true =>
    rw [fits_bucket kind] at fits
    simp only [if_true]
    rw [fits.view now (le_refl _)]
  | false =>
    rw [fits_window kind] at fits
    simp only [Bool.false_eq_true, if_false]
    rw [windowState_pruned fits.ordered, fits.view now (le_refl _)]

theorem retry_of_refused {rule : RateLimitRule} {slot : Slot} {now : ℚ}
    (refused : (slotVerdict rule slot now).ok = false) :
    0 < (slotVerdict rule slot now).retry := by
  unfold slotVerdict at refused ⊢
  split at refused
  case isTrue bucket =>
    rw [if_pos bucket]
    unfold bucketVerdict at refused ⊢
    dsimp only at refused ⊢
    split at refused
    case isTrue low =>
      rw [if_pos low]
      exact lt_of_lt_of_le Int.zero_lt_one (le_max_left _ _)
    case isFalse => cases refused
  case isFalse window =>
    rw [if_neg window]
    unfold windowVerdict at refused ⊢
    dsimp only at refused ⊢
    split at refused
    case isFalse => cases refused
    case isTrue full =>
      rw [if_pos full]
      have requests := rule.requests_positive
      cases hits : (windowState slot.hits now rule).1 with
      | nil =>
        rw [hits, List.length_nil] at full
        omega
      | cons oldest others => exact lt_of_lt_of_le Int.zero_lt_one (le_max_left _ _)

section

variable {general : ℚ → String} {key : String} {now : ℚ}

theorem quotaResult_ok {candidates : List Candidate} (some_rule : candidates ≠ [])
    (waits : ∀ candidate ∈ candidates, candidate.verdict.ok = false →
      0 < candidate.verdict.retry) :
    ∃ result, quotaResult general candidates = .ok result ∧
      result.allowed = allAllow candidates := by
  cases candidates with
  | nil => exact (some_rule rfl).elim
  | cons first others =>
    by_cases allowed : allAllow (first :: others) = true
    · simp only [quotaResult, if_pos allowed]
      exact ⟨_, rfl, allowed.symm⟩
    · obtain ⟨refusing, member, refused⟩ :
          ∃ candidate ∈ first :: others, candidate.verdict.ok = false := by
        by_contra none_refuses
        apply allowed
        apply List.all_eq_true.mpr
        intro candidate member
        by_contra refuses
        exact none_refuses ⟨candidate, member, by simpa using refuses⟩
      have waiting : refusing ∈ (first :: others).filter fun candidate =>
          decide (0 < candidate.verdict.retry) :=
        List.mem_filter.mpr ⟨member, decide_eq_true (waits refusing member refused)⟩
      simp only [quotaResult, if_neg allowed]
      split
      case h_1 nobody =>
        rw [nobody] at waiting
        cases waiting
      case h_2 => exact ⟨_, rfl, by simpa using allowed⟩

namespace MemoryQuotaStore

def slot (store : MemoryQuotaStore) (name : String) : Slot :=
  ⟨store.windows name, store.buckets name, store.expiresAt name⟩

variable {store : MemoryQuotaStore} {rule : RateLimitRule} {name : String}

theorem slot_sweep : (store.sweep now).slot name = (store.slot name).sweep now := by
  cases gone : store.expired now name with
  | true =>
    have slot_gone : (store.slot name).expired now = true := gone
    rw [Slot.sweep, if_pos slot_gone]
    simp [slot, sweep, gone, Slot.empty]
  | false =>
    have slot_kept : (store.slot name).expired now = false := gone
    rw [Slot.sweep, slot_kept]
    simp [slot, sweep, gone]

theorem slot_swept : (store.swept now).slot name =
      if (store.ops + 1) % gcEvery = 0 then (store.slot name).sweep now
      else store.slot name := by
  unfold swept
  dsimp only
  split
  · exact slot_sweep
  · rfl

theorem ops_swept : (store.swept now).ops = store.ops + 1 := by
  unfold swept
  dsimp only
  split <;> rfl

def pendingOf (general : ℚ → String) (store : MemoryQuotaStore) (now : ℚ)
    (key : String) (rule : RateLimitRule) : Pending where
  candidate := ⟨rule, slotVerdict rule (store.slot (ruleKey general key rule)) now⟩
  ruleKey := ruleKey general key rule
  refilled :=
    if rule.isBucket then
      (store.slot (ruleKey general key rule)).tokens rule now
    else 0

theorem inspect_pending : (store.inspect general now key rule).2 =
      store.pendingOf general now key rule := by
  unfold inspect pendingOf slotVerdict
  cases kind : rule.isBucket with
  | true => rfl
  | false => rfl

theorem inspect_slot_self :
    (store.inspect general now key rule).1.slot (ruleKey general key rule) =
      (store.slot (ruleKey general key rule)).prune rule now := by
  unfold inspect Slot.prune
  cases kind : rule.isBucket with
  | true => rfl
  | false => simp [slot, Slot.hits]

theorem inspect_slot_of_ne (other : name ≠ ruleKey general key rule) :
    (store.inspect general now key rule).1.slot name = store.slot name := by
  unfold inspect
  cases kind : rule.isBucket with
  | true => rfl
  | false => simp [slot, other]

theorem inspect_ops : (store.inspect general now key rule).1.ops = store.ops := by
  unfold inspect
  split <;> rfl

variable {rules : List RateLimitRule}

theorem inspectAll_slot_of_not_mem (absent : name ∉ rules.map (ruleKey general key)) :
    (inspectAll general now key rules store).1.slot name = store.slot name := by
  induction rules generalizing store with
  | nil => rfl
  | cons rule rules induction =>
    rw [List.map_cons, List.mem_cons, not_or] at absent
    exact (induction absent.2).trans (inspect_slot_of_ne absent.1)

theorem inspectAll_slot (distinct : (rules.map (ruleKey general key)).Nodup)
    (member : rule ∈ rules) :
    (inspectAll general now key rules store).1.slot (ruleKey general key rule) =
      (store.slot (ruleKey general key rule)).prune rule now := by
  induction rules generalizing store with
  | nil => cases member
  | cons head rules induction =>
    obtain ⟨fresh, others⟩ := List.nodup_cons.mp distinct
    rcases List.mem_cons.mp member with rfl | later
    · exact (inspectAll_slot_of_not_mem fresh).trans inspect_slot_self
    · have differs : ruleKey general key rule ≠ ruleKey general key head := by
        intro same
        rw [← same] at fresh
        exact fresh (List.mem_map_of_mem later)
      have after :=
        @induction (store.inspect general now key head).1 others later
      rw [inspect_slot_of_ne differs] at after
      exact after

theorem inspectAll_pending (distinct : (rules.map (ruleKey general key)).Nodup) :
    (inspectAll general now key rules store).2 =
      rules.map (store.pendingOf general now key) := by
  induction rules generalizing store with
  | nil => rfl
  | cons head rules induction =>
    obtain ⟨fresh, others⟩ := List.nodup_cons.mp distinct
    have tail : rules.map ((store.inspect general now key head).1.pendingOf general now key) =
          rules.map (store.pendingOf general now key) := by
      apply List.map_congr_left
      intro rule member
      have differs : ruleKey general key rule ≠ ruleKey general key head := by
        intro same
        rw [← same] at fresh
        exact fresh (List.mem_map_of_mem member)
      unfold pendingOf
      rw [inspect_slot_of_ne differs]
    rw [List.map_cons, ← tail, ← induction others, ← inspect_pending]
    rfl

theorem inspectAll_ops : (inspectAll general now key rules store).1.ops = store.ops := by
  induction rules generalizing store with
  | nil => rfl
  | cons head rules induction => exact induction.trans inspect_ops

theorem record_slot_self (pending : Pending) : (record now store pending).slot pending.ruleKey =
      (store.slot pending.ruleKey).record pending.candidate.rule pending.refilled now := by
  unfold record Slot.record
  dsimp only
  split
  · simp [slot]
  · simp [slot, Slot.hits]

theorem record_slot_of_ne (pending : Pending) (other : name ≠ pending.ruleKey) :
    (record now store pending).slot name = store.slot name := by
  unfold record
  dsimp only
  split
  · simp [slot, other]
  · simp [slot, other]

theorem record_ops (pending : Pending) : (record now store pending).ops = store.ops := by
  unfold record
  dsimp only
  split <;> rfl

theorem recordAll_slot_of_not_mem {all : List Pending}
    (absent : name ∉ all.map Pending.ruleKey) :
    (all.foldl (record now) store).slot name = store.slot name := by
  induction all generalizing store with
  | nil => rfl
  | cons pending all induction =>
    rw [List.map_cons, List.mem_cons, not_or] at absent
    exact (induction absent.2).trans (record_slot_of_ne pending absent.1)

theorem recordAll_slot {all : List Pending} {pending : Pending}
    (distinct : (all.map Pending.ruleKey).Nodup) (member : pending ∈ all) :
    (all.foldl (record now) store).slot pending.ruleKey =
      (store.slot pending.ruleKey).record pending.candidate.rule pending.refilled now := by
  induction all generalizing store with
  | nil => cases member
  | cons head all induction =>
    obtain ⟨fresh, others⟩ := List.nodup_cons.mp distinct
    rcases List.mem_cons.mp member with rfl | later
    · exact (recordAll_slot_of_not_mem fresh).trans (record_slot_self pending)
    · have differs : pending.ruleKey ≠ head.ruleKey := by
        intro same
        rw [← same] at fresh
        exact fresh (List.mem_map_of_mem later)
      have after := @induction (record now store head) others later
      rw [record_slot_of_ne head differs] at after
      exact after

theorem recordAll_ops {all : List Pending} :
    (all.foldl (record now) store).ops = store.ops := by
  induction all generalizing store with
  | nil => rfl
  | cons head all induction => exact induction.trans (record_ops head)

def candidates (general : ℚ → String) (store : MemoryQuotaStore) (now : ℚ)
    (key : String) (rules : List RateLimitRule) : List Candidate :=
  rules.map fun rule =>
    ⟨rule, slotVerdict rule (store.slot (ruleKey general key rule)) now⟩

structure Consumed (general : ℚ → String) (now : ℚ) (key : String)
    (rules : List RateLimitRule) (store next : MemoryQuotaStore)
    (result : QuotaResult) : Prop where
  decided : quotaResult general
    ((store.swept now).candidates general now key rules) = .ok result
  allowed : result.allowed = allAllow ((store.swept now).candidates general now key rules)
  ops : next.ops = store.ops + 1
  others : ∀ name, name ∉ rules.map (ruleKey general key) →
    next.slot name = (store.swept now).slot name
  refused : result.allowed = false → ∀ rule ∈ rules, next.slot (ruleKey general key rule) =
      ((store.swept now).slot (ruleKey general key rule)).prune rule now
  admitted : result.allowed = true → ∀ rule ∈ rules, next.slot (ruleKey general key rule) =
      (((store.swept now).slot (ruleKey general key rule)).prune rule now).record rule
          ((((store.swept now).slot (ruleKey general key rule)).prune rule
            now).tokens rule now) now

theorem record_window {rule : RateLimitRule} {slot : Slot} {one two : ℚ}
    (window : rule.isBucket = false) :
    slot.record rule one now = slot.record rule two now := by
  simp [Slot.record, window]

theorem consume_eq (some_rule : rules ≠ []) :
    store.consume general now key rules = (quotaResult general
        (charge general now key rules (store.swept now)).1).map fun result =>
          (result, (charge general now key rules (store.swept now)).2) := by
  have nonempty : rules.isEmpty = false := by simpa using some_rule
  unfold consume
  simp only [nonempty, Bool.false_eq_true, if_false]
  cases quotaResult general (charge general now key rules (store.swept now)).1 with
  | error error => rfl
  | ok result => rfl

theorem consume_spec (some_rule : rules ≠ [])
    (distinct : (rules.map (ruleKey general key)).Nodup) :
    ∃ result next, store.consume general now key rules = .ok (result, next) ∧
      Consumed general now key rules store next result := by
  have verdicts : (charge general now key rules (store.swept now)).1 =
      (store.swept now).candidates general now key rules := by
    unfold charge
    dsimp only
    rw [inspectAll_pending distinct, List.map_map]
    rfl
  have names : (inspectAll general now key rules (store.swept now)).2.map
      Pending.ruleKey = rules.map (ruleKey general key) := by
    rw [inspectAll_pending distinct, List.map_map]
    rfl
  obtain ⟨result, decided, allowed⟩ : ∃ result, quotaResult general
          ((store.swept now).candidates general now key rules) = .ok result ∧
        result.allowed = allAllow ((store.swept now).candidates general now key rules) := by
    apply quotaResult_ok
    · simpa [candidates] using some_rule
    · intro candidate member refused
      obtain ⟨rule, _member, rfl⟩ := List.mem_map.mp member
      exact retry_of_refused refused
  have charged : (charge general now key rules (store.swept now)).2 = if result.allowed then
        (inspectAll general now key rules (store.swept now)).2.foldl
          (record now) (inspectAll general now key rules (store.swept now)).1
      else (inspectAll general now key rules (store.swept now)).1 := by
    rw [allowed, ← verdicts]
    rfl
  refine ⟨result, (charge general now key rules (store.swept now)).2, ?_, ?_⟩
  · rw [consume_eq some_rule, verdicts, decided]
    rfl
  · rw [charged]
    constructor
    · exact decided
    · exact allowed
    · split
      · rw [recordAll_ops, inspectAll_ops, ops_swept]
      · rw [inspectAll_ops, ops_swept]
    · intro name absent
      split
      · rw [recordAll_slot_of_not_mem (names ▸ absent), inspectAll_slot_of_not_mem absent]
      · exact inspectAll_slot_of_not_mem absent
    · intro refused rule member
      rw [if_neg (by simp [refused])]
      exact inspectAll_slot distinct member
    · intro admitted rule member
      rw [if_pos admitted]
      have there : (store.swept now).pendingOf general now key rule ∈
          (inspectAll general now key rules (store.swept now)).2 := by
        rw [inspectAll_pending distinct]
        exact List.mem_map_of_mem member
      have recorded := @recordAll_slot now
        (inspectAll general now key rules (store.swept now)).1 _ _
        (names ▸ distinct) there
      rw [pendingOf, inspectAll_slot distinct member] at recorded
      rw [recorded]
      cases kind : rule.isBucket with
      | true => simp [Slot.prune, kind]
      | false => exact record_window kind

theorem Consumed.of_ok {result : QuotaResult} {next : MemoryQuotaStore} (some_rule : rules ≠ [])
    (distinct : (rules.map (ruleKey general key)).Nodup)
    (consumed : store.consume general now key rules = .ok (result, next)) :
    Consumed general now key rules store next result := by
  obtain ⟨decision, after, same, spec⟩ := consume_spec some_rule distinct
  rw [consumed] at same
  cases same
  exact spec

end MemoryQuotaStore

end

end TempestSdk.Quota
