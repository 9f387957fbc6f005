import Mathlib.Data.List.Nodup
import TempestSdk.Api.QuotaHistory

/-!
# Runs of a quota store

Any number of requests under a fixed list of rules, on a clock that does not
run backwards.  What a request that was refused leaves behind shows in no later
answer, and the requests that were admitted stay within their rules in every
interval.
-/

namespace TempestSdk.Quota

open RateLimits (Sorted Windowed Paid level recent within)

structure Request where
  now : ℚ
  key : String
deriving DecidableEq

structure Entry where
  request : Request
  result : QuotaResult
deriving DecidableEq

structure State where
  store : MemoryQuotaStore
  clock : ℚ
  log : List Entry

namespace State

def initial (clock : ℚ) : State where
  store := .empty
  clock := clock
  log := []

def admitted (state : State) (key : String) : List ℚ :=
  (state.log.filter fun entry =>
    entry.result.allowed && entry.request.key == key).map fun entry => entry.request.now

end State

def step (general : ℚ → String) (rules : List RateLimitRule) (state : State)
    (request : Request) : Option State :=
  if state.clock ≤ request.now then
    match state.store.consume general request.now request.key rules with
    | .ok (result, store) => some ⟨store, request.now, ⟨request, result⟩ :: state.log⟩
    | .error _ => none
  else none

def Separate (general : ℚ → String) (rules : List RateLimitRule)
    (state : State) (request : Request) : Prop :=
  ∀ entry ∈ state.log, ∀ rule ∈ rules, ∀ other ∈ rules,
    ruleKey general request.key rule = ruleKey general entry.request.key other →
      request.key = entry.request.key

/-- No sweep drops a window at the moment its last hit is as old as the
window. -/
def SweepsLate (general : ℚ → String) (rules : List RateLimitRule)
    (state : State) (request : Request) : Prop :=
  (state.store.ops + 1) % gcEvery = 0 →
    ∀ entry ∈ state.log, ∀ rule ∈ rules, rule.isBucket = false →
      state.store.expiresAt (ruleKey general entry.request.key rule) ≠ some request.now

def Clean (general : ℚ → String) (rules : List RateLimitRule) (state : State)
    (request : Request) : Prop :=
  Separate general rules state request ∧ SweepsLate general rules state request

instance (general : ℚ → String) (rules : List RateLimitRule) (state : State)
    (request : Request) : Decidable (Separate general rules state request) :=
  inferInstanceAs (Decidable (∀ entry ∈ state.log, ∀ rule ∈ rules,
    ∀ other ∈ rules, ruleKey general request.key rule =
      ruleKey general entry.request.key other → request.key = entry.request.key))

instance (general : ℚ → String) (rules : List RateLimitRule) (state : State)
    (request : Request) : Decidable (SweepsLate general rules state request) :=
  inferInstanceAs (Decidable (_ → ∀ entry ∈ state.log, ∀ rule ∈ rules,
    rule.isBucket = false → state.store.expiresAt
      (ruleKey general entry.request.key rule) ≠ some request.now))

instance (general : ℚ → String) (rules : List RateLimitRule) (state : State)
    (request : Request) : Decidable (Clean general rules state request) :=
  inferInstanceAs (Decidable (_ ∧ _))

section

variable {general : ℚ → String} {rules : List RateLimitRule}
variable {state next : State} {request : Request} {edge : Edge}

theorem step_cases (taken : step general rules state request = some next) :
    state.clock ≤ request.now ∧ ∃ result,
      state.store.consume general request.now request.key rules = .ok (result, next.store) ∧
      next.clock = request.now ∧
      next.log = ⟨request, result⟩ :: state.log := by
  unfold step at taken
  split at taken
  case isFalse => cases taken
  case isTrue later =>
    split at taken
    case h_2 => cases taken
    case h_1 result store consumed =>
      cases taken
      exact ⟨later, result, consumed, rfl, rfl⟩

theorem ruleKeys_nodup (distinct : (rules.map (RateLimitRule.effectiveScope general)).Nodup)
    (key : String) : (rules.map (ruleKey general key)).Nodup := by
  have joined : rules.map (ruleKey general key) =
      (rules.map (RateLimitRule.effectiveScope general)).map
        fun scope => key ++ "|" ++ scope := by
    rw [List.map_map]
    rfl
  rw [joined]
  apply List.Nodup.map _ distinct
  intro one two same
  exact (String.append_right_inj _).mp same

theorem admitted_cons {entry : Entry} {key : String} (logged : next.log = entry :: state.log) :
    next.admitted key = if entry.result.allowed = true ∧ entry.request.key = key then
        entry.request.now :: state.admitted key
      else state.admitted key := by
  unfold State.admitted
  rw [logged, List.filter_cons]
  by_cases counts : entry.result.allowed = true ∧ entry.request.key = key
  · rw [if_pos counts, if_pos (by simpa using counts)]
    rfl
  · rw [if_neg counts, if_neg (by simpa using counts)]

structure Tracks (edge : Edge) (general : ℚ → String)
    (rules : List RateLimitRule) (state : State) : Prop where
  fits : ∀ entry ∈ state.log, ∀ rule ∈ rules, Fits edge rule
      (state.store.slot (ruleKey general entry.request.key rule))
      (state.admitted entry.request.key) state.clock
  untouched : ∀ name, (∀ entry ∈ state.log, ∀ rule ∈ rules,
      ruleKey general entry.request.key rule ≠ name) →
    state.store.slot name = Slot.empty
  past : ∀ entry ∈ state.log, entry.request.now ≤ state.clock
  sorted : state.log.Pairwise fun newer older =>
    older.request.now ≤ newer.request.now

theorem Tracks.initial (clock : ℚ) : Tracks edge general rules (State.initial clock) where
  fits _ member := by cases member
  untouched _ _ := rfl
  past _ member := by cases member
  sorted := List.Pairwise.nil

theorem Tracks.hits_past (tracks : Tracks edge general rules state)
    {key : String} {hit : ℚ} (member : hit ∈ state.admitted key) :
    hit ≤ state.clock := by
  obtain ⟨entry, kept, rfl⟩ := List.mem_map.mp member
  exact tracks.past entry (List.mem_of_mem_filter kept)

theorem Tracks.hits_sorted (tracks : Tracks edge general rules state)
    (key : String) : Sorted (state.admitted key) := by
  apply List.pairwise_map.mpr
  exact tracks.sorted.filter _

theorem State.admitted_eq_nil {key : String}
    (unknown : ¬ ∃ entry ∈ state.log, entry.request.key = key) :
    state.admitted key = [] := by
  unfold State.admitted
  rw [List.map_eq_nil_iff, List.filter_eq_nil_iff]
  intro entry logged counts
  apply unknown
  refine ⟨entry, logged, ?_⟩
  simp only [Bool.and_eq_true, beq_iff_eq] at counts
  exact counts.2

variable {rule : RateLimitRule}

theorem Tracks.own_empty (tracks : Tracks edge general rules state)
    (separate : Separate general rules state request)
    (unknown : ¬ ∃ entry ∈ state.log, entry.request.key = request.key)
    (member : rule ∈ rules) :
    state.store.slot (ruleKey general request.key rule) = Slot.empty := by
  apply tracks.untouched
  intro entry logged other other_member same
  apply unknown
  exact ⟨entry, logged, (separate entry logged rule member other other_member same.symm).symm⟩

theorem Tracks.fits_own (tracks : Tracks edge general rules state)
    (separate : Separate general rules state request) (member : rule ∈ rules) :
    Fits edge rule (state.store.slot (ruleKey general request.key rule))
      (state.admitted request.key) state.clock := by
  by_cases known : ∃ entry ∈ state.log, entry.request.key = request.key
  · obtain ⟨entry, logged, same⟩ := known
    rw [← same]
    exact tracks.fits entry logged rule member
  · rw [State.admitted_eq_nil known, tracks.own_empty separate known member]
    exact Fits.empty

variable {hits : List ℚ}

theorem Fits.swept {store : MemoryQuotaStore} {name : String} {clock now : ℚ}
    (fits : Fits edge rule (store.slot name) hits clock) (after : clock ≤ now)
    (late : edge = .counted → rule.isBucket = false →
      (store.ops + 1) % gcEvery = 0 → store.expiresAt name ≠ some now) :
    Fits edge rule ((store.swept now).slot name) hits now := by
  rw [MemoryQuotaStore.slot_swept]
  split
  case isTrue due => exact fits.sweep after fun counts window => late counts window due
  case isFalse => exact fits.later after

def Late (edge : Edge) (general : ℚ → String) (rules : List RateLimitRule)
    (state : State) (request : Request) : Prop :=
  edge = .counted → SweepsLate general rules state request

theorem Tracks.fits_swept (tracks : Tracks edge general rules state)
    (after : state.clock ≤ request.now)
    (late : Late edge general rules state request) {entry : Entry}
    (logged : entry ∈ state.log) (member : rule ∈ rules) :
    Fits edge rule ((state.store.swept request.now).slot
      (ruleKey general entry.request.key rule))
        (state.admitted entry.request.key) request.now := by
  apply (tracks.fits entry logged rule member).swept after
  intro counts window due
  exact late counts due entry logged rule member window

theorem Tracks.own_swept (tracks : Tracks edge general rules state)
    (separate : Separate general rules state request)
    (after : state.clock ≤ request.now)
    (late : Late edge general rules state request) (member : rule ∈ rules) :
    Fits edge rule ((state.store.swept request.now).slot
      (ruleKey general request.key rule)) (state.admitted request.key) request.now := by
  apply (tracks.fits_own separate member).swept after
  intro counts window due set
  by_cases known : ∃ entry ∈ state.log, entry.request.key = request.key
  · obtain ⟨entry, logged, same⟩ := known
    rw [← same] at set
    exact late counts due entry logged rule member window set
  · have fresh := tracks.own_empty separate known member
    have unset : state.store.expiresAt (ruleKey general request.key rule) =
        none := congrArg Slot.expiresAt fresh
    rw [unset] at set
    cases set

theorem slot_swept_empty {store : MemoryQuotaStore} {name : String} {now : ℚ}
    (fresh : store.slot name = Slot.empty) :
    (store.swept now).slot name = Slot.empty := by
  rw [MemoryQuotaStore.slot_swept, fresh]
  split
  · rfl
  · rfl

theorem Tracks.kept (some_rule : rules ≠ [])
    (distinct : (rules.map (RateLimitRule.effectiveScope general)).Nodup)
    (tracks : Tracks edge general rules state)
    (separate : Separate general rules state request)
    (late : Late edge general rules state request)
    (taken : step general rules state request = some next) :
    Tracks edge general rules next := by
  obtain ⟨after, result, consumed, clock, logged⟩ := step_cases taken
  have spec := MemoryQuotaStore.Consumed.of_ok some_rule
    (ruleKeys_nodup distinct request.key) consumed
  have own : ∀ rule ∈ rules, Fits edge rule (next.store.slot (ruleKey general request.key rule))
        (next.admitted request.key) next.clock := by
    intro rule member
    have pruned := (tracks.own_swept separate after late member).prune
    rw [admitted_cons logged, clock]
    cases allowed : result.allowed with
    | true =>
      rw [if_pos ⟨rfl, rfl⟩, spec.admitted allowed rule member]
      apply pruned.record
      intro hit earlier
      exact (tracks.hits_past earlier).trans after
    | false =>
      rw [if_neg (by simp), spec.refused allowed rule member]
      exact pruned
  constructor
  · intro entry member rule ruled
    rw [logged] at member
    by_cases same : entry.request.key = request.key
    · rw [same]
      exact own rule ruled
    · have old : entry ∈ state.log := by
        rcases List.mem_cons.mp member with rfl | earlier
        · exact (same rfl).elim
        · exact earlier
      have untouched : ruleKey general entry.request.key rule ∉
          rules.map (ruleKey general request.key) := by
        intro shared
        obtain ⟨other, other_member, equal⟩ := List.mem_map.mp shared
        exact same (separate entry old other other_member rule ruled equal).symm
      have kept : next.admitted entry.request.key = state.admitted entry.request.key := by
        rw [admitted_cons logged, if_neg fun both => same both.2.symm]
      rw [spec.others _ untouched, kept, clock]
      exact tracks.fits_swept after late old ruled
  · intro name unnamed
    rw [logged] at unnamed
    have absent : name ∉ rules.map (ruleKey general request.key) := by
      intro shared
      obtain ⟨rule, member, equal⟩ := List.mem_map.mp shared
      exact unnamed _ List.mem_cons_self rule member equal
    rw [spec.others name absent]
    apply slot_swept_empty
    apply tracks.untouched
    intro entry old
    exact unnamed entry (List.mem_cons_of_mem _ old)
  · intro entry member
    rw [logged] at member
    rw [clock]
    rcases List.mem_cons.mp member with rfl | old
    · exact le_refl _
    · exact (tracks.past entry old).trans after
  · rw [logged]
    apply List.pairwise_cons.mpr
    refine ⟨?_, tracks.sorted⟩
    intro entry old
    exact (tracks.past entry old).trans after

theorem Tracks.answer (some_rule : rules ≠ [])
    (distinct : (rules.map (RateLimitRule.effectiveScope general)).Nodup)
    (tracks : Tracks .counted general rules state)
    (clean : Clean general rules state request)
    (taken : step general rules state request = some next) :
    ∃ result, next.log = ⟨request, result⟩ :: state.log ∧
      quotaResult general (rules.map fun rule =>
        ⟨rule, verdict rule (state.admitted request.key) request.now⟩) = .ok result ∧
      (result.allowed = true → ∀ rule ∈ rules,
        (verdict rule (state.admitted request.key) request.now).ok = true) := by
  obtain ⟨after, result, consumed, _clock, logged⟩ := step_cases taken
  have spec := MemoryQuotaStore.Consumed.of_ok some_rule
    (ruleKeys_nodup distinct request.key) consumed
  have verdicts : (state.store.swept request.now).candidates general
      request.now request.key rules = rules.map fun rule =>
        ⟨rule, verdict rule (state.admitted request.key) request.now⟩ := by
    apply List.map_congr_left
    intro rule member
    rw [slotVerdict_of_fits (tracks.own_swept clean.1 after (fun _ => clean.2) member)]
  refine ⟨result, logged, verdicts ▸ spec.decided, ?_⟩
  intro allowed rule member
  have all := spec.allowed
  rw [verdicts, allowed] at all
  exact List.all_eq_true.mp all.symm _ (List.mem_map_of_mem member)

theorem windowed_of_ok {now : ℚ} (window : rule.isBucket = false)
    (ok : (verdict rule hits now).ok = true) :
    (recent rule.windowSeconds now hits).length < rule.maxRequests := by
  unfold verdict at ok
  rw [if_neg (by simp [window])] at ok
  unfold windowVerdict at ok
  dsimp only at ok
  split at ok
  case isTrue => cases ok
  case isFalse room =>
    rw [List.length_reverse] at room
    exact not_le.mp room

theorem paid_of_ok {now : ℚ} (bucket : rule.isBucket = true)
    (ok : (verdict rule hits now).ok = true) : 1 ≤ tokens rule hits now := by
  unfold verdict at ok
  rw [if_pos bucket] at ok
  unfold bucketVerdict at ok
  dsimp only at ok
  split at ok
  case isTrue => cases ok
  case isFalse enough => exact not_lt.mp enough

def Lawful (rule : RateLimitRule) (hits : List ℚ) : Prop :=
  if rule.isBucket then Paid (rule.capacity : ℚ) rule.refillPerSecond hits
  else Windowed rule.maxRequests rule.windowSeconds hits

theorem Lawful.nil (rule : RateLimitRule) : Lawful rule [] := by
  unfold Lawful
  split <;> trivial

theorem Lawful.cons {now : ℚ} (lawful : Lawful rule hits)
    (ok : (verdict rule hits now).ok = true) : Lawful rule (now :: hits) := by
  unfold Lawful at lawful ⊢
  cases kind : rule.isBucket with
  | true =>
    rw [kind, if_pos rfl] at lawful
    rw [if_pos rfl]
    exact ⟨paid_of_ok kind ok, lawful⟩
  | false =>
    rw [kind, if_neg Bool.false_ne_true] at lawful
    rw [if_neg Bool.false_ne_true]
    exact ⟨windowed_of_ok kind ok, lawful⟩

structure Sound (general : ℚ → String) (rules : List RateLimitRule)
    (state : State) : Prop where
  tracks : Tracks .counted general rules state
  lawful : ∀ key, ∀ rule ∈ rules, Lawful rule (state.admitted key)

theorem Sound.initial (clock : ℚ) : Sound general rules (State.initial clock) where
  tracks := Tracks.initial clock
  lawful _ rule _ := Lawful.nil rule

theorem Sound.kept (some_rule : rules ≠ [])
    (distinct : (rules.map (RateLimitRule.effectiveScope general)).Nodup)
    (sound : Sound general rules state)
    (clean : Clean general rules state request)
    (taken : step general rules state request = some next) :
    Sound general rules next where
  tracks := sound.tracks.kept some_rule distinct clean.1 (fun _ => clean.2) taken
  lawful := by
    intro key rule member
    obtain ⟨result, logged, _decided, oks⟩ :=
      sound.tracks.answer some_rule distinct clean taken
    rw [admitted_cons logged]
    split
    case isFalse => exact sound.lawful key rule member
    case isTrue counts =>
      obtain ⟨allowed, same⟩ := counts
      rw [← same]
      exact (sound.lawful _ rule member).cons (oks allowed rule member)

/-- The same was admitted, and the same answered since the two logs. -/
structure Alike (general : ℚ → String) (rules : List RateLimitRule)
    (base other_base : List Entry) (state other : State) : Prop where
  tracks : Tracks .counted general rules state
  other_tracks : Tracks .counted general rules other
  admitted : state.admitted = other.admitted
  answers : ∃ since other_since, state.log = since ++ base ∧
    other.log = other_since ++ other_base ∧
    since.map Entry.result = other_since.map Entry.result

theorem Alike.kept {base other_base : List Entry} {other other_next : State}
    (some_rule : rules ≠ [])
    (distinct : (rules.map (RateLimitRule.effectiveScope general)).Nodup)
    (alike : Alike general rules base other_base state other)
    (clean : Clean general rules state request)
    (other_clean : Clean general rules other request)
    (taken : step general rules state request = some next)
    (other_taken : step general rules other request = some other_next) :
    Alike general rules base other_base next other_next := by
  obtain ⟨result, logged, decided, _⟩ :=
    alike.tracks.answer some_rule distinct clean taken
  obtain ⟨other_result, other_logged, other_decided, _⟩ :=
    alike.other_tracks.answer some_rule distinct other_clean other_taken
  rw [alike.admitted, other_decided] at decided
  cases decided
  constructor
  · exact alike.tracks.kept some_rule distinct clean.1 (fun _ => clean.2) taken
  · exact alike.other_tracks.kept some_rule distinct other_clean.1
      (fun _ => other_clean.2) other_taken
  · funext key
    rw [admitted_cons logged, admitted_cons other_logged, alike.admitted]
  · obtain ⟨since, other_since, front, other_front, same⟩ := alike.answers
    refine ⟨⟨request, result⟩ :: since, ⟨request, result⟩ :: other_since, ?_, ?_, ?_⟩
    · rw [logged, front, List.cons_append]
    · rw [other_logged, other_front, List.cons_append]
    · rw [List.map_cons, List.map_cons, same]

/-- The three promises of a store, in a state of a run. -/
structure Kept (general : ℚ → String) (rules : List RateLimitRule)
    (state : State) : Prop where
  rejection : ∀ request refused result later last skipped,
    step general rules state request = some refused →
    refused.log = ⟨request, result⟩ :: state.log → result.allowed = false →
    Clean general rules state request →
    Runs.Meets (step general rules) (Clean general rules) refused later →
    Runs.Meets (step general rules) (Clean general rules) state later →
    Runs.exec (step general rules) refused later = some last →
    Runs.exec (step general rules) state later = some skipped →
    ∃ answers, last.log.map Entry.result = answers ++ refused.log.map Entry.result ∧
      skipped.log.map Entry.result = answers ++ state.log.map Entry.result
  /-- A window admits no more than its limit in any interval of its length. -/
  windows : ∀ rule ∈ rules, rule.isBucket = false → ∀ key start,
    (within start (start + rule.windowSeconds) (state.admitted key)).length ≤ rule.maxRequests
  buckets : ∀ rule ∈ rules, ∀ burst, rule.burst = some burst → ∀ key start length, 0 ≤ length →
      ((within start (start + length) (state.admitted key)).length : ℚ) ≤
        burst + rule.refillPerSecond * length

theorem Sound.rejection (some_rule : rules ≠ [])
    (distinct : (rules.map (RateLimitRule.effectiveScope general)).Nodup)
    (sound : Sound general rules state) {refused last skipped : State}
    {result : QuotaResult} {later : List Request}
    (taken : step general rules state request = some refused)
    (logged : refused.log = ⟨request, result⟩ :: state.log)
    (denied : result.allowed = false)
    (clean : Clean general rules state request)
    (refused_clean : Runs.Meets (step general rules) (Clean general rules) refused later)
    (state_clean : Runs.Meets (step general rules) (Clean general rules) state later)
    (run : Runs.exec (step general rules) refused later = some last)
    (other_run : Runs.exec (step general rules) state later = some skipped) :
    ∃ answers, last.log.map Entry.result = answers ++ refused.log.map Entry.result ∧
      skipped.log.map Entry.result = answers ++ state.log.map Entry.result := by
  have start : Alike general rules refused.log state.log refused state := by
    constructor
    · exact sound.tracks.kept some_rule distinct clean.1 (fun _ => clean.2) taken
    · exact sound.tracks
    · funext key
      rw [admitted_cons logged, if_neg (by simp [denied])]
    · exact ⟨[], [], rfl, rfl, rfl⟩
  have alike : Alike general rules refused.log state.log last skipped := by
    apply Runs.exec_lockstep _ refused_clean state_clean start run other_run
    intro one two request next other alike one_clean two_clean one_taken two_taken
    exact alike.kept some_rule distinct one_clean two_clean one_taken two_taken
  obtain ⟨since, other_since, front, other_front, same⟩ := alike.answers
  refine ⟨since.map Entry.result, ?_, ?_⟩
  · rw [front, List.map_append]
  · rw [other_front, List.map_append, same]

theorem Sound.limits (sound : Sound general rules state)
    (member : rule ∈ rules) (key : String) :
    (rule.isBucket = false → ∀ start, (within start (start + rule.windowSeconds)
        (state.admitted key)).length ≤ rule.maxRequests) ∧
    (∀ burst, rule.burst = some burst → ∀ start length, 0 ≤ length →
      ((within start (start + length) (state.admitted key)).length : ℚ) ≤
        burst + rule.refillPerSecond * length) := by
  have sorted := sound.tracks.hits_sorted key
  have lawful := sound.lawful key rule member
  unfold Lawful at lawful
  constructor
  · intro window start
    rw [if_neg (by simp [window])] at lawful
    exact lawful.bound sorted
  · intro burst set start length long
    have bucket : rule.isBucket = true := by simp [RateLimitRule.isBucket, set]
    have full : rule.capacity = burst := by
      simp [RateLimitRule.capacity, set]
    rw [if_pos bucket, full] at lawful
    have bound := lawful.bound (Nat.cast_nonneg burst) (refill_positive rule).le sorted
      (le_add_of_nonneg_right long : start ≤ start + length)
    rwa [add_sub_cancel_left] at bound

end

/-- In every run without a shared counter and without a sweep that comes
exactly one window after the last hit, the store keeps its promises. -/
theorem quotas_kept {general : ℚ → String} {rules : List RateLimitRule} (some_rule : rules ≠ [])
    (distinct : (rules.map (RateLimitRule.effectiveScope general)).Nodup)
    {clock : ℚ} {schedule : List Request} {final : State}
    (clean : Runs.Meets (step general rules) (Clean general rules)
      (State.initial clock) schedule)
    (run : Runs.exec (step general rules) (State.initial clock) schedule = some final) :
    Kept general rules final := by
  have sound : Sound general rules final := by
    apply Runs.exec_invariant_of_meets _ clean (Sound.initial clock) run
    intro state request next sound clean taken
    exact sound.kept some_rule distinct clean taken
  constructor
  · intro request refused result later last skipped taken logged denied
      request_clean refused_clean state_clean run other_run
    exact sound.rejection some_rule distinct taken logged denied request_clean
      refused_clean state_clean run other_run
  · intro rule member window key start
    exact (sound.limits member key).1 window start
  · intro rule member burst set key start length long
    exact (sound.limits member key).2 burst set start length long

def oncePerMinute : RateLimitRule where
  maxRequests := 1
  windowSeconds := 60
  burst := none
  scope := "minute"
  requests_positive := Nat.le_refl _
  window_positive := by norm_num
  burst_positive := fun _ => no_burst

def plain : ℚ → String := fun _ => ""

def refusedResult : QuotaResult := ⟨false, 1, 0, 60, 60, "minute"⟩

def spent (ops : Nat) : MemoryQuotaStore where
  windows := Function.update (fun _ => none) "key|minute" (some [0])
  buckets := fun _ => none
  expiresAt := Function.update (fun _ => none) "key|minute" (some 60)
  ops := ops

theorem consume_spent {ops : Nat} (quiet : (ops + 1) % gcEvery ≠ 0) :
    (spent ops).consume plain 0 "key" [oncePerMinute] =
      .ok (refusedResult, spent (ops + 1)) := by
  have swept : (spent ops).swept 0 = spent (ops + 1) := by
    unfold MemoryQuotaStore.swept
    dsimp only
    rw [if_neg (by simpa [spent] using quiet)]
    rfl
  have name : ruleKey plain "key" oncePerMinute = "key|minute" := by decide
  have state : windowState [0] 0 oncePerMinute =
      ([0], ⟨false, 0, 60, 60⟩) := by with_unfolding_all decide
  have charged : MemoryQuotaStore.charge plain 0 "key" [oncePerMinute] (spent (ops + 1)) =
        ([⟨oncePerMinute, ⟨false, 0, 60, 60⟩⟩], spent (ops + 1)) := by
    simp [MemoryQuotaStore.charge, MemoryQuotaStore.inspectAll,
      MemoryQuotaStore.inspect, name, RateLimitRule.isBucket, state, spent,
      allAllow]
    simp [oncePerMinute]
  rw [MemoryQuotaStore.consume_eq (by simp), swept, charged]
  rfl

theorem consume_first : ∃ result, MemoryQuotaStore.empty.consume plain 0 "key" [oncePerMinute] =
      .ok (result, spent 1) := by
  have name : ruleKey plain "key" oncePerMinute = "key|minute" := by decide
  have state : windowState [] 0 oncePerMinute = ([], ⟨true, 0, 60, 0⟩) := by
    decide
  have minute : (0 : ℚ) + oncePerMinute.windowSeconds = 60 := by
    with_unfolding_all decide
  have window : oncePerMinute.isBucket = false := rfl
  have charged : MemoryQuotaStore.charge plain 0 "key" [oncePerMinute]
      (MemoryQuotaStore.empty.swept 0) = ([⟨oncePerMinute, ⟨true, 0, 60, 0⟩⟩], spent 1) := by
    simp [MemoryQuotaStore.charge, MemoryQuotaStore.inspectAll,
      MemoryQuotaStore.inspect, MemoryQuotaStore.record, name, window, state,
      spent, allAllow, minute, MemoryQuotaStore.empty, MemoryQuotaStore.swept,
      gcEvery]
  rw [MemoryQuotaStore.consume_eq (by simp), charged]
  exact ⟨_, rfl⟩

theorem step_of_consume {general : ℚ → String} {rules : List RateLimitRule}
    {state : State} {request : Request} {result : QuotaResult}
    {store : MemoryQuotaStore} (after : state.clock ≤ request.now)
    (consumed : state.store.consume general request.now request.key rules =
      .ok (result, store)) :
    step general rules state request =
      some ⟨store, request.now, ⟨request, result⟩ :: state.log⟩ := by
  unfold step
  rw [if_pos after, consumed]

theorem exec_spent (count : Nat) {ops : Nat} (quiet : ops + count < gcEvery)
    (log : List Entry) :
    ∃ later, Runs.exec (step plain [oncePerMinute]) ⟨spent ops, 0, log⟩
      (List.replicate count ⟨0, "key"⟩) = some ⟨spent (ops + count), 0, later⟩ := by
  induction count generalizing ops log with
  | zero => exact ⟨log, rfl⟩
  | succ count induction =>
    have undue : (ops + 1) % gcEvery ≠ 0 := by
      rw [Nat.mod_eq_of_lt (by omega)]
      omega
    obtain ⟨later, run⟩ :=
      @induction (ops + 1) (by omega) (⟨⟨0, "key"⟩, refusedResult⟩ :: log)
    refine ⟨later, ?_⟩
    rw [List.replicate_succ]
    apply Runs.exec_cons.mpr
    refine ⟨_, step_of_consume (le_refl _) (consume_spent undue), ?_⟩
    rw [run, Nat.add_right_comm, Nat.add_assoc]

theorem consume_at_minute (ops : Nat) {allowed : Bool}
    (answered : ((spent ops).consume plain 60 "key"
      [oncePerMinute]).toOption.map (fun done => done.1.allowed) =
        some allowed) (log : List Entry) :
    ∃ next result, step plain [oncePerMinute] ⟨spent ops, 0, log⟩ ⟨60, "key"⟩ = some next ∧
      next.log = ⟨⟨60, "key"⟩, result⟩ :: log ∧ result.allowed = allowed := by
  cases consumed : (spent ops).consume plain 60 "key" [oncePerMinute] with
  | error error =>
    rw [consumed] at answered
    cases answered
  | ok done =>
    rw [consumed] at answered
    have later : (0 : ℚ) ≤ 60 := by norm_num
    refine ⟨_, done.1, step_of_consume later consumed, rfl, ?_⟩
    exact Option.some.inj answered

theorem refusal_changes_an_answer : ∃ before refused last skipped denied granted withheld,
      Runs.exec (step plain [oncePerMinute]) (State.initial 0)
        (List.replicate 998 ⟨0, "key"⟩) = some before ∧
      step plain [oncePerMinute] before ⟨0, "key"⟩ = some refused ∧
      refused.log = ⟨⟨0, "key"⟩, denied⟩ :: before.log ∧
      denied.allowed = false ∧
      step plain [oncePerMinute] refused ⟨60, "key"⟩ = some last ∧
      last.log = ⟨⟨60, "key"⟩, granted⟩ :: refused.log ∧
      granted.allowed = true ∧
      step plain [oncePerMinute] before ⟨60, "key"⟩ = some skipped ∧
      skipped.log = ⟨⟨60, "key"⟩, withheld⟩ :: before.log ∧
      withheld.allowed = false := by
  obtain ⟨first, consumed⟩ := consume_first
  obtain ⟨log, run⟩ := @exec_spent 997 1 (by decide) [⟨⟨0, "key"⟩, first⟩]
  have again := @consume_spent 998 (by decide)
  obtain ⟨last, granted, sweeps, last_log, allowed⟩ :=
    @consume_at_minute 999 true (by decide)
      (⟨⟨0, "key"⟩, refusedResult⟩ :: log)
  obtain ⟨skipped, withheld, keeps, skipped_log, denied⟩ :=
    @consume_at_minute 998 false (by with_unfolding_all decide) log
  refine ⟨⟨spent 998, 0, log⟩, ⟨spent 999, 0, _⟩, last, skipped, refusedResult,
    granted, withheld, ?_, step_of_consume (le_refl _) again, rfl, rfl, sweeps,
    last_log, allowed, keeps, skipped_log, denied⟩
  rw [List.replicate_succ]
  exact Runs.exec_cons.mpr ⟨_, step_of_consume (le_refl _) consumed, run⟩

def burstOfTwo : RateLimitRule where
  maxRequests := 1
  windowSeconds := 10
  burst := some 2
  scope := "burst"
  requests_positive := Nat.le_refl _
  window_positive := by norm_num
  burst_positive := fun _ same => Option.some.inj same ▸ one_le_two

def twoRules : List RateLimitRule := [oncePerMinute, burstOfTwo]

theorem quotas_kept_of_two : ∃ final, Runs.exec (step plain twoRules) (State.initial 0)
        [⟨0, "a"⟩, ⟨1, "a"⟩, ⟨2, "b"⟩, ⟨61, "a"⟩] = some final ∧
      final.admitted "a" = [61, 0] ∧ Kept plain twoRules final := by
  have reached : (Runs.exec (step plain twoRules) (State.initial 0)
      [⟨0, "a"⟩, ⟨1, "a"⟩, ⟨2, "b"⟩, ⟨61, "a"⟩]).map
        (fun final => final.admitted "a") = some [61, 0] := by
    with_unfolding_all decide
  obtain ⟨final, run, admitted⟩ := Option.map_eq_some_iff.mp reached
  refine ⟨final, run, admitted, ?_⟩
  exact quotas_kept (by decide) (by decide) (by with_unfolding_all decide) run

end TempestSdk.Quota
