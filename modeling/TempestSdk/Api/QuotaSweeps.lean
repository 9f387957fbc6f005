import TempestSdk.Api.QuotaRetry

/-!
# Sweeps of a quota store

A store that sweeps at any of its calls runs beside one that never does.  A
sweep may not show in the answers, and every counter has an expiry at which a
sweep will find it.
-/

namespace TempestSdk.Quota

/-- How a counter counts: its window, or its capacity and its refill. -/
inductive Counts where
  | window (seconds : ℚ)
  | bucket (capacity : Nat) (refill : ℚ)

def RateLimitRule.counts (rule : RateLimitRule) : Counts :=
  if rule.isBucket then .bucket rule.capacity rule.refillPerSecond
  else .window rule.windowSeconds

namespace Counts

def reading : Counts → Slot → ℚ → List ℚ × ℚ
  | .window seconds, slot, now =>
    (slot.hits.dropWhile fun hit => decide (hit < now - seconds), 0)
  | .bucket capacity refill, slot, now =>
    let (held, updatedAt) := slot.bucket.getD ((capacity : ℚ), now)
    ([], min (capacity : ℚ) (held + max 0 (now - updatedAt) * refill))

/-- A counter that expired at the moment reads like a new one. -/
def Over : Counts → ℚ → ℚ → Prop
  | .window _, moment, now => moment < now
  | .bucket _ _, moment, now => moment ≤ now

def recorded (refilled now : ℚ) (readings : ℚ → List ℚ × ℚ) (later : ℚ) : Counts → List ℚ × ℚ
  | .window seconds =>
    if (readings later).1.isEmpty then
      ([now].dropWhile fun hit => decide (hit < later - seconds), 0)
    else ((readings later).1 ++ [now], 0)
  | .bucket capacity refill =>
    ([], min (capacity : ℚ) (refilled - 1 + max 0 (later - now) * refill))

/-- What a slot reads from `clock` on. -/
structure Reads (counts : Counts) (slot : Slot) (clock : ℚ)
    (readings : ℚ → List ℚ × ℚ) : Prop where
  reads : ∀ now, clock ≤ now → counts.reading slot now = readings now
  spent : ∀ moment, slot.expiresAt = some moment → ∀ now, clock ≤ now →
    counts.Over moment now → readings now = counts.reading Slot.empty now
  past : ∀ hit ∈ slot.hits, hit ≤ clock

variable {counts : Counts} {slot : Slot} {clock now : ℚ}
variable {readings : ℚ → List ℚ × ℚ} {rule : RateLimitRule}

theorem Reads.later (reads : counts.Reads slot clock readings)
    (passed : clock ≤ now) : counts.Reads slot now readings where
  reads moment soon := reads.reads moment (passed.trans soon)
  spent moment set later soon := reads.spent moment set later (passed.trans soon)
  past hit member := (reads.past hit member).trans passed

theorem Reads.sweep (reads : counts.Reads slot now readings)
    (late : slot.window.isSome → slot.expiresAt ≠ some now) :
    counts.Reads (slot.sweep now) now readings := by
  unfold Slot.sweep Slot.expired
  cases set : slot.expiresAt with
  | none => exact reads
  | some moment =>
    by_cases passed : moment ≤ now
    case neg => simpa [passed] using reads
    case pos =>
      rw [if_pos (by simpa using passed)]
      refine ⟨?_, fun _ unset => (nomatch unset), fun _ member => (nomatch member)⟩
      intro later soon
      cases counts with
      | bucket capacity refill =>
        exact (reads.spent moment set later soon (passed.trans soon)).symm
      | window seconds =>
        cases kept : slot.window with
        | none =>
          rw [← reads.reads later soon]
          simp [reading, Slot.hits, kept, Slot.empty]
        | some hits =>
          have differs : moment ≠ now := by
            intro same
            exact late (by simp [kept]) (same ▸ set)
          have before : moment < now := lt_of_le_of_ne passed differs
          exact (reads.spent moment set later soon (before.trans_le soon)).symm

theorem dropWhile_dropWhile {first second : ℚ} (soon : first ≤ second) (hits : List ℚ) :
    (hits.dropWhile fun hit => decide (hit < first)).dropWhile
        (fun hit => decide (hit < second)) =
      hits.dropWhile fun hit => decide (hit < second) := by
  induction hits with
  | nil => rfl
  | cons hit hits induction =>
    by_cases old : hit < first
    · simp [old, old.trans_le soon, induction]
    · simp [old]

theorem Reads.prune (reads : rule.counts.Reads slot now readings) :
    rule.counts.Reads (slot.prune rule now) now readings := by
  unfold RateLimitRule.counts Slot.prune at *
  split
  case isTrue bucket => simpa only [if_pos bucket] using reads
  case isFalse window =>
    rw [if_neg window] at reads
    refine ⟨?_, reads.spent, ?_⟩
    · intro later soon
      rw [← reads.reads later soon]
      have cutoff : now - rule.windowSeconds ≤ later - rule.windowSeconds := by
        linarith
      exact congrArg (·, (0 : ℚ)) (dropWhile_dropWhile cutoff slot.hits)
    · intro hit member
      exact reads.past hit (List.dropWhile_subset _ member)

theorem Reads.record (reads : rule.counts.Reads slot now readings)
    (refilled : ℚ) : rule.counts.Reads (slot.record rule refilled now) now
      (fun later => rule.counts.recorded refilled now readings later) := by
  have refills := refill_positive rule
  unfold RateLimitRule.counts Slot.record at *
  split
  case isTrue bucket =>
    rw [if_pos bucket] at reads
    refine ⟨fun _ _ => rfl, ?_, reads.past⟩
    intro moment set later soon ended
    have full := Option.some.inj set
    have room : (rule.capacity - (refilled - 1)) / rule.refillPerSecond ≤ later - now := by
      have passed : moment ≤ later := ended
      linarith
    have enough := (div_le_iff₀ refills).mp room
    have gap : max 0 (later - now) = later - now :=
      max_eq_right (sub_nonneg.mpr soon)
    simp only [recorded, reading, gap, Slot.empty, Option.getD_none, sub_self,
      max_self, zero_mul, add_zero, min_self]
    rw [min_eq_left (by linarith)]
  case isFalse window =>
    rw [if_neg window] at reads
    have added : ∀ later, now ≤ later → reading (.window rule.windowSeconds)
          ⟨some (slot.hits ++ [now]), slot.bucket, some (now + rule.windowSeconds)⟩ later =
          recorded refilled now readings later (.window rule.windowSeconds) := by
      intro later soon
      have before := congrArg Prod.fst (reads.reads later soon)
      simp only [reading, Slot.hits, Option.getD_some] at before ⊢
      unfold recorded
      rw [List.dropWhile_append, before]
      split <;> rfl
    refine ⟨added, ?_, ?_⟩
    · intro moment set later soon ended
      have moment_eq := Option.some.inj set
      have passed : moment < later := ended
      rw [← added later soon]
      have gone : ∀ hit ∈ slot.hits ++ [now], hit < later - rule.windowSeconds := by
        intro hit member
        rcases List.mem_append.mp member with old | new
        · linarith [reads.past hit old]
        · rw [List.mem_singleton.mp new]
          linarith
      exact congrArg (·, (0 : ℚ)) (List.dropWhile_eq_nil_iff.mpr
        fun hit member => decide_eq_true (gone hit member))
    · intro hit member
      rcases List.mem_append.mp member with old | new
      · exact reads.past hit old
      · exact (List.mem_singleton.mp new).le

end Counts

namespace MemoryQuotaStore

def sweptWhen (sweeps : Bool) (store : MemoryQuotaStore) (now : ℚ) : MemoryQuotaStore :=
  let counted := { store with ops := store.ops + 1 }
  if sweeps then counted.sweep now else counted

/-- The answer of `consume`, and the store after it, when a sweep runs at the
call or not.  A call without rules raises before it counts. -/
def consumeWhen (general : ℚ → String) (sweeps : Bool)
    (store : MemoryQuotaStore) (now : ℚ) (key : String)
    (rules : List RateLimitRule) :
    Except String QuotaResult × MemoryQuotaStore :=
  let charged := charge general now key rules (store.sweptWhen sweeps now)
  (quotaResult general charged.1, if rules.isEmpty then store else charged.2)

theorem consume_eq_when (general : ℚ → String) (store : MemoryQuotaStore)
    (now : ℚ) (key : String) (rules : List RateLimitRule) :
    store.consume general now key rules =
      let done := store.consumeWhen general
        (decide ((store.ops + 1) % gcEvery = 0)) now key rules
      done.1.map fun result => (result, done.2) := by
  cases rules with
  | nil => rfl
  | cons rule rules =>
    have same : store.sweptWhen (decide ((store.ops + 1) % gcEvery = 0)) now =
        store.swept now := by
      simp [sweptWhen, swept]
    rw [consume_eq (by simp), ← same]
    rfl

theorem slot_sweptWhen {store : MemoryQuotaStore} {sweeps : Bool} {now : ℚ}
    {name : String} : (store.sweptWhen sweeps now).slot name =
      if sweeps then (store.slot name).sweep now else store.slot name := by
  cases sweeps with
  | true => exact slot_sweep
  | false => rfl

def Twins (counts : String → Counts) (clock : ℚ) (one two : MemoryQuotaStore) : Prop :=
  ∀ name, ∃ readings, (counts name).Reads (one.slot name) clock readings ∧
    (counts name).Reads (two.slot name) clock readings

variable {general : ℚ → String} {counts : String → Counts} {now : ℚ}
variable {key : String} {rule : RateLimitRule} {rules : List RateLimitRule}
variable {one two : MemoryQuotaStore}

theorem slotVerdict_reading (slot : Slot) : slotVerdict rule slot now =
    if rule.isBucket then bucketVerdict (rule.counts.reading slot now).2 rule
    else windowVerdict (rule.counts.reading slot now).1 now rule := by
  unfold slotVerdict RateLimitRule.counts
  split <;> rfl

theorem tokens_reading (slot : Slot) (bucket : rule.isBucket = true) :
    slot.tokens rule now = (rule.counts.reading slot now).2 := by
  unfold RateLimitRule.counts
  rw [if_pos bucket]
  rfl

section

variable (twins : Twins counts now one two)

include twins

theorem Twins.inspect
    (alike : rule.counts = counts (ruleKey general key rule)) :
    (one.inspect general now key rule).2 = (two.inspect general now key rule).2 ∧
      Twins counts now (one.inspect general now key rule).1
        (two.inspect general now key rule).1 := by
  obtain ⟨readings, first, second⟩ := twins (ruleKey general key rule)
  rw [← alike] at first second
  have same : rule.counts.reading (one.slot (ruleKey general key rule)) now =
      rule.counts.reading (two.slot (ruleKey general key rule)) now :=
    (first.reads now (le_refl _)).trans (second.reads now (le_refl _)).symm
  constructor
  · rw [inspect_pending, inspect_pending]
    unfold pendingOf
    rw [slotVerdict_reading, slotVerdict_reading, same]
    congr 1
    split
    case isTrue bucket => rw [tokens_reading _ bucket, tokens_reading _ bucket, same]
    case isFalse => rfl
  · intro name
    by_cases here : name = ruleKey general key rule
    · subst here
      refine ⟨readings, ?_⟩
      rw [inspect_slot_self, inspect_slot_self, ← alike]
      exact ⟨first.prune, second.prune⟩
    · rw [inspect_slot_of_ne here, inspect_slot_of_ne here]
      exact twins name

theorem Twins.inspectAll
    (alike : ∀ rule ∈ rules, rule.counts = counts (ruleKey general key rule)) :
    (inspectAll general now key rules one).2 = (inspectAll general now key rules two).2 ∧
      Twins counts now (inspectAll general now key rules one).1
        (inspectAll general now key rules two).1 := by
  induction rules generalizing one two with
  | nil => exact ⟨rfl, twins⟩
  | cons rule rules induction =>
    obtain ⟨head, after⟩ := twins.inspect (alike rule List.mem_cons_self)
    obtain ⟨tail, last⟩ := induction after
      fun other member => alike other (List.mem_cons_of_mem _ member)
    exact ⟨congrArg₂ List.cons head tail, last⟩

theorem Twins.record {pending : Pending}
    (alike : pending.candidate.rule.counts = counts pending.ruleKey) :
    Twins counts now (one.record now pending) (two.record now pending) := by
  intro name
  by_cases here : name = pending.ruleKey
  · subst here
    obtain ⟨readings, first, second⟩ := twins pending.ruleKey
    rw [← alike] at first second ⊢
    rw [record_slot_self, record_slot_self]
    exact ⟨_, first.record pending.refilled, second.record pending.refilled⟩
  · rw [record_slot_of_ne pending here, record_slot_of_ne pending here]
    exact twins name

theorem Twins.recordAll {all : List Pending}
    (alike : ∀ pending ∈ all, pending.candidate.rule.counts = counts pending.ruleKey) :
    Twins counts now (all.foldl (MemoryQuotaStore.record now) one)
      (all.foldl (MemoryQuotaStore.record now) two) := by
  induction all generalizing one two with
  | nil => exact twins
  | cons pending all induction =>
    exact induction (twins.record (alike pending List.mem_cons_self))
      fun other member => alike other (List.mem_cons_of_mem _ member)

end

theorem pending_alike (alike : ∀ rule ∈ rules, rule.counts = counts (ruleKey general key rule))
    {pending : Pending}
    (member : pending ∈ (MemoryQuotaStore.inspectAll general now key rules one).2) :
    pending.candidate.rule.counts = counts pending.ruleKey := by
  obtain ⟨front, rule, back, split, rfl⟩ := mem_inspectAll.mp member
  exact alike rule (split ▸ List.mem_append_right _ List.mem_cons_self)

theorem Twins.consume {clock : ℚ} (twins : Twins counts clock one two)
    (after : clock ≤ now) {sweeps : Bool}
    (alike : ∀ rule ∈ rules, rule.counts = counts (ruleKey general key rule))
    (late : sweeps = true → ∀ name, (one.windows name).isSome → one.expiresAt name ≠ some now) :
    (one.consumeWhen general sweeps now key rules).1 =
        (two.consumeWhen general false now key rules).1 ∧
      Twins counts now (one.consumeWhen general sweeps now key rules).2
        (two.consumeWhen general false now key rules).2 := by
  have ready : Twins counts now one two := by
    intro name
    obtain ⟨readings, first, second⟩ := twins name
    exact ⟨readings, first.later after, second.later after⟩
  have swept : Twins counts now (one.sweptWhen sweeps now) (two.sweptWhen false now) := by
    intro name
    obtain ⟨readings, first, second⟩ := ready name
    refine ⟨readings, ?_, second⟩
    rw [slot_sweptWhen]
    split
    case isTrue runs => exact first.sweep (late runs name)
    case isFalse => exact first
  obtain ⟨pending, inspected⟩ := swept.inspectAll alike
  unfold consumeWhen charge
  dsimp only
  rw [← pending]
  refine ⟨rfl, ?_⟩
  split
  · exact ready
  · split
    · exact inspected.recordAll fun _ member => pending_alike alike member
    · exact inspected

def Dated (owed : String → Prop) (store : MemoryQuotaStore) : Prop :=
  ∀ name, (store.windows name).isSome ∨ (store.buckets name).isSome →
    (store.expiresAt name).isSome ∨ owed name

variable {owed : String → Prop} {store : MemoryQuotaStore} {sweeps : Bool}

theorem Dated.sweptWhen (dated : store.Dated owed) :
    (store.sweptWhen sweeps now).Dated owed := by
  intro name there
  cases sweeps with
  | false => exact dated name there
  | true =>
    cases gone : store.expired now name with
    | true =>
      have window : ((store.sweptWhen true now).windows name).isSome = false :=
        congrArg Option.isSome (if_pos gone)
      have bucket : ((store.sweptWhen true now).buckets name).isSome = false :=
        congrArg Option.isSome (if_pos gone)
      simp [window, bucket] at there
    | false =>
      have kept : ((store.sweptWhen true now).slot name) = store.slot name := by
        have stays : (store.slot name).expired now = false := gone
        rw [slot_sweptWhen, if_pos rfl, Slot.sweep, stays]
        rfl
      obtain ⟨window, bucket, expiry⟩ := Slot.mk.inj kept
      rw [window, bucket] at there
      rw [expiry]
      exact dated name there

theorem Dated.inspect (dated : store.Dated owed) (known : rule.isBucket = false →
      (store.windows (ruleKey general key rule)).isSome ∨ owed (ruleKey general key rule)) :
    (store.inspect general now key rule).1.Dated owed := by
  intro name there
  unfold MemoryQuotaStore.inspect at there ⊢
  cases kind : rule.isBucket with
  | true =>
    simp only [kind, if_true] at there ⊢
    exact dated name there
  | false =>
    simp only [kind, Bool.false_eq_true, if_false] at there ⊢
    by_cases here : name = ruleKey general key rule
    · subst here
      rcases known kind with window | later
      · exact dated _ (.inl window)
      · exact .inr later
    · rw [Function.update_of_ne here] at there
      exact dated name there

theorem inspect_windows_isSome {name : String} (there : (store.windows name).isSome) :
    ((store.inspect general now key rule).1.windows name).isSome := by
  unfold MemoryQuotaStore.inspect
  split
  · exact there
  · by_cases here : name = ruleKey general key rule
    · subst here
      simp
    · simpa [here] using there

theorem Dated.inspectAll (dated : store.Dated owed)
    (known : ∀ rule ∈ rules, rule.isBucket = false →
      (store.windows (ruleKey general key rule)).isSome ∨ owed (ruleKey general key rule)) :
    (MemoryQuotaStore.inspectAll general now key rules store).1.Dated owed := by
  induction rules generalizing store with
  | nil => exact dated
  | cons rule rules induction =>
    apply induction (dated.inspect (known rule List.mem_cons_self))
    intro other member window
    exact (known other (List.mem_cons_of_mem _ member) window).imp_left inspect_windows_isSome

theorem pending_ruleKeys : (MemoryQuotaStore.inspectAll general now key rules store).2.map
        Pending.ruleKey = rules.map (ruleKey general key) := by
  have named := congrArg (List.map Prod.snd) (@pending_names general key now store rules)
  simp only [List.map_map] at named
  exact named

theorem record_expiresAt (pending : Pending) (name : String) :
    ((store.record now pending).expiresAt name).isSome =
      (decide (name = pending.ruleKey) || (store.expiresAt name).isSome) := by
  unfold MemoryQuotaStore.record
  by_cases here : name = pending.ruleKey
  · subst here
    dsimp only
    split <;> simp
  · dsimp only
    split <;> simp [here]

theorem Dated.recordAll {all : List Pending} (dated : store.Dated fun name => owed name ∨
      name ∈ all.map Pending.ruleKey) :
    (all.foldl (MemoryQuotaStore.record now) store).Dated owed := by
  induction all generalizing store with
  | nil => simpa using dated
  | cons pending all induction =>
    apply induction
    intro name there
    rw [record_expiresAt]
    by_cases here : name = pending.ruleKey
    · simp [here]
    · have slots := @record_slot_of_ne now store name pending here
      obtain ⟨window, bucket, _expiry⟩ := Slot.mk.inj slots
      rw [window, bucket] at there
      simpa [here] using dated name there

def Known (general : ℚ → String) (store : MemoryQuotaStore) (now : ℚ)
    (key : String) (rules : List RateLimitRule) : Prop :=
  allAllow (charge general now key rules store).1 = true ∨
    ∀ rule ∈ rules, rule.isBucket = false → (store.windows (ruleKey general key rule)).isSome

theorem Dated.consume (dated : store.Dated fun _ => False)
    (known : (store.sweptWhen sweeps now).Known general now key rules) :
    (store.consumeWhen general sweeps now key rules).2.Dated fun _ => False := by
  have swept := @Dated.sweptWhen now _ store sweeps dated
  unfold consumeWhen
  dsimp only
  split
  · exact dated
  · unfold Known at known
    unfold charge at known ⊢
    dsimp only at known ⊢
    split
    case isFalse refused =>
      apply swept.inspectAll
      intro rule member window
      exact .inl (known.resolve_left refused rule member window)
    case isTrue =>
      apply Dated.recordAll
      apply Dated.inspectAll
      · intro name there
        exact (swept name there).imp_right False.elim
      · intro rule member _window
        right
        right
        rw [pending_ruleKeys]
        exact List.mem_map_of_mem member

theorem consumeWhen_slot {name : String} (unused : name ∉ rules.map (ruleKey general key)) :
    (store.consumeWhen general sweeps now key rules).2.slot name = store.slot name ∨
      (store.consumeWhen general sweeps now key rules).2.slot name = Slot.empty := by
  have counted : (charge general now key rules (store.sweptWhen sweeps now)).2.slot name =
        (store.sweptWhen sweeps now).slot name := by
    unfold charge
    dsimp only
    split
    · rw [recordAll_slot_of_not_mem (pending_ruleKeys ▸ unused),
        inspectAll_slot_of_not_mem unused]
    · exact inspectAll_slot_of_not_mem unused
  unfold consumeWhen
  dsimp only
  split
  · exact .inl rfl
  · rw [counted, slot_sweptWhen, Slot.sweep]
    split
    · split
      · exact .inr rfl
      · exact .inl rfl
    · exact .inl rfl

end MemoryQuotaStore

structure SweptCall where
  now : ℚ
  key : String
  rules : List RateLimitRule
  sweeps : Bool

/-- A store and the one beside it that is never swept, with their answers. -/
structure Beside where
  store : MemoryQuotaStore
  unswept : MemoryQuotaStore
  clock : ℚ
  answers : List (Except String QuotaResult)
  others : List (Except String QuotaResult)

def Beside.initial (clock : ℚ) : Beside := ⟨.empty, .empty, clock, [], []⟩

def SweptCall.after (general : ℚ → String) (store : MemoryQuotaStore)
    (call : SweptCall) : Except String QuotaResult × MemoryQuotaStore :=
  store.consumeWhen general call.sweeps call.now call.key call.rules

def besideStep (general : ℚ → String) (state : Beside) (call : SweptCall) : Option Beside :=
  if state.clock ≤ call.now then
    let done := call.after general state.store
    let other := { call with sweeps := false }.after general state.unswept
    some ⟨done.2, other.2, call.now, done.1 :: state.answers, other.1 :: state.others⟩
  else none

/-- The rules of a call count as the counters do; a sweep does not come at
the very moment at which a window counter expires; and a call that is refused
finds a counter behind each of its window rules. -/
structure Harmless (general : ℚ → String) (counts : String → Counts)
    (state : Beside) (call : SweptCall) : Prop where
  alike : ∀ rule ∈ call.rules, rule.counts = counts (ruleKey general call.key rule)
  late : call.sweeps = true → ∀ name, (state.store.windows name).isSome →
    state.store.expiresAt name ≠ some call.now
  known : (state.store.sweptWhen call.sweeps call.now).Known general call.now
    call.key call.rules

def SweptLater (general : ℚ → String) (store : MemoryQuotaStore) (name : String) : Prop :=
  ∃ moment, store.expiresAt name = some moment ∧ ∀ later : List SweptCall,
      (∀ call ∈ later, name ∉ call.rules.map (ruleKey general call.key)) →
    ∀ now, moment ≤ now → ((later.foldl (fun store call => (call.after general store).2)
        store).sweep now).slot name = Slot.empty

/-- Sweeps do not show, and none of them will miss a counter. -/
structure Beside.Swept (general : ℚ → String) (state : Beside) : Prop where
  invisible : state.answers = state.others
  complete : ∀ name, (state.store.windows name).isSome ∨ (state.store.buckets name).isSome →
      SweptLater general state.store name

variable {general : ℚ → String} {counts : String → Counts}

theorem swept_away {store : MemoryQuotaStore} {name : String} {moment now : ℚ}
    {later : List SweptCall}
    (due : store.slot name = Slot.empty ∨
      store.expiresAt name = some moment) (passed : moment ≤ now)
    (unused : ∀ call ∈ later, name ∉ call.rules.map (ruleKey general call.key)) :
    ((later.foldl (fun store call => (call.after general store).2)
      store).sweep now).slot name = Slot.empty := by
  induction later generalizing store with
  | nil =>
    rw [List.foldl_nil, MemoryQuotaStore.slot_sweep]
    rcases due with gone | set
    · rw [gone]
      rfl
    · have expired : (store.slot name).expired now = true := by
        simp [Slot.expired, MemoryQuotaStore.slot, set, passed]
      rw [Slot.sweep, if_pos expired]
  | cons call later induction =>
    apply induction _ fun other member =>
      unused other (List.mem_cons_of_mem _ member)
    rcases @MemoryQuotaStore.consumeWhen_slot general call.now call.key
      call.rules store call.sweeps name (unused call List.mem_cons_self) with
      kept | gone
    · rcases due with nothing | set
      · exact .inl (kept.trans nothing)
      · exact .inr ((congrArg Slot.expiresAt kept).trans set)
    · exact .inl gone

theorem besideStep_cases {state next : Beside} {call : SweptCall}
    (taken : besideStep general state call = some next) :
    state.clock ≤ call.now ∧ next = ⟨(call.after general state.store).2,
        ({ call with sweeps := false }.after general state.unswept).2, call.now,
        (call.after general state.store).1 :: state.answers,
        ({ call with sweeps := false }.after general state.unswept).1 :: state.others⟩ := by
  unfold besideStep at taken
  split at taken
  case isTrue after => exact ⟨after, (Option.some.inj taken).symm⟩
  case isFalse => cases taken

/-- The stores read the same, and the counters have expiries. -/
structure Beside.Sound (counts : String → Counts) (state : Beside) : Prop where
  same : state.answers = state.others
  twins : MemoryQuotaStore.Twins counts state.clock state.store state.unswept
  dated : state.store.Dated fun _ => False

theorem Beside.Sound.initial (clock : ℚ) : (Beside.initial clock).Sound counts where
  same := rfl
  twins name := by
    have fresh : (counts name).Reads Slot.empty clock ((counts name).reading Slot.empty) :=
      ⟨fun _ _ => rfl, fun _ unset => (nomatch unset), fun _ member => (nomatch member)⟩
    exact ⟨_, fresh, fresh⟩
  dated name there := by
    simp [Beside.initial, MemoryQuotaStore.empty] at there

theorem Beside.Sound.step {state next : Beside} {call : SweptCall}
    (sound : state.Sound counts) (harmless : Harmless general counts state call)
    (taken : besideStep general state call = some next) : next.Sound counts := by
  obtain ⟨after, rfl⟩ := besideStep_cases taken
  obtain ⟨answer, later⟩ :=
    sound.twins.consume after harmless.alike harmless.late
  exact ⟨congrArg₂ List.cons answer sound.same, later, sound.dated.consume harmless.known⟩

def oncePerHour : RateLimitRule where
  maxRequests := 1
  windowSeconds := 3600
  burst := none
  scope := "hour"
  requests_positive := one_request
  window_positive := by norm_num
  burst_positive := fun _ => no_burst

end TempestSdk.Quota
