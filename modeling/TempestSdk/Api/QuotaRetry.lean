import TempestSdk.Api.QuotaRuns
import TempestSdk.Api.RateLimit

/-!
# Waiting for a quota

A request that is refused is told how long to wait.  Each key has rules of its
own, some of which may share a counter, and while one key waits the others go
on.  The wait is over for every bucket, and for every window but one whose
oldest hit is then exactly as old as the window.  The rate limiter counts in
the same way.
-/

namespace TempestSdk.Quota

open SlidingLogs (Roomy prune)

/-! ## The loops under any list of rules -/

def copies (general : ℚ → String) (key : String) (rules : List RateLimitRule)
    (name : String) : Nat :=
  rules.countP fun rule => !rule.isBucket && ruleKey general key rule == name

namespace MemoryQuotaStore

section

variable {general : ℚ → String} {key name : String} {now : ℚ}
variable {store : MemoryQuotaStore} {rule : RateLimitRule}
variable {rules front back : List RateLimitRule}

theorem inspect_buckets : (store.inspect general now key rule).1.buckets = store.buckets := by
  unfold inspect
  split
  · rfl
  · rfl

theorem inspectAll_buckets :
    (inspectAll general now key rules store).1.buckets = store.buckets := by
  induction rules generalizing store with
  | nil => rfl
  | cons rule rules induction => exact induction.trans inspect_buckets

theorem inspect_hits (name : String) :
    ((store.inspect general now key rule).1.slot name).hits = (store.slot name).hits ∨
      ∃ cutoff, ((store.inspect general now key rule).1.slot name).hits =
        prune cutoff (store.slot name).hits := by
  by_cases same : name = ruleKey general key rule
  · subst same
    rw [inspect_slot_self]
    unfold Slot.prune
    split
    · exact .inl rfl
    · exact .inr ⟨now - rule.windowSeconds, rfl⟩
  · rw [inspect_slot_of_ne same]
    exact .inl rfl

theorem inspectAll_hits_suffix : ((inspectAll general now key rules store).1.slot name).hits <:+
      (store.slot name).hits := by
  induction rules generalizing store with
  | nil => exact List.suffix_refl _
  | cons rule rules induction =>
    have later :=
      @induction (store.inspect general now key rule).1
    apply later.trans
    have one_step := @inspect_hits general key now store rule name
    rcases one_step with same | ⟨cutoff, pruned⟩
    · exact same ▸ List.suffix_refl _
    · rw [pruned]
      exact SlidingLogs.prune_suffix _ _

theorem inspectAll_roomy {limit count : Nat}
    (roomy : Roomy limit count (store.slot name).hits) :
    Roomy limit count ((inspectAll general now key rules store).1.slot name).hits := by
  induction rules generalizing store with
  | nil => exact roomy
  | cons rule rules induction =>
    apply @induction (store.inspect general now key rule).1
    rcases @inspect_hits general key now store rule name with
      same | ⟨cutoff, pruned⟩
    · rw [same]
      exact roomy
    · rw [pruned]
      exact roomy.prune cutoff

theorem inspectAll_append : (inspectAll general now key (front ++ back) store).1 =
        (inspectAll general now key back (inspectAll general now key front store).1).1 ∧
      (inspectAll general now key (front ++ back) store).2 =
        (inspectAll general now key front store).2 ++ (inspectAll general now key back
            (inspectAll general now key front store).1).2 := by
  induction front generalizing store with
  | nil => exact ⟨rfl, rfl⟩
  | cons rule front induction =>
    obtain ⟨last, pending⟩ :=
      @induction (store.inspect general now key rule).1
    exact ⟨last, congrArg (List.cons _) pending⟩

theorem mem_inspectAll {pending : Pending} :
    pending ∈ (inspectAll general now key rules store).2 ↔
      ∃ front rule back, rules = front ++ rule :: back ∧
        pending = (inspectAll general now key front store).1.pendingOf general
          now key rule := by
  constructor
  · intro member
    induction rules generalizing store with
    | nil => cases member
    | cons head rules induction =>
      rcases List.mem_cons.mp member with first | later
      · refine ⟨[], head, rules, rfl, ?_⟩
        rw [first]
        exact inspect_pending
      · obtain ⟨front, rule, back, split, same⟩ :=
          @induction (store.inspect general now key head).1 later
        exact ⟨head :: front, rule, back, congrArg (List.cons head) split, same⟩
  · rintro ⟨front, rule, back, rfl, rfl⟩
    rw [inspectAll_append.2]
    apply List.mem_append_right
    rw [← inspect_pending]
    exact List.mem_cons_self

theorem pending_names : (inspectAll general now key rules store).2.map (fun pending =>
        (pending.candidate.rule, pending.ruleKey)) =
      rules.map fun rule => (rule, ruleKey general key rule) := by
  induction rules generalizing store with
  | nil => rfl
  | cons rule rules induction =>
    have later := @induction (store.inspect general now key rule).1
    have here : ((store.inspect general now key rule).2.candidate.rule,
        (store.inspect general now key rule).2.ruleKey) = (rule, ruleKey general key rule) := by
      rw [inspect_pending]
      rfl
    exact congrArg₂ List.cons here later

theorem record_hits (pending : Pending) (name : String) :
    ((record now store pending).slot name).hits =
      if !pending.candidate.rule.isBucket && pending.ruleKey == name then
        (store.slot name).hits ++ [now]
      else (store.slot name).hits := by
  by_cases same : name = pending.ruleKey
  · subst same
    rw [record_slot_self]
    cases kind : pending.candidate.rule.isBucket with
    | true => simp [Slot.record, kind, Slot.hits]
    | false => simp [Slot.record, kind, Slot.hits]
  · rw [record_slot_of_ne pending same]
    simp [Ne.symm same]

theorem recordAll_hits {all : List Pending} : ((all.foldl (record now) store).slot name).hits =
      (store.slot name).hits ++ List.replicate (all.countP fun pending =>
          !pending.candidate.rule.isBucket && pending.ruleKey == name) now := by
  induction all generalizing store with
  | nil => simp
  | cons pending all induction =>
    rw [List.foldl_cons, induction, record_hits, List.countP_cons]
    split
    · rw [List.append_assoc, Nat.add_comm, ← List.replicate_append_replicate]
      rfl
    · rfl

theorem admitted_hits : (((inspectAll general now key rules store).2.foldl (record now)
        (inspectAll general now key rules store).1).slot name).hits =
      ((inspectAll general now key rules store).1.slot name).hits ++
        List.replicate (copies general key rules name) now := by
  have counted : (inspectAll general now key rules store).2.countP (fun pending =>
        !pending.candidate.rule.isBucket && pending.ruleKey == name) =
      copies general key rules name := by
    have same := congrArg (List.countP fun named : RateLimitRule × String =>
      !named.1.isBucket && named.2 == name)
      (@pending_names general key now store rules)
    rw [List.countP_map, List.countP_map] at same
    exact same
  rw [recordAll_hits, counted]

theorem record_bucket {pending : Pending} {held : ℚ × ℚ}
    (found : (record now store pending).buckets name = some held) :
    store.buckets name = some held ∨ held.2 = now := by
  unfold record at found
  dsimp only at found
  split at found
  · dsimp only at found
    by_cases same : name = pending.ruleKey
    · subst same
      rw [Function.update_self] at found
      right
      rw [← Option.some.inj found]
    · rw [Function.update_of_ne same] at found
      exact .inl found
  · exact .inl found

theorem recordAll_bucket {all : List Pending} {held : ℚ × ℚ}
    (found : (all.foldl (record now) store).buckets name = some held) :
    store.buckets name = some held ∨ held.2 = now := by
  induction all generalizing store with
  | nil => exact .inl found
  | cons pending all induction =>
    rcases induction found with earlier | new
    · exact record_bucket earlier
    · exact .inr new

theorem consume_nil : store.consume general now key [] = .error "rules must not be empty" := rfl

end

end MemoryQuotaStore

/-! ## One request -/

def inspected (general : ℚ → String) (rules : List RateLimitRule)
    (store : MemoryQuotaStore) (request : Request) :
    MemoryQuotaStore × List Pending :=
  MemoryQuotaStore.inspectAll general request.now request.key rules (store.swept request.now)

def found (general : ℚ → String) (before : List RateLimitRule)
    (rule : RateLimitRule) (store : MemoryQuotaStore) (request : Request) :
    Slot :=
  (inspected general before store request).1.slot (ruleKey general request.key rule)

structure Charged (general : ℚ → String) (rules : List RateLimitRule)
    (store : MemoryQuotaStore) (request : Request) (result : QuotaResult)
    (next : MemoryQuotaStore) : Prop where
  decided : quotaResult general
    ((inspected general rules store request).2.map Pending.candidate) = .ok result
  allowed : result.allowed = allAllow
    ((inspected general rules store request).2.map Pending.candidate)
  stored : next = if result.allowed then
      (inspected general rules store request).2.foldl (MemoryQuotaStore.record request.now)
        (inspected general rules store request).1
    else (inspected general rules store request).1

section

variable {general : ℚ → String} {rules before back : List RateLimitRule}
variable {store next : MemoryQuotaStore} {request : Request}
variable {result : QuotaResult} {rule : RateLimitRule}

theorem mem_candidates {candidate : Candidate} : candidate ∈
        (inspected general rules store request).2.map Pending.candidate ↔
      ∃ before rule back, rules = before ++ rule :: back ∧ candidate = ⟨rule, slotVerdict rule
          (found general before rule store request) request.now⟩ := by
  rw [List.mem_map]
  constructor
  · rintro ⟨pending, member, rfl⟩
    obtain ⟨before, rule, back, split, rfl⟩ :=
      MemoryQuotaStore.mem_inspectAll.mp member
    exact ⟨before, rule, back, split, rfl⟩
  · rintro ⟨before, rule, back, split, rfl⟩
    refine ⟨_, MemoryQuotaStore.mem_inspectAll.mpr ⟨before, rule, back, split, rfl⟩, rfl⟩

theorem consume_charged (some_rule : rules ≠ []) : ∃ result next,
      store.consume general request.now request.key rules = .ok (result, next) ∧
      Charged general rules store request result next := by
  obtain ⟨result, decided, allowed⟩ :
      ∃ result, quotaResult general ((inspected general rules store
          request).2.map Pending.candidate) = .ok result ∧
        result.allowed = allAllow ((inspected general rules store
          request).2.map Pending.candidate) := by
    apply quotaResult_ok
    · intro nobody
      have length := congrArg List.length
        (@MemoryQuotaStore.pending_names general request.key request.now
          (store.swept request.now) rules)
      have none_pending := List.map_eq_nil_iff.mp nobody
      unfold inspected at none_pending
      rw [none_pending, List.length_map, List.length_map] at length
      exact some_rule (List.length_eq_zero_iff.mp length.symm)
    · intro candidate member refused
      obtain ⟨before, rule, back, _split, rfl⟩ := (mem_candidates).mp member
      exact retry_of_refused refused
  refine ⟨result, _, ?_, decided, allowed, rfl⟩
  rw [MemoryQuotaStore.consume_eq some_rule]
  unfold inspected at decided allowed
  unfold MemoryQuotaStore.charge
  dsimp only
  rw [decided, allowed]
  rfl

section

variable (charged : Charged general rules store request result next)

include charged

theorem Charged.allowed_iff :
    result.allowed = true ↔ ∀ before rule back, rules = before ++ rule :: back →
        (slotVerdict rule (found general before rule store request) request.now).ok = true := by
  rw [charged.allowed]
  unfold allAllow
  rw [List.all_eq_true]
  constructor
  · intro all before rule back split
    exact all _ ((mem_candidates).mpr ⟨before, rule, back, split, rfl⟩)
  · intro all candidate member
    obtain ⟨before, rule, back, split, rfl⟩ := (mem_candidates).mp member
    exact all before rule back split

theorem Charged.hits (name : String) :
    (next.slot name).hits = ((inspected general rules store request).1.slot name).hits ++
        if result.allowed then
          List.replicate (copies general request.key rules name) request.now
        else [] := by
  rw [charged.stored]
  unfold inspected
  split
  · exact MemoryQuotaStore.admitted_hits
  · exact (List.append_nil _).symm

theorem Charged.bucket {name : String} {held : ℚ × ℚ} (set : next.buckets name = some held) :
    (store.swept request.now).buckets name = some held ∨ held.2 = request.now := by
  rw [charged.stored] at set
  unfold inspected at set
  split at set
  · rcases MemoryQuotaStore.recordAll_bucket set with earlier | new
    · rw [MemoryQuotaStore.inspectAll_buckets] at earlier
      exact .inl earlier
    · exact .inr new
  · rw [MemoryQuotaStore.inspectAll_buckets] at set
    exact .inl set

theorem Charged.others
    {name : String} (absent : ∀ rule ∈ rules, ruleKey general request.key rule ≠ name) :
    next.slot name = (store.swept request.now).slot name := by
  have unnamed : name ∉ rules.map (ruleKey general request.key) := by
    intro named
    obtain ⟨rule, member, same⟩ := List.mem_map.mp named
    exact absent rule member same
  rw [charged.stored]
  unfold inspected
  split
  · rw [MemoryQuotaStore.recordAll_slot_of_not_mem,
      MemoryQuotaStore.inspectAll_slot_of_not_mem unnamed]
    intro pending
    apply unnamed
    have names := congrArg (List.map Prod.snd)
      (@MemoryQuotaStore.pending_names general request.key request.now
        (store.swept request.now) rules)
    rw [List.map_map, List.map_map] at names
    exact names ▸ pending
  · exact MemoryQuotaStore.inspectAll_slot_of_not_mem unnamed

end

theorem retry_le_pickDenied (first : Candidate) (others : List Candidate) :
    ∀ candidate ∈ first :: others,
      candidate.verdict.retry ≤ (pickDenied first others).verdict.retry := by
  unfold pickDenied
  induction others generalizing first with
  | nil =>
    intro candidate member
    rw [List.mem_singleton.mp member]
    exact le_refl _
  | cons second others induction =>
    intro candidate member
    rw [List.foldl_cons]
    by_cases longer : first.verdict.retry < second.verdict.retry
    · rw [if_pos longer]
      have bound := induction second
      rcases List.mem_cons.mp member with rfl | later
      · exact longer.le.trans (bound second List.mem_cons_self)
      · exact bound candidate later
    · rw [if_neg longer]
      have bound := induction first
      have head := bound first List.mem_cons_self
      rcases List.mem_cons.mp member with rfl | later
      · exact head
      · rcases List.mem_cons.mp later with rfl | last
        · exact (not_lt.mp longer).trans head
        · exact bound candidate (List.mem_cons_of_mem _ last)

theorem Charged.retry_le (charged : Charged general rules store request result next)
    (denied : result.allowed = false) :
    1 ≤ result.retryAfter ∧ ∀ before rule back, rules = before ++ rule :: back →
        (slotVerdict rule (found general before rule store request) request.now).ok = false →
        (slotVerdict rule (found general before rule store request)
          request.now).retry ≤ result.retryAfter := by
  have decided := charged.decided
  have refused := charged.allowed
  rw [denied] at refused
  cases candidates : (inspected general rules store request).2.map Pending.candidate with
  | nil =>
    rw [candidates] at decided
    cases decided
  | cons first others =>
    rw [candidates] at decided refused
    simp only [quotaResult, ← refused, Bool.false_eq_true, if_false] at decided
    split at decided
    case h_1 => cases decided
    case h_2 waiting more kept =>
      cases decided
      have longest := retry_le_pickDenied waiting more
      have positive : 0 < (pickDenied waiting more).verdict.retry := by
        have member : waiting ∈ (first :: others).filter fun candidate =>
            decide (0 < candidate.verdict.retry) := by
          rw [kept]
          exact List.mem_cons_self
        exact (of_decide_eq_true (List.mem_filter.mp member).2).trans_le
          (longest waiting List.mem_cons_self)
      refine ⟨positive, ?_⟩
      intro before rule back split refuses
      have member := (@mem_candidates general rules store request _).mpr
        ⟨before, rule, back, split, rfl⟩
      rw [candidates] at member
      have waits : _ ∈ (first :: others).filter fun candidate =>
          decide (0 < candidate.verdict.retry) :=
        List.mem_filter.mpr ⟨member, decide_eq_true (retry_of_refused refuses)⟩
      rw [kept] at waits
      exact longest _ waits

end

/-! ## Keys with rules of their own -/

/-- One request, under the rules of its key.  A list without rules is refused
before anything is counted. -/
def stepBy (general : ℚ → String) (plan : String → List RateLimitRule)
    (state : State) (request : Request) : Option State :=
  if state.clock ≤ request.now then
    match state.store.consume general request.now request.key
        (plan request.key) with
    | .ok (result, store) => some ⟨store, request.now, ⟨request, result⟩ :: state.log⟩
    | .error _ => some { state with clock := request.now }
  else none

def KeepsApart (general : ℚ → String) (plan : String → List RateLimitRule)
    (key other : String) : Prop :=
  other ≠ key → ∀ rule ∈ plan key, ∀ another ∈ plan other,
    ruleKey general key rule ≠ ruleKey general other another

section

variable {general : ℚ → String} {plan : String → List RateLimitRule}
variable {state next : State} {request : Request} {key : String}

theorem stepBy_cases (taken : stepBy general plan state request = some next) :
    state.clock ≤ request.now ∧ next.clock = request.now ∧
      ((plan request.key = [] ∧ next.store = state.store ∧ next.log = state.log) ∨
        ∃ result, next.log = ⟨request, result⟩ :: state.log ∧
          Charged general (plan request.key) state.store request result next.store) := by
  unfold stepBy at taken
  split at taken
  case isFalse => cases taken
  case isTrue later =>
    by_cases none_given : plan request.key = []
    · rw [none_given, MemoryQuotaStore.consume_nil] at taken
      cases taken
      exact ⟨later, rfl, .inl ⟨none_given, rfl, rfl⟩⟩
    · obtain ⟨result, store, consumed, charged⟩ :=
        @consume_charged general (plan request.key) state.store request none_given
      rw [consumed] at taken
      cases taken
      exact ⟨later, rfl, .inr ⟨result, rfl, charged⟩⟩

/-- The counters of a key, as its requests left them. -/
structure Steady (general : ℚ → String) (plan : String → List RateLimitRule)
    (key : String) (state : State) : Prop where
  roomy : ∀ rule ∈ plan key, rule.isBucket = false → Roomy rule.maxRequests
      (copies general key (plan key) (ruleKey general key rule))
      (state.store.slot (ruleKey general key rule)).hits
  early : ∀ name, ∀ hit ∈ (state.store.slot name).hits, hit ≤ state.clock
  touched : ∀ name held, state.store.buckets name = some held → held.2 ≤ state.clock

theorem Steady.initial (clock : ℚ) : Steady general plan key (State.initial clock) where
  roomy _ _ _ := Roomy.nil
  early _ _ member := by cases member
  touched _ _ set := by cases set

theorem swept_cases (store : MemoryQuotaStore) (now : ℚ) (name : String) :
    (store.swept now).slot name = store.slot name ∨
      (store.swept now).slot name = Slot.empty := by
  rw [MemoryQuotaStore.slot_swept]
  split
  · unfold Slot.sweep
    split
    · exact .inr rfl
    · exact .inl rfl
  · exact .inl rfl

theorem swept_hits_suffix (store : MemoryQuotaStore) (now : ℚ) (name : String) :
    ((store.swept now).slot name).hits <:+ (store.slot name).hits := by
  rcases swept_cases store now name with same | gone
  · exact same ▸ List.suffix_refl _
  · rw [gone]
    exact List.nil_suffix

variable {store : MemoryQuotaStore} {name : String}

theorem swept_roomy {now : ℚ} {limit count : Nat}
    (roomy : Roomy limit count (store.slot name).hits) :
    Roomy limit count ((store.swept now).slot name).hits := by
  rcases swept_cases store now name with same | gone
  · rw [same]
    exact roomy
  · rw [gone]
    exact Roomy.nil

theorem swept_bucket {now : ℚ} {held : ℚ × ℚ}
    (set : (store.swept now).buckets name = some held) :
    store.buckets name = some held := by
  rcases swept_cases store now name with same | gone
  · exact (congrArg Slot.bucket same).symm.trans set
  · have empty : (store.swept now).buckets name = none :=
      congrArg Slot.bucket gone
    rw [empty] at set
    cases set

theorem found_hits_suffix {before : List RateLimitRule} :
    ((inspected general before store request).1.slot name).hits <:+ (store.slot name).hits :=
  MemoryQuotaStore.inspectAll_hits_suffix.trans (swept_hits_suffix _ _ _)

theorem found_roomy {before : List RateLimitRule} {limit count : Nat}
    (roomy : Roomy limit count (store.slot name).hits) :
    Roomy limit count ((inspected general before store request).1.slot name).hits :=
  MemoryQuotaStore.inspectAll_roomy (swept_roomy roomy)

variable {rule : RateLimitRule}

theorem window_ok {slot : Slot} {now : ℚ} (window : rule.isBucket = false) :
    (slotVerdict rule slot now).ok = true ↔
      (prune (now - rule.windowSeconds) slot.hits).length < rule.maxRequests := by
  unfold slotVerdict windowVerdict
  rw [if_neg (by simp [window])]
  dsimp only
  split
  case isTrue full => exact iff_of_false Bool.false_ne_true (not_lt.mpr full)
  case isFalse room => exact iff_of_true rfl (not_le.mp room)

theorem inspected_suffix_pruned {rules before back : List RateLimitRule}
    (split : rules = before ++ rule :: back) (window : rule.isBucket = false) :
    ((inspected general rules store request).1.slot (ruleKey general request.key rule)).hits <:+
      prune (request.now - rule.windowSeconds)
        (found general before rule store request).hits := by
  subst split
  unfold inspected found
  rw [MemoryQuotaStore.inspectAll_append.1]
  have behind := @MemoryQuotaStore.inspectAll_hits_suffix general request.key
    (ruleKey general request.key rule) request.now
    ((inspected general before store request).1.inspect general request.now
      request.key rule).1 back
  rw [MemoryQuotaStore.inspect_slot_self] at behind
  unfold Slot.prune at behind
  rw [if_neg (by simp [window])] at behind
  exact behind

theorem Steady.kept (steady : Steady general plan key state)
    (apart : KeepsApart general plan key request.key)
    (taken : stepBy general plan state request = some next) :
    Steady general plan key next := by
  obtain ⟨later, clock, ⟨_none, same, _log⟩ | ⟨result, _log, charged⟩⟩ :=
    stepBy_cases taken
  · refine ⟨?_, ?_, ?_⟩
    · intro rule member window
      rw [same]
      exact steady.roomy rule member window
    · intro name hit member
      rw [same] at member
      rw [clock]
      exact (steady.early name hit member).trans later
    · intro name held set
      rw [same] at set
      rw [clock]
      exact (steady.touched name held set).trans later
  · have found_early : ∀ name, ∀ hit ∈ ((inspected general
        (plan request.key) state.store request).1.slot name).hits,
        hit ≤ request.now := by
      intro name hit member
      have old := found_hits_suffix.subset member
      exact (steady.early name hit old).trans later
    refine ⟨?_, ?_, ?_⟩
    · intro rule member window
      have roomy := steady.roomy rule member window
      by_cases same : request.key = key
      · subst same
        rw [charged.hits]
        split
        case isFalse =>
          rw [List.append_nil]
          exact found_roomy roomy
        case isTrue allowed =>
          apply (found_roomy roomy).append _ (found_early _)
          obtain ⟨before, back, split⟩ := List.append_of_mem member
          have ok := charged.allowed_iff.mp allowed before rule back split
          have room := (window_ok window).mp ok
          have fewer := (@inspected_suffix_pruned general request
            state.store _ _ _ _ split window).length_le
          exact Nat.lt_of_le_of_lt fewer room
      · have untouched := charged.others fun another other_member same_name =>
          apart same rule member another other_member same_name.symm
        rw [untouched]
        exact swept_roomy roomy
    · intro name hit member
      rw [clock]
      rw [charged.hits] at member
      rcases List.mem_append.mp member with old | new
      · exact found_early name hit old
      · split at new
        · rw [List.eq_of_mem_replicate new]
        · cases new
    · intro name held set
      rw [clock]
      rcases charged.bucket set with old | new
      · exact (steady.touched name held (swept_bucket old)).trans later
      · exact new.le

theorem steady_of_exec {clock : ℚ} {schedule : List Request}
    (apart : ∀ request ∈ schedule, KeepsApart general plan key request.key)
    (run : Runs.exec (stepBy general plan) (State.initial clock) schedule =
      some state) : Steady general plan key state := by
  apply Runs.exec_invariant_of_meets _ (Runs.Meets.of_forall apart) (Steady.initial clock) run
  intro state request next steady apart taken
  exact steady.kept apart taken

/-! ## A request that was refused -/

theorem slot_of_others {waiting : State} {meanwhile : List Request}
    (others : ∀ other ∈ meanwhile, ∀ rule ∈ plan other.key,
      ruleKey general other.key rule ≠ name)
    (run : Runs.exec (stepBy general plan) state meanwhile = some waiting) :
    waiting.store.slot name = state.store.slot name ∨ waiting.store.slot name = Slot.empty := by
  apply @Runs.exec_invariant_of_meets _ _ (stepBy general plan)
    (fun _ other => ∀ rule ∈ plan other.key, ruleKey general other.key rule ≠ name)
    (fun later => later.store.slot name = state.store.slot name ∨
      later.store.slot name = Slot.empty)
    _ _ _ _ (Runs.Meets.of_forall others) (.inl rfl) run
  intro before request next faded absent taken
  obtain ⟨_, _, ⟨_none, same, _log⟩ | ⟨result, _log, charged⟩⟩ :=
    stepBy_cases taken
  · rw [same]
    exact faded
  · rw [charged.others absent]
    rcases swept_cases before.store request.now name with same | gone
    · rw [same]
      exact faded
    · exact .inr gone

theorem one_le_capacity (rule : RateLimitRule) : (1 : ℚ) ≤ rule.capacity := by
  have enough : 1 ≤ rule.capacity := by
    unfold RateLimitRule.capacity
    cases set : rule.burst with
    | none => exact rule.requests_positive
    | some burst => exact rule.burst_positive burst set
  exact_mod_cast enough

theorem tokens_after_wait {slot later : Slot} {now wait : ℚ}
    (bucket : later.bucket = slot.bucket ∨ later.bucket = none)
    (touched : ∀ held, slot.bucket = some held → held.2 ≤ now)
    (forward : 0 ≤ wait)
    (enough : slot.tokens rule now < 1 →
      1 - slot.tokens rule now ≤ wait * rule.refillPerSecond) :
    1 ≤ later.tokens rule (now + wait) := by
  have capacity := one_le_capacity rule
  have rate := refill_positive rule
  have full : ∀ moment, refill rule rule.capacity moment moment = (rule.capacity : ℚ) := by
    intro moment
    simp [refill]
  cases held : later.bucket with
  | none =>
    unfold Slot.tokens
    rw [held, Option.getD_none]
    dsimp only
    rw [full]
    exact capacity
  | some pair =>
    obtain ⟨tokens, updatedAt⟩ := pair
    have before : slot.bucket = some (tokens, updatedAt) := by
      rcases bucket with same | gone
      · rw [← same]
        exact held
      · rw [gone] at held
        cases held
    have old := touched _ before
    dsimp only at old
    have gap : max 0 (now - updatedAt) = now - updatedAt :=
      max_eq_right (sub_nonneg.mpr old)
    have longer : max 0 (now + wait - updatedAt) = now + wait - updatedAt :=
      max_eq_right (by linarith)
    have first : slot.tokens rule now = min (rule.capacity : ℚ)
        (tokens + (now - updatedAt) * rule.refillPerSecond) := by
      unfold Slot.tokens refill
      rw [before, Option.getD_some]
      dsimp only
      rw [gap]
    have second : later.tokens rule (now + wait) = min (rule.capacity : ℚ)
        (tokens + (now + wait - updatedAt) * rule.refillPerSecond) := by
      unfold Slot.tokens refill
      rw [held, Option.getD_some]
      dsimp only
      rw [longer]
    rw [second]
    apply le_min capacity
    have gained : (now + wait - updatedAt) * rule.refillPerSecond =
        (now - updatedAt) * rule.refillPerSecond + wait * rule.refillPerSecond := by
      ring
    have paid : 0 ≤ wait * rule.refillPerSecond :=
      mul_nonneg forward rate.le
    rw [gained]
    by_cases low : slot.tokens rule now < 1
    · have missing := enough low
      have held_tokens : slot.tokens rule now ≤
          tokens + (now - updatedAt) * rule.refillPerSecond := by
        rw [first]
        exact min_le_right _ _
      linarith
    · have held_tokens := not_lt.mp low
      rw [first] at held_tokens
      have some_token := held_tokens.trans (min_le_right _ _)
      linarith

theorem bucket_ok {slot : Slot} {now : ℚ} (bucket : rule.isBucket = true) :
    (slotVerdict rule slot now).ok = true ↔ 1 ≤ slot.tokens rule now := by
  unfold slotVerdict bucketVerdict
  rw [if_pos bucket]
  dsimp only
  split
  case isTrue low => exact iff_of_false Bool.false_ne_true (not_le.mpr low)
  case isFalse enough => exact iff_of_true rfl (not_lt.mp enough)

theorem bucket_wait {slot : Slot} {now : ℚ} {wait : Int}
    (bucket : rule.isBucket = true) (low : slot.tokens rule now < 1)
    (told : (slotVerdict rule slot now).retry ≤ wait) :
    1 - slot.tokens rule now ≤ wait * rule.refillPerSecond := by
  unfold slotVerdict bucketVerdict at told
  rw [if_pos bucket] at told
  dsimp only at told
  rw [if_pos low] at told
  have ceiling := (le_max_right _ _).trans told
  have seconds : (1 - slot.tokens rule now) / rule.refillPerSecond ≤ wait :=
    (Rat.le_ceil).trans (by exact_mod_cast ceiling)
  exact (div_le_iff₀ (refill_positive rule)).mp seconds

theorem window_wait {slot : Slot} {now oldest : ℚ} {wait : Int} (window : rule.isBucket = false)
    (full : rule.maxRequests ≤ (prune (now - rule.windowSeconds) slot.hits).length)
    (front : (prune (now - rule.windowSeconds) slot.hits).head? = some oldest)
    (told : (slotVerdict rule slot now).retry ≤ wait) :
    oldest ≤ now + wait - rule.windowSeconds := by
  unfold slotVerdict windowVerdict at told
  rw [if_neg (by simp [window])] at told
  change rule.maxRequests ≤ (windowState slot.hits now rule).1.length at full
  change (windowState slot.hits now rule).1.head? = some oldest at front
  dsimp only at told
  rw [if_pos full] at told
  cases hits : (windowState slot.hits now rule).1 with
  | nil =>
    rw [hits] at front
    cases front
  | cons head others =>
    rw [hits] at front told
    cases front
    have ceiling := (le_max_right _ _).trans told
    have seconds : oldest + rule.windowSeconds - now ≤ wait :=
      (Rat.le_ceil).trans (by exact_mod_cast ceiling)
    linarith

end

def Lingers (general : ℚ → String) (rules : List RateLimitRule)
    (store : MemoryQuotaStore) (request : Request) : Prop :=
  ∃ before rule back, rules = before ++ rule :: back ∧ rule.isBucket = false ∧
    rule.maxRequests ≤ (prune (request.now - rule.windowSeconds)
      (found general before rule store request).hits).length ∧
    (prune (request.now - rule.windowSeconds)
      (found general before rule store request).hits).head? =
        some (request.now - rule.windowSeconds)

/-- A request of a key that is refused in a state that can be reached, and the
requests of other keys after it.  No other key shares a counter with it. -/
structure Refusal (general : ℚ → String) (plan : String → List RateLimitRule)
    (state : State) (request : Request) (result : QuotaResult)
    (refused waiting : State) : Prop where
  reached : ∃ start schedule,
    (∀ other ∈ schedule, KeepsApart general plan request.key other.key) ∧
    Runs.exec (stepBy general plan) (State.initial start) schedule = some state
  taken : stepBy general plan state request = some refused
  logged : refused.log = ⟨request, result⟩ :: state.log
  denied : result.allowed = false
  waited : ∃ meanwhile, (∀ other ∈ meanwhile, other.key ≠ request.key ∧
      KeepsApart general plan request.key other.key) ∧
    Runs.exec (stepBy general plan) refused meanwhile = some waiting
  intime : waiting.clock ≤ request.now + result.retryAfter

section

variable {general : ℚ → String} {plan : String → List RateLimitRule}
variable {state refused waiting : State} {request : Request}
variable {result : QuotaResult}

section

variable (refusal : Refusal general plan state request result refused waiting)

include refusal

theorem Refusal.charged :
    Charged general (plan request.key) state.store request result refused.store := by
  obtain ⟨_, _, ⟨_none, _same, log⟩ | ⟨told, log, charged⟩⟩ :=
    stepBy_cases refusal.taken
  · have logged := refusal.logged
    rw [log] at logged
    exact absurd logged.symm (List.cons_ne_self _ _)
  · have logged := refusal.logged
    rw [log] at logged
    cases logged
    exact charged

theorem Refusal.slot {rule : RateLimitRule} (member : rule ∈ plan request.key) :
    waiting.store.slot (ruleKey general request.key rule) =
        refused.store.slot (ruleKey general request.key rule) ∨
      waiting.store.slot (ruleKey general request.key rule) = Slot.empty := by
  obtain ⟨meanwhile, others, run⟩ := refusal.waited
  apply slot_of_others _ run
  intro other among another other_member same
  obtain ⟨different, apart⟩ := others other among
  exact apart different rule member another other_member same.symm

theorem Refusal.window {before back : List RateLimitRule} {rule : RateLimitRule}
    (split : plan request.key = before ++ rule :: back)
    (window : rule.isBucket = false)
    (full : rule.maxRequests ≤ (prune (request.now + result.retryAfter - rule.windowSeconds)
        (found general before rule waiting.store
          ⟨request.now + result.retryAfter, request.key⟩).hits).length) :
    (prune (request.now + result.retryAfter - rule.windowSeconds)
      (found general before rule waiting.store
        ⟨request.now + result.retryAfter, request.key⟩).hits).head? =
      some (request.now + result.retryAfter - rule.windowSeconds) := by
  obtain ⟨_, _, apart, run⟩ := refusal.reached
  have member : rule ∈ plan request.key := by
    rw [split]
    exact List.mem_append_right _ List.mem_cons_self
  have steady := steady_of_exec apart run
  have charged := refusal.charged
  have counted : Roomy rule.maxRequests (copies general request.key (plan request.key)
        (ruleKey general request.key rule))
      (prune (request.now - rule.windowSeconds)
        (found general before rule state.store request).hits) :=
    (found_roomy (steady.roomy rule member window)).prune _
  have left : (found general before rule waiting.store
      ⟨request.now + result.retryAfter, request.key⟩).hits <:+
        prune (request.now - rule.windowSeconds)
          (found general before rule state.store request).hits := by
    apply (found_hits_suffix).trans
    rcases refusal.slot member with same | gone
    · have kept := charged.hits (ruleKey general request.key rule)
      rw [refusal.denied, if_neg Bool.false_ne_true, List.append_nil] at kept
      dsimp only
      rw [same, kept]
      exact inspected_suffix_pruned split window
    · dsimp only
      rw [gone]
      exact List.nil_suffix
  apply counted.head_on_cutoff left _ full rule.requests_positive
  intro was_full oldest front
  have refuses : (slotVerdict rule (found general before rule state.store
      request) request.now).ok = false := by
    rw [← Bool.not_eq_true, window_ok window]
    exact not_lt.mpr was_full
  have told := (charged.retry_le refusal.denied).2 before rule back split refuses
  exact window_wait window was_full front told

theorem Refusal.bucket {before back : List RateLimitRule} {rule : RateLimitRule}
    (split : plan request.key = before ++ rule :: back)
    (bucket : rule.isBucket = true) :
    1 ≤ (found general before rule waiting.store
      ⟨request.now + result.retryAfter, request.key⟩).tokens rule
        (request.now + result.retryAfter) := by
  obtain ⟨_, _, apart, run⟩ := refusal.reached
  have member : rule ∈ plan request.key := by
    rw [split]
    exact List.mem_append_right _ List.mem_cons_self
  have steady := steady_of_exec apart run
  have charged := refusal.charged
  obtain ⟨one_second, told⟩ := charged.retry_le refusal.denied
  have found_bucket : ∀ (store : MemoryQuotaStore) (request : Request),
      (found general before rule store request).bucket = (store.swept request.now).buckets
          (ruleKey general request.key rule) := by
    intro store request
    exact congrFun MemoryQuotaStore.inspectAll_buckets _
  apply @tokens_after_wait rule (found general before rule state.store request)
  · rw [found_bucket, found_bucket]
    have refused_bucket : refused.store.buckets (ruleKey general request.key rule) =
          (state.store.swept request.now).buckets (ruleKey general request.key rule) := by
      rw [charged.stored, refusal.denied, if_neg Bool.false_ne_true]
      exact congrFun MemoryQuotaStore.inspectAll_buckets _
    rcases swept_cases waiting.store (request.now + result.retryAfter)
        (ruleKey general request.key rule) with same | gone
    · have here : (waiting.store.swept (request.now +
          result.retryAfter)).buckets (ruleKey general request.key rule) =
            waiting.store.buckets (ruleKey general request.key rule) :=
        congrArg Slot.bucket same
      dsimp only
      rw [here, ← refused_bucket]
      rcases refusal.slot member with unchanged | emptied
      · exact .inl (congrArg Slot.bucket unchanged)
      · exact .inr (congrArg Slot.bucket emptied)
    · exact .inr (congrArg Slot.bucket gone)
  · intro held set
    rw [found_bucket] at set
    obtain ⟨later, _⟩ := stepBy_cases refusal.taken
    exact (steady.touched _ held (swept_bucket set)).trans later
  · have positive : (1 : ℚ) ≤ result.retryAfter := by
      exact_mod_cast one_second
    linarith
  · intro low
    have refuses : (slotVerdict rule (found general before rule state.store
        request) request.now).ok = false := by
      rw [← Bool.not_eq_true, bucket_ok bucket]
      exact not_le.mpr low
    exact bucket_wait bucket low (told before rule back split refuses)

theorem Refusal.retry : ∃ final answer, stepBy general plan waiting
          ⟨request.now + result.retryAfter, request.key⟩ = some final ∧
        final.log = ⟨⟨request.now + result.retryAfter, request.key⟩, answer⟩ :: waiting.log ∧
        (answer.allowed = true ↔ ¬ Lingers general (plan request.key) waiting.store
            ⟨request.now + result.retryAfter, request.key⟩) := by
  have some_rule : plan request.key ≠ [] := by
    intro none_given
    have decided := refusal.charged.decided
    rw [none_given] at decided
    cases decided
  obtain ⟨answer, store, consumed, charged⟩ :=
    @consume_charged general (plan request.key) waiting.store
      ⟨request.now + result.retryAfter, request.key⟩ some_rule
  refine ⟨⟨store, request.now + result.retryAfter,
    ⟨⟨request.now + result.retryAfter, request.key⟩, answer⟩ :: waiting.log⟩,
    answer, ?_, rfl, ?_⟩
  · unfold stepBy
    rw [if_pos refusal.intime, consumed]
  · rw [charged.allowed_iff]
    constructor
    · rintro all ⟨before, rule, back, split, window, full, _front⟩
      have room := (window_ok window).mp (all before rule back split)
      exact absurd room (not_lt.mpr full)
    · intro leaves before rule back split
      cases kind : rule.isBucket with
      | true => exact (bucket_ok kind).mpr (refusal.bucket split kind)
      | false =>
        apply (window_ok kind).mpr
        by_contra full
        apply leaves
        exact ⟨before, rule, back, split, kind, not_lt.mp full,
          refusal.window split kind (not_lt.mp full)⟩

end

end

theorem stepBy_of_consume {general : ℚ → String}
    {plan : String → List RateLimitRule} {state : State} {request : Request}
    {result : QuotaResult} {store : MemoryQuotaStore}
    (after : state.clock ≤ request.now)
    (consumed : state.store.consume general request.now request.key
      (plan request.key) = .ok (result, store)) :
    stepBy general plan state request =
      some ⟨store, request.now, ⟨request, result⟩ :: state.log⟩ := by
  unfold stepBy
  rw [if_pos after, consumed]

def everyMinute : String → List RateLimitRule := fun _ => [oncePerMinute]

def minuteLimits : String → Int × ℚ := fun _ => (1, 60)

theorem alone (request : Request) : KeepsApart plain everyMinute request.key request.key :=
  fun different => (different rfl).elim

theorem minute_refusal : ∃ state waiting,
    Refusal plain everyMinute state ⟨0, "key"⟩ refusedResult waiting waiting ∧
      waiting.store = spent 2 ∧ waiting.clock = 0 := by
  obtain ⟨first, consumed⟩ := consume_first
  have again := @consume_spent 1 (by decide)
  have wait : (0 : ℚ) ≤ 0 + refusedResult.retryAfter := by with_unfolding_all decide
  refine ⟨⟨spent 1, 0, [⟨⟨0, "key"⟩, first⟩]⟩,
    ⟨spent 2, 0, [⟨⟨0, "key"⟩, refusedResult⟩, ⟨⟨0, "key"⟩, first⟩]⟩,
    ⟨⟨0, [⟨0, "key"⟩], ?_, ?_⟩, ?_, rfl, rfl, ⟨[], by simp, rfl⟩, wait⟩, rfl,
    rfl⟩
  · intro other member
    rw [List.mem_singleton.mp member]
    exact alone _
  · apply Runs.exec_cons.mpr
    exact ⟨_, stepBy_of_consume (le_refl _) consumed, rfl⟩
  · exact stepBy_of_consume (le_refl _) again

theorem limiter_refusal (now : ℚ) (after : 0 ≤ now) (soon : now ≤ 60)
    (wait : max 1 (0 + 60 - now).ceil = 60) :
    RateLimit.Refusal minuteLimits "key" now
      (RateLimit.MemoryRateLimitStore.empty.put "key" [0])
      ((RateLimit.MemoryRateLimitStore.empty.put "key" [0]).put "key" [0])
      ⟨false, 0, 60⟩
      ⟨(RateLimit.MemoryRateLimitStore.empty.put "key" [0]).put "key" [0], now⟩ := by
  refine ⟨⟨0, 0, [⟨0, "key"⟩], rfl, after⟩, ?_, rfl, ⟨[], by simp, rfl⟩, ?_⟩
  · have front : prune (now - 60)
        ((RateLimit.MemoryRateLimitStore.empty.put "key" [0]).bucket "key") = [0] := by
      rw [RateLimit.MemoryRateLimitStore.bucket_put]
      apply @SlidingLogs.prune_eq_self _ _ [0] _ 0 rfl
      linarith
    have answered := @RateLimit.MemoryRateLimitStore.hit_full _ _ _ _ 1 _ _ front (by decide)
    rw [wait] at answered
    exact answered
  · dsimp only
    push_cast
    linarith

theorem late_refusal : ∃ state refused,
    Refusal plain everyMinute state ⟨1 / 2, "key"⟩ refusedResult refused refused ∧
      ¬ Lingers plain (everyMinute "key") refused.store
        ⟨1 / 2 + refusedResult.retryAfter, "key"⟩ := by
  have reached : (Runs.exec (stepBy plain everyMinute) (State.initial 0)
      [⟨0, "key"⟩, ⟨1 / 2, "key"⟩]).map (fun refused =>
        (refused.clock, refused.log.head?.map Entry.result,
          (refused.store.slot "key|minute").hits)) =
        some (1 / 2, some refusedResult, [0]) := by
    with_unfolding_all decide
  obtain ⟨refused, run, seen⟩ := Option.map_eq_some_iff.mp reached
  obtain ⟨state, first, second⟩ := Runs.exec_cons.mp run
  obtain ⟨next, taken, last⟩ := Runs.exec_cons.mp second
  cases last
  obtain ⟨clock, rest⟩ := Prod.mk.inj seen
  obtain ⟨answered, hits⟩ := Prod.mk.inj rest
  obtain ⟨_, _, ⟨none_given, _, _⟩ | ⟨result, logged, _charged⟩⟩ :=
    stepBy_cases taken
  · cases none_given
  rw [logged] at answered
  cases answered
  have refusal : Refusal plain everyMinute state ⟨1 / 2, "key"⟩ refusedResult
      refused refused := by
    refine ⟨⟨0, [⟨0, "key"⟩], ?_, Runs.exec_cons.mpr ⟨_, first, rfl⟩⟩, taken,
      logged, rfl, ⟨[], by simp, rfl⟩, ?_⟩
    · intro other member
      rw [List.mem_singleton.mp member]
      exact alone _
    · rw [clock]
      with_unfolding_all decide
  refine ⟨state, refused, refusal, ?_⟩
  rintro ⟨before, rule, back, split, _window, _full, front⟩
  have only : before = [] ∧ rule = oncePerMinute := by
    cases before with
    | nil =>
      cases split
      exact ⟨rfl, rfl⟩
    | cons head others =>
      have lengths := congrArg List.length split
      simp [everyMinute] at lengths
  obtain ⟨rfl, rfl⟩ := only
  have member := (SlidingLogs.prune_suffix _ _).subset (List.mem_of_head? front)
  have held := found_hits_suffix.subset member
  have name : ruleKey plain "key" oncePerMinute = "key|minute" := by decide
  rw [name, hits, List.mem_singleton] at held
  have apart : (1 / 2 : ℚ) + refusedResult.retryAfter - oncePerMinute.windowSeconds ≠ 0 := by
    with_unfolding_all decide
  exact apart held

end TempestSdk.Quota
