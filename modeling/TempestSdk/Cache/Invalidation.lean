import TempestSdk.Cache.Registries
import TempestSdk.Library.Runs
import Mathlib.Data.List.Dedup

/-!
# What an invalidation leaves

In a run in which no call stores or registers an entry across a purge of one of
its labels, and no registry is given a deadline before that of an entry it
covers, every entry that is registered is covered by its registries, and no
entry from before the mutation is left when the purge is complete.
-/

namespace TempestSdk.Cache

open Expiring

variable {Payload : Type}

def Shares (labels registries : List String) : Prop :=
  ∃ label ∈ labels, label ∈ registries

instance (labels registries : List String) :
    Decidable (Shares labels registries) :=
  inferInstanceAs (Decidable (∃ label ∈ labels, label ∈ registries))

def World.awaits (world : World Payload) (number : Nat) : Bool :=
  match world.calls[number]? with
  | some ⟨_, .stored _⟩ => true
  | _ => false

def Purge.admits (purge : Purge) (key : String) (seen : Nat) : Bool :=
  match purge.progress with
  | .issued => true
  | .listed members => decide (key ∈ members ∨ purge.mutations ≤ seen)
  | .deleted _ | .completed _ => decide (purge.mutations ≤ seen)

/-- The key may be registered: the purge does not take its registration away
and leave the entry. -/
def Purge.allows (purge : Purge) (key : String) : Bool :=
  match purge.progress with
  | .issued | .completed _ => true
  | .listed members => decide (key ∈ members)
  | .deleted _ => false

/-- What the function of the call had seen, between its return and `SET`. -/
def Call.seen (call : Call Payload) : Option Nat :=
  match call.stage with
  | .computed _ seen => some seen
  | _ => none

namespace World

def StoresInTime (world : World Payload) (call : Call Payload) : Prop :=
  ∀ seen ∈ call.seen, ∀ purge ∈ world.purges, Shares call.cached.registries purge.registries →
      purge.admits call.cached.key seen = true

/-- No purge takes the registration of the call's entry away and leaves the
entry; an entry without a deadline goes into registries without one. -/
def RegistersInTime (world : World Payload) (number : Nat) (cached : Cached) : Prop :=
  ∀ entry ∈ world.entries cached.key, entry.writer = number →
    (∀ purge ∈ world.purges, Shares entry.labels purge.registries →
      purge.allows cached.key = true) ∧
    (¬ 0 < cached.ttl → ∀ registry ∈ cached.registries,
      ∀ index ∈ world.sets.sets registry, index.deadline = none)

def Outlived (world : World Payload) (cached : Cached) : Prop :=
  0 < cached.ttl → ∀ other ∈ world.calls, ∀ entry ∈ world.entries other.cached.key,
      world.awaits entry.writer = false →
      Shares entry.labels cached.registries →
        entry.endsBy (world.clock + cached.lifetime) = true

/-- What is stored and not registered was computed after the mutation, or its
key is in the registries all the same. -/
def ListsInTime (world : World Payload) (purge : Purge) : Prop :=
  ∀ call ∈ world.calls, ∀ entry ∈ world.entries call.cached.key,
    world.awaits entry.writer = true →
    Shares entry.labels purge.registries →
      call.cached.key ∈ world.union purge.registries ∨ purge.mutations ≤ entry.seen

instance (world : World Payload) : DecidablePred world.StoresInTime :=
  fun call => inferInstanceAs (Decidable (∀ seen ∈ call.seen, _))

instance (world : World Payload) (number : Nat) :
    DecidablePred (world.RegistersInTime number) :=
  fun cached => inferInstanceAs (Decidable
    (∀ entry ∈ world.entries cached.key, entry.writer = number → (∀ purge ∈ world.purges, _) ∧
      (¬ 0 < cached.ttl → ∀ registry ∈ cached.registries,
        ∀ index ∈ world.sets.sets registry, index.deadline = none)))

instance (world : World Payload) : DecidablePred world.Outlived :=
  fun cached => inferInstanceAs (Decidable (0 < cached.ttl → ∀ other ∈ world.calls,
      ∀ entry ∈ world.entries other.cached.key, _))

instance (world : World Payload) : DecidablePred world.ListsInTime :=
  fun _purge => inferInstanceAs (Decidable (∀ call ∈ world.calls,
    ∀ entry ∈ world.entries call.cached.key, _))

end World

def Orderly (world : World Payload) : Action Payload → Prop
  | .set number => ∀ call ∈ world.calls[number]?, world.StoresInTime call
  | .register number =>
    ∀ call ∈ world.calls[number]?,
      world.RegistersInTime number call.cached ∧ world.Outlived call.cached
  | .sunion number => ∀ purge ∈ world.purges[number]?, world.ListsInTime purge
  | _ => True

instance (world : World Payload) :
    (action : Action Payload) → Decidable (Orderly world action)
  | .set number => inferInstanceAs (Decidable
      (∀ call ∈ world.calls[number]?, world.StoresInTime call))
  | .register number => inferInstanceAs (Decidable
      (∀ call ∈ world.calls[number]?,
        world.RegistersInTime number call.cached ∧ world.Outlived call.cached))
  | .sunion number => inferInstanceAs (Decidable
      (∀ purge ∈ world.purges[number]?, world.ListsInTime purge))
  | .elapse _ | .mutate | .call _ | .get _ _ | .run _ _ | .fail _ | .refuse _
  | .invalidate _ | .invalidateKeys _ | .deleteMembers _
  | .deleteRegistries _ => .isTrue trivial

def Purge.Clears (purge : Purge) (world : World Payload) (key : String)
    (entry : Entry Payload) : Prop :=
  match purge.progress with
  | .issued => True
  | .listed members =>
    key ∈ members ∨ (world.awaits entry.writer = true ∧ purge.mutations ≤ entry.seen)
  | .deleted _ => world.awaits entry.writer = true ∧ purge.mutations ≤ entry.seen
  | .completed _ => purge.mutations ≤ entry.seen

namespace World

variable {world next : World Payload}

structure Origin (world : World Payload) (key : String)
    (entry : Entry Payload) (call : Call Payload) : Prop where
  found : world.calls[entry.writer]? = some call
  own : call.cached.key = key
  labels : call.cached.registries = entry.labels
  ends : 0 < call.cached.ttl →
    entry.endsBy (world.clock + call.cached.lifetime) = true

structure Kept (world : World Payload) : Prop where
  written : ∀ key entry, world.entries key = some entry → ∃ call, world.Origin key entry call
  covered : ∀ key entry, world.entries key = some entry →
    ∀ label ∈ entry.labels, world.awaits entry.writer = true ∨ Covers world.sets label key entry
  cleared : ∀ purge ∈ world.purges, ∀ key entry, world.entries key = some entry →
      Shares entry.labels purge.registries → purge.Clears world key entry

variable {number : Nat} {cached : Cached}

theorem awaits_of_stored {payload : Payload}
    (found : world.calls[number]? = some ⟨cached, .stored payload⟩) :
    world.awaits number = true := by
  unfold awaits
  rw [found]

theorem Kept.initial : (initial : World Payload).Kept := by
  refine ⟨?_, ?_, ?_⟩
  · intro key entry found
    cases found
  · intro key entry found
    cases found
  · intro purge member
    cases member

/-- What a step must leave for the invariant to stay, when it stores nothing
and registers nothing. -/
structure Quiet (world next : World Payload) : Prop where
  fewer : ∀ key entry, next.entries key = some entry → world.entries key = some entry
  calls : ∀ (number : Nat) (call : Call Payload), world.calls[number]? = some call →
      ∃ stage, next.calls[number]? = some ⟨call.cached, stage⟩
  awaits : ∀ number, world.awaits number = true → next.awaits number = true
  clock : world.clock ≤ next.clock

variable {entry : Entry Payload}

theorem Quiet.written (quiet : Quiet world next) (kept : world.Kept)
    {key : String} (found : next.entries key = some entry) :
    ∃ call, next.Origin key entry call := by
  obtain ⟨call, origin⟩ := kept.written key entry (quiet.fewer key entry found)
  obtain ⟨stage, still⟩ := quiet.calls _ call origin.found
  refine ⟨_, still, origin.own, origin.labels, ?_⟩
  intro expires
  apply Entry.endsBy_mono _ (origin.ends expires)
  exact Nat.add_le_add_right quiet.clock _

theorem Quiet.clears (quiet : Quiet world next) {purge : Purge} {key : String}
    (clears : purge.Clears world key entry) : purge.Clears next key entry := by
  unfold Purge.Clears at clears ⊢
  cases progress : purge.progress with
  | issued => trivial
  | listed members =>
    simp only [progress] at clears
    rcases clears with member | ⟨awaited, fresh⟩
    · exact .inl member
    · exact .inr ⟨quiet.awaits _ awaited, fresh⟩
  | deleted members =>
    simp only [progress] at clears
    exact ⟨quiet.awaits _ clears.1, clears.2⟩
  | completed count =>
    simp only [progress] at clears
    exact clears

theorem Kept.quiet (kept : world.Kept) (quiet : Quiet world next)
    (covered : ∀ key entry label, next.entries key = some entry →
      Covers world.sets label key entry → Covers next.sets label key entry)
    (purges : ∀ purge ∈ next.purges, purge ∈ world.purges ∨
      ∀ key entry, next.entries key = some entry → Shares entry.labels purge.registries →
          purge.Clears next key entry) : next.Kept := by
  refine ⟨fun key entry found => quiet.written kept found, ?_, ?_⟩
  · intro key entry found label carried
    have before := quiet.fewer key entry found
    rcases kept.covered key entry before label carried with awaited | covers
    · exact .inl (quiet.awaits _ awaited)
    · exact .inr (covered key entry label found covers)
  · intro purge member key entry found shared
    rcases purges purge member with old | new
    · have before := quiet.fewer key entry found
      exact quiet.clears (kept.cleared purge old key entry before shared)
    · exact new key entry found shared

theorem withStage_calls {stage stage' : Stage Payload}
    (found : world.calls[number]? = some ⟨cached, stage⟩) {other : Nat}
    {call : Call Payload} (there : world.calls[other]? = some call) :
    ∃ stage, (world.withStage number cached stage').calls[other]? =
      some ⟨call.cached, stage⟩ := by
  unfold withStage
  by_cases same : number = other
  · subst same
    rw [found] at there
    cases there
    obtain ⟨inside, _entry⟩ := List.getElem?_eq_some_iff.mp found
    exact ⟨stage', by simp [inside]⟩
  · exact ⟨call.stage, by simp [same, there]⟩

theorem withStage_awaits_of_ne {number other : Nat} {stage : Stage Payload}
    (different : other ≠ number) :
    (world.withStage number cached stage).awaits other = world.awaits other := by
  unfold awaits withStage
  rw [List.getElem?_set_ne different.symm]

theorem Quiet.withStage {stage stage' : Stage Payload}
    (found : world.calls[number]? = some ⟨cached, stage⟩)
    (idle : world.awaits number = false) :
    Quiet world (world.withStage number cached stage') := by
  refine ⟨fun _key _entry found => found, ?_, ?_, Nat.le_refl _⟩
  · intro other call there
    exact withStage_calls found there
  · intro other awaited
    have different : other ≠ number := by
      rintro rfl
      rw [idle] at awaited
      cases awaited
    rw [withStage_awaits_of_ne different]
    exact awaited

theorem Kept.withStage (kept : world.Kept) {stage stage' : Stage Payload}
    (found : world.calls[number]? = some ⟨cached, stage⟩)
    (idle : world.awaits number = false) :
    (world.withStage number cached stage').Kept := by
  apply kept.quiet (Quiet.withStage found idle)
  · intro _key _entry _label _found covers
    exact covers
  · intro purge member
    exact .inl member

theorem Kept.set (kept : world.Kept) {payload : Payload} {seen : Nat}
    (found : world.calls[number]? = some ⟨cached, .computed payload seen⟩)
    (admitted : ∀ purge ∈ world.purges, Shares cached.registries purge.registries →
        purge.admits cached.key seen = true) :
    ((world.put number cached payload seen).withStage number cached
      (if cached.registries = [] then .returned payload else .stored payload)).Kept := by
  generalize stored : (if cached.registries = [] then Stage.returned payload
    else .stored payload) = stage
  have idle : world.awaits number = false := by
    unfold awaits
    rw [found]
  obtain ⟨inside, _entry⟩ := List.getElem?_eq_some_iff.mp found
  have there : (world.withStage number cached stage).calls[number]? = some ⟨cached, stage⟩ := by
    simp [World.withStage, inside]
  have awaited : cached.registries ≠ [] →
      (world.withStage number cached stage).awaits number = true := by
    intro labelled
    rw [if_neg labelled] at stored
    subst stored
    exact awaits_of_stored there
  have quiet := @Quiet.withStage _ world number cached _ stage found idle
  refine ⟨?_, ?_, ?_⟩
  · intro key entry holds
    by_cases same : key = cached.key
    · subst same
      have new := Option.some.inj ((Function.update_self _ _ world.entries).symm.trans holds)
      subst new
      refine ⟨_, there, rfl, rfl, ?_⟩
      intro expires
      simp [Cached.deadline, expires, Entry.endsBy, clock, World.withStage, put]
    · have old : world.entries key = some entry := by
        rw [← holds]
        exact (Function.update_of_ne same _ world.entries).symm
      obtain ⟨call, origin⟩ := quiet.written kept old
      exact ⟨call, origin.found, origin.own, origin.labels, origin.ends⟩
  · intro key entry holds label carried
    by_cases same : key = cached.key
    · subst same
      have new := Option.some.inj ((Function.update_self _ _ world.entries).symm.trans holds)
      subst new
      apply Or.inl
      apply awaited
      rintro none
      rw [none] at carried
      cases carried
    · have old : world.entries key = some entry := by
        rw [← holds]
        exact (Function.update_of_ne same _ world.entries).symm
      rcases kept.covered key entry old label carried with awaits | covers
      · exact .inl (quiet.awaits _ awaits)
      · exact .inr covers
  · intro purge member key entry holds shared
    by_cases same : key = cached.key
    · subst same
      have new := Option.some.inj ((Function.update_self _ _ world.entries).symm.trans holds)
      subst new
      have labelled : cached.registries ≠ [] := by
        rintro none
        obtain ⟨label, carried, _member⟩ := shared
        rw [none] at carried
        cases carried
      have admits := admitted purge member shared
      unfold Purge.admits at admits
      unfold Purge.Clears
      cases progress : purge.progress with
      | issued => trivial
      | listed members =>
        simp only [progress, decide_eq_true_eq] at admits
        rcases admits with listed | fresh
        · exact .inl listed
        · exact .inr ⟨awaited labelled, fresh⟩
      | deleted members =>
        simp only [progress, decide_eq_true_eq] at admits
        exact ⟨awaited labelled, admits⟩
      | completed count =>
        simp only [progress, decide_eq_true_eq] at admits
        exact admits
    · have old : world.entries key = some entry := by
        rw [← holds]
        exact (Function.update_of_ne same _ world.entries).symm
      exact quiet.clears (kept.cleared purge member key entry old shared)

theorem Kept.register (kept : world.Kept) {payload : Payload}
    (found : world.calls[number]? = some ⟨cached, .stored payload⟩)
    (orderly : Orderly world (.register number)) :
    ({ world with
      sets := registerLabels cached world.sets }.withStage number cached
        (.returned payload)).Kept := by
  obtain ⟨own, others⟩ := orderly _ found
  have origins : ∀ key entry, world.entries key = some entry →
      entry.writer = number → key = cached.key ∧ cached.registries = entry.labels ∧
        (0 < cached.ttl → entry.endsBy (world.clock + cached.lifetime) = true) := by
    intro key entry holds written
    obtain ⟨call, origin⟩ := kept.written key entry holds
    have same := origin.found
    rw [written, found] at same
    cases same
    exact ⟨origin.own.symm, origin.labels, origin.ends⟩
  have awaits : ∀ other, other ≠ number → ({ world with
        sets := registerLabels cached world.sets }.withStage number cached
          (.returned payload)).awaits other = world.awaits other := by
    intro other different
    exact withStage_awaits_of_ne different
  refine ⟨?_, ?_, ?_⟩
  · intro key entry holds
    obtain ⟨call, origin⟩ := kept.written key entry holds
    obtain ⟨stage, still⟩ :=
      @withStage_calls _ world number cached _ (.returned payload) found _ _ origin.found
    refine ⟨_, still, origin.own, origin.labels, ?_⟩
    intro expires
    have ends := origin.ends expires
    change entry.endsBy ((registerLabels cached world.sets).clock + call.cached.lifetime) = true
    rw [registerLabels_clock]
    exact ends
  · intro key entry holds label carried
    by_cases written : entry.writer = number
    · obtain ⟨same, labels, ends⟩ := origins key entry holds written
      subst same
      apply Or.inr
      apply covers_registerLabels (labels ▸ carried) ends
      intro persistent
      exact (own entry holds written).2 persistent label (labels ▸ carried)
    · rw [awaits _ written]
      cases awaited : world.awaits entry.writer with
      | true => exact .inl rfl
      | false =>
        rcases kept.covered key entry holds label carried with waits | covers
        · rw [awaited] at waits
          cases waits
        · apply Or.inr
          apply covers.registerLabels
          intro member expires
          obtain ⟨call, origin⟩ := kept.written key entry holds
          apply others expires call (List.mem_of_getElem? origin.found) entry
            (origin.own ▸ holds) awaited
          exact ⟨label, carried, member⟩
  · intro purge member key entry holds shared
    have clears := kept.cleared purge member key entry holds shared
    by_cases written : entry.writer = number
    · obtain ⟨same, _labels, _ends⟩ := origins key entry holds written
      subst same
      have allows := (own entry holds written).1 purge member shared
      unfold Purge.allows at allows
      unfold Purge.Clears at clears ⊢
      cases progress : purge.progress with
      | issued => trivial
      | listed members =>
        simp only [progress, decide_eq_true_eq] at allows
        exact .inl allows
      | deleted members =>
        simp only [progress] at allows
        cases allows
      | completed count =>
        simp only [progress] at clears
        exact clears
    · unfold Purge.Clears at clears ⊢
      rw [awaits _ written]
      exact clears

theorem mem_union {registries : List String} {key : String} : key ∈ world.union registries ↔
      ∃ registry ∈ registries, world.sets.Lists registry key := by
  unfold union
  rw [List.mem_dedup, List.mem_flatMap]
  constructor
  · rintro ⟨registry, member, inside⟩
    exact ⟨registry, member, Keyspace.mem_smembers.mp inside⟩
  · rintro ⟨registry, member, lists⟩
    exact ⟨registry, member, Keyspace.mem_smembers.mpr lists⟩

theorem Quiet.refl_of {next : World Payload} (calls : next.calls = world.calls)
    (fewer : ∀ key entry, next.entries key = some entry → world.entries key = some entry)
    (clock : world.clock ≤ next.clock) : Quiet world next := by
  refine ⟨fewer, ?_, ?_, clock⟩
  · intro number call found
    exact ⟨call.stage, calls ▸ found⟩
  · intro number awaited
    unfold World.awaits at awaited ⊢
    rw [calls]
    exact awaited

theorem Kept.progress (kept : world.Kept) (quiet : Quiet world next)
    {purge : Purge} {progress : Progress}
    (purges : next.purges = world.purges)
    (covered : ∀ key entry label, next.entries key = some entry →
      label ∈ entry.labels → Covers world.sets label key entry →
        next.awaits entry.writer = true ∨ Covers next.sets label key entry)
    (clears : ∀ key entry, next.entries key = some entry →
      Shares entry.labels purge.registries →
        Purge.Clears { purge with progress := progress } next key entry) :
    (next.withProgress number purge progress).Kept := by
  refine ⟨?_, ?_, ?_⟩
  · intro key entry found
    obtain ⟨call, origin⟩ := quiet.written kept found
    exact ⟨call, origin.found, origin.own, origin.labels, origin.ends⟩
  · intro key entry found label carried
    have before := quiet.fewer key entry found
    rcases kept.covered key entry before label carried with awaited | covers
    · exact .inl (quiet.awaits _ awaited)
    · exact covered key entry label found carried covers
  · intro other member key entry found shared
    rcases List.mem_or_eq_of_mem_set member with old | new
    · rw [purges] at old
      have before := quiet.fewer key entry found
      exact quiet.clears (kept.cleared other old key entry before shared)
    · subst new
      exact clears key entry found shared

theorem Kept.sunion (kept : world.Kept) {registries : List String} {mutations : Nat}
    (found : world.purges[number]? = some ⟨registries, mutations, .issued⟩)
    (orderly : Orderly world (.sunion number)) :
    (world.withProgress number ⟨registries, mutations, .issued⟩
      (if world.union registries = [] then
        .deleted (world.union registries)
      else .listed (world.union registries))).Kept := by
  have listed : ∀ key entry, world.entries key = some entry →
      Shares entry.labels registries → key ∈ world.union registries ∨
        (world.awaits entry.writer = true ∧ mutations ≤ entry.seen) := by
    intro key entry holds shared
    obtain ⟨label, carried, member⟩ := shared
    rcases kept.covered key entry holds label carried with awaited | covers
    · obtain ⟨call, origin⟩ := kept.written key entry holds
      have fresh := orderly _ found call (List.mem_of_getElem? origin.found)
        entry (origin.own ▸ holds) awaited ⟨label, carried, member⟩
      rw [origin.own] at fresh
      rcases fresh with inside | fresh
      · exact .inl inside
      · exact .inr ⟨awaited, fresh⟩
    · exact .inl ((mem_union).mpr ⟨label, member, covers.lists⟩)
  refine kept.progress (Quiet.refl_of rfl (fun _key _entry found => found)
    (Nat.le_refl _)) rfl ?_ ?_
  · intro _key _entry _label _found _carried covers
    exact .inr covers
  · intro key entry holds shared
    have left := listed key entry holds shared
    by_cases empty : world.union registries = []
    · rw [empty] at left
      rw [if_pos empty]
      rcases left with inside | awaited
      · cases inside
      · exact awaited
    · rw [if_neg empty]
      exact left

theorem discard_entries {keys : List String} {key : String} :
    (world.discard keys).entries key = some entry ↔
      key ∉ keys ∧ world.entries key = some entry := by
  simp [discard]

section

variable (kept : world.Kept)

include kept

theorem Kept.deleteMembers {registries members : List String} {mutations : Nat}
    (found : world.purges[number]? = some ⟨registries, mutations, .listed members⟩) :
    ((world.discard members).withProgress number
      ⟨registries, mutations, .listed members⟩ (.deleted members)).Kept := by
  have quiet : Quiet world (world.discard members) :=
    Quiet.refl_of rfl (fun _key _entry left => ((discard_entries).mp left).2) (Nat.le_refl _)
  refine kept.progress quiet rfl ?_ ?_
  · intro _key _entry _label _found _carried covers
    exact .inr covers
  · intro key entry holds shared
    obtain ⟨outside, before⟩ := (discard_entries).mp holds
    rcases kept.cleared _ (List.mem_of_getElem? found) key entry before shared
      with inside | awaited
    · exact (outside inside).elim
    · exact awaited

theorem Kept.deleteRegistries {registries members : List String} {mutations : Nat}
    (found : world.purges[number]? = some ⟨registries, mutations, .deleted members⟩) :
    ({ world with
      sets := world.sets.discardSets registries }.withProgress number
        ⟨registries, mutations, .deleted members⟩
        (.completed members.length)).Kept := by
  have cleared : ∀ key entry, world.entries key = some entry → Shares entry.labels registries →
        world.awaits entry.writer = true ∧ mutations ≤ entry.seen := by
    intro key entry holds shared
    exact kept.cleared _ (List.mem_of_getElem? found) key entry holds shared
  have quiet : Quiet world { world with sets := world.sets.discardSets registries } :=
    Quiet.refl_of rfl (fun _key _entry found => found) (Nat.le_refl _)
  refine kept.progress quiet rfl ?_ ?_
  · intro key entry label holds carried covers
    by_cases member : label ∈ registries
    · exact .inl (cleared key entry holds ⟨label, carried, member⟩).1
    · exact .inr (covers.discardSets member)
  · intro key entry holds shared
    exact (cleared key entry holds shared).2

theorem Kept.elapse (duration : Nat) : (world.elapse duration).Kept := by
  have filtered : ∀ key entry, (world.elapse duration).entries key = some entry →
        world.entries key = some entry ∧ entry.lasts (world.clock + duration) = true := by
    intro key entry found
    exact Option.filter_eq_some_iff.mp found
  refine kept.quiet (Quiet.refl_of rfl (fun key entry found => (filtered key entry found).1)
    (Nat.le_add_right _ _)) ?_ ?_
  · intro key entry _label found covers
    exact covers.elapse (filtered key entry found).2
  · intro purge member
    exact .inl member

theorem Kept.discard (keys : List String) : (world.discard keys).Kept := by
  refine kept.quiet (Quiet.refl_of rfl
    (fun _key _entry left => ((discard_entries).mp left).2) (Nat.le_refl _)) ?_ ?_
  · intro _key _entry _label _found covers
    exact covers
  · intro purge member
    exact .inl member

theorem Kept.call (cached : Cached) :
    ({ world with calls := world.calls ++ [⟨cached, .started⟩] } : World Payload).Kept := by
  have before : ∀ (number : Nat) (call : Call Payload), world.calls[number]? = some call →
        (world.calls ++ [⟨cached, .started⟩])[number]? = some call := by
    intro number call found
    obtain ⟨inside, _entry⟩ := List.getElem?_eq_some_iff.mp found
    rw [List.getElem?_append_left inside]
    exact found
  have quiet : Quiet world { world with calls := world.calls ++ [⟨cached, .started⟩] } := by
    refine ⟨fun _key _entry found => found, ?_, ?_, Nat.le_refl _⟩
    · intro number call found
      exact ⟨call.stage, before number call found⟩
    · intro number awaited
      unfold awaits at awaited ⊢
      cases found : world.calls[number]? with
      | none =>
        rw [found] at awaited
        cases awaited
      | some call =>
        rw [found] at awaited
        rw [before number call found]
        exact awaited
  apply kept.quiet quiet
  · intro _key _entry _label _found covers
    exact covers
  · intro purge member
    exact .inl member

theorem Kept.invalidate (registries : List String) : ({ world with
      purges := world.purges ++ [⟨registries, world.mutations,
        if registries = [] then .completed 0 else .issued⟩] } :
      World Payload).Kept := by
  refine kept.quiet (Quiet.refl_of rfl (fun _key _entry found => found) (Nat.le_refl _)) ?_ ?_
  · intro _key _entry _label _found covers
    exact covers
  · intro purge member
    rcases List.mem_append.mp member with old | new
    · exact .inl old
    · cases List.mem_singleton.mp new
      apply Or.inr
      intro key entry _holds shared
      by_cases none : registries = []
      · obtain ⟨label, _carried, inside⟩ := shared
        rw [none] at inside
        cases inside
      · rw [if_neg none]
        trivial

theorem Kept.mutate :
    ({ world with mutations := world.mutations + 1 } : World Payload).Kept := by
  refine kept.quiet (Quiet.refl_of rfl (fun _key _entry found => found) (Nat.le_refl _)) ?_ ?_
  · intro _key _entry _label _found covers
    exact covers
  · intro purge member
    exact .inl member

end

theorem idle_of_found {call : Call Payload} (found : world.calls[number]? = some call)
    (unstored : ∀ payload, call.stage ≠ .stored payload) :
    world.awaits number = false := by
  unfold awaits
  rw [found]
  cases call with
  | mk cached stage =>
    cases stage with
    | stored payload => exact (unstored payload rfl).elim
    | _ => rfl

theorem Kept.step (kept : world.Kept) {action : Action Payload} (orderly : Orderly world action)
    (taken : step world action = some next) : next.Kept := by
  cases action with
  | elapse duration =>
    cases taken
    exact kept.elapse duration
  | mutate =>
    cases taken
    exact kept.mutate
  | call cached =>
    cases taken
    exact kept.call cached
  | get number decodes =>
    simp only [Cache.step] at taken
    split at taken
    · rename_i cached found
      have idle := idle_of_found found fun _payload same => by cases same
      split at taken
      · cases taken
        exact kept.withStage found idle
      · cases taken
        exact kept.withStage found idle
    · cases taken
  | run number payload =>
    simp only [Cache.step] at taken
    split at taken
    · rename_i cached found
      cases taken
      apply kept.withStage found
      exact idle_of_found found fun _payload same => by cases same
    · cases taken
  | fail number =>
    simp only [Cache.step] at taken
    split at taken
    · rename_i cached found
      cases taken
      apply kept.withStage found
      exact idle_of_found found fun _payload same => by cases same
    · cases taken
  | refuse number =>
    simp only [Cache.step] at taken
    split at taken
    · rename_i cached payload seen found
      cases taken
      apply kept.withStage found
      exact idle_of_found found fun _payload same => by cases same
    · cases taken
  | set number =>
    simp only [Cache.step] at taken
    split at taken
    · rename_i cached payload seen found
      cases taken
      exact kept.set found (orderly _ found seen rfl)
    · cases taken
  | register number =>
    simp only [Cache.step] at taken
    split at taken
    · rename_i cached payload found
      cases taken
      exact kept.register found orderly
    · cases taken
  | invalidate invalidation =>
    cases taken
    exact kept.invalidate invalidation.registries
  | invalidateKeys keys =>
    cases taken
    exact kept.discard keys
  | sunion number =>
    simp only [Cache.step] at taken
    split at taken
    · rename_i registries mutations found
      cases taken
      exact kept.sunion found orderly
    · cases taken
  | deleteMembers number =>
    simp only [Cache.step] at taken
    split at taken
    · rename_i registries mutations members found
      cases taken
      exact kept.deleteMembers found
    · cases taken
  | deleteRegistries number =>
    simp only [Cache.step] at taken
    split at taken
    · rename_i registries mutations members found
      cases taken
      exact kept.deleteRegistries found
    · cases taken

theorem served_of_get {decodes : Bool}
    (taken : Cache.step world (.get number decodes) = some next)
    (served : next.calls[number]? = some ⟨cached, .served entry⟩) :
    world.entries cached.key = some entry := by
  simp only [Cache.step] at taken
  split at taken
  · rename_i other found
    obtain ⟨inside, _entry⟩ := List.getElem?_eq_some_iff.mp found
    split at taken
    · rename_i held holds
      cases taken
      simp only [World.withStage, List.getElem?_set_self inside] at served
      cases served
      exact holds
    · cases taken
      simp only [World.withStage, List.getElem?_set_self inside] at served
      cases served
  · cases taken

end World

/-- In every orderly run, an entry that is registered is listed in each of its
registries for as long as it lives, and no call is served a value from before
the mutations that a complete purge of one of its labels came after. -/
theorem invalidation_effective {schedule : List (Action Payload)} {reached : World Payload}
    (orderly : Runs.Meets step Orderly .initial schedule)
    (run : Runs.exec step .initial schedule = some reached) :
    (∀ key entry, reached.entries key = some entry →
      reached.awaits entry.writer = false → ∀ label ∈ entry.labels,
        reached.sets.Lists label key ∧ ∀ moment, entry.lasts moment = true →
            reached.sets.Outlasts label moment) ∧
    (∀ purge ∈ reached.purges, ∀ count, purge.progress = .completed count →
      ∀ number next cached entry, step reached (.get number true) = some next →
        next.calls[number]? = some ⟨cached, .served entry⟩ →
        Shares entry.labels purge.registries → purge.mutations ≤ entry.seen) := by
  have kept : reached.Kept := by
    apply Runs.exec_invariant_of_meets _ orderly World.Kept.initial run
    intro world action next kept orderly taken
    exact kept.step orderly taken
  refine ⟨?_, ?_⟩
  · intro key entry found registered label carried
    rcases kept.covered key entry found label carried with awaited | covers
    · rw [registered] at awaited
      cases awaited
    · exact ⟨covers.lists, covers.outlasts⟩
  · intro purge member count completed number next cached entry taken served shared
    have found := World.served_of_get taken served
    have clears := kept.cleared purge member cached.key entry found shared
    unfold Purge.Clears at clears
    simpa only [completed] using clears

def tagged (fragment : String) (ttl : Int) : Cached where
  keyPrefix := "users:"
  fragment := fragment
  ttl := ttl
  namespaceLabel := none
  tags := ["user:1"]

def inTurn : List (Action String) :=
  [.call (tagged "profile" 60), .get 0 true, .run 0 "old", .set 0,
    .register 0, .mutate, .invalidate (.ofTag "users:" "user:1"), .sunion 0,
    .deleteMembers 0, .deleteRegistries 0, .call (tagged "profile" 60),
    .get 1 true, .run 1 "new", .set 1, .register 1,
    .call (tagged "profile" 60)]

theorem invalidation_effective_in_turn : ∃ reached,
    Runs.exec step .initial inTurn = some reached ∧
    (∀ label ∈ ["users:__tag__:user:1"], reached.sets.Lists label "users:profile") ∧
    ∀ purge ∈ reached.purges, ∀ count, purge.progress = .completed count →
      ∀ number next cached entry, step reached (.get number true) = some next →
        next.calls[number]? = some ⟨cached, .served entry⟩ →
        Shares entry.labels purge.registries → purge.mutations ≤ entry.seen := by
  have orderly : Runs.Meets step Orderly .initial inTurn := by
    decide
  refine ⟨_, rfl, ?_, (invalidation_effective orderly rfl).2⟩
  intro label member
  exact ((invalidation_effective orderly rfl).1 "users:profile"
    ⟨"new", some 60000, ["users:__tag__:user:1"], 1, 1⟩ (by decide)
    (by decide) label member).1

/-- A value computed before the mutation is stored after the purge, and served;
an entry outlives its registry, which a shorter `ttl` was registered in; an
entry is registered after the registries were listed and before they are
deleted. -/
theorem invalidation_misses : ((Runs.exec step .initial
      [.call (tagged "profile" 60), .get 0 true, .run 0 "old", .mutate,
        .invalidate (.ofTag "users:" "user:1"), .sunion 0,
        .deleteRegistries 0, .set 0, .register 0,
        .call (tagged "profile" 60), .get 1 true]).map fun reached =>
          (reached.purges.map fun purge => (purge.mutations, purge.progress),
            reached.calls[1]?)) =
      some ([(1, .completed 0)], some ⟨tagged "profile" 60, .served
          ⟨"old", some 60000, ["users:__tag__:user:1"], 0, 0⟩⟩) ∧
    ((Runs.exec step .initial [.call (tagged "profile" 100), .get 0 true, .run 0 "old", .set 0,
        .register 0, .call (tagged "orders" 10), .get 1 true, .run 1 "none",
        .set 1, .register 1, .elapse 11000]).map fun reached =>
          ((reached.entries "users:profile").isSome, reached.awaits 0,
            (reached.sets.sets "users:__tag__:user:1").isSome)) =
      some (true, false, false) ∧
    ((Runs.exec step .initial [.invalidate (.ofTag "users:" "user:1"), .sunion 0,
        .call (tagged "profile" 60), .get 0 true, .run 0 "old", .set 0,
        .register 0, .deleteRegistries 0]).map fun reached =>
          ((reached.entries "users:profile").isSome, reached.awaits 0,
            (reached.sets.sets "users:__tag__:user:1").isSome)) =
      some (true, false, false) := by
  refine ⟨?_, ?_, ?_⟩
  · decide
  · decide
  · decide

end TempestSdk.Cache
