import Mathlib.Data.Finset.Card
import Mathlib.Data.List.Nodup
import TempestSdk.Genai.Registry

/-!
# The ceiling of a registry

A model that was evicted in use stays in memory until its calls are over.  The
place it takes is the place of a model that was taken in for it and that waits.
As long as every such model has a place of its own, the registry keeps its
ceiling.
-/

namespace TempestSdk.Genai

open Lifecycle (ModelLifecycle)

def Occupied (model : ModelLifecycle Nat) : Prop :=
  0 < model.inFlight ∨ model.loaded = true

namespace ModelRegistry

/-- What the registry and the lifecycles agree on. -/
structure Holds (registry : ModelRegistry) : Prop where
  nodup : registry.models.Nodup
  known : ∀ name ∈ registry.models, name < registry.made.length
  fits : registry.models.length ≤ registry.maxModels
  keys : ∀ one ∈ registry.models, ∀ two ∈ registry.models,
    registry.made[one]? = registry.made[two]? → one = two
  fresh : ∀ name, registry.made.length ≤ name → registry.fleet name = .init 0
  evicted : ∀ name, name < registry.made.length →
    ((registry.fleet name).evicted = true ↔ name ∉ registry.models)
  pending : ∀ name, (registry.fleet name).unloadPending = true →
    0 < (registry.fleet name).inFlight
  away : ∀ name, name ∉ registry.models → Occupied (registry.fleet name) →
    (registry.fleet name).unloadPending = true

def Waits (registry : ModelRegistry) (name : Nat) : Prop :=
  ∃ blocker ∈ (registry.fleet name).blockers, (registry.fleet blocker).unloadPending = true

/-- Each model that is about to be released is waited for in a place of its
own. -/
structure Placed (registry : ModelRegistry) (place : Nat → Nat) : Prop where
  charged : ∀ name, (registry.fleet name).unloadPending = true → place name ∈ registry.models ∧
    name ∈ (registry.fleet (place name)).blockers ∧
    (Occupied (registry.fleet (place name)) →
      (registry.fleet (place name)).unloadPending = true)
  apart : ∀ one two, (registry.fleet one).unloadPending = true →
    (registry.fleet two).unloadPending = true → place one = place two → one = two

section

variable {registry : ModelRegistry} {place : Nat → Nat} {name : Nat}

theorem Placed.waits (placed : registry.Placed place)
    (pending : (registry.fleet name).unloadPending = true) :
    registry.Waits (place name) :=
  ⟨name, (placed.charged name pending).2.1, pending⟩

def resident (registry : ModelRegistry) : Nat :=
  (Finset.range registry.made.length).filter
    (fun name => (registry.fleet name).loaded = true) |>.card

theorem Placed.resident_le (placed : registry.Placed place)
    (holds : registry.Holds) : registry.resident ≤ registry.maxModels := by
  let home := fun name =>
    if (registry.fleet name).unloadPending = true then place name else name
  have counted : registry.resident ≤ registry.models.toFinset.card := by
    unfold resident
    apply Finset.card_le_card_of_injOn home
    · intro name member
      have loaded := (Finset.mem_filter.mp member).2
      apply List.mem_toFinset.mpr
      by_cases pending : (registry.fleet name).unloadPending = true
      · simp only [home, if_pos pending]
        exact (placed.charged name pending).1
      · simp only [home, if_neg pending]
        by_contra absent
        exact pending (holds.away name absent (.inr loaded))
    · intro one one_member two two_member same
      have one_loaded := (Finset.mem_filter.mp one_member).2
      have two_loaded := (Finset.mem_filter.mp two_member).2
      by_cases first : (registry.fleet one).unloadPending = true
      · by_cases second : (registry.fleet two).unloadPending = true
        · simp only [home, if_pos first, if_pos second] at same
          exact placed.apart one two first second same
        · simp only [home, if_pos first, if_neg second] at same
          have free := (placed.charged one first).2.2
          rw [same] at free
          exact (second (free (.inr two_loaded))).elim
      · by_cases second : (registry.fleet two).unloadPending = true
        · simp only [home, if_neg first, if_pos second] at same
          have free := (placed.charged two second).2.2
          rw [← same] at free
          exact (first (free (.inr one_loaded))).elim
        · simpa only [home, if_neg first, if_neg second] using same
  rw [List.toFinset_card_of_nodup holds.nodup] at counted
  exact counted.trans holds.fits

variable {model : ModelLifecycle Nat}

theorem Holds.update (holds : registry.Holds) (made : name < registry.made.length)
    (evicted : model.evicted = (registry.fleet name).evicted)
    (pending : model.unloadPending = true → 0 < model.inFlight)
    (away : name ∉ registry.models → Occupied model → model.unloadPending = true) :
    Holds { registry with
      fleet := Function.update registry.fleet name model } := by
  constructor
  · exact holds.nodup
  · exact holds.known
  · exact holds.fits
  · exact holds.keys
  · intro other later
    have differs : other ≠ name := by
      rintro rfl
      exact absurd made (not_lt.mpr later)
    exact (Function.update_of_ne differs _ _).trans (holds.fresh other later)
  · intro other known
    change (Function.update registry.fleet name model other).evicted = true ↔ _
    by_cases same : other = name
    · rw [same, Function.update_self, evicted]
      exact holds.evicted name made
    · rw [Function.update_of_ne same]
      exact holds.evicted other known
  · intro other waits
    change (Function.update registry.fleet name model other).unloadPending = true at waits
    change 0 < (Function.update registry.fleet name model other).inFlight
    by_cases same : other = name
    · rw [same, Function.update_self] at waits ⊢
      exact pending waits
    · rw [Function.update_of_ne same] at waits ⊢
      exact holds.pending other waits
  · intro other absent occupied
    change Occupied (Function.update registry.fleet name model other) at occupied
    change (Function.update registry.fleet name model other).unloadPending = true
    by_cases same : other = name
    · rw [same] at absent
      rw [same, Function.update_self] at occupied ⊢
      exact away absent occupied
    · rw [Function.update_of_ne same] at occupied ⊢
      exact holds.away other absent occupied

theorem Placed.update (placed : registry.Placed place)
    (pending : model.unloadPending = true → (registry.fleet name).unloadPending = true)
    (kept : ∀ other, (registry.fleet other).unloadPending = true →
      place other = name → other ∈ model.blockers ∧
        (Occupied model → model.unloadPending = true)) :
    Placed { registry with
      fleet := Function.update registry.fleet name model } place := by
  have before : ∀ other, (Function.update registry.fleet name model
      other).unloadPending = true → (registry.fleet other).unloadPending = true := by
    intro other waits
    by_cases same : other = name
    · rw [same, Function.update_self] at waits
      rw [same]
      exact pending waits
    · rwa [Function.update_of_ne same] at waits
  constructor
  · intro other waits
    have waited := before other waits
    obtain ⟨member, blocker, free⟩ := placed.charged other waited
    refine ⟨member, ?_⟩
    change other ∈ (Function.update registry.fleet name model
      (place other)).blockers ∧ (Occupied (Function.update registry.fleet name
        model (place other)) → (Function.update registry.fleet name model
          (place other)).unloadPending = true)
    by_cases same : place other = name
    · rw [same, Function.update_self]
      exact kept other waited same
    · rw [Function.update_of_ne same]
      exact ⟨blocker, free⟩
  · intro one two first second
    exact placed.apart one two (before one first) (before two second)

structure Taking (registry : ModelRegistry) (name : Nat) : Prop where
  nodup : registry.models.Nodup
  known : ∀ other ∈ registry.models, other < registry.made.length
  fits : registry.models.length ≤ registry.maxModels
  keys : ∀ one ∈ registry.models, ∀ two ∈ registry.models,
    registry.made[one]? = registry.made[two]? → one = two
  fresh : ∀ other, registry.made.length ≤ other → registry.fleet other = .init 0
  evicted : ∀ other, other ≠ name → other < registry.made.length →
    ((registry.fleet other).evicted = true ↔ other ∉ registry.models)
  pending : ∀ other, (registry.fleet other).unloadPending = true →
    0 < (registry.fleet other).inFlight
  away : ∀ other, other ∉ registry.models → Occupied (registry.fleet other) →
    (registry.fleet other).unloadPending = true
  made : name < registry.made.length
  outside : name ∉ registry.models
  admitted : (registry.fleet name).evicted = false

theorem mem_take {models : List Nat} {other : Nat} :
    other ∈ models ++ [name] ↔ other ∈ models ∨ other = name := by
  rw [List.mem_append, List.mem_singleton]

theorem nodup_take {models : List Nat} (nodup : models.Nodup)
    (outside : name ∉ models) : (models ++ [name]).Nodup := by
  apply List.nodup_append.mpr
  refine ⟨nodup, List.nodup_singleton name, ?_⟩
  intro one member two same equal
  rw [List.mem_singleton.mp same] at equal
  exact outside (equal ▸ member)

theorem keys_take {models : List Nat} {made : List String}
    (keys : ∀ one ∈ models, ∀ two ∈ models, made[one]? = made[two]? → one = two)
    (own : ∀ other ∈ models, made[other]? ≠ made[name]?) :
    ∀ one ∈ models ++ [name], ∀ two ∈ models ++ [name],
      made[one]? = made[two]? → one = two := by
  intro one first two second same
  rcases (mem_take).mp first with one_old | rfl
  · rcases (mem_take).mp second with two_old | rfl
    · exact keys one one_old two two_old same
    · exact (own one one_old same).elim
  · rcases (mem_take).mp second with two_old | rfl
    · exact (own two two_old same.symm).elim
    · rfl

theorem Taking.room (taking : registry.Taking name)
    (free : registry.models.length < registry.maxModels)
    (own : ∀ other ∈ registry.models, registry.made[other]? ≠ registry.made[name]?) :
    Holds { registry with models := registry.models ++ [name] } := by
  constructor
  · exact nodup_take taking.nodup taking.outside
  · intro other member
    rcases (mem_take).mp member with old | rfl
    · exact taking.known other old
    · exact taking.made
  · change (registry.models ++ [name]).length ≤ registry.maxModels
    rw [List.length_append, List.length_singleton]
    exact free
  · exact keys_take taking.keys own
  · exact taking.fresh
  · intro other known
    change _ ↔ other ∉ registry.models ++ [name]
    rw [mem_take, not_or]
    by_cases same : other = name
    · rw [same, taking.admitted]
      simp
    · rw [taking.evicted other same known]
      exact ⟨fun absent => ⟨absent, same⟩, fun absent => absent.1⟩
  · exact taking.pending
  · intro other absent occupied
    change other ∉ registry.models ++ [name] at absent
    rw [mem_take, not_or] at absent
    exact taking.away other absent.1 occupied

theorem Placed.room (placed : registry.Placed place) :
    Placed { registry with models := registry.models ++ [name] } place where
  charged other waits := by
    obtain ⟨member, rest⟩ := placed.charged other waits
    exact ⟨(mem_take).mpr (.inl member), rest⟩
  apart := placed.apart

/-- The lifecycles after `old` had to make room for `name`. -/
def swapped (registry : ModelRegistry) (old name : Nat) : Fleet :=
  holdUntilDrained (unloadEvicted registry.fleet old).1 name
    (unloadEvicted registry.fleet old).2

def withSwapped (registry : ModelRegistry) (old name : Nat) : ModelRegistry :=
  { registry with
    models := registry.models.erase old ++ [name]
    fleet := registry.swapped old name }

variable {old : Nat}

theorem swapped_other {other : Nat} (not_old : other ≠ old) (not_name : other ≠ name) :
    registry.swapped old name other = registry.fleet other := by
  unfold swapped holdUntilDrained unloadEvicted
  dsimp only
  rw [Function.update_of_ne not_name, Function.update_of_ne not_old]

theorem swapped_old (differ : old ≠ name) : registry.swapped old name old =
      (registry.fleet old).markEvicted.unload.2 := by
  unfold swapped holdUntilDrained unloadEvicted
  dsimp only
  rw [Function.update_of_ne differ, Function.update_self]

theorem swapped_name (differ : old ≠ name) : registry.swapped old name name =
      (registry.fleet name).waitFor name
        (if (registry.fleet old).markEvicted.unload.2.unloadPending then [old] else []) := by
  unfold swapped holdUntilDrained unloadEvicted
  dsimp only
  rw [Function.update_self, Function.update_of_ne differ.symm]

theorem swapped_name_fields (differ : old ≠ name) :
    (registry.swapped old name name).inFlight = (registry.fleet name).inFlight ∧
      (registry.swapped old name name).loaded = (registry.fleet name).loaded ∧
      (registry.swapped old name name).evicted = (registry.fleet name).evicted ∧
      (registry.swapped old name name).unloadPending = (registry.fleet name).unloadPending := by
  rw [swapped_name differ]
  exact ⟨rfl, rfl, rfl, rfl⟩

theorem evicted_pending : model.markEvicted.unload.2.unloadPending = true ↔
      0 < model.inFlight ∨ model.unloadPending = true := by
  by_cases busy : 0 < model.inFlight
  · rw [evicted_busy busy]
    exact iff_of_true rfl (.inl busy)
  · rw [evicted_quiet (Nat.eq_zero_of_not_pos busy)]
    exact ⟨.inr, fun either => either.resolve_left busy⟩

theorem evicted_evicted (model : ModelLifecycle Nat) :
    model.markEvicted.unload.2.evicted = true := by
  by_cases busy : 0 < model.inFlight
  · rw [evicted_busy busy]
  · rw [evicted_quiet (Nat.eq_zero_of_not_pos busy)]

theorem evicted_occupied (occupied : Occupied model.markEvicted.unload.2) :
    0 < model.inFlight := by
  rcases occupied with busy | loaded
  · rwa [evicted_inFlight] at busy
  · by_contra idle
    rw [evicted_quiet (Nat.eq_zero_of_not_pos idle)] at loaded
    cases loaded

theorem Taking.instead (taking : registry.Taking name) (member : old ∈ registry.models)
    (own : ∀ other ∈ registry.models.erase old, registry.made[other]? ≠ registry.made[name]?) :
    (registry.withSwapped old name).Holds := by
  have differ : old ≠ name := fun same => taking.outside (same ▸ member)
  obtain ⟨in_flight, loaded, evicted, pending⟩ :=
    @swapped_name_fields registry name old differ
  have kept : ∀ other ∈ registry.models.erase old, other ∈ registry.models :=
    fun other inside => List.mem_of_mem_erase inside
  have shorter := List.length_erase_of_mem member
  have some_model := List.length_pos_of_mem member
  constructor
  · exact nodup_take (taking.nodup.erase old) fun inside => taking.outside (kept name inside)
  · intro other inside
    rcases (mem_take).mp inside with there | rfl
    · exact taking.known other (kept other there)
    · exact taking.made
  · change (registry.models.erase old ++ [name]).length ≤ registry.maxModels
    rw [List.length_append, List.length_singleton]
    have before := taking.fits
    omega
  · apply keys_take _ own
    intro one first two second
    exact taking.keys one (kept one first) two (kept two second)
  · intro other later
    have not_old : other ≠ old := by
      rintro rfl
      exact absurd (taking.known other member) (not_lt.mpr later)
    have not_name : other ≠ name := by
      rintro rfl
      exact absurd taking.made (not_lt.mpr later)
    exact (swapped_other not_old not_name).trans (taking.fresh other later)
  · intro other known
    change (registry.swapped old name other).evicted = true ↔
      other ∉ registry.models.erase old ++ [name]
    rw [mem_take, not_or, taking.nodup.mem_erase_iff]
    by_cases is_name : other = name
    · rw [is_name, evicted, taking.admitted]
      simp
    · by_cases is_old : other = old
      · rw [is_old, swapped_old differ]
        exact iff_of_true (evicted_evicted _) ⟨fun both => both.1 rfl, differ⟩
      · rw [swapped_other is_old is_name, taking.evicted other is_name known]
        constructor
        · intro absent
          exact ⟨fun both => absent both.2, is_name⟩
        · intro absent inside
          exact absent.1 ⟨is_old, inside⟩
  · intro other waits
    change (registry.swapped old name other).unloadPending = true at waits
    change 0 < (registry.swapped old name other).inFlight
    by_cases is_name : other = name
    · rw [is_name, pending] at waits
      rw [is_name, in_flight]
      exact taking.pending name waits
    · by_cases is_old : other = old
      · rw [is_old, swapped_old differ] at waits ⊢
        rw [evicted_inFlight]
        rcases (evicted_pending).mp waits with busy | before
        · exact busy
        · exact taking.pending old before
      · rw [swapped_other is_old is_name] at waits ⊢
        exact taking.pending other waits
  · intro other absent occupied
    change other ∉ registry.models.erase old ++ [name] at absent
    change Occupied (registry.swapped old name other) at occupied
    change (registry.swapped old name other).unloadPending = true
    rw [mem_take, not_or, taking.nodup.mem_erase_iff] at absent
    by_cases is_old : other = old
    · rw [is_old, swapped_old differ] at occupied ⊢
      exact (evicted_pending).mpr (.inl (evicted_occupied occupied))
    · rw [swapped_other is_old absent.2] at occupied ⊢
      apply taking.away other _ occupied
      intro inside
      exact absent.1 ⟨is_old, inside⟩

theorem Placed.instead (placed : registry.Placed place)
    (taking : registry.Taking name) (member : old ∈ registry.models)
    (spared : ¬ registry.Waits old) :
    ∃ after, (registry.withSwapped old name).Placed after := by
  have differ : old ≠ name := fun same => taking.outside (same ▸ member)
  obtain ⟨in_flight, loaded, evicted, pending⟩ :=
    @swapped_name_fields registry name old differ
  -- A model that already drains keeps its place, a new one gets the newcomer's.
  let after := fun other =>
    if other = old ∧ (registry.fleet old).unloadPending = false then name
    else place other
  have old_place : ∀ other, (registry.fleet other).unloadPending = true →
      place other ≠ old ∧ place other ≠ name := by
    intro other waits
    constructor
    · intro same
      exact spared (same ▸ placed.waits waits)
    · intro same
      exact taking.outside (same ▸ (placed.charged other waits).1)
  have moved : ∀ other, (registry.fleet other).unloadPending = true →
      after other = place other := by
    intro other waits
    apply if_neg
    rintro ⟨rfl, quiet⟩
    rw [waits] at quiet
    cases quiet
  have before : ∀ other, (registry.swapped old name other).unloadPending = true →
        (registry.fleet other).unloadPending = true ∨
          (other = old ∧ (registry.fleet old).unloadPending = false) := by
    intro other waits
    by_cases is_name : other = name
    · rw [is_name, pending] at waits
      rw [is_name]
      exact .inl waits
    · by_cases is_old : other = old
      · cases quiet : (registry.fleet old).unloadPending with
        | true =>
          rw [is_old]
          exact .inl quiet
        | false => exact .inr ⟨is_old, rfl⟩
      · rw [swapped_other is_old is_name] at waits
        exact .inl waits
  have newcomer : ∀ other, other = old ∧ (registry.fleet old).unloadPending = false →
        after other = name := fun other drains => if_pos drains
  refine ⟨after, ?_, ?_⟩
  · intro other waits
    change (registry.swapped old name other).unloadPending = true at waits
    change after other ∈ registry.models.erase old ++ [name] ∧
      other ∈ (registry.swapped old name (after other)).blockers ∧
        (Occupied (registry.swapped old name (after other)) →
          (registry.swapped old name (after other)).unloadPending = true)
    rcases before other waits with already | drains
    · obtain ⟨inside, blocker, free⟩ := placed.charged other already
      obtain ⟨not_old, not_name⟩ := old_place other already
      rw [moved other already, swapped_other not_old not_name]
      refine ⟨(mem_take).mpr (.inl ?_), blocker, free⟩
      exact taking.nodup.mem_erase_iff.mpr ⟨not_old, inside⟩
    · rw [newcomer other drains]
      refine ⟨(mem_take).mpr (.inr rfl), ?_, ?_⟩
      · rw [drains.1, swapped_old differ] at waits
        rw [swapped_name differ, drains.1, if_pos waits]
        unfold ModelLifecycle.waitFor
        apply List.mem_append_right
        exact List.mem_filter.mpr ⟨List.mem_singleton_self old, decide_eq_true differ⟩
      · intro occupied
        rw [pending]
        apply taking.away name taking.outside
        unfold Occupied at occupied ⊢
        rwa [in_flight, loaded] at occupied
  · intro one two first second same
    change (registry.swapped old name one).unloadPending = true at first
    change (registry.swapped old name two).unloadPending = true at second
    rcases before one first with one_old | one_new
    · rcases before two second with two_old | two_new
      · rw [moved one one_old, moved two two_old] at same
        exact placed.apart one two one_old two_old same
      · rw [moved one one_old, newcomer two two_new] at same
        exact ((old_place one one_old).2 same).elim
    · rcases before two second with two_old | two_new
      · rw [newcomer one one_new, moved two two_old] at same
        exact ((old_place two two_old).2 same.symm).elim
      · exact one_new.1.trans two_new.1.symm

def withoutModel (registry : ModelRegistry) (old : Nat) : ModelRegistry :=
  { registry with
    models := registry.models.erase old
    fleet := (unloadEvicted registry.fleet old).1 }

theorem Holds.without (holds : registry.Holds) (member : old ∈ registry.models) :
    (registry.withoutModel old).Holds := by
  have kept : ∀ other ∈ registry.models.erase old, other ∈ registry.models :=
    fun other inside => List.mem_of_mem_erase inside
  have shorter := List.length_erase_of_mem member
  have fleet : (registry.withoutModel old).fleet = Function.update registry.fleet old
        (registry.fleet old).markEvicted.unload.2 := rfl
  constructor
  · exact holds.nodup.erase old
  · exact fun other inside => holds.known other (kept other inside)
  · change (registry.models.erase old).length ≤ registry.maxModels
    have before := holds.fits
    omega
  · intro one first two second
    exact holds.keys one (kept one first) two (kept two second)
  · intro other later
    have differs : other ≠ old := by
      rintro rfl
      exact absurd (holds.known other member) (not_lt.mpr later)
    rw [fleet, Function.update_of_ne differs]
    exact holds.fresh other later
  · intro other known
    change _ ↔ other ∉ registry.models.erase old
    rw [fleet, holds.nodup.mem_erase_iff]
    by_cases is_old : other = old
    · rw [is_old, Function.update_self]
      exact iff_of_true (evicted_evicted _) fun both => both.1 rfl
    · rw [Function.update_of_ne is_old, holds.evicted other known]
      exact ⟨fun absent both => absent both.2, fun absent inside => absent ⟨is_old, inside⟩⟩
  · intro other waits
    rw [fleet] at waits ⊢
    by_cases is_old : other = old
    · rw [is_old, Function.update_self] at waits ⊢
      rw [evicted_inFlight]
      rcases (evicted_pending).mp waits with busy | before
      · exact busy
      · exact holds.pending old before
    · rw [Function.update_of_ne is_old] at waits ⊢
      exact holds.pending other waits
  · intro other absent occupied
    change other ∉ registry.models.erase old at absent
    rw [holds.nodup.mem_erase_iff] at absent
    rw [fleet] at occupied ⊢
    by_cases is_old : other = old
    · rw [is_old, Function.update_self] at occupied ⊢
      exact (evicted_pending).mpr (.inl (evicted_occupied occupied))
    · rw [Function.update_of_ne is_old] at occupied ⊢
      apply holds.away other _ occupied
      exact fun inside => absent ⟨is_old, inside⟩

theorem Placed.without (placed : registry.Placed place)
    (holds : registry.Holds) (quiet : (registry.fleet old).inFlight = 0)
    (spared : ¬ registry.Waits old) :
    (registry.withoutModel old).Placed place := by
  have fleet : (registry.withoutModel old).fleet = Function.update registry.fleet old
        (registry.fleet old).markEvicted.unload.2 := rfl
  have before : ∀ other, ((registry.withoutModel old).fleet other).unloadPending = true →
        (registry.fleet other).unloadPending = true := by
    intro other waits
    rw [fleet] at waits
    by_cases is_old : other = old
    · rw [is_old, Function.update_self] at waits
      rcases (evicted_pending).mp waits with busy | already
      · omega
      · rwa [is_old]
    · rwa [Function.update_of_ne is_old] at waits
  constructor
  · intro other waits
    have already := before other waits
    obtain ⟨inside, blocker, free⟩ := placed.charged other already
    have not_old : place other ≠ old :=
      fun same => spared (same ▸ placed.waits already)
    refine ⟨holds.nodup.mem_erase_iff.mpr ⟨not_old, inside⟩, ?_⟩
    rw [fleet, Function.update_of_ne not_old]
    exact ⟨blocker, free⟩
  · intro one two first second
    exact placed.apart one two (before one first) (before two second)

theorem lookup_some {key : String} (found : registry.lookup key = some name) :
    name ∈ registry.models ∧ registry.made[name]? = some key := by
  refine ⟨List.mem_of_find?_eq_some found, ?_⟩
  have same := List.find?_some found
  exact eq_of_beq same

theorem lookup_none {key : String} (absent : registry.lookup key = none) :
    ∀ other ∈ registry.models, registry.made[other]? ≠ some key := by
  intro other member same
  have differs := List.find?_eq_none.mp absent other member
  exact differs (beq_iff_eq.mpr same)

/-- The model that has to go when `name` is taken in under `key`. -/
def displaced (registry : ModelRegistry) (key : String) (name : Nat) : Option Nat :=
  match registry.lookup key with
  | some current => if current = name then none else some current
  | none =>
    if registry.models.length < registry.maxModels then none
    else registry.models.head?

theorem holdUntilDrained_nil (fleet : Fleet) (name : Nat) :
    holdUntilDrained fleet name [] = fleet := by
  unfold holdUntilDrained ModelLifecycle.waitFor
  rw [List.filter_nil, List.append_nil]
  exact Function.update_eq_self name fleet

theorem Holds.touched (holds : registry.Holds) (member : name ∈ registry.models) :
    Holds { registry with models := registry.models.erase name ++ [name] } := by
  have same : ∀ other,
      other ∈ registry.models.erase name ++ [name] ↔ other ∈ registry.models := by
    intro other
    rw [mem_take, holds.nodup.mem_erase_iff]
    constructor
    · rintro (inside | rfl)
      · exact inside.2
      · exact member
    · intro inside
      by_cases is_name : other = name
      · exact .inr is_name
      · exact .inl ⟨is_name, inside⟩
  have shorter := List.length_erase_of_mem member
  have some_model := List.length_pos_of_mem member
  constructor
  · apply nodup_take (holds.nodup.erase name)
    intro inside
    exact (holds.nodup.mem_erase_iff.mp inside).1 rfl
  · exact fun other inside => holds.known other ((same other).mp inside)
  · change (registry.models.erase name ++ [name]).length ≤ registry.maxModels
    rw [List.length_append, List.length_singleton]
    have before := holds.fits
    omega
  · intro one first two second
    exact holds.keys one ((same one).mp first) two ((same two).mp second)
  · exact holds.fresh
  · intro other known
    exact (holds.evicted other known).trans (not_congr (same other).symm)
  · exact holds.pending
  · intro other absent
    exact holds.away other (mt (same other).mpr absent)

theorem Placed.touched (placed : registry.Placed place) (nodup : registry.models.Nodup) :
    Placed { registry with models := registry.models.erase name ++ [name] } place where
  charged other waits := by
    obtain ⟨inside, rest⟩ := placed.charged other waits
    refine ⟨(mem_take).mpr ?_, rest⟩
    by_cases is_name : place other = name
    · exact .inr is_name
    · exact .inl (nodup.mem_erase_iff.mpr ⟨is_name, inside⟩)
  apart := placed.apart

theorem Taking.settled (taking : registry.Taking name) (own : ∀ other ∈ registry.models,
      registry.made[other]? ≠ registry.made[name]?) :
    (registry.settle name registry.fleet registry.models []).Holds ∧
    ∀ place, registry.Placed place → (registry.maxModels ≤ registry.models.length →
        ∀ oldest, registry.models.head? = some oldest → ¬ registry.Waits oldest) →
      ∃ after, (registry.settle name registry.fleet registry.models []).Placed after := by
  have same : registry.models.erase name = registry.models :=
    List.erase_of_not_mem taking.outside
  by_cases free : registry.models.length < registry.maxModels
  · have settled := @settle_room registry registry.fleet name registry.models [] (by rwa [same])
    rw [settled, same, holdUntilDrained_nil]
    exact ⟨taking.room free own, fun place placed _spared =>
      ⟨place, placed.room⟩⟩
  · have full : registry.models.length = registry.maxModels :=
      le_antisymm taking.fits (not_lt.mp free)
    have some_model : 0 < registry.models.length := by
      rw [full]
      exact registry.positive
    obtain ⟨oldest, rest, entries⟩ := List.exists_cons_of_length_pos some_model
    have erased : registry.models.erase oldest = rest := by
      rw [entries, List.erase_cons_head]
    have settled := @settle_full registry registry.fleet name oldest
      registry.models rest (same.trans entries)
      (by rw [← full, entries, List.length_cons])
    have swap : registry.settle name registry.fleet registry.models [] =
        registry.withSwapped oldest name := by
      rw [settled]
      unfold withSwapped swapped
      rw [erased]
    have member : oldest ∈ registry.models := by
      rw [entries]
      exact List.mem_cons_self
    rw [swap]
    constructor
    · apply taking.instead member
      intro other inside
      exact own other (List.mem_of_mem_erase inside)
    · intro place placed spared
      exact placed.instead taking member (spared (not_lt.mp free) oldest (by rw [entries]; rfl))

/-- The registry is about to take in the model that `get` makes. -/
def withMade (registry : ModelRegistry) (key : String) : ModelRegistry :=
  { registry with made := registry.made ++ [key] }

theorem Holds.making (holds : registry.Holds) (key : String) :
    (registry.withMade key).Taking registry.made.length := by
  have longer : (registry.made ++ [key]).length = registry.made.length + 1 := by
    rw [List.length_append, List.length_singleton]
  have outside : registry.made.length ∉ registry.models := by
    intro inside
    exact lt_irrefl _ (holds.known _ inside)
  have new := holds.fresh registry.made.length (le_refl _)
  constructor
  · exact holds.nodup
  · intro other inside
    change other < (registry.made ++ [key]).length
    rw [longer]
    exact (holds.known other inside).trans (Nat.lt_succ_self _)
  · exact holds.fits
  · intro one first two second same
    change (registry.made ++ [key])[one]? = (registry.made ++ [key])[two]? at same
    rw [List.getElem?_append_left (holds.known one first),
      List.getElem?_append_left (holds.known two second)] at same
    exact holds.keys one first two second same
  · intro other later
    apply holds.fresh other
    change (registry.made ++ [key]).length ≤ other at later
    rw [longer] at later
    exact (Nat.le_succ _).trans later
  · intro other differs known
    apply holds.evicted other
    change other < (registry.made ++ [key]).length at known
    rw [longer] at known
    exact lt_of_le_of_ne (Nat.lt_succ_iff.mp known) differs
  · exact holds.pending
  · exact holds.away
  · change registry.made.length < (registry.made ++ [key]).length
    rw [longer]
    exact Nat.lt_succ_self _
  · exact outside
  · change (registry.fleet registry.made.length).evicted = false
    rw [new]
    rfl

theorem get_miss {key : String} (holds : registry.Holds) (absent : registry.lookup key = none) :
    (registry.get key).2 = (registry.withMade key).settle registry.made.length
      (registry.withMade key).fleet (registry.withMade key).models [] := by
  have new := holds.fresh registry.made.length (le_refl _)
  have same : Function.update registry.fleet registry.made.length (.init 0) =
      registry.fleet := by
    rw [← new]
    exact Function.update_eq_self _ _
  unfold get
  rw [absent]
  dsimp only
  rw [same]
  rfl

theorem get_hit {key : String} (found : registry.lookup key = some name) :
    (registry.get key).2 =
      { registry with models := registry.models.erase name ++ [name] } := by
  unfold get
  rw [found]

theorem Holds.get (holds : registry.Holds) (key : String) : (registry.get key).2.Holds ∧
    ∀ place, registry.Placed place →
      (∀ old, registry.displaced key registry.made.length = some old → ¬ registry.Waits old) →
      ∃ after, (registry.get key).2.Placed after := by
  cases found : registry.lookup key with
  | some name =>
    rw [get_hit found]
    exact ⟨holds.touched (lookup_some found).1, fun place placed _spared =>
      ⟨place, placed.touched holds.nodup⟩⟩
  | none =>
    rw [get_miss holds found]
    have own : ∀ other ∈ registry.models, (registry.made ++ [key])[other]? ≠
        (registry.made ++ [key])[registry.made.length]? := by
      intro other inside
      rw [List.getElem?_append_left (holds.known other inside), List.getElem?_concat_length]
      exact lookup_none found other inside
    obtain ⟨kept, places⟩ := (holds.making key).settled own
    refine ⟨kept, fun place placed spared => places place ⟨placed.charged, placed.apart⟩ ?_⟩
    intro full oldest first
    apply spared oldest
    unfold displaced
    rw [found]
    dsimp only
    have crowded : registry.maxModels ≤ registry.models.length := full
    rw [if_neg (not_lt.mpr crowded)]
    exact first

def withCleared (registry : ModelRegistry) (name : Nat) : ModelRegistry :=
  { registry with
    fleet := Function.update registry.fleet name (registry.fleet name).clearEviction }

theorem cleared_fields (registry : ModelRegistry) (name other : Nat) :
    ((registry.withCleared name).fleet other).inFlight = (registry.fleet other).inFlight ∧
      ((registry.withCleared name).fleet other).loaded = (registry.fleet other).loaded ∧
      ((registry.withCleared name).fleet other).unloadPending =
        (registry.fleet other).unloadPending ∧
      ((registry.withCleared name).fleet other).blockers = (registry.fleet other).blockers := by
  unfold withCleared
  by_cases same : other = name
  · rw [same]
    simp [ModelLifecycle.clearEviction]
  · simp [same]

theorem cleared_occupied {other : Nat} : Occupied ((registry.withCleared name).fleet other) ↔
      Occupied (registry.fleet other) := by
  obtain ⟨in_flight, loaded, _⟩ := cleared_fields registry name other
  unfold Occupied
  rw [in_flight, loaded]

theorem cleared_waits {other : Nat} :
    (registry.withCleared name).Waits other ↔ registry.Waits other := by
  unfold Waits
  rw [(cleared_fields registry name other).2.2.2]
  apply exists_congr
  intro blocker
  rw [(cleared_fields registry name blocker).2.2.1]

theorem Placed.cleared (placed : registry.Placed place) :
    (registry.withCleared name).Placed place := by
  constructor
  · intro other waits
    rw [(cleared_fields registry name other).2.2.1] at waits
    rw [cleared_occupied, (cleared_fields registry name _).2.2.1,
      (cleared_fields registry name _).2.2.2]
    exact placed.charged other waits
  · intro one two first second
    rw [(cleared_fields registry name _).2.2.1] at first second
    exact placed.apart one two first second

theorem Holds.clearing (holds : registry.Holds)
    (made : name < registry.made.length) (outside : name ∉ registry.models) :
    (registry.withCleared name).Taking name := by
  constructor
  · exact holds.nodup
  · exact holds.known
  · exact holds.fits
  · exact holds.keys
  · intro other later
    have differs : other ≠ name := by
      rintro rfl
      exact absurd made (not_lt.mpr later)
    exact (Function.update_of_ne differs _ _).trans (holds.fresh other later)
  · intro other differs known
    have same : (registry.withCleared name).fleet other =
        registry.fleet other := Function.update_of_ne differs _ _
    rw [same]
    exact holds.evicted other known
  · intro other waits
    rw [(cleared_fields registry name other).2.2.1] at waits
    rw [(cleared_fields registry name other).1]
    exact holds.pending other waits
  · intro other absent occupied
    rw [cleared_occupied] at occupied
    rw [(cleared_fields registry name other).2.2.1]
    exact holds.away other absent occupied
  · exact made
  · exact outside
  · change (Function.update registry.fleet name _ name).evicted = false
    rw [Function.update_self]
    rfl

theorem Holds.readmitModel (holds : registry.Holds) (made : name < registry.made.length) :
    (registry.readmitModel name).Holds ∧
    ∀ place, registry.Placed place →
      (∀ old, registry.displaced (registry.made.getD name "") name =
        some old → ¬ registry.Waits old) →
      ∃ after, (registry.readmitModel name).Placed after := by
  have key : registry.made[name]? = some (registry.made.getD name "") := by
    rw [List.getD_eq_getElem?_getD, List.getElem?_eq_getElem made]
    rfl
  unfold ModelRegistry.readmitModel displaced
  dsimp only
  cases found : registry.lookup (registry.made.getD name "") with
  | some current =>
    obtain ⟨member, current_key⟩ := lookup_some found
    dsimp only
    by_cases same : current = name
    · rw [if_pos same]
      rw [same] at member
      have shorter := List.length_erase_of_mem member
      have some_model := List.length_pos_of_mem member
      have fits := holds.fits
      have settled := @settle_room registry
        (registry.withCleared name).fleet name registry.models []
        (by omega)
      rw [holdUntilDrained_nil] at settled
      have goal_eq : registry.settle name (Function.update registry.fleet name
          (registry.fleet name).clearEviction) registry.models [] =
            { registry.withCleared name with
              models := registry.models.erase name ++ [name] } := settled
      rw [goal_eq]
      have present : (registry.fleet name).evicted = false := by
        rw [← Bool.not_eq_true]
        intro gone
        exact (holds.evicted name made).mp gone member
      have cleared : (registry.withCleared name).Holds := by
        apply holds.update made
        · rw [present]
          rfl
        · exact holds.pending name
        · exact fun absent => (absent member).elim
      refine ⟨Holds.touched cleared member, fun place placed _spared =>
        ⟨place, Placed.touched placed.cleared holds.nodup⟩⟩
    · rw [if_neg same]
      have outside : name ∉ registry.models := by
        intro inside
        apply same
        exact holds.keys current member name inside (current_key.trans key.symm)
      have taking := holds.clearing made outside
      have not_inside : name ∉ registry.models.erase current :=
        fun inside => outside (List.mem_of_mem_erase inside)
      have shorter := List.length_erase_of_mem member
      have some_model := List.length_pos_of_mem member
      have fits := holds.fits
      have erased := List.erase_of_not_mem not_inside
      have settled := @settle_room registry
        (unloadEvicted (registry.withCleared name).fleet current).1 name
        (registry.models.erase current)
        (unloadEvicted (registry.withCleared name).fleet current).2
        (by rw [erased]; omega)
      rw [erased] at settled
      have swap : registry.settle name
          (unloadEvicted (registry.withCleared name).fleet current).1
          (registry.models.erase current)
          (unloadEvicted (registry.withCleared name).fleet current).2 =
            (registry.withCleared name).withSwapped current name := settled
      change (registry.settle name (unloadEvicted (registry.withCleared name).fleet current).1
          (registry.models.erase current)
          (unloadEvicted (registry.withCleared name).fleet current).2).Holds ∧
        ∀ place, _ → _ → ∃ after, (registry.settle name
          (unloadEvicted (registry.withCleared name).fleet current).1
          (registry.models.erase current)
          (unloadEvicted (registry.withCleared name).fleet current).2).Placed after
      rw [swap]
      constructor
      · apply taking.instead member
        intro other inside own
        have there := (holds.nodup.mem_erase_iff).mp inside
        apply there.1
        exact holds.keys other there.2 current member (own.trans (key.trans current_key.symm))
      · intro place placed spared
        apply placed.cleared.instead taking member
        rw [cleared_waits]
        exact spared current (if_neg same)
  | none =>
    dsimp only
    have absent := lookup_none found
    have outside : name ∉ registry.models := fun inside =>
      absent name inside key
    have taking := holds.clearing made outside
    have own : ∀ other ∈ (registry.withCleared name).models,
        (registry.withCleared name).made[other]? ≠ (registry.withCleared name).made[name]? := by
      intro other inside same
      exact absent other inside (same.trans key)
    obtain ⟨kept, places⟩ := taking.settled own
    refine ⟨kept, fun place placed spared => places place placed.cleared ?_⟩
    intro full oldest first
    rw [cleared_waits]
    apply spared oldest
    have crowded : registry.maxModels ≤ registry.models.length := full
    rw [if_neg (not_lt.mpr crowded)]
    exact first

theorem Holds.evict (holds : registry.Holds) (key : String) : (registry.evict key).2.Holds ∧
    ∀ place, registry.Placed place → (∀ old, registry.lookup key = some old →
        (registry.fleet old).inFlight = 0 ∧ ¬ registry.Waits old) →
      (registry.evict key).2.Placed place := by
  unfold ModelRegistry.evict
  cases found : registry.lookup key with
  | none => exact ⟨holds, fun place placed _spared => placed⟩
  | some old =>
    refine ⟨holds.without (lookup_some found).1, ?_⟩
    intro place placed spared
    obtain ⟨quiet, free⟩ := spared old rfl
    exact placed.without holds quiet free

theorem Holds.new {maxModels : Nat} (positive : 0 < maxModels) :
    (ModelRegistry.new maxModels positive).Holds := by
  constructor
  · exact List.nodup_nil
  · intro other member
    cases member
  · exact Nat.zero_le _
  · intro one member
    cases member
  · intro other _later
    rfl
  · intro other known
    cases known
  · intro other waits
    cases waits
  · rintro other _absent (busy | loaded)
    · cases busy
    · cases loaded

theorem Placed.new {maxModels : Nat} (positive : 0 < maxModels) :
    (ModelRegistry.new maxModels positive).Placed id where
  charged _ waits := by cases waits
  apart _ _ waits := by cases waits

end

end ModelRegistry

end TempestSdk.Genai
