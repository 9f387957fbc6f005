import Mathlib.Logic.Function.Basic
import TempestSdk.Utils.Lifecycle

/-!
# The model registry

Models by key, the least recently used one first, each with its lifecycle.
What runs under the registry's lock is one function here.  A model is named by
the number of models made before it.
-/

namespace TempestSdk.Genai

open Lifecycle (ModelLifecycle)

abbrev Fleet := Nat → ModelLifecycle Nat

structure ModelRegistry where
  maxModels : Nat
  positive : 0 < maxModels
  made : List String
  models : List Nat
  fleet : Fleet

namespace ModelRegistry

def new (maxModels : Nat) (positive : 0 < maxModels) : ModelRegistry where
  maxModels := maxModels
  positive := positive
  made := []
  models := []
  fleet := fun _ => .init 0

/-- `_models.get`. -/
def lookup (registry : ModelRegistry) (key : String) : Option Nat :=
  registry.models.find? fun name => registry.made[name]? == some key

/-- `_unload_evicted`, and the model when its release was deferred. -/
def unloadEvicted (fleet : Fleet) (name : Nat) : Fleet × List Nat :=
  let after := (fleet name).markEvicted.unload.2
  (Function.update fleet name after, if after.unloadPending then [name] else [])

/-- `_evict_over_capacity`. -/
@[grind =] def evictOverCapacity (maxModels : Nat) :
    List Nat → Fleet → List Nat × Fleet × List Nat
  | [], fleet => ([], fleet, [])
  | oldest :: models, fleet =>
    if maxModels < models.length + 1 then
      let (unloaded, pending) := unloadEvicted fleet oldest
      let (left, last, others) := evictOverCapacity maxModels models unloaded
      (left, last, pending ++ others)
    else (oldest :: models, fleet, [])

def holdUntilDrained (fleet : Fleet) (name : Nat) (blockers : List Nat) : Fleet :=
  Function.update fleet name ((fleet name).waitFor name blockers)

def settle (registry : ModelRegistry) (name : Nat) (fleet : Fleet)
    (models pending : List Nat) : ModelRegistry :=
  let (left, last, others) :=
    evictOverCapacity registry.maxModels (models.erase name ++ [name]) fleet
  { registry with
    models := left, fleet := holdUntilDrained last name (pending ++ others) }

/-- `get`, with a factory that makes a new loader. -/
def get (registry : ModelRegistry) (key : String) : Nat × ModelRegistry :=
  match registry.lookup key with
  | some name => (name, { registry with models := registry.models.erase name ++ [name] })
  | none =>
    let name := registry.made.length
    (name, { registry with made := registry.made ++ [key] }.settle name
      (Function.update registry.fleet name (.init 0)) registry.models [])

/-- `_readmit`. -/
def readmitModel (registry : ModelRegistry) (name : Nat) : ModelRegistry :=
  let cleared :=
    Function.update registry.fleet name (registry.fleet name).clearEviction
  let key := registry.made.getD name ""
  match registry.lookup key with
  | some current =>
    if current = name then registry.settle name cleared registry.models []
    else
      let (unloaded, replaced) := unloadEvicted cleared current
      registry.settle name unloaded (registry.models.erase current) replaced
  | none => registry.settle name cleared registry.models []

def evict (registry : ModelRegistry) (key : String) : Bool × ModelRegistry :=
  match registry.lookup key with
  | none => (false, registry)
  | some name =>
    (true, { registry with
      models := registry.models.erase name
      fleet := (unloadEvicted registry.fleet name).1 })

section

variable {registry : ModelRegistry} {fleet : Fleet} {name oldest : Nat}
variable {models pending : List Nat}

theorem evictOverCapacity_of_le {maxModels : Nat} (fits : models.length ≤ maxModels) :
    evictOverCapacity maxModels models fleet = (models, fleet, []) := by
  cases models with
  | nil => rfl
  | cons oldest models =>
    unfold evictOverCapacity
    rw [List.length_cons] at fits
    rw [if_neg (by omega)]

theorem settle_room (room : (models.erase name).length < registry.maxModels) :
    registry.settle name fleet models pending = { registry with
        models := models.erase name ++ [name]
        fleet := holdUntilDrained fleet name pending } := by
  have fits : (models.erase name ++ [name]).length ≤ registry.maxModels := by
    rw [List.length_append, List.length_singleton]
    omega
  unfold settle
  rw [evictOverCapacity_of_le fits]
  simp

theorem settle_full {rest : List Nat} (entries : models.erase name = oldest :: rest)
    (full : rest.length + 1 = registry.maxModels) :
    registry.settle name fleet models [] = { registry with
        models := rest ++ [name]
        fleet := holdUntilDrained (unloadEvicted fleet oldest).1 name
          (unloadEvicted fleet oldest).2 } := by
  have fits : (rest ++ [name]).length ≤ registry.maxModels := by
    rw [List.length_append, List.length_singleton]
    omega
  have exceeds : registry.maxModels < (rest ++ [name]).length + 1 := by
    rw [List.length_append, List.length_singleton]
    omega
  unfold settle
  rw [entries, List.cons_append, evictOverCapacity, if_pos exceeds]
  dsimp only
  rw [evictOverCapacity_of_le fits]
  simp

end

end ModelRegistry

theorem evicted_busy {model : ModelLifecycle Nat} (busy : 0 < model.inFlight) :
    model.markEvicted.unload.2 = { model with evicted := true, unloadPending := true } :=
  Lifecycle.ModelLifecycle.unload_busy busy

theorem evicted_quiet {model : ModelLifecycle Nat} (quiet : model.inFlight = 0) :
    model.markEvicted.unload.2 = { model with evicted := true, loaded := false } :=
  Lifecycle.ModelLifecycle.unload_quiet quiet

theorem evicted_inFlight (model : ModelLifecycle Nat) :
    model.markEvicted.unload.2.inFlight = model.inFlight := by
  by_cases busy : 0 < model.inFlight
  · rw [evicted_busy busy]
  · rw [evicted_quiet (Nat.eq_zero_of_not_pos busy)]

namespace ModelRegistry

variable {registry : ModelRegistry} {fleet : Fleet} {name old other : Nat}

theorem unloadEvicted_inFlight :
    ((unloadEvicted fleet old).1 other).inFlight = (fleet other).inFlight := by
  unfold unloadEvicted
  dsimp only
  by_cases same : other = old
  · rw [same, Function.update_self]
    exact evicted_inFlight _
  · rw [Function.update_of_ne same]

theorem evictOverCapacity_inFlight {maxModels : Nat} (models : List Nat) :
    ((evictOverCapacity maxModels models fleet).2.1 other).inFlight =
      (fleet other).inFlight := by
  induction models generalizing fleet with
  | nil => rfl
  | cons oldest models induction =>
    unfold evictOverCapacity
    split
    · exact induction.trans unloadEvicted_inFlight
    · rfl

theorem settle_inFlight {models pending : List Nat} :
    ((registry.settle name fleet models pending).fleet other).inFlight =
      (fleet other).inFlight := by
  unfold settle holdUntilDrained
  dsimp only
  by_cases same : other = name
  · rw [same, Function.update_self]
    exact evictOverCapacity_inFlight _
  · rw [Function.update_of_ne same]
    exact evictOverCapacity_inFlight _

theorem settle_made {models pending : List Nat} :
    (registry.settle name fleet models pending).made = registry.made := rfl

variable {key : String}

theorem get_inFlight (new : registry.fleet registry.made.length = .init 0) :
    ((registry.get key).2.fleet other).inFlight = (registry.fleet other).inFlight := by
  unfold get
  split
  · rfl
  · refine (settle_inFlight).trans ?_
    by_cases same : other = registry.made.length
    · rw [same, Function.update_self, new]
    · rw [Function.update_of_ne same]

theorem readmitModel_inFlight : ((registry.readmitModel name).fleet other).inFlight =
      (registry.fleet other).inFlight := by
  have cleared : (Function.update registry.fleet name
      (registry.fleet name).clearEviction other).inFlight =
        (registry.fleet other).inFlight := by
    by_cases same : other = name
    · rw [same, Function.update_self]
      rfl
    · rw [Function.update_of_ne same]
  unfold readmitModel
  dsimp only
  split
  · split
    · exact (settle_inFlight).trans cleared
    · exact (settle_inFlight).trans ((unloadEvicted_inFlight).trans cleared)
  · exact (settle_inFlight).trans cleared

theorem evict_inFlight : ((registry.evict key).2.fleet other).inFlight =
      (registry.fleet other).inFlight := by
  unfold evict
  split
  · rfl
  · exact unloadEvicted_inFlight

theorem get_made (key : String) :
    ∃ more, (registry.get key).2.made = registry.made ++ more := by
  unfold get
  split
  · exact ⟨[], (List.append_nil _).symm⟩
  · exact ⟨[key], rfl⟩

theorem readmitModel_made : (registry.readmitModel name).made = registry.made := by
  unfold readmitModel
  dsimp only
  split
  · split
    · rfl
    · rfl
  · rfl

theorem evict_made : (registry.evict key).2.made = registry.made := by
  unfold evict
  split
  · rfl
  · rfl

theorem get_maxModels : (registry.get key).2.maxModels = registry.maxModels := by
  unfold get
  split
  · rfl
  · rfl

theorem readmitModel_maxModels :
    (registry.readmitModel name).maxModels = registry.maxModels := by
  unfold readmitModel
  dsimp only
  split
  · split
    · rfl
    · rfl
  · rfl

theorem evict_maxModels : (registry.evict key).2.maxModels = registry.maxModels := by
  unfold evict
  split
  · rfl
  · rfl

theorem mem_evictOverCapacity {maxModels : Nat} (positive : 0 < maxModels) (models : List Nat) :
    name ∈ (evictOverCapacity maxModels (models ++ [name]) fleet).1 := by
  induction models generalizing fleet with
  | nil =>
    rw [List.nil_append, evictOverCapacity_of_le]
    · exact List.mem_singleton_self name
    · exact positive
  | cons oldest models induction =>
    rw [List.cons_append]
    unfold evictOverCapacity
    split
    · exact induction
    · exact List.mem_cons_of_mem _ (List.mem_append_right _ (List.mem_singleton_self name))

theorem mem_readmitModel (name : Nat) : name ∈ (registry.readmitModel name).models := by
  unfold readmitModel settle
  dsimp only
  split
  · split
    · exact mem_evictOverCapacity registry.positive _
    · exact mem_evictOverCapacity registry.positive _
  · exact mem_evictOverCapacity registry.positive _

end ModelRegistry

end TempestSdk.Genai
