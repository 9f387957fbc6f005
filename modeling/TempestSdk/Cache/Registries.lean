import TempestSdk.Cache.Decorator

/-!
# What the registries hold

An entry is covered by a registry that lists its key and that is there as long
as the entry is.  The pipeline of a call covers the entry the call has stored,
and it uncovers no other when none outlives the new deadline.
-/

namespace TempestSdk.Cache

open Expiring

variable {Payload : Type} {cached : Cached}
variable {sets : Keyspace String Empty String String}

def Entry.endsBy (entry : Entry Payload) (moment : Nat) : Bool :=
  match entry.deadline with
  | some deadline => decide (deadline ≤ moment)
  | none => false

theorem Entry.le_of_endsBy {entry : Entry Payload} {limit moment : Nat}
    (ends : entry.endsBy limit = true) (lasts : entry.lasts moment = true) :
    moment ≤ limit := by
  unfold endsBy at ends
  unfold Entry.lasts at lasts
  cases due : entry.deadline with
  | none => simp [due] at ends
  | some deadline =>
    simp only [due, decide_eq_true_eq] at ends lasts
    omega

theorem Entry.endsBy_mono {entry : Entry Payload} {sooner later : Nat}
    (order : sooner ≤ later) (ends : entry.endsBy sooner = true) :
    entry.endsBy later = true := by
  unfold endsBy at ends ⊢
  cases due : entry.deadline with
  | none => simp [due] at ends
  | some deadline =>
    simp only [due, decide_eq_true_eq] at ends ⊢
    omega

/-- The registry lists the key and does not expire before the entry. -/
structure Covers (sets : Keyspace String Empty String String)
    (registry key : String) (entry : Entry Payload) : Prop where
  lists : sets.Lists registry key
  outlasts : ∀ moment, entry.lasts moment = true → sets.Outlasts registry moment

variable {registry key : String} {entry : Entry Payload}

theorem Covers.elapse {duration : Nat} (covers : Covers sets registry key entry)
    (lasts : entry.lasts (sets.clock + duration) = true) :
    Covers (sets.elapse duration) registry key entry := by
  refine ⟨Keyspace.lists_elapse.mpr ⟨covers.lists, covers.outlasts _ lasts⟩, ?_⟩
  intro moment later
  rcases Nat.le_total moment (sets.clock + duration) with order | order
  · have now := (covers.outlasts _ lasts).elapse (Nat.le_refl _)
    exact now.sooner order
  · exact (covers.outlasts moment later).elapse order

variable {registries : List String}

theorem Covers.discardSets (covers : Covers sets registry key entry)
    (kept : registry ∉ registries) :
    Covers (sets.discardSets registries) registry key entry := by
  refine ⟨Keyspace.lists_discardSets.mpr ⟨kept, covers.lists⟩, ?_⟩
  intro moment lasts
  exact (covers.outlasts moment lasts).discardSets kept

open World

variable {other : String}

theorem enroll_lists : (enroll cached sets registry).Lists other key ↔
      (other = registry ∧ key = cached.key) ∨ sets.Lists other key := by
  unfold enroll
  split
  · exact Keyspace.lists_prolong.trans Keyspace.lists_insert
  · exact Keyspace.lists_insert

@[simp] theorem enroll_clock :
    (enroll cached sets registry).clock = sets.clock := by
  unfold enroll
  split
  · simp
  · simp

theorem enroll_outlasts {moment : Nat} (expires : 0 < cached.ttl)
    (order : moment ≤ sets.clock + cached.lifetime) :
    (enroll cached sets registry).Outlasts registry moment := by
  unfold enroll
  rw [if_pos expires]
  apply Keyspace.outlasts_prolong
  · exact Keyspace.lists_insert.mpr (.inl ⟨rfl, rfl⟩)
  · simpa using order

theorem outlasts_enroll {moment : Nat} (outlasts : sets.Outlasts other moment)
    (fits : other = registry → 0 < cached.ttl → moment ≤ sets.clock + cached.lifetime) :
    (enroll cached sets registry).Outlasts other moment := by
  by_cases expires : 0 < cached.ttl
  · by_cases same : other = registry
    · subst same
      exact enroll_outlasts expires (fits rfl expires)
    · unfold enroll
      rw [if_pos expires]
      exact outlasts.insert.prolong_of_ne same
  · unfold enroll
    rw [if_neg expires]
    exact outlasts.insert

theorem enroll_persists (persistent : ¬ 0 < cached.ttl)
    (persists : ∀ index ∈ sets.sets other, index.deadline = none) :
    ∀ index ∈ (enroll cached sets registry).sets other, index.deadline = none := by
  unfold enroll
  rw [if_neg persistent]
  by_cases same : other = registry
  · subst same
    exact Keyspace.insert_persists persists
  · intro index found
    refine persists index ?_
    unfold Keyspace.insert at found
    split at found
    · simpa [Keyspace.setOf, same] using found
    · simpa [Keyspace.setOf, same] using found

theorem foldl_enroll_lists : (registries.foldl (enroll cached) sets).Lists other key ↔
      (other ∈ registries ∧ key = cached.key) ∨ sets.Lists other key := by
  induction registries generalizing sets with
  | nil => simp
  | cons registry rest induction =>
    rw [List.foldl_cons, induction, enroll_lists, List.mem_cons]
    tauto

theorem foldl_enroll_clock : (registries.foldl (enroll cached) sets).clock = sets.clock := by
  induction registries generalizing sets with
  | nil => rfl
  | cons registry rest induction => rw [List.foldl_cons, induction, enroll_clock]

theorem outlasts_foldl_enroll {moment : Nat} (outlasts : sets.Outlasts other moment)
    (fits : other ∈ registries → 0 < cached.ttl → moment ≤ sets.clock + cached.lifetime) :
    (registries.foldl (enroll cached) sets).Outlasts other moment := by
  induction registries generalizing sets with
  | nil => exact outlasts
  | cons registry rest induction =>
    apply induction
    · apply outlasts_enroll outlasts
      intro same
      exact fits (same ▸ List.mem_cons_self)
    · intro member
      rw [enroll_clock]
      exact fits (List.mem_cons_of_mem _ member)

theorem foldl_enroll_outlasts {moment : Nat} (member : other ∈ registries)
    (expires : 0 < cached.ttl) (order : moment ≤ sets.clock + cached.lifetime) :
    (registries.foldl (enroll cached) sets).Outlasts other moment := by
  induction registries generalizing sets with
  | nil => cases member
  | cons registry rest induction =>
    have still : moment ≤ (enroll cached sets registry).clock + cached.lifetime := by
      rw [enroll_clock]
      exact order
    rcases List.mem_cons.mp member with same | later
    · subst same
      apply outlasts_foldl_enroll (enroll_outlasts expires order)
      intro _member _expires
      exact still
    · exact induction later still

theorem foldl_enroll_persists (persistent : ¬ 0 < cached.ttl)
    (persists : ∀ index ∈ sets.sets other, index.deadline = none) :
    ∀ index ∈ (registries.foldl (enroll cached) sets).sets other, index.deadline = none := by
  induction registries generalizing sets with
  | nil => exact persists
  | cons registry rest induction => exact induction (enroll_persists persistent persists)

theorem registerLabels_clock : (registerLabels cached sets).clock = sets.clock :=
  foldl_enroll_clock

theorem Covers.registerLabels (covers : Covers sets registry key entry)
    (fits : registry ∈ cached.registries → 0 < cached.ttl →
      entry.endsBy (sets.clock + cached.lifetime) = true) :
    Covers (registerLabels cached sets) registry key entry := by
  refine ⟨(foldl_enroll_lists).mpr (.inr covers.lists), ?_⟩
  intro moment lasts
  apply outlasts_foldl_enroll (covers.outlasts moment lasts)
  intro member expires
  exact Entry.le_of_endsBy (fits member expires) lasts

theorem covers_registerLabels (member : registry ∈ cached.registries)
    (ends : 0 < cached.ttl → entry.endsBy (sets.clock + cached.lifetime) = true)
    (persists : ¬ 0 < cached.ttl → ∀ index ∈ sets.sets registry, index.deadline = none) :
    Covers (World.registerLabels cached sets) registry cached.key entry := by
  have lists : (World.registerLabels cached sets).Lists registry cached.key :=
    (foldl_enroll_lists).mpr (.inl ⟨member, rfl⟩)
  refine ⟨lists, ?_⟩
  intro moment lasts
  by_cases expires : 0 < cached.ttl
  · apply foldl_enroll_outlasts member expires
    exact Entry.le_of_endsBy (ends expires) lasts
  · apply Keyspace.outlasts_of_persists lists
    exact foldl_enroll_persists expires (persists expires)

end TempestSdk.Cache
