import Mathlib.Logic.Function.Basic

/-!
# Visits to the slots of a store

A script goes through a list of names and works on the slot of each.  It stops
at the first visit that fails, and what was done before stays done.  Over
distinct names the visits do not see each other.
-/

namespace Visits

variable {Name Slot Failure Answer Item : Type}

def Visit (Slot Failure Answer : Type) :=
  Slot → Except Failure Answer × Slot

variable [DecidableEq Name]

def visitAll : List (Name × Visit Slot Failure Answer) → (Name → Slot) →
    Except Failure (List Answer) × (Name → Slot)
  | [], store => (.ok [], store)
  | (name, visit) :: visits, store =>
    match visit (store name) with
    | (.error failure, slot) => (.error failure, Function.update store name slot)
    | (.ok answer, slot) =>
      match visitAll visits (Function.update store name slot) with
      | (.error failure, last) => (.error failure, last)
      | (.ok answers, last) => (.ok (answer :: answers), last)

theorem visitAll_ok {name : Item → Name}
    {visit : Item → Visit Slot Failure Answer} {answer : Item → Answer}
    {after : Item → Slot} {items : List Item} {store : Name → Slot}
    (distinct : (items.map name).Nodup)
    (succeeds : ∀ item ∈ items,
      visit item (store (name item)) = (.ok (answer item), after item)) :
    ∃ last, visitAll (items.map fun item => (name item, visit item)) store =
        (.ok (items.map answer), last) ∧
      (∀ item ∈ items, last (name item) = after item) ∧
      ∀ other, other ∉ items.map name → last other = store other := by
  induction items generalizing store with
  | nil =>
    refine ⟨store, rfl, ?_, ?_⟩
    · intro item member
      cases member
    · intro other _absent
      rfl
  | cons first items induction =>
    obtain ⟨fresh, others⟩ := List.nodup_cons.mp distinct
    have untouched : ∀ item ∈ items,
        Function.update store (name first) (after first) (name item) = store (name item) := by
      intro item member
      apply Function.update_of_ne
      intro same
      rw [← same] at fresh
      exact fresh (List.mem_map_of_mem member)
    obtain ⟨last, visited, left, rest⟩ :=
      @induction (Function.update store (name first) (after first)) others (by
          intro item member
          rw [untouched item member]
          exact succeeds item (List.mem_cons_of_mem _ member))
    refine ⟨last, ?_, ?_, ?_⟩
    · rw [List.map_cons, visitAll, succeeds first List.mem_cons_self]
      dsimp only
      rw [visited]
      rfl
    · intro item member
      rcases List.mem_cons.mp member with rfl | later
      · rw [rest _ fresh, Function.update_self]
      · exact left item later
    · intro other absent
      rw [List.map_cons, List.mem_cons, not_or] at absent
      rw [rest other absent.2, Function.update_of_ne absent.1]

end Visits
