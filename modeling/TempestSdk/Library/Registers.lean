import Mathlib.Data.List.Basic

/-!
# Registers

A register is a list that only grows and whose entries change in place.  What
a filtered column of a register becomes when one entry changes: nothing, when
the entry keeps its place in the column, and one value more, when it enters.
-/

namespace Registers

variable {Item Value : Type*} {picked : Item → Bool} {column : Item → Value}

theorem column_set_same {items : List Item} {index : Nat} {old new : Item}
    (found : items[index]? = some old) (selection : picked new = picked old)
    (value : column new = column old) :
    ((items.set index new).filter picked).map column = (items.filter picked).map column := by
  induction items generalizing index with
  | nil => simp at found
  | cons item rest induction =>
    cases index with
    | zero =>
      simp only [List.getElem?_cons_zero, Option.some.injEq] at found
      subst found
      simp only [List.set_cons_zero, List.filter_cons, selection]
      split <;> simp [value]
    | succ index =>
      have tail := induction (by simpa using found)
      simp only [List.set_cons_succ, List.filter_cons]
      split <;> simp [tail]

theorem column_set_enters {items : List Item} {index : Nat} {old new : Item}
    (found : items[index]? = some old) (before : picked old = false)
    (after : picked new = true) :
    (((items.set index new).filter picked).map column).Perm
      ((items.filter picked).map column ++ [column new]) := by
  induction items generalizing index with
  | nil => simp at found
  | cons item rest induction =>
    cases index with
    | zero =>
      simp only [List.getElem?_cons_zero, Option.some.injEq] at found
      subst found
      simpa [before, after] using (List.perm_append_singleton (column new) _).symm
    | succ index =>
      have tail := induction (by simpa using found)
      simp only [List.set_cons_succ, List.filter_cons]
      split
      · exact tail.cons _
      · exact tail

theorem all_set {items : List Item} {index : Nat} {new : Item}
    {holds : Item → Prop} (all : ∀ item ∈ items, holds item)
    (added : holds new) : ∀ item ∈ items.set index new, holds item := by
  intro item member
  rcases List.mem_or_eq_of_mem_set member with old | rfl
  · exact all item old
  · exact added

end Registers
