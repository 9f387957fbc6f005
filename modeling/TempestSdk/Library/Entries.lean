import Mathlib.Data.List.Basic

/-!
# Lists changed at one entry

What counts and what is a member after one entry of a list was changed or
taken out.
-/

namespace Entries

variable {Entry : Type} {entries : List Entry} {index : Nat} {entry : Entry}

theorem countP_modify (counts : Entry → Bool) (change : Entry → Entry)
    (found : entries[index]? = some entry) :
    (entries.modify index change).countP counts + (if counts entry then 1 else 0) =
      entries.countP counts + if counts (change entry) then 1 else 0 := by
  induction entries generalizing index with
  | nil => cases found
  | cons first others induction =>
    cases index with
    | zero =>
      cases found
      rw [List.modify_zero_cons, List.countP_cons, List.countP_cons]
      omega
    | succ index =>
      have rest := @induction index found
      rw [List.modify_succ_cons, List.countP_cons, List.countP_cons]
      omega

theorem countP_eraseIdx (counts : Entry → Bool) (found : entries[index]? = some entry) :
    (entries.eraseIdx index).countP counts + (if counts entry then 1 else 0) =
      entries.countP counts := by
  induction entries generalizing index with
  | nil => cases found
  | cons first others induction =>
    cases index with
    | zero =>
      cases found
      rw [List.eraseIdx_cons_zero, List.countP_cons]
    | succ index =>
      have rest := @induction index found
      rw [List.eraseIdx_cons_succ, List.countP_cons, List.countP_cons]
      omega

theorem mem_modify {change : Entry → Entry} (member : entry ∈ entries.modify index change) :
    entry ∈ entries ∨ ∃ old ∈ entries, entry = change old := by
  obtain ⟨place, found⟩ := List.mem_iff_getElem?.mp member
  rw [List.getElem?_modify] at found
  obtain ⟨old, there, same⟩ := Option.map_eq_some_iff.mp found
  have inside := List.mem_of_getElem? there
  split at same
  case isTrue => exact .inr ⟨old, inside, same.symm⟩
  case isFalse => exact .inl (same ▸ inside)

/-- One entry was changed, or taken out when there is no new one; the other
entries are the same. -/
structure Replaced (before : List Entry) (old : Entry) (new : Option Entry)
    (after : List Entry) : Prop where
  there : old ∈ before
  come : ∀ entry ∈ after, entry ∈ before ∨ new = some entry
  stay : ∀ entry ∈ before, entry ≠ old → entry ∈ after
  added : ∀ entry, new = some entry → entry ∈ after

def change (entries : List Entry) (index : Nat) : Option Entry → List Entry
  | some entry => entries.set index entry
  | none => entries.eraseIdx index

theorem replaced_change (found : entries[index]? = some entry) (new : Option Entry) :
    Replaced entries entry new (change entries index new) := by
  have inside : index < entries.length :=
    (List.getElem?_eq_some_iff.mp found).1
  cases new with
  | some written =>
    refine ⟨List.mem_of_getElem? found, ?_, ?_, ?_⟩
    · intro other member
      rcases List.mem_or_eq_of_mem_set member with before | same
      · exact .inl before
      · exact .inr (congrArg some same.symm)
    · intro other member differs
      obtain ⟨place, held⟩ := List.mem_iff_getElem?.mp member
      have apart : index ≠ place := by
        rintro rfl
        rw [found] at held
        exact differs (Option.some.inj held).symm
      apply List.mem_iff_getElem?.mpr
      exact ⟨place, by rw [change, List.getElem?_set_ne apart]; exact held⟩
    · intro other same
      cases same
      exact List.mem_set inside written
  | none =>
    refine ⟨List.mem_of_getElem? found, ?_, ?_, ?_⟩
    · intro other member
      exact .inl (List.mem_of_mem_eraseIdx member)
    · intro other member differs
      obtain ⟨place, held⟩ := List.mem_iff_getElem?.mp member
      apply List.mem_eraseIdx_iff_getElem?.mpr
      refine ⟨place, ?_, held⟩
      rintro rfl
      rw [found] at held
      exact differs (Option.some.inj held).symm
    · intro other impossible
      cases impossible

end Entries
