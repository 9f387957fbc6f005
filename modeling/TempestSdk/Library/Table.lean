import Mathlib.Data.List.Basic

/-!
# Tables as lists of rows

A table is a list of rows with a key.  `put` writes the row of a key in place,
or appends it; what it leaves of the other rows is said here once.
-/

namespace Table

variable {Key Row : Type*} [DecidableEq Key] (key : Row → Key)

def find (id : Key) (rows : List Row) : Option Row :=
  rows.find? fun row => decide (key row = id)

def put (row : Row) : List Row → List Row
  | [] => [row]
  | stored :: rest => if key stored = key row then row :: rest else stored :: put row rest

variable {key}
variable {rows : List Row}

theorem mem_of_find {id : Key} {row : Row} (found : find key id rows = some row) : row ∈ rows :=
  List.mem_of_find?_eq_some found

theorem key_of_find {id : Key} {row : Row}
    (found : find key id rows = some row) : key row = id := by
  have holds := List.find?_some found
  simpa using holds

theorem mem_put {row other : Row} (member : other ∈ put key row rows) :
    other = row ∨ other ∈ rows := by
  induction rows with
  | nil => exact .inl (by simpa [put] using member)
  | cons stored rest induction =>
    rw [put] at member
    split at member
    · rcases List.mem_cons.mp member with same | later
      · exact .inl same
      · exact .inr (List.mem_cons_of_mem _ later)
    · rcases List.mem_cons.mp member with same | later
      · exact .inr (by simp [same])
      · rcases induction later with same | stays
        · exact .inl same
        · exact .inr (List.mem_cons_of_mem _ stays)

theorem find_put_self (row : Row) (rows : List Row) :
    find key (key row) (put key row rows) = some row := by
  induction rows with
  | nil => simp [put, find]
  | cons stored rest induction =>
    rw [put]
    split
    · simp [find]
    · rename_i differs
      rw [find, List.find?_cons_of_neg (by simpa using differs)]
      exact induction

theorem mem_put_self (row : Row) (rows : List Row) : row ∈ put key row rows :=
  mem_of_find (find_put_self row rows)

theorem map_put (row : Row) (rows : List Row) : (put key row rows).map key =
    if key row ∈ rows.map key then rows.map key
    else rows.map key ++ [key row] := by
  induction rows with
  | nil => rfl
  | cons stored rest induction =>
    rw [put]
    by_cases same : key stored = key row
    · simp [same]
    · have differs : key row ≠ key stored := Ne.symm same
      rw [if_neg same, List.map_cons, induction]
      by_cases later : key row ∈ rest.map key
      · simp [later]
      · simp [later, differs]

theorem mem_keys_put {row : Row} {id : Key} :
    id ∈ (put key row rows).map key ↔ id = key row ∨ id ∈ rows.map key := by
  rw [map_put]
  split
  case isTrue there =>
    constructor
    · exact .inr
    · rintro (rfl | member)
      · exact there
      · exact member
  case isFalse => rw [List.mem_append, List.mem_singleton, or_comm]

theorem nodup_put {row : Row} (distinct : (rows.map key).Nodup) :
    ((put key row rows).map key).Nodup := by
  rw [map_put]
  split
  case isTrue => exact distinct
  case isFalse absent =>
    rw [List.nodup_append]
    refine ⟨distinct, List.pairwise_singleton _ _, ?_⟩
    intro id member other single same
    rw [List.mem_singleton.mp single] at same
    exact absent (same ▸ member)

end Table
