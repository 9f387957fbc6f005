import Mathlib.Data.List.Basic
import Mathlib.Data.List.Perm.Subperm

/-!
# Dictionaries made of pairs

A Python dictionary as the list of its entries.  Setting a key that is there
keeps its place, so a dictionary made of pairs has each key once, in the place
of its first pair and with the value of its last.
-/

namespace PyDict

variable {Key Value : Type} [DecidableEq Key]

/-- `entries[key] = value`. -/
def set (entries : List (Key × Value)) (key : Key) (value : Value) : List (Key × Value) :=
  if key ∈ entries.map Prod.fst then
    entries.map fun entry => if entry.1 = key then (key, value) else entry
  else entries ++ [(key, value)]

/-- `dict(pairs)`. -/
def ofPairs (pairs : List (Key × Value)) : List (Key × Value) :=
  pairs.foldl (fun entries pair => set entries pair.1 pair.2) []

variable {entries pairs : List (Key × Value)} {key : Key} {value : Value}

theorem keys_set : (set entries key value).map Prod.fst =
      if key ∈ entries.map Prod.fst then entries.map Prod.fst
      else entries.map Prod.fst ++ [key] := by
  unfold set
  split
  · rw [List.map_map]
    apply List.map_congr_left
    intro entry _
    by_cases same : entry.1 = key
    · simp [same]
    · simp [same]
  · rw [List.map_append]
    rfl

theorem nodup_set (nodup : (entries.map Prod.fst).Nodup) :
    ((set entries key value).map Prod.fst).Nodup := by
  rw [keys_set]
  split
  · exact nodup
  · next missing =>
      rw [List.nodup_append]
      refine ⟨nodup, List.pairwise_singleton _ key, ?_⟩
      intro known member other isKey same
      obtain rfl := List.mem_singleton.mp isKey
      exact missing (same ▸ member)

theorem mem_keys_set {other : Key} : other ∈ (set entries key value).map Prod.fst ↔
      other ∈ entries.map Prod.fst ∨ other = key := by
  rw [keys_set]
  split
  · next known =>
      constructor
      · exact .inl
      · rintro (member | rfl)
        · exact member
        · exact known
  · rw [List.mem_append, List.mem_singleton]

theorem foldl_keys (pairs entries : List (Key × Value)) (nodup : (entries.map Prod.fst).Nodup) :
    ((pairs.foldl (fun entries pair => set entries pair.1 pair.2) entries).map Prod.fst).Nodup ∧
      ∀ key, key ∈ (pairs.foldl (fun entries pair =>
          set entries pair.1 pair.2) entries).map Prod.fst ↔
        key ∈ entries.map Prod.fst ∨ key ∈ pairs.map Prod.fst := by
  induction pairs generalizing entries with
  | nil => exact ⟨nodup, fun key => by simp⟩
  | cons pair rest induction =>
    obtain ⟨distinct, members⟩ :=
      induction (set entries pair.1 pair.2) (nodup_set nodup)
    refine ⟨distinct, ?_⟩
    intro key
    rw [List.foldl_cons, members key, mem_keys_set, List.map_cons, List.mem_cons, or_assoc]

theorem nodup_ofPairs (pairs : List (Key × Value)) : ((ofPairs pairs).map Prod.fst).Nodup :=
  (foldl_keys pairs [] List.nodup_nil).1

theorem mem_keys_ofPairs : key ∈ (ofPairs pairs).map Prod.fst ↔ key ∈ pairs.map Prod.fst := by
  rw [ofPairs, (foldl_keys pairs [] List.nodup_nil).2 key]
  simp

theorem ofPairs_of_nodup (nodup : (pairs.map Prod.fst).Nodup) : ofPairs pairs = pairs := by
  have appended : ∀ (pairs entries : List (Key × Value)),
      ((entries ++ pairs).map Prod.fst).Nodup →
      pairs.foldl (fun entries pair => set entries pair.1 pair.2) entries =
        entries ++ pairs := by
    intro pairs
    induction pairs with
    | nil => simp
    | cons pair rest induction =>
      intro entries distinct
      have missing : pair.1 ∉ entries.map Prod.fst := by
        intro member
        rw [List.map_append] at distinct
        exact (List.nodup_append.mp distinct).2.2 pair.1 member pair.1 (by simp) rfl
      have fresh : set entries pair.1 pair.2 = entries ++ [pair] := by
        rw [set, if_neg missing]
      rw [List.foldl_cons, fresh, induction (entries ++ [pair]) (by simpa using distinct)]
      simp
  exact (appended pairs [] (by simpa using nodup)).trans (List.nil_append _)

theorem nodup_of_length (same : pairs.length ≤ (ofPairs pairs).length) :
    (pairs.map Prod.fst).Nodup := by
  have subset : (ofPairs pairs).map Prod.fst ⊆ pairs.map Prod.fst := by
    intro key member
    exact (mem_keys_ofPairs).mp member
  have sub := (nodup_ofPairs pairs).subperm subset
  have perm := sub.perm_of_length_le (by simpa using same)
  exact perm.nodup_iff.mp (nodup_ofPairs pairs)

end PyDict
