import Mathlib.Data.List.Basic
import Mathlib.Logic.Function.Basic

/-!
# Rows under READ COMMITTED

A table keeps one committed version of each row and at most one uncommitted
version, which belongs to the transaction that holds the write lock of the
row.  A statement of a transaction sees the committed versions and the
transaction's own.  An `UPDATE` picks its rows from what it sees when it
starts; each row it then waits for, locks, and checks again.

A deleted row is an uncommitted version without a value.
-/

namespace ReadCommitted

/-- The versions of a table.  `keys` lists every key a version exists for. -/
structure Rows (Tx Key Row : Type) where
  keys : List Key
  committed : Key → Option Row
  pending : Key → Option (Tx × Option Row)
  covered : ∀ key, key ∉ keys → committed key = none ∧ pending key = none

namespace Rows

variable {Tx Key Row : Type}

def settled (keys : List Key) (row : Key → Option Row)
    (covered : ∀ key, key ∉ keys → row key = none) : Rows Tx Key Row where
  keys := keys
  committed := row
  pending := fun _ => none
  covered := fun key absent => ⟨covered key absent, rfl⟩

def empty : Rows Tx Key Row :=
  settled [] (fun _ => none) (fun _ _ => rfl)

variable [DecidableEq Tx]

def visible (rows : Rows Tx Key Row) (tx : Tx) (key : Key) : Option Row :=
  match rows.pending key with
  | some (owner, version) => if owner = tx then version else rows.committed key
  | none => rows.committed key

def holds (rows : Rows Tx Key Row) (tx : Tx) (key : Key) : Bool :=
  match rows.pending key with
  | some (owner, _) => decide (owner = tx)
  | none => false

def free (rows : Rows Tx Key Row) (tx : Tx) (key : Key) : Bool :=
  match rows.pending key with
  | some (owner, _) => decide (owner = tx)
  | none => true

omit [DecidableEq Tx] in
def HasVersion (rows : Rows Tx Key Row) (key : Key) (row : Row) : Prop :=
  rows.committed key = some row ∨ ∃ owner, rows.pending key = some (owner, some row)

def matching (rows : Rows Tx Key Row) (tx : Tx) (guard : Row → Bool) : List Key :=
  rows.keys.filter fun key => (rows.visible tx key).any guard

def commit (rows : Rows Tx Key Row) (tx : Tx) : Rows Tx Key Row where
  keys := rows.keys
  committed := fun key => rows.visible tx key
  pending := fun key => if rows.holds tx key then none else rows.pending key
  covered := by
    intro key absent
    obtain ⟨committed, pending⟩ := rows.covered key absent
    simp [visible, pending, committed]

def rollback (rows : Rows Tx Key Row) (tx : Tx) : Rows Tx Key Row where
  keys := rows.keys
  committed := rows.committed
  pending := fun key => if rows.holds tx key then none else rows.pending key
  covered := by
    intro key absent
    obtain ⟨committed, pending⟩ := rows.covered key absent
    simp [pending, committed]

def own (rows : Rows Tx Key Row) (tx : Tx) (key : Key) : Option (Option Row) :=
  match rows.pending key with
  | some (owner, version) => if owner = tx then some version else none
  | none => none

/-- The transaction reverts to a savepoint: the locks it took since are
released, and its older versions are back. -/
def rollbackTo (rows : Rows Tx Key Row) (tx : Tx)
    (saved : Key → Option (Option Row)) : Rows Tx Key Row where
  keys := rows.keys
  committed := rows.committed
  pending := fun key =>
    if rows.holds tx key then (saved key).map fun version => (tx, version)
    else rows.pending key
  covered := by
    intro key absent
    obtain ⟨committed, pending⟩ := rows.covered key absent
    simp [holds, pending, committed]

/-- A `DELETE` of the rows a statement picks, once all of them can be locked.
`none` while another transaction holds one of the locks. -/
def delete (rows : Rows Tx Key Row) (tx : Tx) (guard : Row → Bool) :
    Option (Rows Tx Key Row) :=
  if (rows.matching tx guard).all (rows.free tx) then
    some
      { keys := rows.keys
        committed := rows.committed
        pending := fun key =>
          if (rows.visible tx key).any guard then some (tx, none)
          else rows.pending key
        covered := by
          intro key absent
          obtain ⟨committed, pending⟩ := rows.covered key absent
          simp [visible, pending, committed] }
  else none

variable {rows : Rows Tx Key Row} {key : Key} {tx : Tx}

theorem holds_iff : rows.holds tx key = true ↔
      ∃ version, rows.pending key = some (tx, version) := by
  unfold holds
  cases rows.pending key with
  | none => simp
  | some version =>
    obtain ⟨owner, version⟩ := version
    simp

theorem free_iff : rows.free tx key = true ↔
      ∀ owner version, rows.pending key = some (owner, version) → owner = tx := by
  unfold free
  cases rows.pending key with
  | none => simp
  | some version =>
    obtain ⟨owner, version⟩ := version
    simp

variable {version : Option Row}

theorem visible_of_pending (pending : rows.pending key = some (tx, version)) :
    rows.visible tx key = version := by
  simp [visible, pending]

theorem visible_of_unlocked (unlocked : rows.pending key = none) :
    rows.visible tx key = rows.committed key := by
  simp [visible, unlocked]

theorem visible_cases (rows : Rows Tx Key Row) (tx : Tx) (key : Key) :
    rows.pending key = some (tx, rows.visible tx key) ∨
      (rows.visible tx key = rows.committed key ∧
        ∀ version, rows.pending key ≠ some (tx, version)) := by
  unfold visible
  cases rows.pending key with
  | none => simp
  | some version =>
    obtain ⟨owner, version⟩ := version
    by_cases same : owner = tx <;> simp [same]

theorem own_eq_some : rows.own tx key = some version ↔
      rows.pending key = some (tx, version) := by
  unfold own
  cases rows.pending key with
  | none => simp
  | some latest =>
    obtain ⟨owner, latest⟩ := latest
    by_cases same : owner = tx <;> simp [same]

variable {guard : Row → Bool}

theorem matching_iff : key ∈ rows.matching tx guard ↔
      ∃ row, rows.visible tx key = some row ∧ guard row = true := by
  simp only [matching, List.mem_filter]
  constructor
  · rintro ⟨_listed, picked⟩
    cases found : rows.visible tx key with
    | none => simp [found] at picked
    | some row => exact ⟨row, rfl, by simpa [found] using picked⟩
  · rintro ⟨row, found, picked⟩
    refine ⟨?_, by simp [found, picked]⟩
    by_contra absent
    obtain ⟨committed, pending⟩ := rows.covered key absent
    simp [visible_of_unlocked pending, committed] at found

theorem HasVersion.of_visible {row : Row}
    (found : rows.visible tx key = some row) : rows.HasVersion key row := by
  rcases visible_cases rows tx key with own | ⟨same, _⟩
  · exact .inr ⟨tx, by rw [own, found]⟩
  · exact .inl (by rw [← same, found])

theorem pending_delete_cases {rows after : Rows Tx Key Row}
    (ran : rows.delete tx guard = some after) (key : Key) :
    after.pending key = some (tx, none) ∨ after.pending key = rows.pending key := by
  simp only [delete, Option.ite_none_right_eq_some, Option.some.injEq] at ran
  obtain ⟨_, rfl⟩ := ran
  simp only
  split
  · exact .inl rfl
  · exact .inr rfl

theorem keys_delete {rows after : Rows Tx Key Row}
    (ran : rows.delete tx guard = some after) : after.keys = rows.keys := by
  simp only [delete, Option.ite_none_right_eq_some, Option.some.injEq] at ran
  obtain ⟨_, rfl⟩ := ran
  rfl

theorem pending_delete_of_other {rows after : Rows Tx Key Row} {tx other : Tx}
    (ran : rows.delete tx guard = some after) (different : other ≠ tx)
    (pending : rows.pending key = some (other, version)) :
    after.pending key = some (other, version) := by
  simp only [delete, Option.ite_none_right_eq_some, Option.some.injEq, List.all_eq_true] at ran
  obtain ⟨unlocked, rfl⟩ := ran
  have kept : ¬(rows.visible tx key).any guard = true := by
    intro picked
    obtain ⟨row, found, chosen⟩ := (Option.any_eq_true _ _).mp picked
    have free := unlocked key ((matching_iff).mpr ⟨row, found, chosen⟩)
    exact different ((free_iff).mp free other version pending)
  simp [kept, pending]

theorem HasVersion.of_delete {rows after : Rows Tx Key Row} {row : Row}
    (ran : rows.delete tx guard = some after)
    (version : after.HasVersion key row) : rows.HasVersion key row := by
  rcases version with committed | ⟨owner, pending⟩
  · simp only [delete, Option.ite_none_right_eq_some, Option.some.injEq] at ran
    obtain ⟨_, rfl⟩ := ran
    exact .inl committed
  · rcases pending_delete_cases ran key with gone | same
    · rw [gone] at pending
      cases pending
    · exact .inr ⟨owner, by rw [← same, pending]⟩

theorem committed_commit (rows : Rows Tx Key Row) (tx : Tx) (key : Key) :
    (rows.commit tx).committed key = rows.visible tx key := rfl

theorem pending_commit {tx owner : Tx} : (rows.commit tx).pending key = some (owner, version) ↔
      rows.pending key = some (owner, version) ∧ owner ≠ tx := by
  have released : (rows.commit tx).pending key =
      if rows.holds tx key then none else rows.pending key := rfl
  rw [released]
  by_cases held : rows.holds tx key = true
  · obtain ⟨latest, pending⟩ := (holds_iff).mp held
    simp only [held, if_true, reduceCtorEq, pending, Option.some.injEq,
      Prod.mk.injEq, false_iff, not_and, ne_eq, not_not, and_imp]
    exact fun same _ => same.symm
  · rw [if_neg held]
    refine ⟨fun pending => ⟨pending, ?_⟩, And.left⟩
    rintro rfl
    exact held ((holds_iff).mpr ⟨version, pending⟩)

theorem pending_rollback {tx owner : Tx} :
    (rows.rollback tx).pending key = some (owner, version) ↔
      rows.pending key = some (owner, version) ∧ owner ≠ tx :=
  pending_commit

theorem pending_rollbackTo {tx owner : Tx} {saved : Key → Option (Option Row)}
    (older : ∀ key version, saved key = some version → rows.holds tx key = true) :
    (rows.rollbackTo tx saved).pending key = some (owner, version) ↔
      (owner ≠ tx ∧ rows.pending key = some (owner, version)) ∨
        (owner = tx ∧ saved key = some version) := by
  have reverted : (rows.rollbackTo tx saved).pending key =
      if rows.holds tx key then (saved key).map fun version => (tx, version)
      else rows.pending key := rfl
  rw [reverted]
  by_cases held : rows.holds tx key = true
  · obtain ⟨latest, pending⟩ := (holds_iff).mp held
    rw [if_pos held, Option.map_eq_some_iff]
    constructor
    · rintro ⟨version, found, same⟩
      cases same
      exact .inr ⟨rfl, found⟩
    · rintro (⟨different, other⟩ | ⟨rfl, found⟩)
      · rw [pending] at other
        cases other
        exact absurd rfl different
      · exact ⟨version, found, rfl⟩
  · rw [if_neg held]
    constructor
    · intro pending
      refine .inl ⟨?_, pending⟩
      rintro rfl
      exact held ((holds_iff).mpr ⟨version, pending⟩)
    · rintro (⟨_, pending⟩ | ⟨rfl, found⟩)
      · exact pending
      · exact absurd (older key version found) held

theorem HasVersion.of_rollback {row : Row} (version : (rows.rollback tx).HasVersion key row) :
    rows.HasVersion key row := by
  rcases version with committed | ⟨owner, pending⟩
  · exact .inl committed
  · exact .inr ⟨owner, ((pending_rollback).mp pending).1⟩

theorem HasVersion.of_commit {row : Row} (version : (rows.commit tx).HasVersion key row) :
    rows.HasVersion key row := by
  rcases version with committed | ⟨owner, pending⟩
  · rw [committed_commit] at committed
    rcases visible_cases rows tx key with own | ⟨same, _⟩
    · exact .inr ⟨tx, by rw [own, committed]⟩
    · exact .inl (by rw [← same, committed])
  · exact .inr ⟨owner, ((pending_commit).mp pending).1⟩

theorem committed_commit_of_other (other : ∀ version, rows.pending key ≠ some (tx, version)) :
    (rows.commit tx).committed key = rows.committed key := by
  rcases visible_cases rows tx key with own | ⟨same, _⟩
  · exact absurd own (other _)
  · exact same

theorem committed_commit_cases {row : Row}
    (committed : (rows.commit tx).committed key = some row) :
    rows.pending key = some (tx, some row) ∨ (rows.committed key = some row ∧
        ∀ version, rows.pending key ≠ some (tx, version)) := by
  rw [committed_commit] at committed
  rcases visible_cases rows tx key with own | ⟨same, other⟩
  · exact .inl (by rw [own, committed])
  · exact .inr ⟨by rw [← same, committed], other⟩

variable [DecidableEq Key]

def write (rows : Rows Tx Key Row) (tx : Tx) (key : Key)
    (version : Option Row) : Rows Tx Key Row where
  keys := rows.keys.insert key
  committed := rows.committed
  pending := Function.update rows.pending key (some (tx, version))
  covered := by
    intro other absent
    obtain ⟨different, absent⟩ : other ≠ key ∧ other ∉ rows.keys := by
      simpa [List.mem_insert_iff] using absent
    rw [Function.update_of_ne different]
    exact rows.covered other absent

/-- One row of an `UPDATE`, once the lock can be had: the guard is checked
again on the version that is now current.  `none` while another transaction
holds the lock; otherwise whether the row was updated. -/
def update (rows : Rows Tx Key Row) (tx : Tx) (key : Key)
    (guard : Row → Bool) (change : Row → Row) :
    Option (Bool × Rows Tx Key Row) :=
  if rows.free tx key then
    match rows.visible tx key with
    | some row =>
      if guard row then some (true, rows.write tx key (some (change row)))
      else some (false, rows)
    | none => some (false, rows)
  else none

omit [DecidableEq Tx] in
@[simp] theorem pending_write_self (rows : Rows Tx Key Row) (tx : Tx)
    (key : Key) (version : Option Row) :
    (rows.write tx key version).pending key = some (tx, version) := by
  simp [write]

omit [DecidableEq Tx] in
theorem pending_write_of_ne (rows : Rows Tx Key Row) (tx : Tx)
    {key other : Key} (version : Option Row) (different : other ≠ key) :
    (rows.write tx key version).pending other = rows.pending other := by
  simp [write, different]

omit [DecidableEq Tx] in
theorem HasVersion.of_write {key other : Key} {row version : Row}
    (written : (rows.write tx key (some version)).HasVersion other row) :
    rows.HasVersion other row ∨ (other = key ∧ row = version) := by
  by_cases same : other = key
  · subst same
    rcases written with committed | ⟨owner, pending⟩
    · exact .inl (.inl committed)
    · rw [pending_write_self] at pending
      cases pending
      exact .inr ⟨rfl, rfl⟩
  · rcases written with committed | ⟨owner, pending⟩
    · exact .inl (.inl committed)
    · rw [pending_write_of_ne _ _ _ same] at pending
      exact .inl (.inr ⟨owner, pending⟩)

theorem update_cases {rows after : Rows Tx Key Row} {change : Row → Row} {matched : Bool}
    (ran : rows.update tx key guard change = some (matched, after)) :
    rows.free tx key = true ∧ ((matched = true ∧ ∃ row, rows.visible tx key = some row ∧
          guard row = true ∧ after = rows.write tx key (some (change row))) ∨
        (matched = false ∧ after = rows ∧
          ∀ row, rows.visible tx key = some row → guard row = false)) := by
  unfold update at ran
  split at ran
  · next unlocked =>
      refine ⟨unlocked, ?_⟩
      cases found : rows.visible tx key with
      | none =>
        simp only [found, Option.some.injEq, Prod.mk.injEq] at ran
        obtain ⟨rfl, rfl⟩ := ran
        simp
      | some row =>
        simp only [found] at ran
        split at ran
        · next picked =>
            simp only [Option.some.injEq, Prod.mk.injEq] at ran
            obtain ⟨rfl, rfl⟩ := ran
            exact .inl ⟨rfl, row, rfl, picked, rfl⟩
        · next passed =>
            simp only [Option.some.injEq, Prod.mk.injEq] at ran
            obtain ⟨rfl, rfl⟩ := ran
            refine .inr ⟨rfl, rfl, ?_⟩
            rintro other ⟨rfl⟩
            simpa using passed
  · simp at ran

def Holds (rows : Rows Tx Key Row) (tx : Tx) (versions : Key → Option Row → Prop) : Prop :=
  ∀ key version, rows.pending key = some (tx, version) ↔ versions key version

def Quiet (rows : Rows Tx Key Row) (tx : Tx) : Prop :=
  ∀ key version, rows.pending key ≠ some (tx, version)

/-- From `rows` to `after`, what `other` has locked stayed as it was. -/
structure Undisturbed (rows after : Rows Tx Key Row) (other : Tx) : Prop where
  locks : ∀ key version, after.pending key = some (other, version) ↔
    rows.pending key = some (other, version)
  fixed : ∀ key version, rows.pending key = some (other, version) →
    after.committed key = rows.committed key

omit [DecidableEq Tx] [DecidableEq Key] in
theorem Undisturbed.refl (rows : Rows Tx Key Row) (other : Tx) : Undisturbed rows rows other :=
  ⟨fun _ _ => .rfl, fun _ _ _ => rfl⟩

omit [DecidableEq Tx] [DecidableEq Key] in
theorem Undisturbed.holds {rows after : Rows Tx Key Row} {other : Tx}
    (undisturbed : Undisturbed rows after other)
    {versions : Key → Option Row → Prop} (holds : rows.Holds other versions) :
    after.Holds other versions :=
  fun key version => (undisturbed.locks key version).trans (holds key version)

omit [DecidableEq Tx] [DecidableEq Key] in
theorem Undisturbed.quiet {rows after : Rows Tx Key Row} {other : Tx}
    (undisturbed : Undisturbed rows after other) (quiet : rows.Quiet other) :
    after.Quiet other :=
  fun key version pending =>
    quiet key version ((undisturbed.locks key version).mp pending)

omit [DecidableEq Key] in
theorem Undisturbed.own {rows after : Rows Tx Key Row} {other : Tx}
    (undisturbed : Undisturbed rows after other) :
    after.own other = rows.own other := by
  funext key
  apply Option.ext
  intro version
  rw [own_eq_some, own_eq_some]
  exact undisturbed.locks key version

omit [DecidableEq Key] in
theorem quiet_rollback (rows : Rows Tx Key Row) (tx : Tx) : (rows.rollback tx).Quiet tx :=
  fun _ _ pending => ((pending_rollback).mp pending).2 rfl

omit [DecidableEq Key] in
theorem quiet_commit (rows : Rows Tx Key Row) (tx : Tx) : (rows.commit tx).Quiet tx :=
  fun _ _ pending => ((pending_commit).mp pending).2 rfl

omit [DecidableEq Key] in
theorem Quiet.visible (quiet : rows.Quiet tx) (key : Key) :
    rows.visible tx key = rows.committed key := by
  rcases visible_cases rows tx key with own | ⟨same, _⟩
  · exact absurd own (quiet key _)
  · exact same

omit [DecidableEq Key] in
theorem Quiet.committed_commit (quiet : rows.Quiet tx) (key : Key) :
    (rows.commit tx).committed key = rows.committed key :=
  quiet.visible key

omit [DecidableEq Tx] in
theorem Quiet.holds_write (quiet : rows.Quiet tx) (key : Key) (version : Option Row) :
    (rows.write tx key version).Holds tx
      fun other latest => other = key ∧ latest = version := by
  intro other latest
  by_cases same : other = key
  · subst same
    simp [eq_comm]
  · rw [pending_write_of_ne _ _ _ same]
    simp [same, quiet other latest]

omit [DecidableEq Key] in
theorem undisturbed_rollback (rows : Rows Tx Key Row) {tx other : Tx} (different : other ≠ tx) :
    Undisturbed rows (rows.rollback tx) other :=
  ⟨fun _ _ => by simp [pending_rollback, different], fun _ _ _ => rfl⟩

omit [DecidableEq Key] in
theorem undisturbed_rollbackTo {tx other : Tx} {saved : Key → Option (Option Row)}
    (older : ∀ key version, saved key = some version →
      rows.holds tx key = true) (different : other ≠ tx) :
    Undisturbed rows (rows.rollbackTo tx saved) other :=
  ⟨fun _ _ => by simp [pending_rollbackTo older, different],
    fun _ _ _ => rfl⟩

omit [DecidableEq Key] in
theorem undisturbed_commit (rows : Rows Tx Key Row) {tx other : Tx}
    (different : other ≠ tx) : Undisturbed rows (rows.commit tx) other where
  locks := fun _ _ => by simp [pending_commit, different]
  fixed := by
    intro key version pending
    apply committed_commit_of_other
    intro latest own
    rw [pending] at own
    cases own
    exact different rfl

theorem undisturbed_write {tx other : Tx} (unlocked : rows.free tx key = true)
    (different : other ≠ tx) (version : Option Row) :
    Undisturbed rows (rows.write tx key version) other where
  locks := by
    intro at_ latest
    by_cases same : at_ = key
    · subst same
      rw [pending_write_self]
      constructor
      · rintro ⟨rfl⟩
        exact absurd rfl different
      · intro pending
        exact absurd ((free_iff).mp unlocked other latest pending) different
    · rw [pending_write_of_ne _ _ _ same]
  fixed := fun _ _ _ => rfl

omit [DecidableEq Key] in
theorem free_of_fresh (fresh : key ∉ rows.keys) : rows.free tx key = true :=
  (free_iff).mpr (by simp [(rows.covered key fresh).2])

end Rows

end ReadCommitted
