import TempestSdk.Library.RowVersions
import TempestSdk.Library.Runs

/-!
# Tables that remember what was done to their rows

An update is a partial function of a row, which may be absent: it says whether
it matches the row and what it leaves.  A traced table keeps, next to the
versions of its rows, the updates each open transaction made and those the
committed ones made.  Its fields say that a row is what these updates make of
it, so that a law of the runs of updates is a law of every committed row.
-/

namespace ReadCommitted

open Runs

/-- A table and the updates that made its versions. -/
structure Traced (Tx Key : Type) {Row Update : Type}
    (apply : Option Row → Update → Option (Option Row)) where
  rows : Rows Tx Key Row
  /-- What an open transaction did to a row, oldest first. -/
  work : Tx → Key → List Update
  /-- What the committed transactions did to a row, oldest first. -/
  history : Key → List Update
  locked : ∀ tx key version, rows.pending key = some (tx, version) → work tx key ≠ [] ∧
      exec apply (rows.committed key) (work tx key) = some version
  written : ∀ tx key, work tx key ≠ [] → ∃ version, rows.pending key = some (tx, version)
  past : ∀ key, exec apply none (history key) = some (rows.committed key)

namespace Traced

variable {Tx Key Row Update : Type}
  {apply : Option Row → Update → Option (Option Row)}

def empty : Traced Tx Key apply where
  rows := .empty
  work := fun _ _ => []
  history := fun _ => []
  locked := by simp [Rows.empty, Rows.settled]
  written := by simp
  past := by simp [Rows.empty, Rows.settled]

theorem work_eq_nil {table : Traced Tx Key apply} {tx : Tx} {key : Key} :
    table.work tx key = [] ↔ ∀ version, table.rows.pending key ≠ some (tx, version) := by
  constructor
  · intro idle version pending
    exact (table.locked tx key version pending).1 idle
  · intro unlocked
    by_contra worked
    obtain ⟨version, pending⟩ := table.written tx key worked
    exact unlocked version pending

variable [DecidableEq Tx]

theorem exec_work (table : Traced Tx Key apply) (tx : Tx) (key : Key) :
    exec apply (table.rows.committed key) (table.work tx key) =
      some (table.rows.visible tx key) := by
  rcases Rows.visible_cases table.rows tx key with own | ⟨same, other⟩
  · exact (table.locked tx key _ own).2
  · rw [(work_eq_nil).mpr other, same, exec_nil]

theorem visible_of_work_nil {table : Traced Tx Key apply} {tx : Tx}
    {key : Key} (idle : table.work tx key = []) :
    table.rows.visible tx key = table.rows.committed key := by
  have made := table.exec_work tx key
  rw [idle, exec_nil, Option.some.injEq] at made
  exact made.symm

def commit (table : Traced Tx Key apply) (tx : Tx) : Traced Tx Key apply where
  rows := table.rows.commit tx
  work := Function.update table.work tx fun _ => []
  history := fun key => table.history key ++ table.work tx key
  locked := by
    intro other key version pending
    obtain ⟨pending, different⟩ := Rows.pending_commit.mp pending
    rw [Function.update_of_ne different, Rows.committed_commit_of_other]
    · exact table.locked other key version pending
    · intro latest own
      rw [pending] at own
      cases own
      exact different rfl
  written := by
    intro other key worked
    by_cases same : other = tx
    · subst same
      simp at worked
    · rw [Function.update_of_ne same] at worked
      obtain ⟨version, pending⟩ := table.written other key worked
      exact ⟨version, Rows.pending_commit.mpr ⟨pending, same⟩⟩
  past := fun key =>
    exec_append.mpr ⟨_, table.past key, table.exec_work tx key⟩

def rollback (table : Traced Tx Key apply) (tx : Tx) : Traced Tx Key apply where
  rows := table.rows.rollback tx
  work := Function.update table.work tx fun _ => []
  history := table.history
  locked := by
    intro other key version pending
    obtain ⟨pending, different⟩ := Rows.pending_rollback.mp pending
    rw [Function.update_of_ne different]
    exact table.locked other key version pending
  written := by
    intro other key worked
    by_cases same : other = tx
    · subst same
      simp at worked
    · rw [Function.update_of_ne same] at worked
      obtain ⟨version, pending⟩ := table.written other key worked
      exact ⟨version, Rows.pending_rollback.mpr ⟨pending, same⟩⟩
  past := table.past

variable [DecidableEq Key]

def only (key : Key) (updates : List Update) : Key → List Update :=
  Function.update (fun _ => []) key updates

omit [DecidableEq Tx] in
@[simp] theorem only_self (key : Key) (updates : List Update) :
    only key updates key = updates := by
  simp [only]

omit [DecidableEq Tx] in
theorem only_of_ne {key other : Key} (updates : List Update)
    (different : other ≠ key) : only key updates other = [] := by
  simp [only, different]

omit [DecidableEq Tx] in
theorem only_nil (key : Key) : only key ([] : List Update) = fun _ => [] := by
  simp [only]

/-- Leave what the update makes of the row, as the holder of its lock. -/
def write (table : Traced Tx Key apply) (tx : Tx) (key : Key)
    (update : Update) (version : Option Row)
    (free : table.rows.free tx key = true)
    (made : apply (table.rows.visible tx key) update = some version) :
    Traced Tx Key apply where
  rows := table.rows.write tx key version
  work := Function.update table.work tx
    (Function.update (table.work tx) key (table.work tx key ++ [update]))
  history := table.history
  locked := by
    intro other at_ latest pending
    by_cases same : at_ = key
    · subst same
      rw [Rows.pending_write_self] at pending
      cases pending
      simp only [Function.update_self, ne_eq, List.append_eq_nil_iff,
        List.cons_ne_self, and_false, not_false_eq_true, true_and]
      exact exec_append.mpr ⟨_, table.exec_work tx at_, exec_cons.mpr ⟨version, made, rfl⟩⟩
    · rw [Rows.pending_write_of_ne _ _ _ same] at pending
      have kept := table.locked other at_ latest pending
      change _ ∧ exec apply (table.rows.committed at_) _ = _
      by_cases own : other = tx
      · subst own
        simpa [same] using kept
      · simpa [own] using kept
  written := by
    intro other at_ worked
    by_cases same : at_ = key
    · subst same
      by_cases own : other = tx
      · subst own
        exact ⟨version, Rows.pending_write_self _ _ _ _⟩
      · rw [Function.update_of_ne own] at worked
        obtain ⟨latest, pending⟩ := table.written other at_ worked
        exact absurd (Rows.free_iff.mp free other latest pending) own
    · rw [Rows.pending_write_of_ne _ _ _ same]
      by_cases own : other = tx
      · subst own
        simp only [Function.update_self, Function.update_of_ne same] at worked
        exact table.written other at_ worked
      · rw [Function.update_of_ne own] at worked
        exact table.written other at_ worked
  past := table.past

/-- One row of a statement: whether it matched, and what it leaves.  A row
that matches waits for its lock; `none` while another transaction holds
it. -/
def statement (table : Traced Tx Key apply) (tx : Tx) (key : Key)
    (update : Update) : Option (Bool × Traced Tx Key apply) :=
  match made : apply (table.rows.visible tx key) update with
  | none => some (false, table)
  | some version =>
    if free : table.rows.free tx key = true then
      some (true, table.write tx key update version free made)
    else none

theorem statement_of_free {table : Traced Tx Key apply} {tx : Tx} {key : Key}
    {update : Update} {version : Option Row}
    (free : table.rows.free tx key = true)
    (made : apply (table.rows.visible tx key) update = some version) :
    table.statement tx key update =
      some (true, table.write tx key update version free made) := by
  unfold statement
  split
  · next missed =>
      rw [made] at missed
      cases missed
  · next other found =>
      rw [made] at found
      cases found
      simp [free]

theorem statement_cases {table after : Traced Tx Key apply} {tx : Tx}
    {key : Key} {update : Update} {matched : Bool}
    (ran : table.statement tx key update = some (matched, after)) :
    (matched = true ∧ ∃ version free made,
        after = table.write tx key update version free made) ∨
      (matched = false ∧ after = table ∧ apply (table.rows.visible tx key) update = none) := by
  unfold statement at ran
  split at ran
  · next missed =>
      cases ran
      exact .inr ⟨rfl, rfl, missed⟩
  · next version made =>
      split at ran
      · next free =>
          cases ran
          exact .inl ⟨rfl, version, free, made, rfl⟩
      · simp at ran

section Frame

variable {table after : Traced Tx Key apply} {tx other : Tx} {key : Key}
  {update : Update} {version : Option Row}

@[simp] theorem history_write {free made} :
    (table.write tx key update version free made).history = table.history := rfl

@[simp] theorem work_write_self {free made} :
    (table.write tx key update version free made).work tx key =
      table.work tx key ++ [update] := by
  simp [write]

theorem work_write_only {free made} {updates : List Update}
    (worked : table.work tx = only key updates) :
    (table.write tx key update version free made).work tx = only key (updates ++ [update]) := by
  simp [write, worked, only]

theorem work_write_of_key {free made} {at_ : Key} (different : at_ ≠ key) :
    (table.write tx key update version free made).work tx at_ = table.work tx at_ := by
  simp [write, different]

theorem work_write_of_tx {free made} (different : other ≠ tx) :
    (table.write tx key update version free made).work other = table.work other := by
  simp [write, different]

omit [DecidableEq Key] in
@[simp] theorem work_commit_self : (table.commit tx).work tx = fun _ => [] := by
  simp [commit]

omit [DecidableEq Key] in
theorem work_commit_of_ne (different : other ≠ tx) :
    (table.commit tx).work other = table.work other := by
  simp [commit, different]

omit [DecidableEq Key] in
@[simp] theorem work_rollback_self :
    (table.rollback tx).work tx = fun _ => [] := by
  simp [rollback]

omit [DecidableEq Key] in
theorem work_rollback_of_ne (different : other ≠ tx) :
    (table.rollback tx).work other = table.work other := by
  simp [rollback, different]

omit [DecidableEq Key] in
theorem committed_commit_of_idle (idle : table.work tx key = []) :
    (table.commit tx).rows.committed key = table.rows.committed key :=
  visible_of_work_nil idle

omit [DecidableEq Key] in
theorem pending_commit_of_idle (idle : table.work tx key = []) :
    (table.commit tx).rows.pending key = table.rows.pending key := by
  apply Option.ext
  intro latest
  obtain ⟨owner, version⟩ := latest
  change (table.rows.commit tx).pending key = _ ↔ _
  rw [Rows.pending_commit, and_iff_left_iff_imp]
  rintro pending rfl
  exact (work_eq_nil).mp idle version pending

omit [DecidableEq Key] in
theorem pending_rollback_of_idle (idle : table.work tx key = []) :
    (table.rollback tx).rows.pending key = table.rows.pending key :=
  pending_commit_of_idle idle

omit [DecidableEq Tx] [DecidableEq Key] in
theorem work_eq_nil_of_other (different : other ≠ tx)
    (worked : table.work other key ≠ []) : table.work tx key = [] := by
  obtain ⟨latest, pending⟩ := table.written other key worked
  rw [work_eq_nil]
  intro own mine
  rw [pending] at mine
  cases mine
  exact different rfl

end Frame

section Laws

variable {table after : Traced Tx Key apply} {tx : Tx} {key : Key}
  {update : Update}

omit [DecidableEq Tx] in
theorem versions_write {rows : Rows Tx Key Row} {version : Option Row} {at_ : Key} {row : Row}
    (found : (rows.write tx key version).HasVersion at_ row) :
    rows.HasVersion at_ row ∨ (at_ = key ∧ version = some row) := by
  rcases found with committed | ⟨owner, pending⟩
  · exact .inl (.inl committed)
  · by_cases same : at_ = key
    · subst same
      rw [Rows.pending_write_self] at pending
      cases pending
      exact .inr ⟨rfl, rfl⟩
    · rw [Rows.pending_write_of_ne _ _ _ same] at pending
      exact .inl (.inr ⟨owner, pending⟩)

omit [DecidableEq Tx] [DecidableEq Key] in
theorem exec_of_history {updates : List Update}
    (grown : after.history key = table.history key ++ updates) :
    exec apply (table.rows.committed key) updates = some (after.rows.committed key) := by
  have run := after.past key
  rw [grown] at run
  obtain ⟨middle, front, back⟩ := exec_append.mp run
  rw [table.past key, Option.some.injEq] at front
  rw [front]
  exact back

end Laws

section Growth

variable {table after last : Traced Tx Key apply} {opens : Update → Prop}
  {tx : Tx}

omit [DecidableEq Tx] [DecidableEq Key]

/-- From one state of a table to a later one, each row went through further
updates, the first of which is one that transactions open with. -/
def Grown (opens : Update → Prop) (table after : Traced Tx Key apply) : Prop :=
  ∀ key, ∃ updates, after.history key = table.history key ++ updates ∧
    ∀ update ∈ updates.head?, opens update

theorem grown_of_history (same : after.history = table.history) : Grown opens table after := by
  intro key
  exact ⟨[], by simp [same], by simp⟩

theorem Grown.trans (first : Grown opens table after)
    (second : Grown opens after last) : Grown opens table last := by
  intro key
  obtain ⟨earlier, grown, starts⟩ := first key
  obtain ⟨later, further, restarts⟩ := second key
  refine ⟨earlier ++ later, by rw [further, grown, List.append_assoc], ?_⟩
  cases earlier with
  | nil => exact restarts
  | cons update rest => exact starts

theorem grown_commit [DecidableEq Tx]
    (starts : ∀ key, ∀ update ∈ (table.work tx key).head?, opens update) :
    Grown opens table (table.commit tx) :=
  fun key => ⟨_, rfl, starts key⟩

theorem Grown.closed {key : Key} {row : Row} (grown : Grown opens table after)
    (found : table.rows.committed key = some row)
    (closed : ∀ update, opens update → apply (some row) update = none) :
    after.rows.committed key = some row := by
  obtain ⟨updates, history, starts⟩ := grown key
  have run := exec_of_history history
  rw [found] at run
  cases updates with
  | nil =>
    rw [exec_nil, Option.some.injEq] at run
    exact run.symm
  | cons update rest =>
    obtain ⟨version, made, _⟩ := exec_cons.mp run
    rw [closed update (starts update rfl)] at made
    cases made

end Growth

end Traced

end ReadCommitted
