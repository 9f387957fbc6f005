import Mathlib.Data.List.Basic

/-!
# The lock of an event loop

Tasks of one event loop switch only where they wait.  Releasing the lock marks
it free and wakes the first waiter, which takes the lock only when its task
runs again; what other tasks do in between is up to the schedule.  A waiter
can be cancelled before it was woken or after.
-/

namespace AsyncLock

inductive Status where
  | pending
  | woken
  | cancelled
  /-- Cancelled after it was woken, before its task ran. -/
  | interrupted
deriving DecidableEq

structure Waiter (Task : Type) where
  task : Task
  status : Status

structure Lock (Task : Type) where
  locked : Bool
  waiters : List (Waiter Task)

namespace Lock

variable {Task : Type}

def new : Lock Task where
  locked := false
  waiters := []

def ready (lock : Lock Task) : Bool :=
  !lock.locked && lock.waiters.all fun waiter => waiter.status = .cancelled

def take (lock : Lock Task) : Lock Task :=
  { lock with locked := true }

def enqueue (task : Task) (lock : Lock Task) : Lock Task :=
  { lock with waiters := lock.waiters ++ [⟨task, .pending⟩] }

def wakeUpFirst (lock : Lock Task) : Lock Task :=
  match lock.waiters with
  | ⟨task, .pending⟩ :: rest => { lock with waiters := ⟨task, .woken⟩ :: rest }
  | _ => lock

def release (lock : Lock Task) : Lock Task :=
  wakeUpFirst { lock with locked := false }

/-- Only the first waiter was ever woken, and only while the lock is free. -/
structure Sound (lock : Lock Task) : Prop where
  first : ∀ waiter ∈ lock.waiters.tail, waiter.status ≠ .woken
  free : lock.locked = true → ∀ waiter ∈ lock.waiters, waiter.status ≠ .woken

theorem sound_new : (new : Lock Task).Sound where
  first := by simp [new]
  free := by simp [new]

variable {lock : Lock Task}

theorem Sound.take (ready : lock.ready = true) : lock.take.Sound := by
  have quiet : ∀ waiter ∈ lock.waiters, waiter.status ≠ .woken := by
    intro waiter member woken
    have all := (Bool.and_eq_true_iff.mp ready).2
    have cancelled := List.all_eq_true.mp all waiter member
    simp [woken] at cancelled
  constructor
  · intro waiter member
    exact quiet waiter (List.mem_of_mem_tail member)
  · intro _locked
    exact quiet

theorem Sound.enqueue (sound : lock.Sound) (task : Task) : (lock.enqueue task).Sound := by
  constructor
  · intro waiter member
    cases waiters : lock.waiters with
    | nil => simp [Lock.enqueue, waiters] at member
    | cons head tail =>
      simp only [Lock.enqueue, waiters, List.cons_append, List.tail_cons,
        List.mem_append, List.mem_singleton] at member
      rcases member with earlier | new
      · exact sound.first waiter (by simpa [waiters] using earlier)
      · simp [new]
  · intro locked waiter member
    rcases List.mem_append.mp member with earlier | new
    · exact sound.free locked waiter earlier
    · simp [List.mem_singleton.mp new]

theorem wakeUpFirst_locked (lock : Lock Task) : lock.wakeUpFirst.locked = lock.locked := by
  unfold wakeUpFirst
  split <;> rfl

theorem wakeUpFirst_tail (lock : Lock Task) :
    lock.wakeUpFirst.waiters.tail = lock.waiters.tail := by
  unfold wakeUpFirst
  split
  · rename_i waiters
    simp [waiters]
  · rfl

theorem Sound.wakeUpFirst (first : ∀ waiter ∈ lock.waiters.tail, waiter.status ≠ .woken)
    (unlocked : lock.locked = false) : lock.wakeUpFirst.Sound := by
  constructor
  · rw [wakeUpFirst_tail]
    exact first
  · intro locked
    rw [wakeUpFirst_locked, unlocked] at locked
    cases locked

theorem Sound.release (sound : lock.Sound) : lock.release.Sound :=
  Sound.wakeUpFirst sound.first rfl

variable [DecidableEq Task]

def statusOf (task : Task) (lock : Lock Task) : Option Status :=
  (lock.waiters.find? fun waiter => waiter.task = task).map Waiter.status

def remove (task : Task) (lock : Lock Task) : Lock Task :=
  { lock with waiters := lock.waiters.filter fun waiter => waiter.task ≠ task }

def resume (task : Task) (lock : Lock Task) : Lock Task :=
  (lock.remove task).take

def abandon (task : Task) (lock : Lock Task) : Lock Task :=
  if lock.locked then lock.remove task else (lock.remove task).wakeUpFirst

def Status.cancel : Status → Status
  | .pending => .cancelled
  | .woken => .interrupted
  | status => status

def cancel (task : Task) (lock : Lock Task) : Lock Task :=
  { lock with waiters := lock.waiters.map fun waiter =>
      if waiter.task = task then
        { waiter with status := Status.cancel waiter.status }
      else waiter }

theorem mem_remove {task : Task} {waiter : Waiter Task} :
    waiter ∈ (lock.remove task).waiters ↔ waiter ∈ lock.waiters ∧ waiter.task ≠ task := by
  simp [remove]

theorem remove_tail {task : Task} {waiter : Waiter Task}
    (member : waiter ∈ (lock.remove task).waiters.tail) :
    waiter ∈ lock.waiters.tail := by
  cases waiters : lock.waiters with
  | nil => simp [remove, waiters] at member
  | cons head tail =>
    simp only [remove, waiters, List.filter_cons] at member
    split at member
    · exact (List.mem_filter.mp member).1
    · exact (List.mem_filter.mp (List.mem_of_mem_tail member)).1

theorem Sound.remove (sound : lock.Sound) (task : Task) : (lock.remove task).Sound where
  first := fun waiter member => sound.first waiter (remove_tail member)
  free := fun locked waiter member =>
    sound.free locked waiter ((mem_remove).mp member).1

theorem Sound.abandon (sound : lock.Sound) (task : Task) : (lock.abandon task).Sound := by
  unfold Lock.abandon
  split
  · exact sound.remove task
  · rename_i unlocked
    apply Sound.wakeUpFirst (sound.remove task).first
    simpa [Lock.remove] using unlocked

theorem abandon_locked (lock : Lock Task) (task : Task) :
    (lock.abandon task).locked = lock.locked := by
  unfold abandon
  split
  · rfl
  · rw [wakeUpFirst_locked]
    rfl

theorem Sound.head_of_woken (sound : lock.Sound) {task : Task}
    (woken : lock.statusOf task = some .woken) :
    ∃ rest, lock.waiters = ⟨task, .woken⟩ :: rest ∧ lock.locked = false := by
  obtain ⟨waiter, found, status⟩ := Option.map_eq_some_iff.mp woken
  have member := List.mem_of_find?_eq_some found
  have same : waiter.task = task := by
    simpa using List.find?_some found
  have unlocked : lock.locked = false := by
    by_contra locked
    exact sound.free (by simpa using locked) waiter member status
  cases waiters : lock.waiters with
  | nil => simp [waiters] at member
  | cons head tail =>
    rw [waiters] at member
    rcases List.mem_cons.mp member with front | later
    · refine ⟨tail, ?_, unlocked⟩
      rw [← front, ← same, ← status]
    · exact (sound.first waiter (by simpa [waiters] using later) status).elim

theorem Sound.resume (sound : lock.Sound) {task : Task}
    (woken : lock.statusOf task = some .woken) : (lock.resume task).Sound := by
  obtain ⟨rest, waiters, _unlocked⟩ := sound.head_of_woken woken
  have quiet : ∀ waiter ∈ (lock.remove task).waiters, waiter.status ≠ .woken := by
    intro waiter member
    obtain ⟨stays, differs⟩ := (mem_remove).mp member
    rw [waiters] at stays
    rcases List.mem_cons.mp stays with front | later
    · rw [front] at differs
      exact (differs rfl).elim
    · exact sound.first waiter (by simpa [waiters] using later)
  constructor
  · intro waiter member
    exact quiet waiter (List.mem_of_mem_tail member)
  · intro _locked
    exact quiet

theorem Status.cancel_ne_woken (status : Status) : Status.cancel status ≠ .woken := by
  cases status <;> simp [Status.cancel]

theorem Sound.cancel (sound : lock.Sound) (task : Task) : (lock.cancel task).Sound := by
  have kept : ∀ waiter : Waiter Task, waiter.status ≠ .woken → (if waiter.task = task then
        { waiter with status := Status.cancel waiter.status }
      else waiter).status ≠ .woken := by
    intro waiter quiet
    split
    · exact Status.cancel_ne_woken _
    · exact quiet
  constructor
  · intro waiter member
    rw [Lock.cancel, ← List.map_tail] at member
    obtain ⟨old, stays, rfl⟩ := List.mem_map.mp member
    exact kept old (sound.first old stays)
  · intro locked waiter member
    obtain ⟨old, stays, rfl⟩ := List.mem_map.mp member
    exact kept old (sound.free locked old stays)

end Lock

end AsyncLock
