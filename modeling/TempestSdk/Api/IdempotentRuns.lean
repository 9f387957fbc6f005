import TempestSdk.Api.Idempotency

/-!
# Handlers of one key at a time

Two requests of one key exclude each other as long as they line up at one lock,
or as soon as the response of the key is stored.  What breaks this is the drop
of a lock that a request still waits at: a later request makes a new one.
-/

namespace TempestSdk.Idempotency

open AsyncLock (Lock)

def Phase.holds : Phase → Bool
  | .reading | .handling | .storing _ => true
  | _ => false

def Phase.live : Phase → Bool
  | .acquiring => true
  | phase => phase.holds

def Live (state : State) (id : Nat) (key : String) (lock : Nat) : Prop :=
  ∃ task, state.tasks id = some task ∧ task.cacheKey = key ∧
    task.lock = lock ∧ task.phase.live = true

def Holding (state : State) (id : Nat) (lock : Nat) : Prop :=
  ∃ task, state.tasks id = some task ∧ task.lock = lock ∧ task.phase.holds = true

def Handling (state : State) (id : Nat) (key : String) : Prop :=
  ∃ task, state.tasks id = some task ∧ task.cacheKey = key ∧ task.phase = .handling

def Serialised (state : State) : Prop :=
  ∀ key first second, Handling state first key → Handling state second key → first = second

/-- All requests of the key that are not over line up at one lock, the
registered one if there is one. -/
structure Shared (state : State) (key : String) : Prop where
  same : ∀ first second lock other, Live state first key lock →
    Live state second key other → lock = other
  registered : ∀ id lock other, Live state id key lock →
    state.locks key = some other → lock = other

/-- A request that makes a new lock finds no other request of its key in
flight, or the response stored; a stored response does not expire while
requests of its key line up at different locks. -/
def Orderly (config : Config) (state : State) : Action → Prop
  | .arrive _ request => ∀ key, cacheKey config request = some key →
      state.locks key = none →
      (state.store key).isSome = true ∨ ∀ id lock, ¬ Live state id key lock
  | .expire key => Shared state key
  | .run _ _ => True

/-- A lock has at most one holder, and none when it is free. -/
structure Exclusive (state : State) : Prop where
  sound : ∀ lock, (state.objects lock).Sound
  held : ∀ id lock, Holding state id lock → (state.objects lock).locked = true
  alone : ∀ first second lock, Holding state first lock →
    Holding state second lock → first = second

structure Invariant (state : State) : Prop where
  exclusive : Exclusive state
  serialised : Serialised state
  keyed : ∀ key, Shared state key ∨ (state.store key).isSome = true

variable {state : State} {task : Task} {key : String}

theorem live_setTask {id other : Nat} {lock : Nat}
    (live : Live (state.setTask id task) other key lock) :
    (other = id ∧ task.cacheKey = key ∧ task.lock = lock ∧
      task.phase.live = true) ∨ Live state other key lock := by
  obtain ⟨found, at_other, rest⟩ := live
  by_cases same : other = id
  · subst same
    simp only [State.setTask, Function.update_self, Option.some.injEq] at at_other
    subst at_other
    exact .inl ⟨rfl, rest⟩
  · simp only [State.setTask, Function.update_of_ne same] at at_other
    exact .inr ⟨found, at_other, rest⟩

theorem holding_setTask {id other : Nat} {lock : Nat}
    (holding : Holding (state.setTask id task) other lock) :
    (other = id ∧ task.lock = lock ∧ task.phase.holds = true) ∨
      other ≠ id ∧ Holding state other lock := by
  obtain ⟨found, at_other, rest⟩ := holding
  by_cases same : other = id
  · subst same
    simp only [State.setTask, Function.update_self, Option.some.injEq] at at_other
    subst at_other
    exact .inl ⟨rfl, rest⟩
  · simp only [State.setTask, Function.update_of_ne same] at at_other
    exact .inr ⟨same, found, at_other, rest⟩

theorem handling_setTask {id other : Nat}
    (handling : Handling (state.setTask id task) other key) :
    (other = id ∧ task.cacheKey = key ∧ task.phase = .handling) ∨ Handling state other key := by
  obtain ⟨found, at_other, rest⟩ := handling
  by_cases same : other = id
  · subst same
    simp only [State.setTask, Function.update_self, Option.some.injEq] at at_other
    subst at_other
    exact .inl ⟨rfl, rest⟩
  · simp only [State.setTask, Function.update_of_ne same] at at_other
    exact .inr ⟨found, at_other, rest⟩

@[simp] theorem releaseLock_objects (state : State) (key : String) :
    (releaseLock state key).objects = state.objects := by
  unfold releaseLock
  split
  · rfl
  · split <;> rfl

@[simp] theorem releaseLock_tasks (state : State) (key : String) :
    (releaseLock state key).tasks = state.tasks := by
  unfold releaseLock
  split
  · rfl
  · split <;> rfl

@[simp] theorem releaseLock_store (state : State) (key : String) :
    (releaseLock state key).store = state.store := by
  unfold releaseLock
  split
  · rfl
  · split <;> rfl

theorem releaseLock_locks {key other : String} {lock : Nat}
    (registered : (releaseLock state key).locks other = some lock) :
    state.locks other = some lock := by
  unfold releaseLock at registered
  split at registered
  · exact registered
  · split at registered
    · exact registered
    · by_cases same : other = key
      · simp [same] at registered
      · simpa [Function.update_of_ne same] using registered

variable {state next : State}

theorem Exclusive.update (exclusive : Exclusive state) (id : Nat)
    (task : Task) (object : Lock Nat)
    (objects : next.objects = Function.update state.objects task.lock object)
    (tasks : next.tasks = Function.update state.tasks id (some task))
    (sound : object.Sound)
    (others : ∀ other, other ≠ id → Holding state other task.lock →
      object.locked = true ∧ task.phase.holds = false)
    (own : task.phase.holds = true → object.locked = true) :
    Exclusive next := by
  have cases_of : ∀ other lock, Holding next other lock →
      (other = id ∧ task.lock = lock ∧ task.phase.holds = true) ∨
        other ≠ id ∧ Holding state other lock := by
    intro other lock holding
    apply holding_setTask
    obtain ⟨found, at_other, rest⟩ := holding
    rw [tasks] at at_other
    exact ⟨found, at_other, rest⟩
  constructor
  · intro lock
    rw [objects]
    by_cases same : lock = task.lock
    · subst same
      simpa using sound
    · rw [Function.update_of_ne same]
      exact exclusive.sound lock
  · intro other lock holding
    rw [objects]
    rcases cases_of other lock holding with ⟨_, rfl, holds⟩ | ⟨differs, before⟩
    · simpa using own holds
    · by_cases same : lock = task.lock
      · subst same
        simpa using (others other differs before).1
      · rw [Function.update_of_ne same]
        exact exclusive.held other lock before
  · intro first second lock one other
    rcases cases_of first lock one with
      ⟨rfl, rfl, holds⟩ | ⟨first_differs, first_before⟩
    · rcases cases_of second _ other with ⟨rfl, _⟩ | ⟨differs, before⟩
      · rfl
      · have none_holds := (others second differs before).2
        rw [holds] at none_holds
        cases none_holds
    · rcases cases_of second lock other with
        ⟨rfl, rfl, holds⟩ | ⟨_differs, before⟩
      · have none_holds := (others first first_differs first_before).2
        rw [holds] at none_holds
        cases none_holds
      · exact exclusive.alone first second lock first_before before

variable {id : Nat}

theorem Exclusive.update_holder {before : Task} (exclusive : Exclusive state)
    (task : Task) (object : Lock Nat) (found : state.tasks id = some before)
    (holds : before.phase.holds = true) (same : task.lock = before.lock)
    (objects : next.objects = Function.update state.objects task.lock object)
    (tasks : next.tasks = Function.update state.tasks id (some task))
    (sound : object.Sound)
    (own : task.phase.holds = true → object.locked = true) :
    Exclusive next := by
  apply exclusive.update id task object objects tasks sound _ own
  intro other differs holding
  have mine : Holding state id task.lock := ⟨before, found, same.symm, holds⟩
  exact (differs (exclusive.alone other id task.lock holding mine)).elim

/-- What a step of one task does: no request comes to a lock, no response
leaves the store, and a handler starts only for a holder of a lock that found
nothing stored. -/
structure Advances (state next : State) : Prop where
  exclusive : Exclusive next
  live : ∀ id key lock, Live next id key lock → Live state id key lock
  locks : ∀ key lock, next.locks key = some lock → state.locks key = some lock
  store : ∀ key, (state.store key).isSome = true → (next.store key).isSome = true
  handling : ∀ id key, Handling next id key → Handling state id key ∨
    state.store key = none ∧ ∃ lock, Live state id key lock ∧ Holding state id lock

theorem advances_setTask {phase : Phase} (exclusive : Exclusive state)
    (found : state.tasks id = some task) (holds : task.phase.holds = true)
    (handling : phase = .handling → state.store task.cacheKey = none) :
    Advances state (state.setTask id { task with phase }) := by
  have live : task.phase.live = true := by
    cases reached : task.phase with
    | acquiring => rfl
    | _ => simpa [Phase.live, reached] using holds
  constructor
  · apply exclusive.update_holder { task with phase } (state.objects task.lock) found holds rfl
    · simp [State.setTask]
    · rfl
    · exact exclusive.sound task.lock
    · intro _still
      exact exclusive.held id task.lock ⟨task, found, rfl, holds⟩
  · intro other key lock there
    rcases live_setTask there with ⟨rfl, rfl, rfl, _⟩ | before
    · exact ⟨task, found, rfl, rfl, live⟩
    · exact before
  · intro key lock registered
    exact registered
  · intro key stored
    exact stored
  · intro other key there
    rcases handling_setTask there with ⟨rfl, rfl, now⟩ | before
    · exact .inr ⟨handling now, task.lock, ⟨task, found, rfl, rfl, live⟩,
        task, found, rfl, holds⟩
    · exact .inl before

theorem advances_leave {state base : State} {phase : Phase}
    (exclusive : Exclusive state) (found : state.tasks id = some task)
    (holds : task.phase.holds = true) (objects : base.objects = state.objects)
    (tasks : base.tasks = state.tasks) (locks : base.locks = state.locks)
    (store : ∀ key, (state.store key).isSome = true →
      (base.store key).isSome = true) (dead : phase.live = false) :
    Advances state (leave base id task phase) := by
  have not_holding : phase.holds = false := by
    cases phase <;> simp_all [Phase.live, Phase.holds]
  constructor
  · apply exclusive.update_holder { task with phase }
      (state.objects task.lock).release found holds rfl
    · simp [leave, State.setTask, State.setLock, objects]
    · simp [leave, State.setTask, State.setLock, tasks]
    · exact (exclusive.sound task.lock).release
    · intro still
      simp [not_holding] at still
  · intro other key lock there
    rcases live_setTask there with ⟨_, _, _, still⟩ | ⟨one, at_other, rest⟩
    · simp [dead] at still
    · refine ⟨one, ?_, rest⟩
      simpa [State.setLock, tasks] using at_other
  · intro key lock registered
    have before := releaseLock_locks registered
    simpa [State.setLock, locks] using before
  · intro key stored
    simpa [leave, State.setTask, State.setLock] using store key stored
  · intro other key there
    rcases handling_setTask there with ⟨_, _, still⟩ | ⟨one, at_other, rest⟩
    · have handles : phase = .handling := still
      rw [handles] at dead
      cases dead
    · refine .inl ⟨one, ?_, rest⟩
      simpa [State.setLock, tasks] using at_other

theorem advances_abandon (exclusive : Exclusive state) :
    Advances state (abandon state id task) := by
  constructor
  · apply exclusive.update id { task with phase := .raised }
      ((state.objects task.lock).abandon id)
    · simp [abandon, State.setTask, State.setLock]
    · simp [abandon, State.setTask, State.setLock]
    · exact (exclusive.sound task.lock).abandon id
    · intro other _differs holding
      refine ⟨?_, rfl⟩
      rw [Lock.abandon_locked]
      exact exclusive.held other task.lock holding
    · intro holds
      cases holds
  · intro other key lock there
    rcases live_setTask there with ⟨_, _, _, still⟩ | ⟨one, at_other, rest⟩
    · cases still
    · refine ⟨one, ?_, rest⟩
      simpa [State.setLock] using at_other
  · intro key lock registered
    have before := releaseLock_locks registered
    exact before
  · intro key stored
    simpa [abandon, State.setTask, State.setLock] using stored
  · intro other key there
    rcases handling_setTask there with ⟨_, _, still⟩ | ⟨one, at_other, rest⟩
    · cases still
    · refine .inl ⟨one, ?_, rest⟩
      simpa [State.setLock] using at_other

theorem advances_resume (exclusive : Exclusive state)
    (found : state.tasks id = some task) (waits : task.phase = .acquiring)
    (taken : resume state id task = some next) : Advances state next := by
  unfold resume at taken
  split at taken
  · rename_i woken
    cases taken
    have sound := exclusive.sound task.lock
    obtain ⟨_rest, _waiters, free⟩ := sound.head_of_woken woken
    constructor
    · apply exclusive.update id { task with phase := .reading }
        ((state.objects task.lock).resume id)
      · rfl
      · rfl
      · exact sound.resume woken
      · intro other _differs holding
        have locked := exclusive.held other task.lock holding
        rw [free] at locked
        cases locked
      · intro _holds
        rfl
    · intro other key lock there
      rcases live_setTask there with ⟨rfl, rfl, rfl, _⟩ | before
      · exact ⟨task, found, rfl, rfl, by rw [waits]; rfl⟩
      · exact before
    · intro key lock registered
      exact registered
    · intro key stored
      exact stored
    · intro other key there
      rcases handling_setTask there with ⟨_, _, still⟩ | before
      · cases still
      · exact .inl before
  · cases taken
    exact advances_abandon exclusive
  · cases taken
    exact advances_abandon exclusive
  · cases taken
  · cases taken

theorem advances_cancel (exclusive : Exclusive state)
    (found : state.tasks id = some task) (waits : task.phase = .acquiring) :
    Advances state (state.setLock task.lock ((state.objects task.lock).cancel id)) := by
  constructor
  · apply exclusive.update id task ((state.objects task.lock).cancel id)
    · rfl
    · rw [← found]
      simp [State.setLock]
    · exact (exclusive.sound task.lock).cancel id
    · intro other _differs holding
      exact ⟨exclusive.held other task.lock holding, by rw [waits]; rfl⟩
    · intro holds
      rw [waits] at holds
      cases holds
  · intro other key lock live
    exact live
  · intro key lock registered
    exact registered
  · intro key stored
    exact stored
  · intro other key handling
    exact .inl handling

theorem act_advances {config : Config} {event : Event}
    (exclusive : Exclusive state) (found : state.tasks id = some task)
    (taken : act config state id task task.phase event = some next) :
    Advances state next := by
  have gone : ∀ phase, phase.live = false → task.phase.holds = true →
      Advances state (leave state id task phase) := by
    intro phase dead holds
    exact advances_leave exclusive found holds rfl rfl rfl (fun _key stored => stored) dead
  cases reached : task.phase with
  | acquiring =>
    rw [reached] at taken
    cases event with
    | resume => exact advances_resume exclusive found reached taken
    | cancel =>
      cases taken
      exact advances_cancel exclusive found reached
    | _ => cases taken
  | reading =>
    rw [reached] at taken
    cases event with
    | read =>
      cases taken
      unfold read
      split
      · exact gone _ rfl (by rw [reached]; rfl)
      · rename_i missed
        exact advances_setTask exclusive found (by rw [reached]; rfl)
          (fun _handling => missed)
    | fail =>
      cases taken
      exact gone _ rfl (by rw [reached]; rfl)
    | _ => cases taken
  | handling =>
    rw [reached] at taken
    cases event with
    | handled response =>
      cases taken
      unfold handled
      split
      · exact gone _ rfl (by rw [reached]; rfl)
      · split
        · exact advances_setTask exclusive found (by rw [reached]; rfl)
            (fun handling => by cases handling)
        · exact gone _ rfl (by rw [reached]; rfl)
    | fail =>
      cases taken
      exact gone _ rfl (by rw [reached]; rfl)
    | _ => cases taken
  | storing response =>
    rw [reached] at taken
    cases event with
    | stored =>
      cases taken
      unfold stored
      apply advances_leave exclusive found (by rw [reached]; rfl)
      · rfl
      · rfl
      · rfl
      · intro key stored
        by_cases same : key = task.cacheKey
        · simp [same]
        · simpa [Function.update_of_ne same] using stored
      · rfl
    | fail =>
      cases taken
      exact gone _ rfl (by rw [reached]; rfl)
    | _ => cases taken
  | answered response =>
    rw [reached] at taken
    cases event <;> cases taken
  | raised =>
    rw [reached] at taken
    cases event <;> cases taken

theorem holding_of_handling (handling : Handling state id key) :
    ∃ lock, Live state id key lock ∧ Holding state id lock := by
  obtain ⟨task, found, at_key, reached⟩ := handling
  have holds : task.phase.holds = true := by rw [reached]; rfl
  exact ⟨task.lock, ⟨task, found, at_key, rfl, by rw [reached]; rfl⟩,
    task, found, rfl, holds⟩

theorem Invariant.advance (invariant : Invariant state)
    (advances : Advances state next) : Invariant next := by
  refine ⟨advances.exclusive, ?_, ?_⟩
  · intro key first second one other
    -- a handler that starts finds nothing stored, so its key has one lock
    have alone : state.store key = none →
        (∃ lock, Live state first key lock ∧ Holding state first lock) →
        (∃ lock, Live state second key lock ∧ Holding state second lock) →
        first = second := by
      rintro missed ⟨lock, live, holding⟩ ⟨second_lock, second_live, second_has⟩
      rcases invariant.keyed key with shared | stored
      · have same := shared.same first second lock second_lock live second_live
        subst same
        exact invariant.exclusive.alone first second lock holding second_has
      · simp [missed] at stored
    rcases advances.handling first key one with before | ⟨missed, lines_up⟩
    · rcases advances.handling second key other with also | ⟨missed, lines_up⟩
      · exact invariant.serialised key first second before also
      · exact alone missed (holding_of_handling before) lines_up
    · rcases advances.handling second key other with before | ⟨_, also⟩
      · exact alone missed lines_up (holding_of_handling before)
      · exact alone missed lines_up also
  · intro key
    rcases invariant.keyed key with shared | stored
    · refine .inl ⟨?_, ?_⟩
      · intro first second lock other one two
        exact shared.same first second lock other (advances.live _ _ _ one)
          (advances.live _ _ _ two)
      · intro id lock other live registered
        exact shared.registered id lock other (advances.live _ _ _ live)
          (advances.locks _ _ registered)
    · exact .inr (advances.store key stored)

theorem lockFor_registered {lock : Nat} (registered : state.locks key = some lock) :
    lockFor state key = (state, lock) := by
  simp [lockFor, registered]

theorem lockFor_missing (missing : state.locks key = none) : lockFor state key = ({ state with
          locks := Function.update state.locks key (some state.created)
          created := state.created + 1 }, state.created) := by
  simp [lockFor, missing]

theorem lockFor_frame (state : State) (key : String) :
    (lockFor state key).1.objects = state.objects ∧ (lockFor state key).1.tasks = state.tasks ∧
      (lockFor state key).1.store = state.store := by
  unfold lockFor
  split <;> exact ⟨rfl, rfl, rfl⟩

theorem arrive_spec (state : State) (id : Nat) (key fingerprint : String) :
    ∃ task object, task.cacheKey = key ∧
      task.lock = (lockFor state key).2 ∧ task.phase ≠ .handling ∧
      arrive state id key fingerprint =
        ((lockFor state key).1.setLock task.lock object).setTask id task ∧
      (((state.objects task.lock).ready = true ∧ object = (state.objects task.lock).take) ∨
        task.phase = .acquiring ∧ object = (state.objects task.lock).enqueue id) := by
  obtain ⟨objects, _tasks, _store⟩ := lockFor_frame state key
  simp only [arrive, objects]
  split
  · rename_i ready
    exact ⟨⟨key, fingerprint, (lockFor state key).2, .reading⟩, _, rfl, rfl,
      by simp, rfl, .inl ⟨ready, rfl⟩⟩
  · exact ⟨⟨key, fingerprint, (lockFor state key).2, .acquiring⟩, _, rfl, rfl,
      by simp, rfl, .inr ⟨rfl, rfl⟩⟩

section

variable {state : State} {id : Nat} {key fingerprint : String}

theorem live_arrive {other lock : Nat} {at_key : String}
    (live : Live (arrive state id key fingerprint) other at_key lock) :
    (at_key = key ∧ lock = (lockFor state key).2) ∨ Live state other at_key lock := by
  obtain ⟨task, object, at_own, at_lock, _, result, _⟩ :=
    arrive_spec state id key fingerprint
  obtain ⟨_, tasks, _⟩ := lockFor_frame state key
  rw [result] at live
  rcases live_setTask live with ⟨_, rfl, rfl, _⟩ | ⟨one, there, rest⟩
  · exact .inl ⟨at_own, at_lock⟩
  · exact .inr ⟨one, by simpa [State.setLock, tasks] using there, rest⟩

theorem handling_arrive {other : Nat} {at_key : String}
    (handling : Handling (arrive state id key fingerprint) other at_key) :
    Handling state other at_key := by
  obtain ⟨task, object, _, _, not_handling, result, _⟩ :=
    arrive_spec state id key fingerprint
  obtain ⟨_, tasks, _⟩ := lockFor_frame state key
  rw [result] at handling
  rcases handling_setTask handling with ⟨_, _, now⟩ | ⟨running, there, rest⟩
  · exact (not_handling now).elim
  · exact ⟨running, by simpa [State.setLock, tasks] using there, rest⟩

theorem arrive_locks : (arrive state id key fingerprint).locks =
    (lockFor state key).1.locks := by
  simp only [arrive]
  split <;> rfl

theorem arrive_store : (arrive state id key fingerprint).store = state.store := by
  obtain ⟨_, _, store⟩ := lockFor_frame state key
  rw [← store]
  simp only [arrive]
  split <;> rfl

theorem Exclusive.arrive (exclusive : Exclusive state) :
    Exclusive (arrive state id key fingerprint) := by
  obtain ⟨task, object, _, _, _, result, taken⟩ :=
    arrive_spec state id key fingerprint
  obtain ⟨objects, tasks, _⟩ := lockFor_frame state key
  rw [result]
  apply exclusive.update id task object
  · simp [State.setTask, State.setLock, objects]
  · simp [State.setTask, State.setLock, tasks]
  · rcases taken with ⟨ready, rfl⟩ | ⟨_, rfl⟩
    · exact Lock.Sound.take ready
    · exact (exclusive.sound task.lock).enqueue id
  · intro other _differs holding
    have locked := exclusive.held other task.lock holding
    rcases taken with ⟨ready, _⟩ | ⟨waits, rfl⟩
    · simp [Lock.ready, locked] at ready
    · exact ⟨locked, by rw [waits]; rfl⟩
  · intro holds
    rcases taken with ⟨_, rfl⟩ | ⟨waits, _⟩
    · rfl
    · rw [waits] at holds
      cases holds

theorem Shared.join {lock : Nat} (shared : Shared state key)
    (registered : state.locks key = some lock) :
    Shared (Idempotency.arrive state id key fingerprint) key := by
  have found := lockFor_registered registered
  have at_lock : ∀ other waits,
      Live (Idempotency.arrive state id key fingerprint) other key waits →
      waits = lock := by
    intro other waits live
    rcases live_arrive live with ⟨_, own⟩ | before
    · rw [own, found]
    · exact shared.registered other waits lock before registered
  constructor
  · intro first second one_lock two_lock one two
    rw [at_lock first one_lock one, at_lock second two_lock two]
  · intro other waits registered_lock live now
    rw [arrive_locks, found] at now
    rw [at_lock other waits live]
    exact Option.some.inj (registered.symm.trans now)

theorem Shared.begin (missing : state.locks key = none)
    (nobody : ∀ other lock, ¬ Live state other key lock) :
    Shared (Idempotency.arrive state id key fingerprint) key := by
  have found := lockFor_missing missing
  have at_lock : ∀ other waits,
      Live (Idempotency.arrive state id key fingerprint) other key waits →
      waits = state.created := by
    intro other waits live
    rcases live_arrive live with ⟨_, own⟩ | before
    · rw [own, found]
    · exact (nobody other waits before).elim
  constructor
  · intro first second one_lock two_lock one two
    rw [at_lock first one_lock one, at_lock second two_lock two]
  · intro other waits registered_lock live now
    rw [arrive_locks, found] at now
    rw [at_lock other waits live]
    simpa using now

theorem Shared.of_other {at_key : String} (shared : Shared state at_key)
    (differs : at_key ≠ key) :
    Shared (Idempotency.arrive state id key fingerprint) at_key := by
  have before : ∀ other waits,
      Live (Idempotency.arrive state id key fingerprint) other at_key waits →
      Live state other at_key waits := by
    intro other waits live
    rcases live_arrive live with ⟨own, _⟩ | stays
    · exact (differs own).elim
    · exact stays
  constructor
  · intro first second one_lock two_lock one two
    exact shared.same first second _ _ (before _ _ one) (before _ _ two)
  · intro other waits registered_lock live now
    apply shared.registered other waits registered_lock (before _ _ live)
    rw [arrive_locks] at now
    cases registered : state.locks key with
    | none =>
      rw [lockFor_missing registered] at now
      simpa [Function.update_of_ne differs] using now
    | some lock =>
      rw [lockFor_registered registered] at now
      exact now

theorem Invariant.arrive (invariant : Invariant state)
    (orderly : state.locks key = none → (state.store key).isSome = true ∨
      ∀ other lock, ¬ Live state other key lock) :
    Invariant (Idempotency.arrive state id key fingerprint) := by
  refine ⟨invariant.exclusive.arrive, ?_, ?_⟩
  · intro at_key first second one two
    exact invariant.serialised at_key first second (handling_arrive one) (handling_arrive two)
  · intro at_key
    rw [arrive_store]
    rcases invariant.keyed at_key with shared | stored
    · by_cases same : at_key = key
      · subst same
        cases registered : state.locks at_key with
        | some lock => exact .inl (shared.join registered)
        | none =>
          rcases orderly registered with stored | nobody
          · exact .inr stored
          · exact .inl (Shared.begin registered nobody)
      · exact .inl (shared.of_other same)
    · exact .inr stored

end

theorem invariant_initial : Invariant initial where
  exclusive :=
    { sound := fun _lock => Lock.sound_new
      held := by
        rintro id lock ⟨task, found, _⟩
        cases found
      alone := by
        rintro first second lock ⟨task, found, _⟩
        cases found }
  serialised := by
    rintro key first second ⟨task, found, _⟩
    cases found
  keyed := by
    intro key
    refine .inl ⟨?_, ?_⟩
    · rintro first second lock other ⟨task, found, _⟩
      cases found
    · rintro id lock other ⟨task, found, _⟩
      cases found

theorem invariant_step {config : Config} {action : Action}
    (invariant : Invariant state) (orderly : Orderly config state action)
    (taken : step config state action = some next) : Invariant next := by
  cases action with
  | arrive id request =>
    simp only [step] at taken
    split at taken
    · cases taken
    · cases taken
      exact invariant
    · rename_i key _free keyed
      cases taken
      exact invariant.arrive (orderly key keyed)
  | run id event =>
    obtain ⟨task, found, acted⟩ := Option.bind_eq_some_iff.mp taken
    exact invariant.advance (act_advances invariant.exclusive found acted)
  | expire key =>
    cases taken
    obtain ⟨sound, held, alone⟩ := invariant.exclusive
    refine ⟨⟨sound, held, alone⟩, invariant.serialised, ?_⟩
    intro at_key
    by_cases same : at_key = key
    · subst same
      have shared : Shared state at_key := orderly
      exact .inl ⟨shared.same, shared.registered⟩
    · rcases invariant.keyed at_key with shared | stored
      · exact .inl ⟨shared.same, shared.registered⟩
      · refine .inr ?_
        simpa [Function.update_of_ne same] using stored

/-- As long as no request makes a new lock while an unanswered one of its key
is still at a dropped lock, no two handlers of a key run at a time. -/
theorem requests_serialised (config : Config) (schedule : List Action) (final : State)
    (orderly : Runs.Meets (step config) (Orderly config) initial schedule)
    (run : Runs.exec (step config) initial schedule = some final) :
    Serialised final := by
  have kept : ∀ state action next, Invariant state →
      Orderly config state action → step config state action = some next →
      Invariant next := by
    intro state action next invariant orderly taken
    exact invariant_step invariant orderly taken
  exact (Runs.exec_invariant_of_meets kept orderly invariant_initial run).serialised

def config : Config where
  header_name := "Idempotency-Key"
  cache_server_errors := false
  allow_anonymous := false
  requestFingerprint := fun request =>
    String.ofList (request.body.1.map fun byte => Char.ofNat byte.toNat)
  isUnboundedStream := fun _response => false
  defaultHeaders := fun _response => []

def payment : Request where
  method := "POST"
  path := "/payments"
  query := ""
  body := ⟨[49, 48, 46, 48, 48], by decide⟩
  key := some "k1"
  principal := "ana"

def answer (status : Nat) : Response where
  status_code := status
  headers := []
  body := .bytes [123, 125]
  media_type := none

theorem requests_serialised_replay : ∃ final, Runs.exec (step config) initial
        [.arrive 0 payment, .run 0 .read, .arrive 1 payment,
          .run 0 (.handled (answer 201)), .run 0 .stored, .run 1 .resume,
          .run 1 .read] = some final ∧
      final.tasks 1 = some ⟨"ana:POST:/payments:k1", "10.00", 0, .answered (answer 201)⟩ ∧
      Serialised final := by
  obtain ⟨final, run, finished⟩ : ∃ final, Runs.exec (step config) initial
          [.arrive 0 payment, .run 0 .read, .arrive 1 payment,
            .run 0 (.handled (answer 201)), .run 0 .stored, .run 1 .resume,
            .run 1 .read] = some final ∧
        final.tasks 1 = some ⟨"ana:POST:/payments:k1", "10.00", 0, .answered (answer 201)⟩ :=
    ⟨_, rfl, rfl⟩
  refine ⟨final, run, finished, requests_serialised config _ final ?_ run⟩
  apply Runs.Meets.cons _ rfl
  · apply Runs.Meets.cons trivial rfl
    apply Runs.Meets.cons _ rfl
    · exact .cons trivial rfl (.cons trivial rfl (.cons trivial rfl
        (.cons trivial rfl trivial)))
    · -- the lock of the key is registered
      intro key keyed missing
      obtain rfl : "ana:POST:/payments:k1" = key := Option.some.inj keyed
      cases missing
  · intro key _keyed _missing
    refine .inr ?_
    rintro id lock ⟨task, found, _⟩
    cases found

/-- A handler that fails while a second request waits: the lock is dropped with
the second request at it, and a third one makes its own. -/
theorem handlers_overlap : ¬ ∀ (config : Config) (schedule : List Action) (final : State),
      Runs.exec (step config) initial schedule = some final →
      Serialised final := by
  intro serialised
  obtain ⟨final, run, first, second⟩ : ∃ final, Runs.exec (step config) initial
          [.arrive 0 payment, .run 0 .read, .arrive 1 payment,
            .run 0 (.handled (answer 500)), .run 1 .resume, .run 1 .read,
            .arrive 2 payment, .run 2 .read] = some final ∧
        Handling final 1 "ana:POST:/payments:k1" ∧
        Handling final 2 "ana:POST:/payments:k1" :=
    ⟨_, rfl, ⟨_, rfl, rfl, rfl⟩, _, rfl, rfl, rfl⟩
  have same := serialised config _ final run _ 1 2 first second
  cases same

end TempestSdk.Idempotency
