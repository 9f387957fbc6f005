import Mathlib.Logic.Function.Basic
import TempestSdk.Library.Runs
import TempestSdk.Library.TokenLock

/-!
# One scheduler under a lease

Any number of replicas run the supervisor over one lease in Redis.  A lease
that could not be renewed is released before the loop is stopped, and on a
shutdown the loop is only asked to stop before the lease is released.  Loops do
not overlap as long as no lease goes before the loop of its replica has ended.
-/

namespace TempestSdk.Scheduler

/-- A fresh token for each attempt to take the lease. -/
structure Token where
  replica : Nat
  serial : Nat
deriving DecidableEq

abbrev Command := TokenLock.Command Token

inductive Loop where
  | running
  | cancelling
deriving DecidableEq

/-- What `RedisSchedulerLock` remembers, and the token of its handle. -/
structure Lock where
  held : Bool
  token : Option Token
deriving DecidableEq

/-- `release` forgets the token, and then sends its deletion. -/
def Lock.release (lock : Lock) : Lock × Option Token :=
  if lock.held = true then (⟨false, none⟩, lock.token) else (lock, none)

/-- Where `_run_scheduler_under_lease` is.  A command that was sent may have
its answer already. -/
inductive Phase where
  | standby
  | acquiring (token : Token) (answer : Option Bool)
  | starting (token : Token)
  | leading
  | renewing (token : Token) (answer : Option Bool)
  | surrendering
  | stopping
  | leaving
  | gone
deriving DecidableEq

structure Replica where
  phase : Phase
  lock : Lock
  loop : Option Loop
deriving DecidableEq

namespace Replica

def initial : Replica := ⟨.standby, ⟨false, none⟩, none⟩

def pursued (replica : Replica) : Option Token :=
  match replica.phase with
  | .acquiring token _ | .starting token => some token
  | _ => none

def acquired (replica : Replica) : Option Token :=
  match replica.phase with
  | .acquiring token (some true) | .starting token => some token
  | _ => none

def renewed (replica : Replica) : Option Token :=
  match replica.phase with
  | .acquiring token _ | .starting token => some token
  | .leading | .renewing _ _ => replica.lock.token
  | _ => none

def cancelLoop (replica : Replica) : Replica :=
  { replica with loop := replica.loop.map fun _ => .cancelling }

def standDown (replica : Replica) : Replica :=
  { replica.cancelLoop with phase := .stopping }

def surrender (replica : Replica) : Replica × List Command :=
  match replica.lock.release with
  | (lock, some token) =>
    ({ replica with lock := lock, phase := .surrendering }, [.delete token])
  | (lock, none) => ({ replica with lock := lock }.standDown, [])

/-- The handler of `CancelledError` does not wait for the loop. -/
def leave (replica : Replica) : Replica × List Command :=
  match replica.cancelLoop.lock.release with
  | (lock, some token) =>
    ({ replica.cancelLoop with lock := lock, phase := .leaving }, [.delete token])
  | (lock, none) => ({ replica.cancelLoop with lock := lock, phase := .gone }, [])

def wake (id serial : Nat) (replica : Replica) : Option (Replica × List Command) :=
  match replica.phase with
  | .standby =>
    some ({ replica with phase := .acquiring ⟨id, serial⟩ none }, [.set ⟨id, serial⟩])
  | .leading =>
    match replica.lock with
    | ⟨true, some token⟩ =>
      some ({ replica with phase := .renewing token none }, [.extend token])
    | ⟨true, none⟩ => some replica.surrender
    | ⟨false, _⟩ => some (replica.standDown, [])
  | _ => none

/-- An answer of Redis is read.  An `extend` that is refused raises. -/
def answer (replica : Replica) : Option (Replica × List Command) :=
  match replica.phase with
  | .acquiring token (some true) =>
    some ({ replica with
      lock := ⟨true, some token⟩
      phase := .starting token }, [])
  | .acquiring _ (some false) =>
    some ({ replica with
      lock := { replica.lock with held := false }
      phase := .standby }, [])
  | .renewing _ (some true) =>
    some ({ replica with
      lock := { replica.lock with held := true }
      phase := .leading }, [])
  | .renewing _ (some false) => some replica.surrender
  | _ => none

/-- The command raises, and may have been executed all the same.  A release
ends the same way when it is answered. -/
def fail (replica : Replica) : Option (Replica × List Command) :=
  match replica.phase with
  | .acquiring _ _ => some ({ replica with phase := .gone }, [])
  | .renewing _ _ => some replica.surrender
  | .surrendering => some (replica.standDown, [])
  | .leaving => some ({ replica with phase := .gone }, [])
  | _ => none

end Replica

inductive Event where
  | wake
  | answer
  | fail
  /-- `start_scheduler` is done, or it raised. -/
  | started
  | startFailed
  /-- `stop_scheduler` waited for the loop. -/
  | stopped
  | cancel
  | loopEnds
  | crash
deriving DecidableEq

def Replica.act (id serial : Nat) (replica : Replica) : Event → Option (Replica × List Command)
  | .wake => replica.wake id serial
  | .answer => replica.answer
  | .fail => replica.fail
  | .started =>
    match replica.phase with
    | .starting _ => some ({ replica with phase := .leading, loop := some .running }, [])
    | _ => none
  | .startFailed =>
    match replica.phase with
    | .starting _ => some ({ replica with phase := .gone }, [])
    | _ => none
  | .stopped =>
    if replica.phase = .stopping ∧ replica.loop = none then
      some ({ replica with phase := .standby }, [])
    else none
  | .cancel => if replica.phase = .gone then none else some replica.leave
  | .loopEnds =>
    if replica.loop = none then none
    else some ({ replica with loop := none }, [])
  | .crash => some ({ replica with phase := .gone, loop := none }, [])

structure State where
  lease : Option Token
  /-- Commands that were sent and not executed, in no order. -/
  wire : List Command
  replicas : Nat → Replica
  serial : Nat

def initial : State where
  lease := none
  wire := []
  replicas := fun _ => Replica.initial
  serial := 0

inductive Action where
  | replica (id : Nat) (event : Event)
  | execute (index : Nat)
  | drop (index : Nat)
  | expire
deriving DecidableEq

def Replica.hear (replica : Replica) (command : Command) (ok : Bool) : Replica :=
  match replica.phase, command with
  | .acquiring token none, .set asked =>
    if asked = token then
      { replica with phase := .acquiring token (some ok) }
    else replica
  | .renewing token none, .extend asked =>
    if asked = token then
      { replica with phase := .renewing token (some ok) }
    else replica
  | _, _ => replica

def State.put (state : State) (id : Nat) (replica : Replica) : State :=
  { state with replicas := Function.update state.replicas id replica }

def State.execute (state : State) (index : Nat) (command : Command) : State :=
  let (lease, ok) := TokenLock.execute state.lease command
  let id := command.token.replica
  { state.put id ((state.replicas id).hear command ok) with
    lease := lease
    wire := state.wire.eraseIdx index }

def State.moved (state : State) (id : Nat) (replica : Replica) (sent : List Command) : State :=
  { state.put id replica with
    wire := state.wire ++ sent
    serial := state.serial + 1 }

@[grind =] def step (state : State) : Action → Option State
  | .replica id event =>
    ((state.replicas id).act id state.serial event).map
      fun (replica, sent) => state.moved id replica sent
  | .execute index => state.wire[index]?.map (state.execute index)
  | .drop index =>
    state.wire[index]?.map fun _ =>
      { state with wire := state.wire.eraseIdx index }
  | .expire => if state.lease = none then none else some { state with lease := none }

def Exclusive (state : State) : Prop :=
  ∀ first second, (state.replicas first).loop ≠ none →
    (state.replicas second).loop ≠ none → first = second

def RenewedInTime (state : State) : Action → Prop
  | .expire => ∀ token, state.lease = some token →
      (state.replicas token.replica).renewed ≠ some token
  | _ => True

def GoesAfterLoop (state : State) : Action → Prop
  | .execute index => ∀ token, state.wire[index]? = some (.delete token) →
      state.lease = some token → (state.replicas token.replica).loop = none
  | .expire => ∀ token, state.lease = some token →
      (state.replicas token.replica).loop = none
  | _ => True

instance (state : State) : ∀ action, Decidable (RenewedInTime state action)
  | .expire => inferInstanceAs (Decidable (∀ token ∈ state.lease,
      (state.replicas token.replica).renewed ≠ some token))
  | .replica _ _ | .execute _ | .drop _ => .isTrue trivial

instance (state : State) : ∀ action, Decidable (GoesAfterLoop state action)
  | .execute index =>
    decidable_of_iff (∀ token ∈ state.lease, state.wire[index]? = some (.delete token) →
        (state.replicas token.replica).loop = none)
      ⟨fun all token sent leased => all token leased sent,
        fun all token leased sent => all token sent leased⟩
  | .expire => inferInstanceAs (Decidable (∀ token ∈ state.lease,
      (state.replicas token.replica).loop = none))
  | .replica _ _ | .drop _ => .isTrue trivial

/-- What an action of a replica has to do with its tokens. -/
structure Acts (id serial : Nat) (replica next : Replica)
    (sent : List Command) : Prop where
  loop : next.loop ≠ none → replica.loop ≠ none ∨ ∃ token, replica.acquired = some token
  acquired : ∀ token, next.acquired = some token → replica.acquired = some token
  pursued : ∀ token, next.pursued = some token →
    replica.pursued = some token ∨ token = ⟨id, serial⟩
  locked : ∀ token, next.lock.token = some token →
    replica.lock.token = some token ∨ replica.acquired = some token
  deletes : ∀ token, .delete token ∈ sent →
    replica.lock.token = some token ∧ next.pursued = none

/-- Leases belong to the replica whose loop runs or is about to start, and
nobody is about to delete one that is about to be led with. -/
structure Invariant (state : State) : Prop where
  running : ∀ id, (state.replicas id).loop ≠ none →
    ∃ token, state.lease = some token ∧ token.replica = id
  acquired : ∀ id token, (state.replicas id).acquired = some token → state.lease = some token
  own : ∀ id token, (state.replicas id).pursued = some token ∨
      (state.replicas id).lock.token = some token →
    token.replica = id ∧ token.serial < state.serial
  deletions : ∀ token, .delete token ∈ state.wire →
    token.serial < state.serial ∧ ∀ id, (state.replicas id).pursued ≠ some token

section

variable {id serial : Nat} {replica next : Replica} {sent : List Command}

theorem pursued_of_acquired {token : Token} (acquired : replica.acquired = some token) :
    replica.pursued = some token := by
  unfold Replica.acquired at acquired
  unfold Replica.pursued
  split at acquired <;> simp_all

theorem renewed_of_acquired {token : Token} (acquired : replica.acquired = some token) :
    replica.renewed = some token := by
  unfold Replica.acquired at acquired
  unfold Replica.renewed
  split at acquired <;> simp_all

theorem release_spec {lock after : Lock} {released : Option Token}
    (gone : lock.release = (after, released)) :
    (∀ token, after.token = some token → lock.token = some token) ∧
      ∀ token, released = some token → lock.token = some token := by
  simp only [Lock.release] at gone
  split at gone
  · cases gone
    exact ⟨nofun, fun token same => same⟩
  · cases gone
    exact ⟨fun token same => same, nofun⟩

theorem Acts.of_idle (idle : next.pursued = none)
    (loop : next.loop ≠ none → replica.loop ≠ none)
    (locked : ∀ token, next.lock.token = some token → replica.lock.token = some token)
    (deletes : ∀ token, .delete token ∈ sent → replica.lock.token = some token) :
    Acts id serial replica next sent where
  loop := fun runs => .inl (loop runs)
  acquired := by
    intro token acquired
    rw [pursued_of_acquired acquired] at idle
    cases idle
  pursued := by
    intro token pursued
    rw [pursued] at idle
    cases idle
  locked := fun token same => .inl (locked token same)
  deletes := fun token member => ⟨deletes token member, idle⟩

theorem standDown_spec : Acts id serial replica replica.standDown [] := by
  apply Acts.of_idle
  · rfl
  · simp [Replica.standDown, Replica.cancelLoop]
  · exact fun token same => same
  · simp

theorem surrender_spec (surrendered : replica.surrender = (next, sent)) :
    Acts id serial replica next sent := by
  unfold Replica.surrender at surrendered
  split at surrendered
  next lock token released =>
      obtain ⟨kept, owned⟩ := release_spec released
      cases surrendered
      apply Acts.of_idle
      · rfl
      · exact fun runs => runs
      · exact kept
      · intro other member
        cases List.mem_singleton.mp member
        exact owned token rfl
  next lock released =>
      obtain ⟨kept, -⟩ := release_spec released
      cases surrendered
      apply Acts.of_idle
      · rfl
      · simp [Replica.standDown, Replica.cancelLoop]
      · exact kept
      · simp

theorem leave_spec (left : replica.leave = (next, sent)) :
    Acts id serial replica next sent := by
  unfold Replica.leave at left
  split at left
  next lock token released =>
      obtain ⟨kept, owned⟩ := release_spec released
      cases left
      apply Acts.of_idle
      · rfl
      · simp [Replica.cancelLoop]
      · exact kept
      · intro other member
        cases List.mem_singleton.mp member
        exact owned token rfl
  next lock released =>
      obtain ⟨kept, -⟩ := release_spec released
      cases left
      apply Acts.of_idle
      · rfl
      · simp [Replica.cancelLoop]
      · exact kept
      · simp

theorem Acts.of_phase {phase : Phase} {lock : Lock}
    (idle : Replica.pursued ⟨phase, lock, replica.loop⟩ = none)
    (locked : lock.token = replica.lock.token)
    (deletes : ∀ token, .delete token ∉ sent) :
    Acts id serial replica ⟨phase, lock, replica.loop⟩ sent := by
  apply Acts.of_idle idle
  · exact fun runs => runs
  · intro token same
    exact locked ▸ same
  · intro token member
    exact absurd member (deletes token)

theorem wake_spec (woken : replica.wake id serial = some (next, sent)) :
    Acts id serial replica next sent := by
  unfold Replica.wake at woken
  split at woken
  · cases woken
    constructor
    · exact fun runs => .inl runs
    · exact nofun
    · intro token pursued
      cases pursued
      exact .inr rfl
    · exact fun token same => .inl same
    · simp
  · split at woken
    · cases woken
      exact Acts.of_phase rfl rfl (by simp)
    · exact surrender_spec (Option.some.inj woken)
    · cases woken
      exact standDown_spec
  · cases woken

theorem answer_spec (answered : replica.answer = some (next, sent)) :
    Acts id serial replica next sent := by
  unfold Replica.answer at answered
  split at answered
  next token at_phase =>
      have acquired : replica.acquired = some token := by
        simp [Replica.acquired, at_phase]
      cases answered
      constructor
      · exact fun runs => .inl runs
      · intro other same
        cases same
        exact acquired
      · intro other same
        cases same
        exact .inl (pursued_of_acquired acquired)
      · intro other same
        cases same
        exact .inr acquired
      · simp
  · cases answered
    exact Acts.of_phase rfl rfl (by simp)
  · cases answered
    exact Acts.of_phase rfl rfl (by simp)
  · exact surrender_spec (Option.some.inj answered)
  · cases answered

theorem fail_spec (failed : replica.fail = some (next, sent)) :
    Acts id serial replica next sent := by
  unfold Replica.fail at failed
  split at failed
  · cases failed
    exact Acts.of_phase rfl rfl (by simp)
  · exact surrender_spec (Option.some.inj failed)
  · cases failed
    exact standDown_spec
  · cases failed
    exact Acts.of_phase rfl rfl (by simp)
  · cases failed

theorem started_spec (started : replica.act id serial .started =
      some (next, sent)) : Acts id serial replica next sent := by
  simp only [Replica.act] at started
  split at started
  next token at_phase =>
      cases started
      constructor
      · intro _
        exact .inr ⟨token, by simp [Replica.acquired, at_phase]⟩
      · exact nofun
      · exact nofun
      · exact fun token same => .inl same
      · simp
  · cases started

theorem Acts.of_ended : Acts id serial replica { replica with loop := none } [] where
  loop := fun runs => absurd rfl runs
  acquired := fun _ same => same
  pursued := fun _ same => .inl same
  locked := fun _ same => .inl same
  deletes := nofun

theorem act_spec {event : Event} (acted : replica.act id serial event = some (next, sent)) :
    Acts id serial replica next sent := by
  cases event with
  | wake => exact wake_spec acted
  | answer => exact answer_spec acted
  | fail => exact fail_spec acted
  | started => exact started_spec acted
  | startFailed =>
    simp only [Replica.act] at acted
    split at acted
    · cases acted
      exact Acts.of_phase rfl rfl (by simp)
    · cases acted
  | stopped =>
    obtain ⟨-, moved⟩ := Option.ite_none_right_eq_some.mp acted
    cases moved
    exact Acts.of_phase rfl rfl (by simp)
  | cancel =>
    obtain ⟨-, moved⟩ := Option.ite_none_left_eq_some.mp acted
    exact leave_spec (Option.some.inj moved)
  | loopEnds =>
    obtain ⟨-, moved⟩ := Option.ite_none_left_eq_some.mp acted
    cases moved
    exact Acts.of_ended
  | crash =>
    cases acted
    apply Acts.of_idle
    · rfl
    · simp
    · exact fun token same => same
    · simp

end

section

variable {state next : State}

theorem initial_invariant : Invariant initial := by
  constructor <;>
    simp [initial, Replica.initial, Replica.acquired, Replica.pursued]

theorem Invariant.moved (invariant : Invariant state) {id : Nat}
    {replica : Replica} {sent : List Command}
    (acts : Acts id state.serial (state.replicas id) replica sent) :
    Invariant (state.moved id replica sent) := by
  constructor
  · intro other runs
    by_cases same : other = id
    · subst same
      simp only [State.moved, State.put, Function.update_self] at runs
      rcases acts.loop runs with ran | ⟨token, acquired⟩
      · exact invariant.running other ran
      · exact ⟨token, invariant.acquired other token acquired,
          (invariant.own other token (.inl (pursued_of_acquired acquired))).1⟩
    · simp only [State.moved, State.put, Function.update_of_ne same] at runs
      exact invariant.running other runs
  · intro other token acquired
    by_cases same : other = id
    · subst same
      simp only [State.moved, State.put, Function.update_self] at acquired
      exact invariant.acquired other token (acts.acquired token acquired)
    · simp only [State.moved, State.put, Function.update_of_ne same] at acquired
      exact invariant.acquired other token acquired
  · intro other token named
    by_cases same : other = id
    · subst same
      simp only [State.moved, State.put, Function.update_self] at named
      have before : token = ⟨other, state.serial⟩ ∨
          (state.replicas other).pursued = some token ∨
            (state.replicas other).lock.token = some token := by
        rcases named with pursued | locked
        · rcases acts.pursued token pursued with before | fresh
          · exact .inr (.inl before)
          · exact .inl fresh
        · rcases acts.locked token locked with before | acquired
          · exact .inr (.inr before)
          · exact .inr (.inl (pursued_of_acquired acquired))
      rcases before with rfl | before
      · exact ⟨rfl, Nat.lt_succ_self _⟩
      · have owned := invariant.own other token before
        exact ⟨owned.1, Nat.lt_succ_of_lt owned.2⟩
    · simp only [State.moved, State.put, Function.update_of_ne same] at named
      have owned := invariant.own other token named
      exact ⟨owned.1, Nat.lt_succ_of_lt owned.2⟩
  · intro token member
    rcases List.mem_append.mp member with old | new
    · obtain ⟨bound, unpursued⟩ := invariant.deletions token old
      refine ⟨Nat.lt_succ_of_lt bound, ?_⟩
      intro other pursued
      by_cases same : other = id
      · subst same
        simp only [State.moved, State.put, Function.update_self] at pursued
        rcases acts.pursued token pursued with before | fresh
        · exact unpursued other before
        · subst fresh
          exact absurd bound (Nat.lt_irrefl _)
      · simp only [State.moved, State.put, Function.update_of_ne same] at pursued
        exact unpursued other pursued
    · obtain ⟨locked, idle⟩ := acts.deletes token new
      obtain ⟨owner, bound⟩ := invariant.own id token (.inr locked)
      refine ⟨Nat.lt_succ_of_lt bound, ?_⟩
      intro other pursued
      by_cases same : other = id
      · subst same
        simp only [State.moved, State.put, Function.update_self] at pursued
        rw [pursued] at idle
        cases idle
      · simp only [State.moved, State.put, Function.update_of_ne same] at pursued
        have owner' := (invariant.own other token (.inl pursued)).1
        exact same (owner'.symm.trans owner)

section

variable (replica : Replica) (command : Command) (ok : Bool)

@[simp] theorem hear_loop :
    (replica.hear command ok).loop = replica.loop := by
  unfold Replica.hear
  split <;> try split
  all_goals rfl

@[simp] theorem hear_lock :
    (replica.hear command ok).lock = replica.lock := by
  unfold Replica.hear
  split <;> try split
  all_goals rfl

@[simp] theorem hear_pursued :
    (replica.hear command ok).pursued = replica.pursued := by
  unfold Replica.hear
  split <;> try split
  all_goals simp_all [Replica.pursued]

theorem hear_acquired {replica : Replica} {command : Command} {ok : Bool} {token : Token}
    (acquired : (replica.hear command ok).acquired = some token) :
    replica.acquired = some token ∨ command = .set token ∧ ok = true := by
  unfold Replica.hear at acquired
  split at acquired
  next asked at_phase =>
      split at acquired
      next same =>
          cases ok with
          | true =>
            cases acquired
            exact .inr ⟨by rw [same], rfl⟩
          | false => cases acquired
      · exact .inl acquired
  · split at acquired
    · cases acquired
    · exact .inl acquired
  · exact .inl acquired

end

theorem Invariant.lease_kept (invariant : Invariant state) {id index : Nat}
    {token : Token} {command : Command}
    (sent : state.wire[index]? = some command)
    (acquired : (state.replicas id).acquired = some token) :
    (TokenLock.execute state.lease command).1 = some token := by
  apply TokenLock.execute_kept (invariant.acquired id token acquired)
  rintro rfl
  have deleted := invariant.deletions token (List.mem_of_getElem? sent)
  exact deleted.2 id (pursued_of_acquired acquired)

theorem executed_replica (state : State) (index : Nat) (command : Command) (id : Nat) :
    (state.execute index command).replicas id = state.replicas id ∨
      (state.execute index command).replicas id = (state.replicas id).hear command
          (TokenLock.execute state.lease command).2 := by
  by_cases same : id = command.token.replica
  · subst same
    exact .inr (Function.update_self _ _ _)
  · exact .inl (Function.update_of_ne same _ _)

theorem executed_fields (state : State) (index : Nat) (command : Command) (id : Nat) :
    ((state.execute index command).replicas id).loop = (state.replicas id).loop ∧
      ((state.execute index command).replicas id).lock = (state.replicas id).lock ∧
      ((state.execute index command).replicas id).pursued = (state.replicas id).pursued := by
  rcases executed_replica state index command id with same | heard
  · rw [same]
    exact ⟨rfl, rfl, rfl⟩
  · rw [heard]
    simp

section

variable (invariant : Invariant state)

include invariant

theorem Invariant.execute {index : Nat}
    {command : Command} (sent : state.wire[index]? = some command)
    (after_loop : GoesAfterLoop state (.execute index)) :
    Invariant (state.execute index command) := by
  constructor
  · intro id runs
    rw [(executed_fields state index command id).1] at runs
    obtain ⟨token, leased, owner⟩ := invariant.running id runs
    refine ⟨token, TokenLock.execute_kept leased ?_, owner⟩
    rintro rfl
    rw [← owner] at runs
    exact runs (after_loop token sent leased)
  · intro id token acquired
    rcases executed_replica state index command id with same | heard
    · rw [same] at acquired
      exact invariant.lease_kept sent acquired
    · rw [heard] at acquired
      rcases hear_acquired acquired with before | ⟨rfl, taken⟩
      · exact invariant.lease_kept sent before
      · exact TokenLock.execute_set_true taken
  · intro id token named
    obtain ⟨-, lock, pursued⟩ := executed_fields state index command id
    rw [lock, pursued] at named
    exact invariant.own id token named
  · intro token member
    obtain ⟨bound, unpursued⟩ :=
      invariant.deletions token (List.mem_of_mem_eraseIdx member)
    refine ⟨bound, ?_⟩
    intro id
    rw [(executed_fields state index command id).2.2]
    exact unpursued id

theorem Invariant.drop (index : Nat) :
    Invariant { state with wire := state.wire.eraseIdx index } where
  running := invariant.running
  acquired := invariant.acquired
  own := invariant.own
  deletions := fun token member =>
    invariant.deletions token (List.mem_of_mem_eraseIdx member)

theorem Invariant.expire (in_time : RenewedInTime state .expire)
    (after_loop : GoesAfterLoop state .expire) :
    Invariant { state with lease := none } where
  running := by
    intro id runs
    obtain ⟨token, leased, owner⟩ := invariant.running id runs
    rw [← owner] at runs
    exact absurd (after_loop token leased) runs
  acquired := by
    intro id token acquired
    have leased := invariant.acquired id token acquired
    have owner :=
      (invariant.own id token (.inl (pursued_of_acquired acquired))).1
    have renewed := renewed_of_acquired acquired
    rw [← owner] at renewed
    exact absurd renewed (in_time token leased)
  own := invariant.own
  deletions := invariant.deletions

theorem Invariant.step {action : Action} (in_time : RenewedInTime state action)
    (after_loop : GoesAfterLoop state action)
    (taken : step state action = some next) : Invariant next := by
  cases action with
  | replica id event =>
    obtain ⟨⟨replica, sent⟩, acted, rfl⟩ := Option.map_eq_some_iff.mp taken
    exact invariant.moved (act_spec acted)
  | execute index =>
    obtain ⟨command, sent, rfl⟩ := Option.map_eq_some_iff.mp taken
    exact invariant.execute sent after_loop
  | drop index =>
    obtain ⟨command, sent, rfl⟩ := Option.map_eq_some_iff.mp taken
    exact invariant.drop index
  | expire =>
    obtain ⟨-, expired⟩ := Option.ite_none_left_eq_some.mp taken
    cases expired
    exact invariant.expire in_time after_loop

theorem Invariant.exclusive : Exclusive state := by
  intro first second first_runs second_runs
  obtain ⟨token, leased, first_owner⟩ := invariant.running first first_runs
  obtain ⟨other, leased', second_owner⟩ :=
    invariant.running second second_runs
  rw [leased] at leased'
  cases leased'
  exact first_owner.symm.trans second_owner

end

/-- Loops do not overlap while every lease goes after its loop. -/
theorem one_loop_when_leases_outlive {schedule : List Action} {final : State}
    (in_time : Runs.Meets step RenewedInTime initial schedule)
    (after_loop : Runs.Meets step GoesAfterLoop initial schedule)
    (run : Runs.exec step initial schedule = some final) :
    Exclusive final := by
  have invariant : Invariant final :=
    Runs.exec_invariant_of_meets
      (fun _ _ _ invariant met taken => invariant.step met.1 met.2 taken)
      (in_time.and after_loop) initial_invariant run
  exact invariant.exclusive

/-- The loop and the lease go hand in hand: the second replica leads once the
first has ended and its release has arrived. -/
def handover : List Action :=
  [.replica 0 .wake, .execute 0, .replica 0 .answer, .replica 0 .started,
    .replica 0 .cancel, .replica 0 .loopEnds, .execute 0, .replica 1 .wake,
    .execute 0, .replica 1 .answer, .replica 1 .started]

theorem one_loop_after_handover : ∃ final, Runs.exec step initial handover = some final ∧
      (final.replicas 1).loop = some .running ∧ Exclusive final := by
  have loops : (Runs.exec step initial handover).map
      (fun final => (final.replicas 1).loop) = some (some .running) := by
    decide
  obtain ⟨final, run, runs⟩ := Option.map_eq_some_iff.mp loops
  exact ⟨final, run, runs, one_loop_when_leases_outlive (by decide) (by decide) run⟩

/-- A renewal fails in transport.  The lease is released inside of the renewal,
and the other replica starts while the first loop has not been cancelled. -/
def lostRenewal : List Action :=
  [.replica 0 .wake, .execute 0, .replica 0 .answer, .replica 0 .started,
    .replica 0 .wake, .drop 0, .replica 0 .fail, .execute 0, .replica 1 .wake,
    .execute 0, .replica 1 .answer, .replica 1 .started]

theorem two_loops_after_lost_renewal : Runs.Meets step RenewedInTime initial lostRenewal ∧
      ∃ final, Runs.exec step initial lostRenewal = some final ∧
        (final.replicas 0).loop = some .running ∧
        (final.replicas 1).loop = some .running ∧ ¬ Exclusive final := by
  have loops : (Runs.exec step initial lostRenewal).map
      (fun final => ((final.replicas 0).loop, (final.replicas 1).loop)) =
        some (some .running, some .running) := by
    decide
  obtain ⟨final, run, run_both⟩ := Option.map_eq_some_iff.mp loops
  obtain ⟨first, second⟩ := Prod.mk.inj run_both
  refine ⟨by decide, final, run, first, second, ?_⟩
  intro exclusive
  have same := exclusive 0 1 (by simp [first]) (by simp [second])
  cases same

end

end TempestSdk.Scheduler
