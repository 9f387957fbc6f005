import TempestSdk.Sessions.Store

/-!
# A login that races a logout from everywhere

`RedisSessionStore.set` writes the session, lists it in the index of its owner
and prolongs the index; `delete_by_user` reads the index, deletes what it read
and deletes the index.  Any number of these calls run interleaved, one command
at a time.  A session listed between the read and the deletion of the index
ends up live and listed nowhere.

The race is the only way to lose a session, apart from an index that expires
before a session in it does.
-/

namespace TempestSdk.Sessions

open Calls

inductive StoreRequest where
  | set (session : Session)
  | deleteByUser (userId : UserId)

inductive StoreOutcome where
  | persisted
  | removed (count : Nat)
deriving DecidableEq

namespace LogoutRace

def program : StoreRequest → RedisCall StoreOutcome
  | .set session => do
      RedisSessionStore.set session
      pure .persisted
  | .deleteByUser userId => do
      let count ← RedisSessionStore.deleteByUser userId
      pure (.removed count)

def service : Service Redis StoreRequest RedisAnswer StoreOutcome where
  perform := Expiring.Keyspace.perform
  elapse := Expiring.Keyspace.elapse
  program := program

abbrev RaceWorld := World Redis StoreRequest RedisAnswer StoreOutcome

def Pending (calls : List (Running StoreRequest RedisAnswer StoreOutcome))
    (userId : UserId) (sessionId : SessionHash) : Prop :=
  ∃ running ∈ calls, ∃ next, running.rest = .ask (.sadd userId sessionId) next

/-- Neither a deletion nor the clock takes an index away from a live session.
A session that is still to be listed does not need the index yet. -/
def KeepsIndexed (world : RaceWorld) : Event StoreRequest → Prop
  | .start _ => True
  | .advance position =>
    ∀ request userId next, world.calls[position]? = some ⟨request, .ask (.delSet userId) next⟩ →
        ∀ id session deadline, world.store.strings id = some (session, deadline) →
            session.userId = userId → world.store.Lists userId id →
              Pending world.calls userId id
  | .elapse duration =>
    ∀ id session deadline, world.store.strings id = some (session, deadline) →
        world.store.clock + duration ≤ deadline → world.store.Lists session.userId id →
            Pending world.calls session.userId id ∨ world.store.Outlasts session.userId
                (world.store.clock + duration)

theorem keepsIndexed_of_ne {world : RaceWorld} {position : Nat}
    {request : StoreRequest} {command : RedisCommand}
    {rest : RedisAnswer command → RedisCall StoreOutcome}
    (moving : world.calls[position]? = some ⟨request, .ask command rest⟩)
    (other : ∀ owner, command ≠ .delSet owner) :
    KeepsIndexed world (.advance position) := by
  intro another userId next same
  rw [moving] at same
  cases same
  exact (other userId rfl).elim

/-- What the two methods send: a session is written under its own id and
listed right after. -/
def Disciplined : RedisCall StoreOutcome → Prop
  | .ask (.set key session _) next =>
    key = session.sessionId ∧ ∀ answer, ∃ rest,
        next answer = .ask (.sadd session.userId session.sessionId) rest
  | .ask (.setXX _ _ _) _ => False
  | .ask (.srem _ _) _ => False
  | _ => True

theorem program_disciplined (request : StoreRequest) :
    Call.Everywhere Disciplined (service.program request) := by
  cases request with
  | set session =>
    refine ⟨trivial, fun _now => ⟨⟨rfl, fun _ => ⟨_, rfl⟩⟩, fun _ => ?_⟩⟩
    exact ⟨trivial, fun _ => ⟨trivial, fun _ => trivial⟩⟩
  | deleteByUser userId =>
    refine ⟨trivial, fun decoded => ?_⟩
    show Call.Everywhere Disciplined ((RedisSessionStore.deleteSessions decoded >>= fun _ =>
        (do
          RedisSessionStore.client (.delSet userId)
          pure decoded.length)) >>= fun count =>
            (pure (StoreOutcome.removed count) : RedisCall StoreOutcome))
    unfold RedisSessionStore.deleteSessions
    split
    · exact ⟨trivial, fun _ => trivial⟩
    · exact ⟨trivial, fun _ => ⟨trivial, fun _ => trivial⟩⟩

/-- Every live session is listed in the index of its owner or about to be. -/
structure Covered (world : RaceWorld) : Prop where
  disciplined : ∀ running ∈ world.calls, Call.Everywhere Disciplined running.rest
  listed : ∀ id session deadline, world.store.strings id = some (session, deadline) →
      Pending world.calls session.userId id ∨ world.store.Lists session.userId id

theorem Covered.initial (clock : Nat) :
    Covered (World.initial (Expiring.Keyspace.empty clock)) := by
  constructor
  · intro running member
    cases member
  · intro id session deadline stored
    cases stored

variable {world next : RaceWorld}

theorem Pending.advance {position : Nat} {request : StoreRequest} {command : RedisCommand}
    {rest : RedisAnswer command → RedisCall StoreOutcome}
    {after : Running StoreRequest RedisAnswer StoreOutcome}
    {userId : UserId} {id : SessionHash}
    (moving : world.calls[position]? = some ⟨request, .ask command rest⟩)
    (pending : Pending world.calls userId id) :
    command = .sadd userId id ∨ Pending (world.calls.set position after) userId id := by
  obtain ⟨running, member, following, waits⟩ := pending
  obtain ⟨index, found⟩ := List.mem_iff_getElem?.mp member
  by_cases same : position = index
  · subst same
    rw [moving] at found
    cases found
    cases waits
    exact .inl rfl
  · right
    refine ⟨running, ?_, following, waits⟩
    apply List.mem_of_getElem?
    rw [List.getElem?_set_ne same]
    exact found

theorem Pending.frame {position : Nat} {request : StoreRequest} {command : RedisCommand}
    {rest : RedisAnswer command → RedisCall StoreOutcome}
    {after : Running StoreRequest RedisAnswer StoreOutcome}
    {userId : UserId} {id : SessionHash}
    (moving : world.calls[position]? = some ⟨request, .ask command rest⟩)
    (lists_nobody : ∀ owner member, command ≠ .sadd owner member)
    (pending : Pending world.calls userId id) :
    Pending (world.calls.set position after) userId id := by
  rcases pending.advance moving with lists | still
  · exact (lists_nobody _ _ lists).elim
  · exact still

theorem Covered.listed_advance (covered : Covered world) {position : Nat}
    (keeps : KeepsIndexed world (.advance position))
    {request : StoreRequest} {command : RedisCommand}
    {rest : RedisAnswer command → RedisCall StoreOutcome}
    (moving : world.calls[position]? = some ⟨request, .ask command rest⟩) :
    ∀ id session deadline, (Expiring.Keyspace.perform command world.store).2.strings id =
          some (session, deadline) →
        Pending (world.calls.set position
            ⟨request, rest (Expiring.Keyspace.perform command world.store).1⟩)
            session.userId id ∨
          (Expiring.Keyspace.perform command world.store).2.Lists session.userId id := by
  intro id session deadline stored
  have disciplined :=
    (covered.disciplined _ (List.mem_of_getElem? moving)).here
  cases command with
  | time =>
    rcases covered.listed id session deadline stored with waits | listed
    · exact .inl (waits.frame moving (by intro _ _ lists; cases lists))
    · exact .inr listed
  | get key =>
    rcases covered.listed id session deadline stored with waits | listed
    · exact .inl (waits.frame moving (by intro _ _ lists; cases lists))
    · exact .inr listed
  | smembers owner =>
    rcases covered.listed id session deadline stored with waits | listed
    · exact .inl (waits.frame moving (by intro _ _ lists; cases lists))
    · exact .inr listed
  | set key written lifetime =>
    obtain ⟨own_key, then_lists⟩ := disciplined
    obtain ⟨following, lists⟩ := then_lists ()
    by_cases same : id = key
    · subst same
      simp only [Expiring.Keyspace.perform, Expiring.Keyspace.put_strings,
        Function.update_self, Option.some.injEq, Prod.mk.injEq] at stored
      obtain ⟨rfl, _deadline⟩ := stored
      subst own_key
      have inside : position < world.calls.length :=
        (List.getElem?_eq_some_iff.mp moving).1
      exact .inl ⟨⟨request, rest ()⟩, List.mem_set inside _, following, lists⟩
    · simp only [Expiring.Keyspace.perform, Expiring.Keyspace.put_strings,
        Function.update_of_ne same] at stored
      rcases covered.listed id session deadline stored with waits | listed
      · exact .inl (waits.frame moving (by intro _ _ lists; cases lists))
      · exact .inr listed
  | setXX key written lifetime => exact disciplined.elim
  | del keys =>
    obtain ⟨_kept, before⟩ := Expiring.Keyspace.discard_eq_some.mp stored
    rcases covered.listed id session deadline before with waits | listed
    · exact .inl (waits.frame moving (by intro _ _ lists; cases lists))
    · exact .inr listed
  | sadd owner member =>
    simp only [Expiring.Keyspace.perform, Expiring.Keyspace.insert_strings] at stored
    simp only [Expiring.Keyspace.perform, Expiring.Keyspace.lists_insert]
    rcases covered.listed id session deadline stored with waits | listed
    · rcases waits.advance moving with lists | still
      · cases lists
        exact .inr (.inl ⟨rfl, rfl⟩)
      · exact .inl still
    · exact .inr (.inr listed)
  | srem owner member => exact disciplined.elim
  | expire owner lifetime =>
    simp only [Expiring.Keyspace.perform, Expiring.Keyspace.prolong_strings] at stored
    simp only [Expiring.Keyspace.perform, Expiring.Keyspace.lists_prolong]
    rcases covered.listed id session deadline stored with waits | listed
    · exact .inl (waits.frame moving (by intro _ _ lists; cases lists))
    · exact .inr listed
  | delSet owner =>
    simp only [Expiring.Keyspace.perform, Expiring.Keyspace.setOf_strings] at stored
    simp only [Expiring.Keyspace.perform, Expiring.Keyspace.lists_delSet]
    rcases covered.listed id session deadline stored with waits | listed
    · exact .inl (waits.frame moving (by intro _ _ lists; cases lists))
    · by_cases same : session.userId = owner
      · have waits := keeps request owner rest moving id session deadline
          stored same (same ▸ listed)
        rw [same]
        exact .inl (waits.frame moving (by intro _ _ lists; cases lists))
      · exact .inr ⟨same, listed⟩

theorem Covered.step (covered : Covered world) {event : Event StoreRequest}
    (keeps : KeepsIndexed world event)
    (taken : service.step world event = some next) :
    Covered next := by
  constructor
  · exact service.step_everywhere (fun request => program_disciplined request)
      covered.disciplined taken
  · cases event with
    | start request =>
      have after := service.step_start taken
      subst after
      intro id session deadline stored
      rcases covered.listed id session deadline stored with waits | listed
      · obtain ⟨running, member, waits⟩ := waits
        exact .inl ⟨running, List.mem_append_left _ member, waits⟩
      · exact .inr listed
    | advance position =>
      obtain ⟨request, command, rest, moving, rfl⟩ :=
        service.step_advance taken
      exact covered.listed_advance keeps moving
    | elapse duration =>
      have after := service.step_elapse taken
      subst after
      intro id session deadline stored
      obtain ⟨before, alive⟩ := Expiring.Keyspace.elapse_strings.mp stored
      rcases covered.listed id session deadline before with waits | listed
      · exact .inl waits
      · rcases keeps id session deadline before alive listed with
          waits | outlasts
        · exact .inl waits
        · exact .inr (Expiring.Keyspace.lists_elapse.mpr ⟨listed, outlasts⟩)

theorem Covered.listed_of_quiet (covered : Covered world)
    (quiet : world.Quiet) {id : SessionHash} {session : Session}
    {deadline : Nat}
    (stored : world.store.strings id = some (session, deadline)) :
    world.store.Lists session.userId id := by
  rcases covered.listed id session deadline stored with waits | listed
  · obtain ⟨running, member, next, waits⟩ := waits
    have closed := quiet running member
    rw [waits] at closed
    cases closed
  · exact listed

theorem deleteByUser_removes {userId : UserId} {id : SessionHash}
    {redis : Redis} (listed : redis.Lists userId id) :
    (service.uninterrupted (program (.deleteByUser userId)) redis).2.1.strings id = none := by
  obtain ⟨index, found, member⟩ := listed
  have some_left : index.members ≠ [] := List.ne_nil_of_mem member
  have removed : (redis.discard index.members).strings id = none :=
    Expiring.Keyspace.discard_of_mem member
  simp [program, RedisSessionStore.deleteByUser,
    RedisSessionStore.deleteSessions, Service.uninterrupted, service,
    Expiring.Keyspace.perform, found, some_left, Call.issue, removed]

end LogoutRace

open LogoutRace in
/-- However the calls are interleaved, when they are over every live session
is listed in the index of its user, and a further `delete_by_user` removes it:
as long as no index is deleted, or expires, while a live session is in it. -/
theorem race_leaves_no_orphan {clock : Nat}
    {schedule : List (Event StoreRequest)} {final : RaceWorld}
    (keeps : Runs.Meets service.step KeepsIndexed
      (World.initial (Expiring.Keyspace.empty clock)) schedule)
    (run : Runs.exec service.step
      (World.initial (Expiring.Keyspace.empty clock)) schedule = some final)
    (quiet : final.Quiet) {id : SessionHash} {session : Session}
    {deadline : Nat}
    (live : final.store.strings id = some (session, deadline)) :
    final.store.Lists session.userId id ∧ ∃ commands last, Runs.exec service.step final
            (.start (.deleteByUser session.userId) ::
              List.replicate commands (.advance final.calls.length)) =
          some last ∧
        last.Quiet ∧ last.store.strings id = none := by
  have covered : Covered final := by
    refine Runs.exec_invariant_of_meets ?_ keeps (Covered.initial clock) run
    intro _world _event _next covered kept taken
    exact covered.step kept taken
  have listed := covered.listed_of_quiet quiet live
  refine ⟨listed, _, _, Runs.exec_cons.mpr ⟨_, rfl,
    service.exec_uninterrupted final.calls _ _ final.store⟩, ?_,
    deleteByUser_removes listed⟩
  intro running member
  rcases List.mem_append.mp member with old | new
  · exact quiet running old
  · rw [List.mem_singleton.mp new]
    rfl

def sampleSession (sessionId : SessionHash) (expiresAt : Nat) : Session where
  sessionId := sessionId
  userId := 1
  createdAt := 0
  expiresAt := expiresAt
  lastSeenAt := 0
  ip := none
  userAgent := none
  data := []
  amr := []

def relisted : List (Event StoreRequest) :=
  [.start (.set (sampleSession 10 3600000000)), .advance 0, .advance 0, .advance 0, .advance 0,
    .start (.deleteByUser 1), .advance 1,
    .start (.set (sampleSession 20 3600000000)), .advance 2, .advance 2,
    .advance 1, .advance 1, .advance 2, .advance 2]

open LogoutRace in
theorem race_leaves_no_orphan_relisted : ∃ final : RaceWorld,
      Runs.exec service.step (World.initial (Expiring.Keyspace.empty 0)) relisted = some final ∧
        final.store.Lists 1 20 := by
  have keeps : Runs.Meets service.step KeepsIndexed
      (World.initial (Expiring.Keyspace.empty 0)) relisted := by
    iterate 10
      refine .cons ?_ rfl ?_
      · first
          | exact trivial
          | exact keepsIndexed_of_ne rfl (fun _owner => nofun)
    refine .cons (keepsIndexed_of_ne rfl (fun _owner => nofun)) rfl ?_
    refine .cons ?_ rfl ?_
    · intro request userId next moving id session deadline live _owner listed
      cases moving
      obtain ⟨index, found, member⟩ := listed
      cases found
      rw [List.mem_singleton.mp member] at live
      cases live
    iterate 2 refine .cons (keepsIndexed_of_ne rfl (fun _owner => nofun)) rfl ?_
    trivial
  refine ⟨_, rfl, ?_⟩
  exact (@race_leaves_no_orphan 0 relisted _ keeps rfl (by decide) 20 _ _
    rfl).1

/-- The second login lists its session between the two accesses to the
index. -/
def orphaned : List (Event StoreRequest) :=
  [.start (.set (sampleSession 10 3600000000)), .advance 0, .advance 0, .advance 0, .advance 0,
    .start (.deleteByUser 1), .advance 1,
    .start (.set (sampleSession 20 3600000000)), .advance 2, .advance 2,
    .advance 2, .advance 2, .advance 1, .advance 1]

open LogoutRace in
theorem race_orphans_session : ¬ ∀ (clock : Nat) (schedule : List (Event StoreRequest))
        (final : RaceWorld) (id : SessionHash) (session : Session)
        (deadline : Nat),
      Runs.exec service.step (World.initial (Expiring.Keyspace.empty clock))
          schedule = some final →
        final.Quiet →
        final.store.strings id = some (session, deadline) →
        final.store.Lists session.userId id := by
  intro never_orphans
  have listed := never_orphans 0 orphaned _ 20 (sampleSession 20 3600000000)
    3600000000 rfl (by decide) rfl
  obtain ⟨index, found, _member⟩ := listed
  cases found

end TempestSdk.Sessions
