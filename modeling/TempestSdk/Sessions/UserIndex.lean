import TempestSdk.Sessions.Revocation

/-!
# The index of a user's sessions

One service call after the other runs on the Redis store, with time passing
between the calls and between the commands of one call.  The index of a user
should list each live session of that user and live at least as long as each.
An `EXPIRE` gives the index the lifetime of the session being written, so it
must not find a session of the same user that lives longer: a session that
does not slide shortens the index whenever it is resolved.
-/

namespace TempestSdk.Sessions

open Calls
open Expiring.Keyspace (elapse_strings elapse_sets lists_elapse lists_insert
  lists_remove lists_prolong lists_delSet outlasts_prolong)

/-- The store, and every session ever opened with its owner. -/
structure History where
  redis : Redis
  opened : List (SessionHash × UserId)

inductive Activity where
  | call (request : Request) (waits : List Nat)
  | elapse (duration : Nat)

def opens (hashOpaqueToken : Plaintext → SessionHash) : Request → List (SessionHash × UserId)
  | .login userId _ _ _ token => [(hashOpaqueToken token, userId)]
  | _ => []

namespace UserIndex

variable (settings : SessionSettings)
  (hashOpaqueToken : Plaintext → SessionHash)

def answer (request : Request) (waits : List Nat) (redis : Redis) :
    Outcome × Redis × List Nat :=
  (redisService settings hashOpaqueToken).alone waits
    ((redisService settings hashOpaqueToken).program request) redis

def step (history : History) : Activity → Option History
  | .call request waits =>
    some {
      redis := (answer settings hashOpaqueToken request waits history.redis).2.1
      opened := opens hashOpaqueToken request ++ history.opened }
  | .elapse duration => some { history with redis := history.redis.elapse duration }

def initial (clock : Nat) : History where
  redis := Expiring.Keyspace.empty clock
  opened := []

/-- An `EXPIRE` finds the index still there, and no live session of the user
outlasts what the index is given. -/
def FindsIndex (redis : Redis) : RedisCommand → Prop
  | .expire userId lifetime => ∀ id session deadline,
      redis.strings id = some (session, deadline) → session.userId = userId →
          (redis.sets userId).isSome = true ∧ deadline ≤ redis.clock + lifetime
  | _ => True

/-- Every `EXPIRE` of the call does. -/
def Timely (history : History) : Activity → Prop
  | .call request waits =>
    (redisService settings hashOpaqueToken).Along FindsIndex waits
      ((redisService settings hashOpaqueToken).program request)
      history.redis
  | .elapse _ => True

def FreshToken (history : History) : Activity → Prop
  | .call request _ => ∀ pair ∈ opens hashOpaqueToken request,
      ∀ other ∈ history.opened, other.1 ≠ pair.1
  | .elapse _ => True

/-- Every session in the store was opened, and every one but `except` is
listed in an index of its owner that outlasts it. -/
structure Indexed (except : Option SessionHash)
    (opened : List (SessionHash × UserId)) (redis : Redis) : Prop where
  own_key : ∀ id session deadline,
    redis.strings id = some (session, deadline) → session.sessionId = id
  opened : ∀ id session deadline,
    redis.strings id = some (session, deadline) → (id, session.userId) ∈ opened
  listed : ∀ id session deadline, some id ≠ except →
    redis.strings id = some (session, deadline) → redis.Lists session.userId id
  outlasts : ∀ id session deadline, some id ≠ except →
    redis.strings id = some (session, deadline) → redis.Outlasts session.userId deadline

variable {except : Option SessionHash}
  {opened : List (SessionHash × UserId)} {redis : Redis}

theorem Indexed.empty (clock : Nat) : Indexed none [] (Expiring.Keyspace.empty clock) := by
  constructor <;> intro id session deadline
  · intro stored; cases stored
  · intro stored; cases stored
  · intro _ stored; cases stored
  · intro _ stored; cases stored

theorem Indexed.elapse (indexed : Indexed except opened redis)
    (duration : Nat) : Indexed except opened (redis.elapse duration) where
  own_key id session deadline stored :=
    indexed.own_key id session deadline (elapse_strings.mp stored).1
  opened id session deadline stored :=
    indexed.opened id session deadline (elapse_strings.mp stored).1
  listed id session deadline other stored := by
    obtain ⟨before, alive⟩ := elapse_strings.mp stored
    have outlasts := indexed.outlasts id session deadline other before
    exact lists_elapse.mpr
      ⟨indexed.listed id session deadline other before, outlasts.sooner alive⟩
  outlasts id session deadline other stored := by
    obtain ⟨before, alive⟩ := elapse_strings.mp stored
    exact (indexed.outlasts id session deadline other before).elapse alive

variable {session : Session}

theorem Indexed.put (indexed : Indexed none opened redis)
    (owned : (session.sessionId, session.userId) ∈ opened) (lifetime : Nat) :
    Indexed (some session.sessionId) opened (redis.put session.sessionId session lifetime) := by
  have other_key : ∀ {id : SessionHash}, some id ≠ some session.sessionId →
      id ≠ session.sessionId := fun different same =>
        different (congrArg some same)
  constructor
  · intro id other deadline stored
    by_cases same : id = session.sessionId
    · subst same
      simp only [Expiring.Keyspace.put_strings, Function.update_self,
        Option.some.injEq, Prod.mk.injEq] at stored
      exact congrArg Session.sessionId stored.1.symm
    · simp only [Expiring.Keyspace.put_strings, Function.update_of_ne same] at stored
      exact indexed.own_key id other deadline stored
  · intro id other deadline stored
    by_cases same : id = session.sessionId
    · subst same
      simp only [Expiring.Keyspace.put_strings, Function.update_self,
        Option.some.injEq, Prod.mk.injEq] at stored
      rw [← stored.1]
      exact owned
    · simp only [Expiring.Keyspace.put_strings, Function.update_of_ne same] at stored
      exact indexed.opened id other deadline stored
  · intro id other deadline different stored
    simp only [Expiring.Keyspace.put_strings,
      Function.update_of_ne (other_key different)] at stored
    exact indexed.listed id other deadline nofun stored
  · intro id other deadline different stored
    simp only [Expiring.Keyspace.put_strings,
      Function.update_of_ne (other_key different)] at stored
    exact indexed.outlasts id other deadline nofun stored

variable {userId : UserId} {id : SessionHash}

theorem Indexed.insert (indexed : Indexed except opened redis) :
    Indexed except opened (redis.insert userId id) := by
  constructor <;> simp only [Expiring.Keyspace.insert_strings]
  · exact indexed.own_key
  · exact indexed.opened
  · intro other session deadline different stored
    exact lists_insert.mpr (.inr (indexed.listed other session deadline different stored))
  · intro other session deadline different stored
    exact (indexed.outlasts other session deadline different stored).insert

theorem Indexed.remove (indexed : Indexed none opened redis) :
    Indexed (some id) opened (redis.remove userId id) := by
  have kept : ∀ other session deadline, some other ≠ some id →
      redis.strings other = some (session, deadline) →
        (redis.remove userId id).Lists session.userId other := by
    intro other session deadline different stored
    apply lists_remove.mpr
    refine ⟨indexed.listed other session deadline nofun stored, ?_⟩
    exact fun same => different (congrArg some same.2)
  constructor <;> simp only [Expiring.Keyspace.remove_strings]
  · exact indexed.own_key
  · exact indexed.opened
  · exact kept
  · intro other session deadline different stored
    exact (indexed.outlasts other session deadline nofun stored).remove
      (kept other session deadline different stored)

theorem Indexed.discard {keys : List SessionHash} (indexed : Indexed except opened redis)
    (covers : ∀ id, except = some id → id ∈ keys) :
    Indexed none opened (redis.discard keys) := by
  have other : ∀ {id : SessionHash}, id ∉ keys → some id ≠ except :=
    fun outside same => outside (covers _ same.symm)
  constructor
  · intro id session deadline stored
    obtain ⟨_kept, before⟩ := Expiring.Keyspace.discard_eq_some.mp stored
    exact indexed.own_key id session deadline before
  · intro id session deadline stored
    obtain ⟨_kept, before⟩ := Expiring.Keyspace.discard_eq_some.mp stored
    exact indexed.opened id session deadline before
  · intro id session deadline _any stored
    obtain ⟨kept, before⟩ := Expiring.Keyspace.discard_eq_some.mp stored
    exact indexed.listed id session deadline (other kept) before
  · intro id session deadline _any stored
    obtain ⟨kept, before⟩ := Expiring.Keyspace.discard_eq_some.mp stored
    exact indexed.outlasts id session deadline (other kept) before

theorem Indexed.prolong {lifetime wait : Nat}
    (indexed : Indexed (some session.sessionId) opened redis)
    (listed : redis.Lists session.userId session.sessionId)
    (written : ∀ other deadline, redis.strings session.sessionId = some (other, deadline) →
        other.userId = session.userId)
    (finds : FindsIndex (redis.elapse wait) (.expire session.userId lifetime)) :
    Indexed none opened ((redis.elapse wait).prolong session.userId lifetime) := by
  have later := indexed.elapse wait
  have all_listed : ∀ id other deadline,
      (redis.elapse wait).strings id = some (other, deadline) →
        (redis.elapse wait).Lists other.userId id := by
    intro id other deadline stored
    by_cases same : id = session.sessionId
    · subst same
      have owner := written other deadline (elapse_strings.mp stored).1
      obtain ⟨there, _order⟩ := finds _ other deadline stored owner
      obtain ⟨index, found⟩ := Option.isSome_iff_exists.mp there
      obtain ⟨before, lasts⟩ := elapse_sets.mp found
      rw [owner]
      exact lists_elapse.mpr ⟨listed, index, before, lasts⟩
    · exact later.listed id other deadline (fun equal => same (Option.some.inj equal)) stored
  constructor <;> simp only [Expiring.Keyspace.prolong_strings]
  · exact later.own_key
  · exact later.opened
  · intro id other deadline _any stored
    exact lists_prolong.mpr (all_listed id other deadline stored)
  · intro id other deadline _any stored
    by_cases same_owner : other.userId = session.userId
    · obtain ⟨_there, order⟩ := finds id other deadline stored same_owner
      rw [same_owner]
      have here : (redis.elapse wait).Lists session.userId id := by
        rw [← same_owner]
        exact all_listed id other deadline stored
      exact outlasts_prolong here order
    · apply Expiring.Keyspace.Outlasts.prolong_of_ne same_owner
      apply later.outlasts id other deadline _ stored
      intro same
      have key : id = session.sessionId := Option.some.inj same
      rw [key] at stored
      exact same_owner (written other deadline (elapse_strings.mp stored).1)

def Silent (userId : UserId) (redis : Redis) : Prop :=
  ∀ id session deadline, redis.strings id = some (session, deadline) → session.userId ≠ userId

theorem Silent.elapse (silent : Silent userId redis) (duration : Nat) :
    Silent userId (redis.elapse duration) := by
  intro id session deadline stored
  exact silent id session deadline (elapse_strings.mp stored).1

theorem Indexed.delSet (indexed : Indexed none opened redis) (silent : Silent userId redis) :
    Indexed none opened (redis.setOf userId none) := by
  constructor <;> simp only [Expiring.Keyspace.setOf_strings]
  · exact indexed.own_key
  · exact indexed.opened
  · intro id session deadline _any stored
    exact lists_delSet.mpr ⟨silent id session deadline stored,
      indexed.listed id session deadline nofun stored⟩
  · intro id session deadline _any stored
    exact (indexed.outlasts id session deadline nofun stored).delSet
      (silent id session deadline stored)

variable {settings hashOpaqueToken}

structure ReadFrom (opened : List (SessionHash × UserId)) (session : Session)
    (redis : Redis) : Prop where
  opened : (session.sessionId, session.userId) ∈ opened
  owner : ∀ other deadline, redis.strings session.sessionId = some (other, deadline) →
      other.userId = session.userId

theorem ReadFrom.elapse (read : ReadFrom opened session redis) (duration : Nat) :
    ReadFrom opened session (redis.elapse duration) where
  opened := read.opened
  owner other deadline stored :=
    read.owner other deadline (elapse_strings.mp stored).1

theorem put_owner {session other : Session} {lifetime deadline : Nat}
    (stored : (redis.put session.sessionId session lifetime).strings
      session.sessionId = some (other, deadline)) :
    other.userId = session.userId := by
  simp only [Expiring.Keyspace.put_strings, Function.update_self,
    Option.some.injEq, Prod.mk.injEq] at stored
  rw [← stored.1]

variable {Result : Type} {post : Result → Redis → Prop}
variable {lifetime : Nat}

theorem wp_expire {next : Unit → RedisCall Result}
    (indexed : Indexed (some session.sessionId) opened redis)
    (listed : redis.Lists session.userId session.sessionId)
    (written : ∀ other deadline, redis.strings session.sessionId = some (other, deadline) →
        other.userId = session.userId)
    (remaining : ∀ after, Indexed none opened after →
      (redisService settings hashOpaqueToken).wp FindsIndex post (next ()) after) :
    (redisService settings hashOpaqueToken).wp FindsIndex post
      (.ask (.expire session.userId lifetime) next) redis := by
  intro wait finds
  exact remaining _ (indexed.prolong listed written finds)

section

variable (indexed : Indexed none opened redis)

include indexed

theorem wp_set (owned : (session.sessionId, session.userId) ∈ opened) :
    (redisService settings hashOpaqueToken).wp FindsIndex
      (fun _ after => Indexed none opened after)
      (RedisSessionStore.set session) redis := by
  intro atTime _time atSet _set atSadd _sadd
  have stored := ((indexed.elapse atTime).elapse atSet).put owned
    (ttlSeconds session (redis.clock + atTime) * second)
  apply wp_expire (stored.elapse atSadd).insert
  · exact lists_insert.mpr (.inl ⟨rfl, rfl⟩)
  · intro other deadline found
    simp only [Expiring.Keyspace.insert_strings] at found
    exact put_owner (elapse_strings.mp found).1
  · intro after done
    exact done

theorem wp_delete : (redisService settings hashOpaqueToken).wp FindsIndex
      (fun _ after => Indexed none opened after)
      (RedisSessionStore.delete id) redis := by
  intro atGet _get
  have read := indexed.elapse atGet
  show (redisService settings hashOpaqueToken).wp FindsIndex _ (RedisSessionStore.unlist id
      (((redis.elapse atGet).strings id).map Prod.fst) >>= fun _ =>
        RedisSessionStore.client (.del [id])) (redis.elapse atGet)
  cases ((redis.elapse atGet).strings id).map Prod.fst with
  | none =>
    intro atDel _del
    exact (read.elapse atDel).discard nofun
  | some payload =>
    intro atSrem _srem atDel _del
    apply ((read.elapse atSrem).remove.elapse atDel).discard
    intro other same
    cases same
    exact List.mem_cons_self

theorem wp_get : (redisService settings hashOpaqueToken).wp FindsIndex
      (fun found after => Indexed none opened after ∧
        ∀ session ∈ found, ReadFrom opened session after)
      (RedisSessionStore.get id) redis := by
  intro atGet _get
  have read := indexed.elapse atGet
  have copied : ∀ session ∈ ((redis.elapse atGet).strings id).map Prod.fst,
      ReadFrom opened session (redis.elapse atGet) := by
    intro session found
    obtain ⟨⟨same, deadline⟩, stored, rfl⟩ := Option.map_eq_some_iff.mp found
    have key := read.own_key id same deadline stored
    constructor
    · rw [key]
      exact read.opened id same deadline stored
    · intro other later again
      rw [key, stored] at again
      cases again
      rfl
  have answered : ((redisService settings hashOpaqueToken).perform
      (.get id) (redis.elapse atGet)).1 = ((redis.elapse atGet).strings id).map Prod.fst := rfl
  rw [← answered] at copied
  generalize raw : ((redisService settings hashOpaqueToken).perform
    (.get id) (redis.elapse atGet)).1 = found at copied
  show (redisService settings hashOpaqueToken).wp FindsIndex _
    ((.done ((redisService settings hashOpaqueToken).perform
      (.get id) (redis.elapse atGet)).1 : RedisCall _) >>= _) (redis.elapse atGet)
  rw [raw]
  cases found with
  | none => exact ⟨read, nofun⟩
  | some session =>
    intro atTime _time
    have later := read.elapse atTime
    show (redisService settings hashOpaqueToken).wp FindsIndex _
      (if isExpired session _ then _ else _) _
    split
    · apply Service.wp_bind.mpr
      apply Service.wp_mono _ (wp_delete later)
      intro _deleted after done
      exact ⟨done, nofun⟩
    · refine ⟨later, ?_⟩
      intro other same
      cases same
      exact (copied session rfl).elapse atTime

theorem wp_touch (read : ReadFrom opened session redis) :
    (redisService settings hashOpaqueToken).wp FindsIndex
      (fun _ after => Indexed none opened after)
      (RedisSessionStore.touch session) redis := by
  intro atTime _time atSet _setXX
  have now := (indexed.elapse atTime).elapse atSet
  have owner := ((read.elapse atTime).elapse atSet).owner
  let lifetime := ttlSeconds session (redis.clock + atTime) * second
  let reached := (redis.elapse atTime).elapse atSet
  show (redisService settings hashOpaqueToken).wp FindsIndex _
    ((.done (Expiring.Keyspace.perform
      (.setXX session.sessionId session lifetime : RedisCommand)
        reached).1 : RedisCall _) >>= _)
    (Expiring.Keyspace.perform
      (.setXX session.sessionId session lifetime : RedisCommand) reached).2
  cases before : reached.strings session.sessionId with
  | none =>
    have refused : Expiring.Keyspace.perform
        (.setXX session.sessionId session lifetime : RedisCommand) reached =
          (false, reached) := by
      simp [Expiring.Keyspace.perform, before]
    rw [refused]
    exact now
  | some stored =>
    have written : Expiring.Keyspace.perform
        (.setXX session.sessionId session lifetime : RedisCommand) reached =
          (true, reached.put session.sessionId session lifetime) := by
      simp [Expiring.Keyspace.perform, before]
    rw [written]
    apply wp_expire (now.put read.opened lifetime)
    · rw [← owner stored.1 stored.2 before]
      exact now.listed _ stored.1 stored.2 nofun before
    · intro other deadline found
      exact put_owner found
    · intro after done
      exact done

theorem wp_deleteByUser : (redisService settings hashOpaqueToken).wp FindsIndex
      (fun _ after => Indexed none opened after ∧ Silent userId after)
      (RedisSessionStore.deleteByUser userId) redis := by
  intro atRead _smembers
  have read := indexed.elapse atRead
  let decoded := (Expiring.Keyspace.perform
    (.smembers userId : RedisCommand) (redis.elapse atRead)).1
  have decoded_all : ∀ id session deadline,
      (redis.elapse atRead).strings id = some (session, deadline) →
        session.userId = userId → id ∈ decoded := by
    intro id session deadline stored owner
    apply Expiring.Keyspace.mem_smembers.mpr
    rw [← owner]
    exact read.listed id session deadline nofun stored
  have last : ∀ after, Indexed none opened after → Silent userId after →
      (redisService settings hashOpaqueToken).wp FindsIndex
        (fun _ after => Indexed none opened after ∧ Silent userId after)
        (do
          RedisSessionStore.client (.delSet userId)
          pure decoded.length) after := by
    intro after covered silent atDel _delSet
    have still := silent.elapse atDel
    exact ⟨(covered.elapse atDel).delSet still, still⟩
  show (redisService settings hashOpaqueToken).wp FindsIndex _
    (RedisSessionStore.deleteSessions decoded >>= fun _ => _)
    (redis.elapse atRead)
  unfold RedisSessionStore.deleteSessions
  split
  · rename_i nobody
    apply last _ read
    intro id session deadline stored owner
    have member := decoded_all id session deadline stored owner
    rw [nobody] at member
    cases member
  · intro atDel _del
    apply last _ ((read.elapse atDel).discard nofun)
    intro id session deadline stored owner
    obtain ⟨kept, before⟩ := Expiring.Keyspace.discard_eq_some.mp stored
    exact kept (decoded_all id session deadline (elapse_strings.mp before).1 owner)

theorem wp_rotate {previous : Option Plaintext} :
    (redisService settings hashOpaqueToken).wp FindsIndex
      (fun _ after => Indexed none opened after)
      ((redisAuth settings hashOpaqueToken).rotate previous) redis := by
  cases previous with
  | none => exact indexed
  | some token =>
    simp only [SessionAuth.rotate]
    split
    · exact wp_delete indexed
    · exact indexed

theorem wp_login {ip userAgent : Option String} {previous : Option Plaintext}
    {token : Plaintext}
    (owned : (hashOpaqueToken token, userId) ∈ opened) :
    (redisService settings hashOpaqueToken).wp FindsIndex
      (fun _ after => Indexed none opened after)
      ((redisAuth settings hashOpaqueToken).login userId ip userAgent previous
        token) redis := by
  apply Service.wp_bind.mpr
  apply Service.wp_mono _ (wp_rotate indexed)
  intro _rotated after covered atTime _time
  apply Service.wp_bind.mpr
  exact Service.wp_mono (fun _stored _after done => done) (wp_set (covered.elapse atTime) owned)

theorem wp_resolve {token : Plaintext} : (redisService settings hashOpaqueToken).wp FindsIndex
      (fun _ after => Indexed none opened after)
      ((redisAuth settings hashOpaqueToken).resolve token) redis := by
  apply Service.wp_bind.mpr
  apply Service.wp_mono _ (wp_get indexed)
  intro found after held
  cases found with
  | none => exact held.1
  | some session =>
    intro atTime _time
    have read := (held.2 session rfl).elapse atTime
    have same_session : ReadFrom opened ((redisAuth settings hashOpaqueToken).refresh
          (after.clock + atTime) session) (after.elapse atTime) :=
      ⟨read.opened, read.owner⟩
    show (redisService settings hashOpaqueToken).wp FindsIndex _
      (RedisSessionStore.touch ((redisAuth settings hashOpaqueToken).refresh
          (after.clock + atTime) session) >>= fun _ => _)
      (after.elapse atTime)
    apply Service.wp_bind.mpr
    apply Service.wp_mono _ (wp_touch (held.1.elapse atTime) same_session)
    intro touched last done
    cases touched with
    | false => exact done
    | true => exact done

theorem wp_revokeAll : (redisService settings hashOpaqueToken).wp FindsIndex
      (fun _ after => Indexed none opened after ∧ Silent userId after)
      ((redisService settings hashOpaqueToken).program (.revokeAll userId))
      redis := by
  apply Service.wp_bind.mpr
  exact Service.wp_mono (fun _count _after done => done) (wp_deleteByUser indexed)

end

theorem wp_program (request : Request) (indexed : Indexed none opened redis) :
    (redisService settings hashOpaqueToken).wp FindsIndex (fun _ after =>
        Indexed none (opens hashOpaqueToken request ++ opened) after)
      ((redisService settings hashOpaqueToken).program request) redis := by
  cases request with
  | login userId ip userAgent previous token =>
    have more : Indexed none ((hashOpaqueToken token, userId) :: opened) redis :=
      { indexed with
        opened := fun id session deadline stored =>
          List.mem_cons_of_mem _ (indexed.opened id session deadline stored) }
    apply Service.wp_bind.mpr
    exact Service.wp_mono (fun _opened _after done => done) (wp_login more List.mem_cons_self)
  | resolve token =>
    apply Service.wp_bind.mpr
    exact Service.wp_mono (fun _session _after done => done) (wp_resolve indexed)
  | revoke token =>
    apply Service.wp_bind.mpr
    exact Service.wp_mono (fun _deleted _after done => done) (wp_delete indexed)
  | revokeAll userId =>
    exact Service.wp_mono (fun _outcome _after done => done.1) (wp_revokeAll indexed)

variable {history next : History}

theorem indexed_step {activity : Activity} (indexed : Indexed none history.opened history.redis)
    (timely : Timely settings hashOpaqueToken history activity)
    (taken : step settings hashOpaqueToken history activity = some next) :
    Indexed none next.opened next.redis := by
  cases activity with
  | call request waits =>
    cases taken
    exact Service.wp_sound (wp_program request indexed) waits timely
  | elapse duration =>
    cases taken
    exact indexed.elapse duration

def OneOwner (history : History) : Prop :=
  ∀ id owner other, (id, owner) ∈ history.opened → (id, other) ∈ history.opened → owner = other

theorem oneOwner_step {activity : Activity} (unique : OneOwner history)
    (fresh : FreshToken hashOpaqueToken history activity)
    (taken : step settings hashOpaqueToken history activity = some next) :
    OneOwner next := by
  cases activity with
  | elapse duration =>
    cases taken
    exact unique
  | call request waits =>
    cases taken
    intro id owner other first second
    rcases List.mem_append.mp first with new | old
    · rcases List.mem_append.mp second with again | before
      · cases request with
        | login userId ip userAgent previous token =>
          simp only [opens, List.mem_singleton, Prod.mk.injEq] at new again
          rw [new.2, again.2]
        | resolve token => cases new
        | revoke token => cases new
        | revokeAll userId => cases new
      · exact (fresh _ new _ before rfl).elim
    · rcases List.mem_append.mp second with again | before
      · exact (fresh _ again _ old rfl).elim
      · exact unique id owner other old before

def Absent (id : SessionHash) (redis : Redis) : Prop :=
  redis.strings id = none

theorem Absent.elapse (absent : Absent id redis) (duration : Nat) :
    Absent id (redis.elapse duration) := by
  unfold Absent at absent ⊢
  simp [Expiring.Keyspace.elapse, absent]

def Gone (id : SessionHash) (history : History) : Prop :=
  (∃ owner, (id, owner) ∈ history.opened) ∧ Absent id history.redis

theorem gone_step {activity : Activity} (gone : Gone id history)
    (fresh : FreshToken hashOpaqueToken history activity)
    (taken : step settings hashOpaqueToken history activity = some next) :
    Gone id next := by
  obtain ⟨⟨owner, known⟩, absent⟩ := gone
  cases activity with
  | elapse duration =>
    cases taken
    exact ⟨⟨owner, known⟩, absent.elapse duration⟩
  | call request waits =>
    cases taken
    refine ⟨⟨owner, List.mem_append_right _ known⟩, ?_⟩
    have other : drawn hashOpaqueToken request ≠ some id := by
      cases request with
      | login userId ip userAgent previous token =>
        intro same
        have drew : hashOpaqueToken token = id := Option.some.inj same
        exact fresh _ List.mem_cons_self _ known drew.symm
      | resolve token => nofun
      | revoke token => nofun
      | revokeAll userId => nofun
    show Absent id (answer settings hashOpaqueToken request waits history.redis).2.1
    apply Service.alone_keeps _ _ (RedisSessionStore.program_creates request other) absent
    · intro command redis harmless missing
      exact RedisSessionStore.perform_absent missing harmless
    · intro duration redis missing
      exact missing.elapse duration

theorem revokeAll_gone {waits : List Nat} (indexed : Indexed none history.opened history.redis)
    (unique : OneOwner history) (mine : (id, userId) ∈ history.opened)
    (timely : Timely settings hashOpaqueToken history (.call (.revokeAll userId) waits))
    (taken : step settings hashOpaqueToken history
      (.call (.revokeAll userId) waits) = some next) : Gone id next := by
  cases taken
  refine ⟨⟨userId, mine⟩, ?_⟩
  obtain ⟨after, silent⟩ :=
    Service.wp_sound (wp_revokeAll indexed) waits timely
  show (answer settings hashOpaqueToken (.revokeAll userId) waits
    history.redis).2.1.strings id = none
  cases stored : (answer settings hashOpaqueToken (.revokeAll userId) waits
      history.redis).2.1.strings id with
  | none => rfl
  | some found =>
    have owner := after.opened id found.1 found.2 stored
    have same := unique id _ _ owner mine
    exact (silent id found.1 found.2 stored same).elim

theorem resolve_gone (gone : Gone id history) {token : Plaintext}
    (same : hashOpaqueToken token = id) (waits : List Nat) :
    (answer settings hashOpaqueToken (.resolve token) waits
      history.redis).1 = .resolved none := by
  obtain ⟨command, next, program, answered⟩ :=
    (redisRevocable settings hashOpaqueToken).resolve_absent token
  have absent := gone.2.elapse (waits.headD 0)
  unfold answer
  rw [program]
  have closed := answered (history.redis.elapse (waits.headD 0))
    (fun stored => stored (same ▸ absent))
  simp only [Service.alone]
  show ((redisService settings hashOpaqueToken).alone _
    (next ((redisService settings hashOpaqueToken).perform command
      (history.redis.elapse (waits.headD 0))).1) _).1 = _
  rw [closed]
  rfl

/-- When every `EXPIRE` finds the index there and no live session of the user
that outlasts it, each live session is listed in an index that lives at least
as long; so what a user had opened before a `revoke_all` never resolves
again. -/
theorem index_covers_live_sessions {clock : Nat} {schedule : List Activity} {final : History}
    (timely : Runs.Meets (step settings hashOpaqueToken)
      (Timely settings hashOpaqueToken) (initial clock) schedule)
    (run : Runs.exec (step settings hashOpaqueToken) (initial clock) schedule = some final) :
    (∀ id session deadline, final.redis.strings id = some (session, deadline) →
        final.redis.Lists session.userId id ∧ final.redis.Outlasts session.userId deadline) ∧
      (Runs.Meets (step settings hashOpaqueToken)
          (FreshToken hashOpaqueToken) (initial clock) schedule →
        ∀ before userId waits after middle,
          schedule = before ++ .call (.revokeAll userId) waits :: after →
          Runs.exec (step settings hashOpaqueToken) (initial clock) before = some middle →
          ∀ id, (id, userId) ∈ middle.opened → ∀ token later, hashOpaqueToken token = id →
              (answer settings hashOpaqueToken (.resolve token) later
                final.redis).1 = .resolved none) := by
  have start : Indexed none (initial clock).opened (initial clock).redis :=
    Indexed.empty clock
  have kept : ∀ history activity next, Indexed none history.opened history.redis →
        Timely settings hashOpaqueToken history activity →
          step settings hashOpaqueToken history activity = some next →
            Indexed none next.opened next.redis :=
    fun _history _activity _next indexed met taken =>
      indexed_step indexed met taken
  constructor
  · have indexed : Indexed none final.opened final.redis :=
      Runs.exec_invariant_of_meets kept timely start run
    intro id session deadline stored
    exact ⟨indexed.listed id session deadline nofun stored,
      indexed.outlasts id session deadline nofun stored⟩
  · intro fresh before userId waits after middle split reached id mine token later same
    subst split
    obtain ⟨early, late⟩ := timely.of_append
    obtain ⟨fresh_early, fresh_late⟩ := fresh.of_append
    obtain ⟨_middle, again, continued⟩ := Runs.exec_append.mp run
    rw [reached] at again
    cases again
    obtain ⟨revoked, taken, remaining⟩ := Runs.exec_cons.mp continued
    have indexed : Indexed none middle.opened middle.redis :=
      Runs.exec_invariant_of_meets kept early start reached
    have unique : OneOwner middle := by
      refine Runs.exec_invariant_of_meets ?_ fresh_early ?_ reached
      · intro _history _activity _next unique met taken
        exact oneOwner_step unique met taken
      · intro _id _owner _other member
        cases member
    have gone : Gone id revoked :=
      revokeAll_gone indexed unique mine (late middle reached).1 taken
    have still : Gone id final := by
      refine Runs.exec_invariant_of_meets ?_
        ((fresh_late middle reached).2 revoked taken) gone remaining
      intro _history _activity _next gone met taken
      exact gone_step gone met taken
    exact resolve_gone still same later

/-- No session in the store lives longer than `lifetime` from now. -/
def Short (lifetime : Nat) (redis : Redis) : Prop :=
  ∀ id session deadline, redis.strings id = some (session, deadline) →
    deadline ≤ redis.clock + lifetime

theorem Short.empty (lifetime clock : Nat) :
    Short lifetime (Expiring.Keyspace.empty clock) := by
  intro id session deadline stored
  cases stored

theorem Short.elapse (short : Short lifetime redis) (duration : Nat) :
    Short lifetime (redis.elapse duration) := by
  intro id session deadline stored
  have bound := short id session deadline (elapse_strings.mp stored).1
  simp only [Expiring.Keyspace.elapse]
  omega

theorem Short.put (short : Short lifetime redis) (session : Session) :
    Short lifetime (redis.put session.sessionId session lifetime) := by
  intro id other deadline stored
  by_cases same : id = session.sessionId
  · subst same
    simp only [Expiring.Keyspace.put_strings, Function.update_self,
      Option.some.injEq, Prod.mk.injEq] at stored
    simp only [Expiring.Keyspace.put_clock]
    omega
  · simp only [Expiring.Keyspace.put_strings, Function.update_of_ne same] at stored
    exact short id other deadline stored

/-- A command that neither writes a session nor prolongs an index. -/
def Quiet : RedisCommand → Prop
  | .set _ _ _ => False
  | .setXX _ _ _ => False
  | .expire _ _ => False
  | _ => True

theorem Quiet.findsIndex {command : RedisCommand} (redis : Redis)
    (quiet : Quiet command) : FindsIndex redis command := by
  cases command with
  | expire userId lifetime => exact quiet.elim
  | _ => trivial

theorem Quiet.short {command : RedisCommand} (quiet : Quiet command)
    (short : Short lifetime redis) :
    Short lifetime (Expiring.Keyspace.perform command redis).2 := by
  cases command with
  | set key session lasting => exact quiet.elim
  | setXX key session lasting => exact quiet.elim
  | expire userId lasting => exact quiet.elim
  | del keys =>
    intro id session deadline stored
    exact short id session deadline (Expiring.Keyspace.discard_eq_some.mp stored).2
  | sadd owner member =>
    intro id session deadline stored
    simp only [Expiring.Keyspace.perform, Expiring.Keyspace.insert_strings,
      Expiring.Keyspace.insert_clock] at stored ⊢
    exact short id session deadline stored
  | srem owner member =>
    intro id session deadline stored
    simp only [Expiring.Keyspace.perform, Expiring.Keyspace.remove_strings,
      Expiring.Keyspace.remove_clock] at stored ⊢
    exact short id session deadline stored
  | time => exact short
  | get key => exact short
  | smembers owner => exact short
  | delSet owner => exact short

theorem unlist_quiet (id : SessionHash) (raw : Option Session) :
    Call.Asks Quiet (RedisSessionStore.unlist id raw) := by
  cases raw with
  | none => trivial
  | some payload => exact ⟨trivial, fun _ => trivial⟩

theorem delete_quiet (id : SessionHash) : Call.Asks Quiet (RedisSessionStore.delete id) := by
  refine ⟨trivial, fun raw => ?_⟩
  apply Call.Asks.bind (unlist_quiet id raw)
  intro _unlisted
  exact ⟨trivial, fun _ => trivial⟩

theorem get_quiet (id : SessionHash) : Call.Asks Quiet (RedisSessionStore.get id) := by
  refine ⟨trivial, fun raw => ?_⟩
  cases raw with
  | none => trivial
  | some session =>
    refine ⟨trivial, fun now => ?_⟩
    show Call.Asks Quiet (if isExpired session now = true then _ else _)
    split
    · apply Call.Asks.bind (delete_quiet id)
      intro _deleted
      trivial
    · trivial

theorem deleteByUser_quiet (userId : UserId) :
    Call.Asks Quiet (RedisSessionStore.deleteByUser userId) := by
  refine ⟨trivial, fun decoded => ?_⟩
  have deletes : Call.Asks Quiet (RedisSessionStore.deleteSessions decoded) := by
    unfold RedisSessionStore.deleteSessions
    split
    · trivial
    · exact ⟨trivial, fun _ => trivial⟩
  apply Call.Asks.bind deletes
  intro _deleted
  exact ⟨trivial, fun _ => trivial⟩

theorem rotate_quiet (previous : Option Plaintext) : Call.Asks Quiet
      ((redisAuth settings hashOpaqueToken).rotate previous) := by
  cases previous with
  | none => trivial
  | some token =>
    simp only [SessionAuth.rotate]
    split
    · exact delete_quiet _
    · trivial

/-- What a call does that takes no time: every `EXPIRE` finds the index, and
no session gets to live longer than `lifetime`. -/
structure Prompt (settings : SessionSettings)
    (hashOpaqueToken : Plaintext → SessionHash) (lifetime : Nat)
    (call : RedisCall Result) (redis : Redis) : Prop where
  finds : (redisService settings hashOpaqueToken).Along FindsIndex [] call redis
  short : Short lifetime ((redisService settings hashOpaqueToken).alone [] call redis).2.1

variable {lifetime : Nat}

theorem Prompt.quiet {call : RedisCall Result} (quiet : Call.Asks Quiet call)
    (short : Short lifetime redis) :
    Prompt settings hashOpaqueToken lifetime call redis where
  finds := Service.along_of_asks
    (fun _command store quiet => quiet.findsIndex store) quiet [] redis
  short := by
    apply Service.alone_keeps _ _ quiet short
    · intro command store quiet short
      exact quiet.short short
    · intro duration store short
      exact short.elapse duration

theorem Prompt.done {result : Result} (short : Short lifetime redis) :
    Prompt settings hashOpaqueToken lifetime (.done result) redis :=
  ⟨trivial, short⟩

theorem Prompt.ask {command : RedisCommand} {next : RedisAnswer command → RedisCall Result}
    (finds : FindsIndex (redis.elapse 0) command)
    (rest : Prompt settings hashOpaqueToken lifetime
      (next (Expiring.Keyspace.perform command (redis.elapse 0)).1)
      (Expiring.Keyspace.perform command (redis.elapse 0)).2) :
    Prompt settings hashOpaqueToken lifetime (.ask command next) redis :=
  ⟨⟨finds, rest.finds⟩, rest.short⟩

theorem Prompt.bind {Last : Type} {call : RedisCall Result}
    {continuation : Result → RedisCall Last}
    (first : Prompt settings hashOpaqueToken lifetime call redis)
    (rest : Prompt settings hashOpaqueToken lifetime (continuation
        ((redisService settings hashOpaqueToken).alone [] call redis).1)
      ((redisService settings hashOpaqueToken).alone [] call redis).2.1) :
    Prompt settings hashOpaqueToken lifetime (call >>= continuation) redis where
  finds := by
    apply Service.along_bind.mpr
    rw [Service.alone_nil_waits]
    exact ⟨first.finds, rest.finds⟩
  short := by
    rw [Service.alone_bind, Service.alone_nil_waits]
    exact rest.short

theorem ttlSeconds_full {now seconds : Nat} (positive : 1 ≤ seconds)
    (full : session.expiresAt = now + seconds * second) :
    ttlSeconds session now = seconds := by
  unfold ttlSeconds
  rw [full, Nat.add_sub_cancel_left, Nat.mul_div_cancel _ (by decide : 0 < second)]
  exact Nat.max_eq_right positive

theorem Short.finds (short : Short lifetime redis) (there : (redis.sets userId).isSome = true) :
    FindsIndex redis (.expire userId lifetime) := by
  intro id session deadline stored _owner
  exact ⟨there, short id session deadline stored⟩

theorem Short.prolong {given : Nat} (short : Short lifetime redis) :
    Short lifetime (redis.prolong userId given) := by
  intro id session deadline stored
  simp only [Expiring.Keyspace.prolong_strings, Expiring.Keyspace.prolong_clock] at stored ⊢
  exact short id session deadline stored

theorem Short.insert (short : Short lifetime redis) :
    Short lifetime (redis.insert userId id) := by
  intro other session deadline stored
  simp only [Expiring.Keyspace.insert_strings, Expiring.Keyspace.insert_clock] at stored ⊢
  exact short other session deadline stored

theorem set_prompt {seconds : Nat} (positive : 1 ≤ seconds)
    (full : session.expiresAt = redis.clock + seconds * second)
    (short : Short (seconds * second) redis) :
    Prompt settings hashOpaqueToken (seconds * second)
      (RedisSessionStore.set session) redis := by
  have given : seconds * second = ttlSeconds session (redis.elapse 0).clock * second :=
    congrArg (fun whole => whole * second) (ttlSeconds_full positive full).symm
  rw [given] at short ⊢
  have listed : Short _ (Expiring.Keyspace.insert _ session.userId session.sessionId) :=
    (((short.elapse 0).elapse 0).put session |>.elapse 0).insert
  constructor
  · refine ⟨trivial, trivial, trivial, ?_, trivial⟩
    exact (listed.elapse 0).finds Expiring.Keyspace.insert_stays
  · exact (listed.elapse 0).prolong

theorem touch_prompt {seconds : Nat} (positive : 1 ≤ seconds)
    (full : session.expiresAt = redis.clock + seconds * second)
    (indexed : Indexed none opened redis)
    (read : ReadFrom opened session redis)
    (short : Short (seconds * second) redis) :
    Prompt settings hashOpaqueToken (seconds * second)
      (RedisSessionStore.touch session) redis := by
  have given : seconds * second = ttlSeconds session (redis.elapse 0).clock * second :=
    congrArg (fun whole => whole * second) (ttlSeconds_full positive full).symm
  rw [given] at short ⊢
  let lasting := ttlSeconds session (redis.elapse 0).clock * second
  let reached := (redis.elapse 0).elapse 0
  have now : Short lasting reached := (short.elapse 0).elapse 0
  have covered := (indexed.elapse 0).elapse 0
  have owner := ((read.elapse 0).elapse 0).owner
  refine Prompt.ask trivial (Prompt.ask trivial ?_)
  show Prompt settings hashOpaqueToken lasting ((.done (Expiring.Keyspace.perform
      (.setXX session.sessionId session lasting : RedisCommand) reached).1 : RedisCall _) >>= _)
    (Expiring.Keyspace.perform
      (.setXX session.sessionId session lasting : RedisCommand) reached).2
  cases before : reached.strings session.sessionId with
  | none =>
    have refused : Expiring.Keyspace.perform
        (.setXX session.sessionId session lasting : RedisCommand) reached =
          (false, reached) := by
      simp [Expiring.Keyspace.perform, before]
    rw [refused]
    exact Prompt.done now
  | some stored =>
    have written : Expiring.Keyspace.perform
        (.setXX session.sessionId session lasting : RedisCommand) reached =
          (true, reached.put session.sessionId session lasting) := by
      simp [Expiring.Keyspace.perform, before]
    rw [written]
    have alive := (elapse_strings.mp before).2
    have outlasts : reached.Outlasts session.userId reached.clock := by
      rw [← owner stored.1 stored.2 before]
      exact (covered.outlasts _ stored.1 stored.2 nofun before).sooner alive
    obtain ⟨index, there, lasts⟩ := outlasts
    have stays : ((reached.put session.sessionId session lasting).elapse
        0).sets session.userId = some index :=
      elapse_sets.mpr ⟨there, lasts⟩
    refine Prompt.ask ?_ (Prompt.done ?_)
    · apply ((now.put session).elapse 0).finds
      rw [stays]
      rfl
    · exact ((now.put session).elapse 0).prolong

theorem login_prompt (userId : UserId) (ip userAgent : Option String)
    (previous : Option Plaintext) (token : Plaintext)
    (short : Short (redisAuth settings hashOpaqueToken).lifetime redis) :
    Prompt settings hashOpaqueToken (redisAuth settings hashOpaqueToken).lifetime
      ((redisAuth settings hashOpaqueToken).login userId ip userAgent previous
        token) redis := by
  have positive : 1 ≤ settings.sessionTtlSeconds := by
    have minute := settings.ttlAtLeastAMinute
    omega
  have rotated : Prompt settings hashOpaqueToken (redisAuth settings hashOpaqueToken).lifetime
      ((redisAuth settings hashOpaqueToken).rotate previous) redis :=
    Prompt.quiet (rotate_quiet previous) short
  apply rotated.bind
  let after := ((redisService settings hashOpaqueToken).alone []
    ((redisAuth settings hashOpaqueToken).rotate previous) redis).2.1
  have stored : Prompt settings hashOpaqueToken (redisAuth settings hashOpaqueToken).lifetime
      (RedisSessionStore.set
        ((redisAuth settings hashOpaqueToken).newSession userId ip userAgent
          token (after.elapse 0).clock)) (after.elapse 0) :=
    set_prompt positive rfl (rotated.short.elapse 0)
  refine Prompt.ask ?_ (stored.bind (Prompt.done stored.short))
  exact trivial

section

variable (sliding : settings.sessionSliding = true)

include sliding

theorem resolve_prompt (token : Plaintext) (indexed : Indexed none opened redis)
    (short : Short (redisAuth settings hashOpaqueToken).lifetime redis) :
    Prompt settings hashOpaqueToken (redisAuth settings hashOpaqueToken).lifetime
      ((redisAuth settings hashOpaqueToken).resolve token) redis := by
  have positive : 1 ≤ settings.sessionTtlSeconds := by
    have minute := settings.ttlAtLeastAMinute
    omega
  have found : Prompt settings hashOpaqueToken (redisAuth settings hashOpaqueToken).lifetime
      (RedisSessionStore.get (hashOpaqueToken token)) redis :=
    Prompt.quiet (get_quiet _) short
  obtain ⟨covered, copied⟩ :=
    Service.wp_sound (wp_get indexed) [] found.finds
  apply found.bind
  have still := found.short
  revert covered copied still
  generalize (redisService settings hashOpaqueToken).alone []
    (RedisSessionStore.get (hashOpaqueToken token)) redis = reached
  obtain ⟨raw, after, left⟩ := reached
  intro covered copied still
  cases raw with
  | none => exact Prompt.done still
  | some session =>
    have read := (copied session rfl).elapse 0
    have refreshed : ReadFrom opened ((redisAuth settings hashOpaqueToken).refresh
          (after.elapse 0).clock session) (after.elapse 0) :=
      ⟨read.opened, read.owner⟩
    have full : ((redisAuth settings hashOpaqueToken).refresh
        (after.elapse 0).clock session).expiresAt =
          (after.elapse 0).clock + settings.sessionTtlSeconds * second := by
      simp [SessionAuth.refresh, redisAuth, sliding, SessionAuth.lifetime]
    have touched : Prompt settings hashOpaqueToken (redisAuth settings hashOpaqueToken).lifetime
        (RedisSessionStore.touch _) (after.elapse 0) :=
      touch_prompt positive full (covered.elapse 0) refreshed (still.elapse 0)
    refine Prompt.ask trivial (touched.bind ?_)
    split
    · exact Prompt.done touched.short
    · exact Prompt.done touched.short

theorem program_prompt (request : Request) (indexed : Indexed none opened redis)
    (short : Short (redisAuth settings hashOpaqueToken).lifetime redis) :
    Prompt settings hashOpaqueToken (redisAuth settings hashOpaqueToken).lifetime
      ((redisService settings hashOpaqueToken).program request) redis := by
  cases request with
  | login userId ip userAgent previous token =>
    have opened := login_prompt userId ip userAgent previous token short
    exact opened.bind (Prompt.done opened.short)
  | resolve token =>
    have resolved := resolve_prompt sliding token indexed short
    exact resolved.bind (Prompt.done resolved.short)
  | revoke token =>
    have deleted : Prompt settings hashOpaqueToken (redisAuth settings hashOpaqueToken).lifetime
        (RedisSessionStore.delete (hashOpaqueToken token)) redis :=
      Prompt.quiet (delete_quiet _) short
    exact deleted.bind (Prompt.done deleted.short)
  | revokeAll userId =>
    have deleted : Prompt settings hashOpaqueToken (redisAuth settings hashOpaqueToken).lifetime
        (RedisSessionStore.deleteByUser userId) redis :=
      Prompt.quiet (deleteByUser_quiet userId) short
    exact deleted.bind (Prompt.done deleted.short)

theorem sliding_timely {schedule : List Activity} {start : History}
    (prompt : ∀ activity ∈ schedule, ∀ request waits,
      activity = .call request waits → waits = [])
    (indexed : Indexed none start.opened start.redis)
    (short : Short (redisAuth settings hashOpaqueToken).lifetime start.redis) :
    Runs.Meets (step settings hashOpaqueToken)
      (Timely settings hashOpaqueToken) start schedule := by
  induction schedule generalizing start with
  | nil => trivial
  | cons activity rest induction =>
    have later : ∀ activity ∈ rest, ∀ request waits,
        activity = .call request waits → waits = [] :=
      fun other member =>
        prompt other (List.mem_cons_of_mem _ member)
    cases activity with
    | elapse duration =>
      refine .cons trivial rfl (induction later ?_ ?_)
      · exact indexed.elapse duration
      · exact short.elapse duration
    | call request waits =>
      have immediate := prompt _ List.mem_cons_self request waits rfl
      subst immediate
      have served := program_prompt sliding request indexed short
      have timely : Timely settings hashOpaqueToken start (.call request []) := served.finds
      refine .cons timely rfl (induction later ?_ ?_)
      · exact indexed_step indexed timely rfl
      · exact served.short

end

end UserIndex

open UserIndex

/-- One login, a `resolve` ten seconds later, and a `revoke_all`. -/
def loggedOut : List Activity :=
  [.call (.login 1 none none none 7) [], .elapse (10 * second),
    .call (.resolve 7) [], .call (.revokeAll 1) []]

theorem index_covers_live_sessions_logged_out :
    ∃ final, Runs.exec (step slidingMinute id) (initial 0) loggedOut = some final ∧
      (answer slidingMinute id (.resolve 7) [] final.redis).1 = .resolved none := by
  have timely : Runs.Meets (step slidingMinute id) (Timely slidingMinute id)
      (initial 0) loggedOut := by
    apply sliding_timely rfl _ (Indexed.empty 0) (Short.empty _ 0)
    intro activity member request waits same
    subst same
    simp [loggedOut] at member
    rcases member with call | call | call <;> exact call.2
  have fresh : Runs.Meets (step slidingMinute id) (FreshToken id) (initial 0) loggedOut :=
    .cons nofun rfl (.cons trivial rfl (.cons nofun rfl (.cons nofun rfl trivial)))
  refine ⟨_, rfl, ?_⟩
  exact (index_covers_live_sessions timely rfl).2 fresh (loggedOut.take 3) 1
    [] [] _ rfl rfl 7 List.mem_cons_self 7 [] rfl

def fixedMinute : SessionSettings where
  sessionTtlSeconds := 60
  sessionSliding := false
  sessionRotateOnLogin := true
  ttlAtLeastAMinute := minute_allowed

/-- A user logs in twice, half a minute apart, and uses the older session. -/
def olderSessionUsed : List Activity :=
  [.call (.login 1 none none none 7) [], .elapse (30 * second),
    .call (.login 1 none none none 8) [], .elapse (25 * second),
    .call (.resolve 7) []]

theorem index_expires_before_session : ¬ ∀ (settings : SessionSettings)
        (hashOpaqueToken : Plaintext → SessionHash) (clock : Nat)
        (schedule : List Activity) (final : History),
      Runs.exec (step settings hashOpaqueToken) (initial clock) schedule = some final →
        ∀ id session deadline, final.redis.strings id = some (session, deadline) →
            final.redis.Lists session.userId id ∧
              final.redis.Outlasts session.userId deadline := by
  intro covers
  obtain ⟨_listed, index, found, lasts⟩ :=
    covers fixedMinute id 0 olderSessionUsed _ rfl 8 _ _ rfl
  cases found
  revert lasts
  decide

end TempestSdk.Sessions
