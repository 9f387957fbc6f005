import TempestSdk.Db.Transaction
import TempestSdk.Library.Calls
import TempestSdk.Library.Expiring

/-!
# Server-side sessions

`SessionAuth` opens, refreshes and revokes sessions through a `SessionStore`.
A method of either is a call: the commands it sends to the store, in the order
the source awaits them, with the clock readings among them.

`RedisSessionStore` sends single Redis commands.  `MemorySessionStore` holds
its lock for a whole method, so a method is one command there; its `get` hands
out the stored object itself, which `resolve` then assigns to.
-/

namespace TempestSdk.Sessions

open Calls
open Calls.Call (issue)

/-- A session is stored under the hash of the cookie value. -/
abbrev SessionHash := Nat

abbrev Plaintext := Nat

def second : Nat := 1000000

structure Session where
  sessionId : SessionHash
  userId : UserId
  createdAt : Nat
  expiresAt : Nat
  lastSeenAt : Nat
  ip : Option String
  userAgent : Option String
  data : List (String × String)
  amr : List String
deriving DecidableEq

structure SessionSettings where
  sessionTtlSeconds : Nat
  sessionSliding : Bool
  sessionRotateOnLogin : Bool
  ttlAtLeastAMinute : 60 ≤ sessionTtlSeconds

theorem minute_allowed : 60 ≤ 60 := Nat.le_refl _

def isExpired (session : Session) (now : Nat) : Bool :=
  decide (session.expiresAt < now)

/-- `_ttl_seconds`: whole seconds left, at least one. -/
def ttlSeconds (session : Session) (now : Nat) : Nat :=
  max 1 ((session.expiresAt - now) / second)

/-- The protocol.  A store hands out objects (`Handle`); `assign` is an
assignment to the attributes of one, `read` what its attributes are. -/
structure SessionStore {Command : Type} (Answer : Command → Type)
    (Handle : Type) where
  utcnow : Call Answer Nat
  get : SessionHash → Call Answer (Option Handle)
  set : Session → Call Answer Unit
  touch : Handle → Call Answer Bool
  delete : SessionHash → Call Answer Unit
  deleteByUser : UserId → Call Answer Nat
  assign : Handle → (Session → Session) → Call Answer Handle
  read : Handle → Call Answer (Option Session)

abbrev RedisCommand :=
  Expiring.Command SessionHash Session UserId SessionHash

abbrev RedisAnswer : RedisCommand → Type := Expiring.Answer

abbrev RedisCall (Result : Type) := Call RedisAnswer Result

abbrev Redis := Expiring.Keyspace SessionHash Session UserId SessionHash

namespace RedisSessionStore

abbrev client (command : RedisCommand) : RedisCall (RedisAnswer command) :=
  issue command

def utcnow : RedisCall Nat := client .time

/-- The part of `delete` that takes the session out of its owner's index. -/
def unlist (sessionId : SessionHash) : Option Session → RedisCall Unit
  | some payload => client (.srem payload.userId sessionId)
  | none => pure ()

def delete (sessionId : SessionHash) : RedisCall Unit := do
  let raw ← client (.get sessionId)
  unlist sessionId raw
  client (.del [sessionId])

def get (sessionId : SessionHash) : RedisCall (Option Session) := do
  let raw ← client (.get sessionId)
  match raw with
  | none => pure none
  | some session => do
      let now ← utcnow
      if isExpired session now then do
        delete sessionId
        pure none
      else pure (some session)

def set (session : Session) : RedisCall Unit := do
  let now ← utcnow
  let lifetime := ttlSeconds session now * second
  client (.set session.sessionId session lifetime)
  client (.sadd session.userId session.sessionId)
  client (.expire session.userId lifetime)

/-- `SET … XX`, then the `EXPIRE` of the index when the key was there. -/
def touch (session : Session) : RedisCall Bool := do
  let now ← utcnow
  let lifetime := ttlSeconds session now * second
  let written ← client (.setXX session.sessionId session lifetime)
  if written then do
    client (.expire session.userId lifetime)
    pure true
  else pure false

/-- The part of `delete_by_user` that deletes the sessions it has read. -/
def deleteSessions (decoded : List SessionHash) : RedisCall Unit :=
  if decoded = [] then pure () else client (.del decoded)

def deleteByUser (userId : UserId) : RedisCall Nat := do
  let decoded ← client (.smembers userId)
  deleteSessions decoded
  client (.delSet userId)
  pure decoded.length

def store : SessionStore RedisAnswer Session where
  utcnow := utcnow
  get := get
  set := set
  touch := touch
  delete := delete
  deleteByUser := deleteByUser
  assign session change := pure (change session)
  read session := pure (some session)

end RedisSessionStore

abbrev Reference := Nat

structure Memory where
  clock : Nat
  objects : List Session
  sessions : SessionHash → Option Reference
  byUser : UserId → Option (List SessionHash)

inductive MemoryCommand where
  | time
  | get (sessionId : SessionHash)
  | set (session : Session)
  | touch (object : Reference)
  | delete (sessionId : SessionHash)
  | deleteByUser (userId : UserId)
  | assign (object : Reference) (change : Session → Session)
  | read (object : Reference)

@[reducible] def MemoryAnswer : MemoryCommand → Type
  | .time => Nat
  | .get _ => Option Reference
  | .touch _ => Bool
  | .deleteByUser _ => Nat
  | .read _ => Option Session
  | _ => Unit

namespace Memory

def empty (clock : Nat) : Memory where
  clock := clock
  objects := []
  sessions := fun _ => none
  byUser := fun _ => none

def stored (memory : Memory) (sessionId : SessionHash) : Option Session :=
  (memory.sessions sessionId).bind fun object => memory.objects[object]?

def forget (memory : Memory) (sessionId : SessionHash) : Memory :=
  { memory with sessions := Function.update memory.sessions sessionId none }

/-- `self._by_user.get(user_id, set()).discard(session_id)`. -/
def discard (memory : Memory) (userId : UserId) (sessionId : SessionHash) : Memory :=
  { memory with
    byUser := Function.update memory.byUser userId ((memory.byUser userId).map fun ids =>
        ids.filter fun other => decide (other ≠ sessionId)) }

/-- `if not self._by_user.get(user_id): self._by_user.pop(user_id, None)`. -/
def prune (memory : Memory) (userId : UserId) : Memory :=
  match memory.byUser userId with
  | some (_ :: _) => memory
  | _ => { memory with byUser := Function.update memory.byUser userId none }

/-- `_evict_locked`, and `delete` once it found the session. -/
def evict (memory : Memory) (session : Session) : Memory :=
  ((memory.forget session.sessionId).discard session.userId
    session.sessionId).prune session.userId

def get (memory : Memory) (sessionId : SessionHash) : Option Reference × Memory :=
  match memory.sessions sessionId, memory.stored sessionId with
  | some object, some session =>
    if isExpired session memory.clock then (none, memory.evict session)
    else (some object, memory)
  | _, _ => (none, memory)

/-- The part of `set` for an id that changes hands. -/
def rehome (memory : Memory) (session : Session) : Memory :=
  match memory.stored session.sessionId with
  | some existing =>
    if existing.userId = session.userId then memory
    else memory.discard existing.userId session.sessionId
  | none => memory

def set (memory : Memory) (session : Session) : Memory :=
  let cleared := memory.rehome session
  { cleared with
    objects := cleared.objects ++ [session]
    sessions := Function.update cleared.sessions session.sessionId (some cleared.objects.length)
    byUser := Function.update cleared.byUser session.userId
      (some (((cleared.byUser session.userId).getD []).insert session.sessionId)) }

def touch (memory : Memory) (object : Reference) : Bool × Memory :=
  match memory.objects[object]? with
  | none => (false, memory)
  | some session =>
    match memory.stored session.sessionId with
    | none => (false, memory)
    | some existing =>
      if existing.userId = session.userId then
        (true, { memory with
          sessions := Function.update memory.sessions session.sessionId (some object) })
      else (false, memory)

def delete (memory : Memory) (sessionId : SessionHash) : Memory :=
  match memory.stored sessionId with
  | none => memory.forget sessionId
  | some session =>
    ((memory.forget sessionId).discard session.userId sessionId).prune session.userId

def deleteByUser (memory : Memory) (userId : UserId) : Nat × Memory :=
  let ids := (memory.byUser userId).getD []
  (ids.length, { memory with
      byUser := Function.update memory.byUser userId none
      sessions := fun id => if id ∈ ids then none else memory.sessions id })

def assign (memory : Memory) (object : Reference) (change : Session → Session) : Memory :=
  { memory with objects := memory.objects.modify object change }

def elapse (duration : Nat) (memory : Memory) : Memory :=
  { memory with clock := memory.clock + duration }

def perform : (command : MemoryCommand) → Memory → MemoryAnswer command × Memory
  | .time, memory => (memory.clock, memory)
  | .get sessionId, memory => memory.get sessionId
  | .set session, memory => ((), memory.set session)
  | .touch object, memory => memory.touch object
  | .delete sessionId, memory => ((), memory.delete sessionId)
  | .deleteByUser userId, memory => memory.deleteByUser userId
  | .assign object change, memory => ((), memory.assign object change)
  | .read object, memory => (memory.objects[object]?, memory)

end Memory

abbrev MemoryCall (Result : Type) := Call MemoryAnswer Result

namespace MemorySessionStore

abbrev locked (command : MemoryCommand) : MemoryCall (MemoryAnswer command) :=
  issue command

def store : SessionStore MemoryAnswer Reference where
  utcnow := locked .time
  get sessionId := locked (.get sessionId)
  set session := locked (.set session)
  touch object := locked (.touch object)
  delete sessionId := locked (.delete sessionId)
  deleteByUser userId := locked (.deleteByUser userId)
  assign object change := do
    locked (.assign object change)
    pure object
  read object := locked (.read object)

end MemorySessionStore

end TempestSdk.Sessions
