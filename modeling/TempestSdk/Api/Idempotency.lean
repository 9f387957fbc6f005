import Mathlib.Logic.Function.Basic
import TempestSdk.Library.AsyncLock
import TempestSdk.Library.PyDict
import TempestSdk.Library.Runs

/-!
# Idempotent requests

`IdempotencyMiddleware` in one process: the requests that carry an idempotency
key, the locks by cache key, and the store of responses.  A step runs one
request from a point where it waits to the next: up to the lock, from the lock
to the store, from the store to the handler, and from the handler's end to the
release of the lock.  The dictionary of locks is read and changed without
waiting, so its guard is never contended.
-/

namespace TempestSdk.Idempotency

open AsyncLock (Lock)

/-- The bytes of a text or a body, of which there are fewer than `2 ^ 63`. -/
abbrev Bytes := { bytes : List UInt8 // bytes.length < 2 ^ 63 }

structure Request where
  method : String
  path : String
  query : String
  body : Bytes
  key : Option String
  principal : String
  sized : ∀ text ∈ [method, path, query], text.utf8ByteSize < 2 ^ 63 := by
    decide
deriving DecidableEq

inductive Content where
  | bytes (body : List UInt8)
  | error (detail code : String)
deriving DecidableEq

structure Response where
  status_code : Nat
  headers : List (String × String)
  body : Content
  media_type : Option String
deriving DecidableEq

structure CachedResponse where
  status_code : Nat
  headers : List (String × String)
  body : Content
  media_type : Option String
  fingerprint : String
deriving DecidableEq

structure Config where
  header_name : String
  cache_server_errors : Bool
  allow_anonymous : Bool
  requestFingerprint : Request → String
  isUnboundedStream : Response → Bool
  /-- What Starlette's `Response` adds to the headers that it is given. -/
  defaultHeaders : Response → List (String × String)

def mutatingMethods : List String := ["POST", "PUT", "PATCH", "DELETE"]

def unreplayableHeaders : List String := ["set-cookie"]

def cacheKey (config : Config) (request : Request) : Option String :=
  if request.method ∉ mutatingMethods then none
  else match request.key with
    | none => none
    | some key =>
      if key = "" then none
      else if request.principal = "" ∧ config.allow_anonymous = false then
        none
      else
        some (request.principal ++ ":" ++ request.method ++ ":" ++ request.path ++ ":" ++ key)

/-- Starlette's `Response` with the given headers. -/
def Config.build (config : Config) (given : Response) : Response :=
  { given with
    headers := given.headers.map (fun header => (header.1.toLower, header.2)) ++
      config.defaultHeaders given }

def keyReused (config : Config) : Response :=
  config.build
    { status_code := 422
      headers := []
      body := .error (config.header_name ++ " was already used for a different request")
        "IDEMPOTENCY_KEY_REUSED"
      media_type := some "application/json" }

def replay (config : Config) (cached : CachedResponse) (fingerprint : String) :
    Response :=
  if cached.fingerprint ≠ fingerprint then keyReused config
  else config.build
    { status_code := cached.status_code
      headers := PyDict.ofPairs cached.headers
      body := cached.body
      media_type := cached.media_type }

def rebuilt (config : Config) (response : Response) : Response :=
  config.build { response with headers := PyDict.ofPairs response.headers }

def cachedResponse (response : Response) (fingerprint : String) : CachedResponse where
  status_code := response.status_code
  headers := response.headers.filter fun header =>
    header.1.toLower ∉ unreplayableHeaders
  body := response.body
  media_type := response.media_type
  fingerprint := fingerprint

def cacheable (config : Config) (response : Response) : Bool :=
  config.cache_server_errors || response.status_code < 500

inductive Phase where
  /-- Waiting in `lock.acquire`. -/
  | acquiring
  /-- In `store.get`, with the lock. -/
  | reading
  /-- In `call_next`, with the lock. -/
  | handling
  /-- In `store.set`, with the lock. -/
  | storing (response : Response)
  | answered (response : Response)
  | raised
deriving DecidableEq

structure Task where
  cacheKey : String
  fingerprint : String
  lock : Nat
  phase : Phase

structure State where
  /-- `_locks`. -/
  locks : String → Option Nat
  objects : Nat → Lock Nat
  created : Nat
  tasks : Nat → Option Task
  store : String → Option CachedResponse

def initial : State where
  locks := fun _ => none
  objects := fun _ => Lock.new
  created := 0
  tasks := fun _ => none
  store := fun _ => none

namespace State

def setLock (state : State) (lock : Nat) (object : Lock Nat) : State :=
  { state with objects := Function.update state.objects lock object }

def setTask (state : State) (id : Nat) (task : Task) : State :=
  { state with tasks := Function.update state.tasks id (some task) }

end State

/-- `_lock_for`: the registered lock, or a new one. -/
def lockFor (state : State) (key : String) : State × Nat :=
  match state.locks key with
  | some lock => (state, lock)
  | none =>
    ({ state with
        locks := Function.update state.locks key (some state.created)
        created := state.created + 1 },
      state.created)

/-- `_release_lock`: the registered lock is dropped when it is free. -/
def releaseLock (state : State) (key : String) : State :=
  match state.locks key with
  | none => state
  | some lock =>
    if (state.objects lock).locked then state
    else { state with locks := Function.update state.locks key none }

/-- `dispatch` up to the point where it waits for the lock or for the store. -/
def arrive (state : State) (id : Nat) (key fingerprint : String) : State :=
  let (found, lock) := lockFor state key
  let object := found.objects lock
  if object.ready then
    (found.setLock lock object.take).setTask id
      { cacheKey := key, fingerprint, lock, phase := .reading }
  else
    (found.setLock lock (object.enqueue id)).setTask id
      { cacheKey := key, fingerprint, lock, phase := .acquiring }

/-- The lock is released, and `finally` drops it. -/
def leave (state : State) (id : Nat) (task : Task) (phase : Phase) : State :=
  let released := state.setLock task.lock (state.objects task.lock).release
  (releaseLock released task.cacheKey).setTask id { task with phase }

/-- A cancelled waiter never had the lock, but its `finally` runs. -/
def abandon (state : State) (id : Nat) (task : Task) : State :=
  let left := state.setLock task.lock ((state.objects task.lock).abandon id)
  (releaseLock left task.cacheKey).setTask id { task with phase := .raised }

inductive Event where
  /-- Its place in the line of the lock was woken or cancelled. -/
  | resume
  | cancel
  /-- `store.get` answers. -/
  | read
  | handled (response : Response)
  /-- `store.set` is done. -/
  | stored
  | fail

inductive Action where
  | arrive (id : Nat) (request : Request)
  | run (id : Nat) (event : Event)
  /-- The stored response of the key is past its time to live. -/
  | expire (key : String)

def resume (state : State) (id : Nat) (task : Task) : Option State :=
  match (state.objects task.lock).statusOf id with
  | some .woken =>
    let object := (state.objects task.lock).resume id
    some ((state.setLock task.lock object).setTask id { task with phase := .reading })
  | some .cancelled | some .interrupted => some (abandon state id task)
  | some .pending | none => none

def read (config : Config) (state : State) (id : Nat) (task : Task) : State :=
  match state.store task.cacheKey with
  | some cached => leave state id task (.answered (replay config cached task.fingerprint))
  | none => state.setTask id { task with phase := .handling }

def handled (config : Config) (state : State) (id : Nat) (task : Task)
    (response : Response) : State :=
  if config.isUnboundedStream response then
    leave state id task (.answered response)
  else if cacheable config response then
    state.setTask id { task with phase := .storing response }
  else leave state id task (.answered (rebuilt config response))

def stored (config : Config) (state : State) (id : Nat) (task : Task)
    (response : Response) : State :=
  let cached := cachedResponse response task.fingerprint
  leave { state with
      store := Function.update state.store task.cacheKey (some cached) }
    id task (.answered (rebuilt config response))

def act (config : Config) (state : State) (id : Nat) (task : Task) :
    Phase → Event → Option State
  | .acquiring, .resume => resume state id task
  | .acquiring, .cancel =>
    let object := (state.objects task.lock).cancel id
    some (state.setLock task.lock object)
  | .reading, .read => some (read config state id task)
  | .handling, .handled response => some (handled config state id task response)
  | .storing response, .stored => some (stored config state id task response)
  | .reading, .fail | .handling, .fail | .storing _, .fail => some (leave state id task .raised)
  | _, _ => none

def step (config : Config) (state : State) : Action → Option State
  | .arrive id request =>
    match state.tasks id, cacheKey config request with
    | some _, _ => none
    | none, none => some state
    | none, some key => some (arrive state id key (config.requestFingerprint request))
  | .run id event =>
    (state.tasks id).bind fun task =>
      act config state id task task.phase event
  | .expire key => some { state with store := Function.update state.store key none }

end TempestSdk.Idempotency
