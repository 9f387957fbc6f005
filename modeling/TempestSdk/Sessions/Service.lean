import TempestSdk.Sessions.Store

/-!
# `SessionAuth`

The service over any store that has `touch`.  `hashOpaqueToken` is the hash of
a cookie value; the random half of `generate_opaque_token` is the token a
login is given.
-/

namespace TempestSdk.Sessions

open Calls

structure SessionAuth {Command : Type} (Answer : Command → Type)
    (Handle : Type) where
  settings : SessionSettings
  store : SessionStore Answer Handle
  hashOpaqueToken : Plaintext → SessionHash

inductive Request where
  | login (userId : UserId) (ip userAgent : Option String)
      (previousSessionId : Option Plaintext) (token : Plaintext)
  | resolve (token : Plaintext)
  | revoke (token : Plaintext)
  | revokeAll (userId : UserId)

inductive Outcome where
  | opened (session : Session) (token : Plaintext)
  | resolved (session : Option Session)
  | revoked
  | revokedAll (count : Nat)
deriving DecidableEq

namespace SessionAuth

variable {Command : Type} {Answer : Command → Type} {Handle : Type}
  (auth : SessionAuth Answer Handle)

def lifetime : Nat := auth.settings.sessionTtlSeconds * second

def revoke (token : Plaintext) : Call Answer Unit :=
  auth.store.delete (auth.hashOpaqueToken token)

/-- The part of `login` that revokes the session it replaces. -/
def rotate : Option Plaintext → Call Answer Unit
  | some previousSessionId =>
    if auth.settings.sessionRotateOnLogin then
      auth.revoke previousSessionId
    else pure ()
  | none => pure ()

def newSession (userId : UserId) (ip userAgent : Option String)
    (token : Plaintext) (now : Nat) : Session where
  sessionId := auth.hashOpaqueToken token
  userId := userId
  createdAt := now
  expiresAt := now + auth.lifetime
  lastSeenAt := now
  ip := ip
  userAgent := userAgent
  data := []
  amr := []

def login (userId : UserId) (ip userAgent : Option String)
    (previousSessionId : Option Plaintext) (token : Plaintext) :
    Call Answer (Session × Plaintext) := do
  auth.rotate previousSessionId
  let now ← auth.store.utcnow
  let session := auth.newSession userId ip userAgent token now
  auth.store.set session
  pure (session, token)

/-- What `resolve` assigns to the session it read. -/
def refresh (now : Nat) (session : Session) : Session :=
  { session with
    lastSeenAt := now
    expiresAt :=
      if auth.settings.sessionSliding then now + auth.lifetime
      else session.expiresAt }

def resolve (token : Plaintext) : Call Answer (Option Session) := do
  let found ← auth.store.get (auth.hashOpaqueToken token)
  match found with
  | none => pure none
  | some session => do
      let now ← auth.store.utcnow
      let refreshed ← auth.store.assign session (auth.refresh now)
      let touched ← auth.store.touch refreshed
      if touched then auth.store.read refreshed else pure none

def revokeAll (userId : UserId) : Call Answer Nat :=
  auth.store.deleteByUser userId

def program : Request → Call Answer Outcome
  | .login userId ip userAgent previousSessionId token => do
      let opened ← auth.login userId ip userAgent previousSessionId token
      pure (.opened opened.1 opened.2)
  | .resolve token => do
      let session ← auth.resolve token
      pure (.resolved session)
  | .revoke token => do
      auth.revoke token
      pure .revoked
  | .revokeAll userId => do
      let count ← auth.revokeAll userId
      pure (.revokedAll count)

end SessionAuth

/-- The service over `RedisSessionStore`. -/
def redisAuth (settings : SessionSettings) (hashOpaqueToken : Plaintext → SessionHash) :
    SessionAuth RedisAnswer Session where
  settings := settings
  store := RedisSessionStore.store
  hashOpaqueToken := hashOpaqueToken

/-- The service over `MemorySessionStore`. -/
def memoryAuth (settings : SessionSettings) (hashOpaqueToken : Plaintext → SessionHash) :
    SessionAuth MemoryAnswer Reference where
  settings := settings
  store := MemorySessionStore.store
  hashOpaqueToken := hashOpaqueToken

def redisService (settings : SessionSettings) (hashOpaqueToken : Plaintext → SessionHash) :
    Service Redis Request RedisAnswer Outcome where
  perform := Expiring.Keyspace.perform
  elapse := Expiring.Keyspace.elapse
  program := (redisAuth settings hashOpaqueToken).program

def memoryService (settings : SessionSettings) (hashOpaqueToken : Plaintext → SessionHash) :
    Service Memory Request MemoryAnswer Outcome where
  perform := Memory.perform
  elapse := Memory.elapse
  program := (memoryAuth settings hashOpaqueToken).program

end TempestSdk.Sessions
