import TempestSdk.Library.PyDict

/-!
# WebAuthn ceremonies

`WebAuthnService` with any number of requests in flight.  A method is cut where
it awaits the database, so that what it has read may be out of date when it
writes; its transaction commits right after the flush, and until then the lock
on the row keeps other writers out and readers see the row as it was.  What
`fido2` verifies is a parameter.
-/

namespace TempestSdk.WebAuthn

abbrev Bytes := List UInt8

abbrev UserId := Nat

/-- `WebAuthnChallengeStore`: it holds at most what was put, and an id that was
popped only when it is put again. -/
structure ChallengeStore (State : Type) where
  Store : Type
  empty : Store
  /-- `put(challenge_id, state, ttl)` at a time. -/
  put : Nat → Store → String → State → Nat → Store
  /-- `pop(challenge_id)` at a time. -/
  pop : Nat → Store → String → Option State × Store
  holds : Store → String → Bool
  holds_empty : ∀ challenge_id, holds empty challenge_id = false
  holds_put : ∀ now states challenge_id state ttl other,
    holds (put now states challenge_id state ttl) other = true →
      other = challenge_id ∨ holds states other = true
  holds_of_pop : ∀ now states challenge_id state,
    (pop now states challenge_id).1 = some state → holds states challenge_id = true
  holds_pop : ∀ now states challenge_id other,
    holds (pop now states challenge_id).2 other = true →
      other ≠ challenge_id ∧ holds states other = true

variable {State Response : Type}

abbrev States (State : Type) := List (String × State × Nat)

namespace States

def holds (entries : States State) (key : String) : Bool :=
  decide (key ∈ entries.map Prod.fst)

def erase (entries : States State) (key : String) : States State :=
  entries.filter fun entry => entry.1 ≠ key

def pop (now : Nat) (entries : States State) (key : String) : Option State × States State :=
  match entries.find? fun entry => entry.1 = key with
  | none => (none, entries)
  | some (_, state, expires_at) =>
    (if expires_at ≤ now then none else some state, entries.erase key)

theorem holds_iff {entries : States State} {key : String} :
    entries.holds key = true ↔ key ∈ entries.map Prod.fst := by
  unfold holds
  rw [decide_eq_true_eq]

theorem holds_set {entries : States State} {key other : String} {value : State × Nat}
    (held : holds (PyDict.set entries key value) other = true) :
    other = key ∨ entries.holds other = true := by
  rcases PyDict.mem_keys_set.mp ((holds_iff).mp held) with known | rfl
  · exact .inr ((holds_iff).mpr known)
  · exact .inl rfl

theorem holds_filter {entries : States State} {key : String}
    {kept : String × State × Nat → Bool}
    (held : holds (entries.filter kept) key = true) :
    entries.holds key = true := by
  obtain ⟨entry, member, rfl⟩ := List.mem_map.mp ((holds_iff).mp held)
  exact (holds_iff).mpr (List.mem_map_of_mem (List.mem_filter.mp member).1)

theorem holds_of_pop (now : Nat) (entries : States State) (key : String)
    (state : State) (popped : (pop now entries key).1 = some state) :
    entries.holds key = true := by
  unfold pop at popped
  split at popped
  next => cases popped
  next found =>
    have here := List.find?_some found
    have member := List.mem_of_find?_eq_some found
    rw [decide_eq_true_eq] at here
    exact (holds_iff).mpr (here ▸ List.mem_map_of_mem member)

theorem holds_pop (now : Nat) (entries : States State) (key other : String)
    (held : holds (pop now entries key).2 other = true) :
    other ≠ key ∧ entries.holds other = true := by
  unfold pop at held
  split at held
  next absent =>
    refine ⟨?_, held⟩
    rintro rfl
    obtain ⟨entry, member, here⟩ := List.mem_map.mp ((holds_iff).mp held)
    have missing := List.find?_eq_none.mp absent entry member
    exact missing (decide_eq_true here)
  next =>
    refine ⟨?_, holds_filter held⟩
    rintro rfl
    obtain ⟨entry, member, here⟩ := List.mem_map.mp ((holds_iff).mp held)
    have kept := (List.mem_filter.mp member).2
    exact absurd here (of_decide_eq_true kept)

end States

namespace MemoryWebAuthnChallengeStore

/-- `put` drops what has expired. -/
def put (now : Nat) (states : States State) (challenge_id : String)
    (state : State) (ttl : Nat) : States State :=
  PyDict.set (states.filter fun entry => ¬entry.2.2 ≤ now) challenge_id (state, now + ttl)

theorem holds_empty (challenge_id : String) :
    States.holds ([] : States State) challenge_id = false := rfl

theorem holds_put (now : Nat) (states : States State)
    (challenge_id : String) (state : State) (ttl : Nat) (other : String)
    (held : (put now states challenge_id state ttl).holds other = true) :
    other = challenge_id ∨ states.holds other = true := by
  rcases States.holds_set held with same | kept
  · exact .inl same
  · exact .inr (States.holds_filter kept)

end MemoryWebAuthnChallengeStore

def MemoryWebAuthnChallengeStore : ChallengeStore State where
  Store := States State
  empty := []
  put := MemoryWebAuthnChallengeStore.put
  pop := States.pop
  holds := States.holds
  holds_empty := MemoryWebAuthnChallengeStore.holds_empty
  holds_put := MemoryWebAuthnChallengeStore.holds_put
  holds_of_pop := States.holds_of_pop
  holds_pop := States.holds_pop

namespace RedisWebAuthnChallengeStore

variable (namespace_ : String)

def key (challenge_id : String) : String :=
  namespace_ ++ ":" ++ challenge_id

theorem key_injective {first second : String}
    (same : key namespace_ first = key namespace_ second) : first = second :=
  (String.append_right_inj _).mp same

/-- `SET` with `EX`. -/
def put (now : Nat) (states : States State) (challenge_id : String)
    (state : State) (ttl : Nat) : States State :=
  PyDict.set states (key namespace_ challenge_id) (state, now + ttl)

/-- `GETDEL`. -/
def pop (now : Nat) (states : States State) (challenge_id : String) :
    Option State × States State :=
  states.pop now (key namespace_ challenge_id)

def holds (states : States State) (challenge_id : String) : Bool :=
  states.holds (key namespace_ challenge_id)

theorem holds_empty (challenge_id : String) :
    holds namespace_ ([] : States State) challenge_id = false := rfl

theorem holds_put (now : Nat) (states : States State)
    (challenge_id : String) (state : State) (ttl : Nat) (other : String)
    (held : holds namespace_ (put namespace_ now states challenge_id state ttl) other = true) :
    other = challenge_id ∨ holds namespace_ states other = true := by
  rcases States.holds_set held with same | kept
  · exact .inl (key_injective namespace_ same)
  · exact .inr kept

theorem holds_of_pop (now : Nat) (states : States State) (challenge_id : String) (state : State)
    (popped : (pop namespace_ now states challenge_id).1 = some state) :
    holds namespace_ states challenge_id = true :=
  States.holds_of_pop _ _ _ _ popped

theorem holds_pop (now : Nat) (states : States State) (challenge_id other : String)
    (held : holds namespace_ (pop namespace_ now states challenge_id).2 other = true) :
    other ≠ challenge_id ∧ holds namespace_ states other = true := by
  obtain ⟨different, kept⟩ := States.holds_pop _ _ _ _ held
  exact ⟨fun same => different (congrArg (key namespace_) same), kept⟩

end RedisWebAuthnChallengeStore

def RedisWebAuthnChallengeStore (namespace_ : String) : ChallengeStore State where
  Store := States State
  empty := []
  put := RedisWebAuthnChallengeStore.put namespace_
  pop := RedisWebAuthnChallengeStore.pop namespace_
  holds := RedisWebAuthnChallengeStore.holds namespace_
  holds_empty := RedisWebAuthnChallengeStore.holds_empty namespace_
  holds_put := RedisWebAuthnChallengeStore.holds_put namespace_
  holds_of_pop := RedisWebAuthnChallengeStore.holds_of_pop namespace_
  holds_pop := RedisWebAuthnChallengeStore.holds_pop namespace_

structure AttestedCredentialData where
  credential_id : Bytes
  /-- `bytes(credential)`. -/
  encoded : Bytes
deriving DecidableEq

/-- `AuthenticatorData` of a registration. -/
structure AuthenticatorData where
  credential_data : Option AttestedCredentialData
  counter : Nat
deriving DecidableEq

/-- `AuthenticationResponse`, with the counter of its authenticator data. -/
structure AuthenticationResponse where
  raw_id : Bytes
  counter : Nat
deriving DecidableEq

/-- What the service uses of `fido2`.  A response that does not parse or does
not verify raises. -/
structure Fido2Server (State Response : Type) where
  register_complete : State → Response → Option AuthenticatorData
  from_dict : Response → Option AuthenticationResponse
  authenticate_complete : State → Bytes → AuthenticationResponse → Bool

inductive CeremonyError where
  /-- `UnauthorizedException`. -/
  | unauthorized (message : String)
  /-- `ValidationException`. -/
  | validation (message : String)
  /-- The database refuses the write, or the request is cancelled. -/
  | interrupted
deriving DecidableEq

structure User where
  is_active : Bool
deriving DecidableEq

/-- A row of the credential table.  `reported` is not in the table: the
counters the row was registered and used with, the last one first. -/
structure Credential where
  user_id : UserId
  credential_id : Bytes
  credential_data : Bytes
  sign_count : Nat
  deleted : Bool
  reported : List Nat
deriving DecidableEq

/-- Where a request awaits something, after its challenge was popped. -/
inductive Phase (State : Type) where
  | finding (state : State) (parsed : AuthenticationResponse)
  /-- The account of the row; the counter of the row was read, and that of the
  assertion was accepted. -/
  | identifying (place : Nat) (read : Credential) (counter : Nat)
  | flushing (place : Nat) (read : Credential) (counter : Nat)
  | comparing (user_id : UserId) (credential : AttestedCredentialData)
      (counter : Nat)
  | inserting (user_id : UserId) (credential : AttestedCredentialData)
      (counter : Nat)
  | completed
  | failed (error : CeremonyError)

structure Request (State : Type) where
  challenge_id : String
  phase : Phase State

structure WebAuthnService (State Response : Type) where
  server : Fido2Server State Response
  challenge_store : ChallengeStore State
  /-- `AUTH_WEBAUTHN_CHALLENGE_TTL_SECONDS`. -/
  ttl : Nat

/-- The store, the tables and the requests of a service.  `drawn` lists the
challenge ids that were drawn. -/
structure Ceremonies (service : WebAuthnService State Response) where
  now : Nat
  challenges : service.challenge_store.Store
  users : UserId → Option User
  credentials : List Credential
  requests : List (Request State)
  drawn : List String

inductive Action (State Response : Type) where
  | elapse (seconds : Nat)
  | change_user (user_id : UserId) (user : Option User)
  /-- The end of `register_begin` and of `authenticate_begin`: `fido2` made the
  state, `secrets` drew the id. -/
  | store_state (challenge_id : String) (state : State)
  | register_complete (user_id : UserId) (challenge_id : String)
      (response : Response)
  | authenticate_complete (challenge_id : String) (response : Response)
  /-- A request gets what it awaits and goes on to where it awaits again. -/
  | resume (request : Nat)
  | interrupt (request : Nat)
  | delete_credential (user_id : UserId) (credential_id : Bytes)

namespace Ceremonies

variable {service : WebAuthnService State Response}
  (ceremonies : Ceremonies service)

def initial : Ceremonies service where
  now := 0
  challenges := service.challenge_store.empty
  users := fun _ => none
  credentials := []
  requests := []
  drawn := []

def store_state (challenge_id : String) (state : State) : Ceremonies service :=
  { ceremonies with
    challenges := service.challenge_store.put ceremonies.now
      ceremonies.challenges challenge_id state service.ttl
    drawn := challenge_id :: ceremonies.drawn }

/-- `_pop_state`, at the start of a request that goes on from there. -/
def pop_state (challenge_id : String) (goesOn : State → Phase State) : Ceremonies service :=
  let popped := service.challenge_store.pop ceremonies.now ceremonies.challenges challenge_id
  { ceremonies with
    challenges := popped.2
    requests := ceremonies.requests ++ [⟨challenge_id, match popped.1 with
      | none => .failed (.unauthorized "WebAuthn challenge is unknown or expired")
      | some state => goesOn state⟩] }

/-- `register_complete` up to its first query. -/
def registered (service : WebAuthnService State Response) (user_id : UserId)
    (response : Response) (state : State) : Phase State :=
  match service.server.register_complete state response with
  | none => .failed (.unauthorized "invalid WebAuthn registration")
  | some auth_data =>
    match auth_data.credential_data with
    | none => .failed (.unauthorized "invalid WebAuthn registration")
    | some credential => .comparing user_id credential auth_data.counter

/-- `authenticate_complete` up to its first query. -/
def authenticated (service : WebAuthnService State Response)
    (response : Response) (state : State) : Phase State :=
  match service.server.from_dict response with
  | none => .failed (.unauthorized "invalid WebAuthn assertion")
  | some parsed => .finding state parsed

/-- `_credential_by_id`, with the place of the row. -/
def credential_by_id (credential_id : Bytes) : Option (Nat × Credential) :=
  (ceremonies.credentials.zipIdx.find? fun entry =>
    !entry.1.deleted && decide (entry.1.credential_id = credential_id)).map Prod.swap

/-- `authenticate_complete` from the row to the account. -/
def checkCounter (state : State) (parsed : AuthenticationResponse) : Phase State :=
  match ceremonies.credential_by_id parsed.raw_id with
  | none => .failed (.unauthorized "unknown credential")
  | some (place, record) =>
    if ¬service.server.authenticate_complete state record.credential_data parsed then
      .failed (.unauthorized "invalid WebAuthn assertion")
    else if parsed.counter ≠ 0 ∧ parsed.counter ≤ record.sign_count then
      .failed (.unauthorized "authenticator signature counter did not advance")
    else .identifying place record parsed.counter

def move (request : Nat) (phase : Phase State) : Ceremonies service :=
  { ceremonies with
    requests := ceremonies.requests.modify request fun moved =>
      { moved with phase } }

/-- The flush writes the counter when it is not the one that was read, and a
row that is gone is an error. -/
def flush (request place : Nat) (read : Credential) (counter : Nat) : Ceremonies service :=
  match ceremonies.credentials[place]? with
  | none => ceremonies.move request (.failed .interrupted)
  | some row =>
    if row.deleted then ceremonies.move request (.failed .interrupted)
    else
      { ceremonies.move request .completed with
        credentials := ceremonies.credentials.set place { row with
            sign_count :=
              if counter = read.sign_count then row.sign_count else counter
            reported := counter :: row.reported } }

/-- The end of `register_complete`; the credential id is unique. -/
def insert (request : Nat) (user_id : UserId)
    (credential : AttestedCredentialData) (counter : Nat) :
    Ceremonies service :=
  if (ceremonies.credential_by_id credential.credential_id).isSome then
    ceremonies.move request (.failed .interrupted)
  else
    { ceremonies.move request .completed with
      credentials := ceremonies.credentials ++ [{
        user_id
        credential_id := credential.credential_id
        credential_data := credential.encoded
        sign_count := counter
        deleted := false
        reported := [counter] }] }

def resume (request : Nat) : Phase State → Option (Ceremonies service)
  | .finding state parsed =>
    some (ceremonies.move request (ceremonies.checkCounter state parsed))
  | .identifying place read counter =>
    some (ceremonies.move request (if (ceremonies.users read.user_id).any User.is_active then
        .flushing place read counter
      else .failed (.unauthorized "account is not active")))
  | .flushing place read counter => some (ceremonies.flush request place read counter)
  | .comparing user_id credential counter =>
    some (ceremonies.move request
      (if (ceremonies.credential_by_id credential.credential_id).isSome then
        .failed (.validation "this authenticator is already registered")
      else .inserting user_id credential counter))
  | .inserting user_id credential counter =>
    some (ceremonies.insert request user_id credential counter)
  | .completed => none
  | .failed _ => none

/-- `delete_credential`, which finds the row and deletes it. -/
def delete_credential (user_id : UserId) (credential_id : Bytes) : Ceremonies service :=
  { ceremonies with
    credentials := ceremonies.credentials.map fun row =>
      if row.user_id = user_id ∧ row.credential_id = credential_id then
        { row with deleted := true }
      else row }

def step (ceremonies : Ceremonies service) : Action State Response → Option (Ceremonies service)
  | .elapse seconds => some { ceremonies with now := ceremonies.now + seconds }
  | .change_user user_id user =>
    some { ceremonies with
      users := fun other =>
        if other = user_id then user else ceremonies.users other }
  | .store_state challenge_id state => some (ceremonies.store_state challenge_id state)
  | .register_complete user_id challenge_id response =>
    some (ceremonies.pop_state challenge_id (registered service user_id response))
  | .authenticate_complete challenge_id response =>
    some (ceremonies.pop_state challenge_id (authenticated service response))
  | .resume request =>
    ceremonies.requests[request]?.bind fun waiting =>
      ceremonies.resume request waiting.phase
  | .interrupt request =>
    ceremonies.requests[request]?.bind fun waiting =>
      match waiting.phase with
      | .completed => none
      | .failed _ => none
      | _ => some (ceremonies.move request (.failed .interrupted))
  | .delete_credential user_id credential_id =>
    some (ceremonies.delete_credential user_id credential_id)

end Ceremonies

end TempestSdk.WebAuthn
