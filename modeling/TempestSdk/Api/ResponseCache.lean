import TempestSdk.Library.Joined
import TempestSdk.Library.Runs

/-!
# The response cache

`ResponseCacheMiddleware` with a store: a request is answered from the store,
or passed to the handler whose response is then stored.  Requests overlap; what
stands between two awaits of `dispatch` is one step.  A reply is what
`Response` is constructed with.
-/

namespace TempestSdk.ResponseCache

abbrev Text := List Char

abbrev Headers := List (Text × Text)

structure Request where
  method : Text
  /-- `request.url.path`. -/
  path : Text
  /-- `request.url.query`. -/
  query : Text
  headers : Headers
deriving DecidableEq

/-- `request.headers.get`; the names are in lower case. -/
def Request.header (request : Request) (name : Text) : Option Text :=
  (request.headers.find? fun header => header.1 = name).map Prod.snd

/-- What the handler returns; the body is drained. -/
structure Response (Body : Type) where
  status_code : Nat
  headers : Headers
  body : Body
  media_type : Option Text
  /-- `is_unbounded_stream`. -/
  unbounded : Bool
deriving DecidableEq

structure CachedResponse (Body : Type) where
  status_code : Nat
  headers : Headers
  body : Body
  media_type : Option Text
deriving DecidableEq

/-- The arguments of a `Response`; `304` has no body. -/
structure Reply (Body : Type) where
  status_code : Nat
  headers : Headers
  body : Option Body
  media_type : Option Text
deriving DecidableEq

structure Config (Body : Type) where
  ttl : Nat
  cache_control : Text
  methods : List Text
  cacheable_status : List Nat
  vary : List Text
  /-- `exempt_paths` and `exempt_prefixes`. -/
  exempt : Text → Bool
  cacheable : Request → Bool
  cache_credentialed : Bool
  credential_headers : List Text
  sha256 : Text → Text
  computeEtag : Body → Text
  etagMatches : Text → Text → Bool
  /-- `_skip_caching`. -/
  skipCaching : Response Body → Bool

variable {Body : Type}

def literal (text : String) : Text := text.toList

local instance lawfulText : LawfulBEq Text := inferInstance

/-- `headers[name] = value`. -/
def setHeader (headers : Headers) (name value : Text) : Headers :=
  if name ∈ headers.map Prod.fst then
    headers.map fun header => if header.1 = name then (name, value) else header
  else headers ++ [(name, value)]

def setDefault (headers : Headers) (name value : Text) : Headers :=
  if name ∈ headers.map Prod.fst then headers else headers ++ [(name, value)]

/-- `dict(headers)`: the last value of a name stays. -/
def toDict (raw : Headers) : Headers :=
  raw.foldl (fun headers header => setHeader headers header.1 header.2) []

namespace Config

variable (config : Config Body)

/-- `credential_digest`. -/
def credentials (request : Request) : Option Text :=
  let values := config.credential_headers.map fun name =>
    (request.header name).getD []
  if values.all fun value => value = [] then none
  else some (config.sha256 (Joined.join '|'
    ((config.credential_headers.zip values).map fun pair =>
      pair.1 ++ '=' :: pair.2)))

/-- The parts that `_build_key` joins. -/
def keyParts (request : Request) (credentials : Option Text) : List Text :=
  [request.method, request.path, request.query] ++ config.vary.map (fun name =>
      name ++ '=' :: (request.header name).getD []) ++
    (credentials.map fun digest => literal "cred=" ++ digest).toList

def buildKey (request : Request) (credentials : Option Text) : Text :=
  Joined.join '|' (config.keyParts request credentials)

def Eligible (request : Request) : Prop :=
  request.method ∈ config.methods ∧ config.exempt request.path = false ∧
    config.cacheable request = true

instance : DecidablePred config.Eligible :=
  fun _request => inferInstanceAs (Decidable (_ ∧ _ ∧ _))

/-- `share_store`: the request does not bypass the store. -/
def Shares (request : Request) : Prop :=
  config.Eligible request ∧
    (config.credentials request = none ∨ config.cache_credentialed = true)

instance : DecidablePred config.Shares :=
  fun _request => inferInstanceAs (Decidable (_ ∧ (_ ∨ _)))

def keyCredentials (request : Request) : Option Text :=
  if config.cache_credentialed then config.credentials request else none

def key (request : Request) : Text :=
  config.buildKey request (config.keyCredentials request)

def decorate (headers : Headers) (etag : Text) : Headers :=
  let tagged := setHeader headers (literal "etag") etag
  let controlled := setDefault tagged (literal "cache-control") config.cache_control
  if config.vary = [] then controlled
  else setHeader controlled (literal "vary") ((literal ", ").intercalate config.vary)

def notModified (etag : Text) : Reply Body :=
  ⟨304, config.decorate [] etag, none, none⟩

/-- `if_none_match and etag_matches(...)`. -/
def unchanged (request : Request) (etag : Text) : Bool :=
  match request.header (literal "if-none-match") with
  | some sent => decide (sent ≠ []) && config.etagMatches sent etag
  | none => false

def stored (response : Response Body) : CachedResponse Body where
  status_code := response.status_code
  headers := config.decorate (toDict response.headers) (config.computeEtag response.body)
  body := response.body
  media_type := response.media_type

def tagged (response : Response Body) : Reply Body where
  status_code := response.status_code
  headers := (config.stored response).headers
  body := some response.body
  media_type := response.media_type

def miss (response : Response Body) : Reply Body where
  status_code := response.status_code
  headers := setHeader (config.stored response).headers (literal "x-cache") (literal "MISS")
  body := some response.body
  media_type := response.media_type

def etagOf (cached : CachedResponse Body) : Text :=
  ((cached.headers.find? fun header =>
    header.1 = literal "etag").map Prod.snd).getD (config.computeEtag cached.body)

def hit (cached : CachedResponse Body) : Reply Body where
  status_code := cached.status_code
  headers := setHeader (config.decorate cached.headers (config.etagOf cached))
    (literal "x-cache") (literal "HIT")
  body := some cached.body
  media_type := cached.media_type

def Stores (response : Response Body) : Prop :=
  response.status_code ∈ config.cacheable_status ∧
    config.skipCaching response = false ∧ response.unbounded = false

instance : DecidablePred config.Stores :=
  fun _response => inferInstanceAs (Decidable (_ ∧ _ ∧ _))

end Config

inductive Exchange (Body : Type) where
  | hit (request : Request) (reply : Reply Body)
  | miss (request : Request) (response : Response Body) (reply : Reply Body)
  | notModified (request : Request) (reply : Reply Body)
  | tagged (request : Request) (reply : Reply Body)
  | passed (request : Request) (response : Response Body)

structure Server (Body : Type) where
  clock : Nat
  entries : Text → Option (CachedResponse Body × Nat)
  pending : List Request
  exchanges : List (Exchange Body)

inductive Action (Body : Type) where
  | elapse (duration : Nat)
  /-- A request comes, up to the handler when it is not answered before. -/
  | receive (request : Request)
  | respond (place : Nat) (response : Response Body)

namespace Server

def initial : Server Body := ⟨0, fun _ => none, [], []⟩

def get (server : Server Body) (key : Text) : Option (CachedResponse Body) :=
  (server.entries key).bind fun entry =>
    if entry.2 ≤ server.clock then none else some entry.1

def answer (server : Server Body) (exchange : Exchange Body) : Server Body :=
  { server with exchanges := server.exchanges ++ [exchange] }

def receive (config : Config Body) (server : Server Body) (request : Request) : Server Body :=
  let passing := { server with pending := server.pending ++ [request] }
  if config.Shares request then
    match server.get (config.key request) with
    | some cached =>
      if config.unchanged request (config.etagOf cached) then
        server.answer (.notModified request (config.notModified (config.etagOf cached)))
      else server.answer (.hit request (config.hit cached))
    | none => passing
  else passing

def store (config : Config Body) (server : Server Body) (request : Request)
    (response : Response Body) : Server Body :=
  { server with
    entries := fun key =>
      if key = config.key request then
        some (config.stored response, server.clock + config.ttl)
      else server.entries key }

def respond (config : Config Body) (server : Server Body) (request : Request)
    (response : Response Body) : Server Body :=
  let etag := config.computeEtag response.body
  let unchanged := config.unchanged request etag
  if config.Eligible request ∧ config.Stores response then
    if config.Shares request then
      (server.store config request response).answer (.miss request response
          (if unchanged then config.notModified etag else config.miss response))
    else if unchanged then
      server.answer (.notModified request (config.notModified etag))
    else server.answer (.tagged request (config.tagged response))
  else server.answer (.passed request response)

end Server

def step (config : Config Body) (server : Server Body) : Action Body → Option (Server Body)
  | .elapse duration => some { server with clock := server.clock + duration }
  | .receive request => some (server.receive config request)
  | .respond place response =>
    server.pending[place]?.map fun request =>
      Server.respond config { server with pending := server.pending.eraseIdx place } request
        response

variable {config : Config Body} {request other : Request}

def Config.Differ (config : Config Body) (request other : Request) : Prop :=
  request.method ≠ other.method ∨ request.path ≠ other.path ∨ request.query ≠ other.query ∨
    (∃ name ∈ config.vary, (request.header name).getD [] ≠ (other.header name).getD []) ∨
    config.credentials request ≠ config.credentials other

theorem keyCredentials_eq_iff (shares : config.Shares request)
    (other_shares : config.Shares other) :
    config.keyCredentials request = config.keyCredentials other ↔
      config.credentials request = config.credentials other := by
  unfold Config.keyCredentials
  cases credentialed : config.cache_credentialed with
  | true => exact Iff.rfl
  | false =>
    have anonymous : config.credentials request = none :=
      shares.2.resolve_right (by simp [credentialed])
    have other_anonymous : config.credentials other = none :=
      other_shares.2.resolve_right (by simp [credentialed])
    rw [anonymous, other_anonymous]
    exact iff_of_true rfl rfl

theorem vary_eq_iff (names : List Text) :
    names.map (fun name => name ++ '=' :: (request.header name).getD []) =
        names.map (fun name => name ++ '=' :: (other.header name).getD []) ↔
      ∀ name ∈ names, (request.header name).getD [] = (other.header name).getD [] := by
  rw [List.map_inj_left]
  constructor
  · intro same name member
    have value := List.append_cancel_left (same name member)
    exact (List.cons.inj value).2
  · intro same name member
    rw [same name member]

theorem credential_part_eq_iff {digest other_digest : Option Text} :
    (digest.map fun value => literal "cred=" ++ value).toList =
        (other_digest.map fun value => literal "cred=" ++ value).toList ↔
      digest = other_digest := by
  constructor
  · intro same
    cases digest with
    | none =>
      cases other_digest with
      | none => rfl
      | some value => cases same
    | some value =>
      cases other_digest with
      | none => cases same
      | some other_value =>
        have parts := (List.cons.inj same).1
        rw [List.append_cancel_left parts]
  · intro same
    rw [same]

theorem keyParts_eq_iff {digest other_digest : Option Text} :
    config.keyParts request digest = config.keyParts other other_digest ↔
      request.method = other.method ∧ request.path = other.path ∧ request.query = other.query ∧
        (∀ name ∈ config.vary, (request.header name).getD [] = (other.header name).getD []) ∧
        digest = other_digest := by
  unfold Config.keyParts
  rw [List.append_assoc, List.append_assoc]
  constructor
  · intro same
    obtain ⟨front, back⟩ := List.append_inj same rfl
    obtain ⟨values, credential⟩ := List.append_inj back (by simp)
    simp only [List.cons.injEq, and_true] at front
    exact ⟨front.1, front.2.1, front.2.2, (vary_eq_iff _).mp values,
      (credential_part_eq_iff).mp credential⟩
  · rintro ⟨method, path, query, values, credential⟩
    rw [method, path, query, (vary_eq_iff _).mpr values, credential]

theorem differ_iff (shares : config.Shares request) (other_shares : config.Shares other) :
    config.Differ request other ↔ config.keyParts request (config.keyCredentials request) ≠
        config.keyParts other (config.keyCredentials other) := by
  rw [ne_eq, keyParts_eq_iff, keyCredentials_eq_iff shares other_shares]
  unfold Config.Differ
  simp only [not_and_or, not_forall, exists_prop]

def Config.Separate (config : Config Body) (request other : Request) : Prop :=
  config.Shares request → config.Shares other →
    config.Differ request other → config.key request ≠ config.key other

/-- The parts of the two keys have their separators in the same places, or
differ in a piece between separators. -/
def Config.Unambiguous (config : Config Body) (request other : Request) : Prop :=
  let parts := config.keyParts request (config.keyCredentials request)
  let others := config.keyParts other (config.keyCredentials other)
  Joined.cuts '|' parts = Joined.cuts '|' others ∨
    Joined.pieces '|' parts ≠ Joined.pieces '|' others

theorem separate_iff : config.Separate request other ↔
      (config.Shares request → config.Shares other → config.Unambiguous request other) := by
  have filled : ∀ (request : Request) digest, config.keyParts request digest ≠ [] := by
    intro request digest
    exact List.cons_ne_nil _ _
  unfold Config.Separate
  refine forall_congr' fun shares => forall_congr' fun other_shares => ?_
  rw [differ_iff shares other_shares]
  exact Joined.separates_iff (filled request _) (filled other _)

end TempestSdk.ResponseCache
