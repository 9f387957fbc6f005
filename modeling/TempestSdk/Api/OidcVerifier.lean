import Mathlib.Algebra.Order.Ring.Rat
import Mathlib.Tactic.Linarith
import Mathlib.Tactic.NormNum
import TempestSdk.Library.Runs

/-!
# The signing keys of a realm

`OIDCTokenVerifier`: any number of calls of `verify` that share one key set,
one lock and four variables.  A call holds the lock while it fetches.  What
stands between two awaits is one step.
-/

namespace TempestSdk.Oidc

/-- What `get_unverified_header` reads. -/
structure Header where
  alg : Option String
  kid : Option String
deriving DecidableEq

structure Settings (Token Key : Type) where
  algorithms : List String
  lifespan : ℚ
  min_refresh_interval : ℚ
  lifespan_nonneg : 0 ≤ lifespan
  interval_nonneg : 0 ≤ min_refresh_interval
  get_unverified_header : Token → Option Header
  /-- `jwt.decode` and the check of the audience. -/
  decode : Token → Key → Except String Unit

structure PyJWK (Key : Type) where
  key_id : Option String
  public_key_use : Option String
  key : Key
deriving DecidableEq

inductive Payload (Key : Type) where
  | notJson
  | notJwkSet
  /-- `PyJWKSet.from_dict` raises. -/
  | unusable
  | keys (entries : List (PyJWK Key))
deriving DecidableEq

inductive Reply (Key : Type) where
  | unreachable
  | response (status_code : Nat) (payload : Payload Key)
deriving DecidableEq

/-- The newest entry of a `kid` first. -/
abbrev KeySet (Key : Type) := List (String × Key)

variable {Token Key : Type}

def PyJWK.entry (entry : PyJWK Key) : Option (String × Key) :=
  match entry.key_id with
  | none => none
  | some kid =>
    if kid ≠ "" ∧ entry.public_key_use.getD "sig" = "sig" then
      some (kid, entry.key)
    else none

/-- `_fetch_keys`, once the reply is there. -/
def fetch_keys : Reply Key → Except String (KeySet Key)
  | .unreachable => .error "unreachable"
  | .response status_code payload =>
    if status_code < 200 ∨ 300 ≤ status_code then
      .error ("status " ++ toString status_code)
    else
      match payload with
      | .notJson => .error "not json"
      | .notJwkSet => .error "not a jwk set"
      | .unusable => .error "no usable key"
      | .keys entries =>
        match (entries.filterMap PyJWK.entry).reverse with
        | [] => .error "no signing key"
        | key :: keys => .ok (key :: keys)

/-- What a call of `verify` ends with. -/
inductive Outcome (Key : Type) where
  | accepted (key : Key)
  /-- `401`, the key set has no such `kid`. -/
  | unknown_kid
  /-- `401` for any other reason. -/
  | rejected (reason : String)
  /-- `502`. -/
  | unavailable (reason : String)
  | cancelled
deriving DecidableEq

inductive Phase (Key : Type) where
  | waiting
  /-- It holds the lock and waits for the reply to the request it made at
  `now`. -/
  | fetching (now : ℚ)
  | ended (outcome : Outcome Key)
deriving DecidableEq

def Phase.isWaiting : Phase Key → Bool
  | .waiting => true
  | _ => false

structure Call (Token Key : Type) where
  token : Token
  kid : String
  phase : Phase Key

inductive Ending (Key : Type) where
  | keys (keys : KeySet Key)
  | failed (reason : String)
  | cancelled
deriving DecidableEq

structure Fetch (Key : Type) where
  started : ℚ
  ended : Option (ℚ × Ending Key)
deriving DecidableEq

def Fetch.isCancelled (fetch : Fetch Key) : Bool :=
  match fetch.ended with
  | some (_, .cancelled) => true
  | _ => false

/-- How a call was answered that had come to the key set, with the fetches up
to then. -/
structure Answer (Key : Type) where
  clock : ℚ
  kid : String
  outcome : Outcome Key
  fetches : List (Fetch Key)
deriving DecidableEq

structure OIDCTokenVerifier (Token Key : Type) where
  keys : KeySet Key
  fetched_at : Option ℚ
  attempted_at : Option ℚ
  last_failure : Option String
  lock : Option Nat
  clock : ℚ
  calls : List (Call Token Key)
  fetches : List (Fetch Key)
  answers : List (Answer Key)

inductive Action (Token Key : Type) where
  | advance (clock : ℚ)
  | verify (token : Token)
  | acquire (call : Nat)
  | fetched (call : Nat) (reply : Reply Key)
  | cancel (call : Nat)
deriving DecidableEq

namespace OIDCTokenVerifier

def initial : OIDCTokenVerifier Token Key where
  keys := []
  fetched_at := none
  attempted_at := none
  last_failure := none
  lock := none
  clock := 0
  calls := []
  fetches := []
  answers := []

variable (settings : Settings Token Key)
  (verifier : OIDCTokenVerifier Token Key)

def fresh : Bool :=
  match verifier.fetched_at with
  | none => false
  | some fetched_at => decide (verifier.clock - fetched_at < settings.lifespan)

def cooling : Bool :=
  match verifier.attempted_at with
  | none => false
  | some attempted_at => decide (verifier.clock - attempted_at < settings.min_refresh_interval)

/-- What is left of `verify` once the key is there. -/
def decoded (token : Token) (key : Key) : Outcome Key :=
  match settings.decode token key with
  | .ok _ => .accepted key
  | .error reason => .rejected reason

def answer (index : Nat) (call : Call Token Key) (outcome : Outcome Key) :
    OIDCTokenVerifier Token Key :=
  { verifier with
    lock := none
    calls := verifier.calls.set index { call with phase := .ended outcome }
    answers := verifier.answers ++ [⟨verifier.clock, call.kid, outcome, verifier.fetches⟩] }

/-- The last lines of `_signing_key`. -/
def lookup (index : Nat) (call : Call Token Key) : OIDCTokenVerifier Token Key :=
  match verifier.keys.lookup call.kid with
  | some key => verifier.answer index call (decoded settings call.token key)
  | none => verifier.answer index call .unknown_kid

/-- `_signing_key` from the lock on. -/
def signing_key (index : Nat) (call : Call Token Key) : OIDCTokenVerifier Token Key :=
  if verifier.fresh settings ∧ (verifier.keys.lookup call.kid).isSome then
    verifier.lookup settings index call
  else if verifier.cooling settings = false then
    { verifier with
      attempted_at := some verifier.clock
      lock := some index
      calls := verifier.calls.set index { call with phase := .fetching verifier.clock }
      fetches := verifier.fetches ++ [⟨verifier.clock, none⟩] }
  else
    match verifier.last_failure with
    | some reason => verifier.answer index call (.unavailable reason)
    | none => verifier.lookup settings index call

def end_fetch (ending : Ending Key) : OIDCTokenVerifier Token Key :=
  { verifier with
    fetches := verifier.fetches.dropLast ++ (verifier.fetches.getLast?.map fun fetch =>
        { fetch with ended := some (verifier.clock, ending) }).toList }

/-- `_signing_key` once the reply is there. -/
def received (index : Nat) (call : Call Token Key) (now : ℚ)
    (reply : Reply Key) : OIDCTokenVerifier Token Key :=
  match fetch_keys reply with
  | .error reason =>
    { verifier.end_fetch (.failed reason) with
      last_failure := some reason }.answer index call (.unavailable reason)
  | .ok keys =>
    { verifier.end_fetch (.keys keys) with
      keys := keys
      fetched_at := some now
      last_failure := none }.lookup settings index call

/-- `verify` up to the lock. -/
def verify (token : Token) : Call Token Key :=
  match settings.get_unverified_header token with
  | none => ⟨token, "", .ended (.rejected "malformed")⟩
  | some header =>
    match header.alg with
    | none => ⟨token, "", .ended (.rejected "algorithm")⟩
    | some alg =>
      if alg ∉ settings.algorithms then
        ⟨token, "", .ended (.rejected "algorithm")⟩
      else
        match header.kid with
        | none => ⟨token, "", .ended (.rejected "no kid")⟩
        | some kid => ⟨token, kid, .waiting⟩

def step : Action Token Key → Option (OIDCTokenVerifier Token Key)
  | .advance clock =>
    if verifier.clock ≤ clock then some { verifier with clock := clock }
    else none
  | .verify token => some { verifier with calls := verifier.calls ++ [verify settings token] }
  | .acquire index =>
    match verifier.calls[index]? with
    | none => none
    | some call =>
      if verifier.lock = none ∧ call.phase.isWaiting = true then
        some (verifier.signing_key settings index call)
      else none
  | .fetched index reply =>
    match verifier.calls[index]? with
    | none => none
    | some call =>
      match call.phase with
      | .fetching now =>
        if verifier.lock = some index then
          some (verifier.received settings index call now reply)
        else none
      | _ => none
  | .cancel index =>
    match verifier.calls[index]? with
    | none => none
    | some call =>
      if verifier.lock = some index then
        some ((verifier.end_fetch .cancelled).answer index call .cancelled)
      else if call.phase.isWaiting = true then
        some { verifier with
          calls := verifier.calls.set index { call with phase := .ended .cancelled } }
      else none

/-- Two fetches do not overlap and start the interval apart. -/
structure Apart (earlier later : Fetch Key) : Prop where
  ended : ∃ time ending, earlier.ended = some (time, ending) ∧
    time ≤ later.started
  interval : earlier.started + settings.min_refresh_interval ≤ later.started

/-- Where a key is accepted it is from a key set whose fetch started less than
the two durations ago; where the `kid` is unknown the last fetch brought a key
set without it. -/
structure Founded (answer : Answer Key) : Prop where
  accepted : ∀ key, answer.outcome = .accepted key →
    ∃ fetch ∈ answer.fetches, ∃ time keys, fetch.ended = some (time, .keys keys) ∧
        keys.lookup answer.kid = some key ∧ answer.clock - fetch.started <
            max settings.lifespan settings.min_refresh_interval
  unknown : answer.outcome = .unknown_kid →
    ∃ fetch time keys, answer.fetches.getLast? = some fetch ∧
      fetch.ended = some (time, .keys keys) ∧ keys.lookup answer.kid = none

/-- A fetch that brings the key of its call is done within the two durations,
and no call is served in the cool-down of a fetch that was cancelled. -/
def Undisturbed : Action Token Key → Prop
  | .acquire index => ∀ call, verifier.calls[index]? = some call →
      ¬ (verifier.fresh settings ∧ (verifier.keys.lookup call.kid).isSome = true) →
      verifier.cooling settings = true → verifier.last_failure = none →
      ∀ fetch, verifier.fetches.getLast? = some fetch → fetch.isCancelled = false
  | .fetched index reply => ∀ call now, verifier.calls[index]? = some call →
      call.phase = .fetching now →
      ∀ keys key, fetch_keys reply = .ok keys → keys.lookup call.kid = some key →
          settings.decode call.token key = .ok () → verifier.clock - now <
              max settings.lifespan settings.min_refresh_interval
  | _ => True

variable {settings : Settings Token Key}
  {verifier next : OIDCTokenVerifier Token Key}

theorem lookup_cases (settings : Settings Token Key)
    (verifier : OIDCTokenVerifier Token Key) (index : Nat)
    (call : Call Token Key) : ∃ outcome, verifier.lookup settings index call =
        verifier.answer index call outcome ∧
      (∀ key, outcome = .accepted key → verifier.keys.lookup call.kid = some key ∧
          settings.decode call.token key = .ok ()) ∧
      (outcome = .unknown_kid → verifier.keys.lookup call.kid = none) := by
  unfold lookup
  split
  · next key found =>
      refine ⟨_, rfl, ?_, ?_⟩
      · intro accepted same
        unfold decoded at same
        split at same
        · next decoded =>
            cases same
            exact ⟨found, decoded⟩
        · cases same
      · intro same
        unfold decoded at same
        split at same
        · cases same
        · cases same
  · next missing =>
      refine ⟨_, rfl, ?_, ?_⟩
      · intro accepted same
        cases same
      · intro _
        exact missing

theorem signing_key_cases (settings : Settings Token Key)
    (verifier : OIDCTokenVerifier Token Key) (index : Nat)
    (call : Call Token Key) :
    (verifier.fresh settings = true ∧ (verifier.keys.lookup call.kid).isSome = true ∧
      verifier.signing_key settings index call = verifier.lookup settings index call) ∨
    (verifier.cooling settings = false ∧
      verifier.signing_key settings index call = { verifier with
        attempted_at := some verifier.clock
        lock := some index
        calls := verifier.calls.set index { call with phase := .fetching verifier.clock }
        fetches := verifier.fetches ++ [⟨verifier.clock, none⟩] }) ∨
    (∃ reason, verifier.last_failure = some reason ∧ verifier.signing_key settings index call =
        verifier.answer index call (.unavailable reason)) ∨
    (¬ (verifier.fresh settings ∧ (verifier.keys.lookup call.kid).isSome = true) ∧
      verifier.cooling settings = true ∧ verifier.last_failure = none ∧
      verifier.signing_key settings index call = verifier.lookup settings index call) := by
  unfold signing_key
  split
  · next served => exact .inl ⟨served.1, served.2, rfl⟩
  · next missing =>
      split
      · next rested => exact .inr (.inl ⟨rested, rfl⟩)
      · next cooling =>
          have cooling : verifier.cooling settings = true := by
            simpa using cooling
          split
          · next reason remembered =>
              exact .inr (.inr (.inl ⟨reason, remembered, rfl⟩))
          · next forgotten =>
              exact .inr (.inr (.inr ⟨missing, cooling, forgotten, rfl⟩))

/-- What the variables say of the fetches, whoever has the lock. -/
structure Settled (settings : Settings Token Key)
    (verifier : OIDCTokenVerifier Token Key) : Prop where
  attempted : verifier.attempted_at = verifier.fetches.getLast?.map Fetch.started
  past : ∀ fetch ∈ verifier.fetches, fetch.started ≤ verifier.clock
  apart : verifier.fetches.Pairwise (Apart settings)
  known : ∀ time, verifier.fetched_at = some time →
    ∃ fetch ∈ verifier.fetches, fetch.started = time ∧
      ∃ ended, fetch.ended = some (ended, .keys verifier.keys)

/-- No fetch is under way, and the variables tell how the last one ended unless
it was cancelled. -/
structure Free (verifier : OIDCTokenVerifier Token Key) : Prop where
  ended : ∀ fetch ∈ verifier.fetches, ∃ time ending,
    fetch.ended = some (time, ending) ∧ time ≤ verifier.clock
  keys : ∀ fetch time keys, verifier.fetches.getLast? = some fetch →
    fetch.ended = some (time, .keys keys) → verifier.keys = keys
  failed : ∀ fetch time reason, verifier.fetches.getLast? = some fetch →
    fetch.ended = some (time, .failed reason) → verifier.last_failure ≠ none

/-- One fetch is under way, that of the call with the lock. -/
structure Held (verifier : OIDCTokenVerifier Token Key) (index : Nat)
    (earlier : List (Fetch Key)) (now : ℚ) (call : Call Token Key) : Prop where
  fetches : verifier.fetches = earlier ++ [⟨now, none⟩]
  ended : ∀ fetch ∈ earlier, ∃ time ending,
    fetch.ended = some (time, ending) ∧ time ≤ verifier.clock
  found : verifier.calls[index]? = some call
  phase : call.phase = .fetching now

structure Sound (settings : Settings Token Key)
    (verifier : OIDCTokenVerifier Token Key) : Prop where
  settled : verifier.Settled settings
  free : verifier.lock = none → verifier.Free
  held : ∀ index, verifier.lock = some index →
    ∃ earlier now call, verifier.Held index earlier now call

theorem sound_initial : (initial : OIDCTokenVerifier Token Key).Sound settings where
  settled := ⟨rfl, nofun, .nil, nofun⟩
  free := fun _ => ⟨nofun, nofun, nofun⟩
  held := nofun

section

variable (settled : verifier.Settled settings)

include settled

theorem Settled.answer (index : Nat)
    (call : Call Token Key) (outcome : Outcome Key) (free : verifier.Free) :
    (verifier.answer index call outcome).Sound settings where
  settled := ⟨settled.attempted, settled.past, settled.apart, settled.known⟩
  free := fun _ => ⟨free.ended, free.keys, free.failed⟩
  held := nofun

theorem Settled.lookup (index : Nat) (call : Call Token Key) (free : verifier.Free) :
    (verifier.lookup settings index call).Sound settings := by
  obtain ⟨outcome, same, _⟩ := lookup_cases settings verifier index call
  rw [same]
  exact settled.answer index call outcome free

theorem Settled.apart_append
    (free : verifier.Free) (rested : verifier.cooling settings = false) :
    (verifier.fetches ++ [Fetch.mk verifier.clock none]).Pairwise (Apart settings) := by
  rw [List.pairwise_append]
  refine ⟨settled.apart, List.pairwise_singleton _ _, ?_⟩
  intro fetch member later last
  obtain rfl := List.mem_singleton.mp last
  obtain ⟨time, ending, ended, before⟩ := free.ended fetch member
  refine ⟨⟨time, ending, ended, before⟩, ?_⟩
  rcases List.eq_nil_or_concat' verifier.fetches with
    empty | ⟨front, latest, whole⟩
  · rw [empty] at member
    cases member
  · have attempted : verifier.attempted_at = some latest.started := by
      rw [settled.attempted, whole]
      simp
    have late : latest.started + settings.min_refresh_interval ≤ verifier.clock := by
      simp only [cooling, attempted, decide_eq_false_iff_not, not_lt] at rested
      linarith
    have apart := settled.apart
    rw [whole] at member apart
    rcases List.mem_append.mp member with inFront | isLatest
    · have before := ((List.pairwise_append.mp apart).2.2 fetch inFront latest
        List.mem_cons_self).interval
      have nonneg := settings.interval_nonneg
      show fetch.started + settings.min_refresh_interval ≤ verifier.clock
      linarith
    · obtain rfl := List.mem_singleton.mp isLatest
      exact late

end

variable {call : Call Token Key} {index : Nat}

theorem Settled.fetch (settled : verifier.Settled settings)
    (free : verifier.Free) (rested : verifier.cooling settings = false)
    (found : verifier.calls[index]? = some call) :
    ({ verifier with
      attempted_at := some verifier.clock
      lock := some index
      calls := verifier.calls.set index { call with phase := .fetching verifier.clock }
      fetches := verifier.fetches ++ [⟨verifier.clock, none⟩] } :
        OIDCTokenVerifier Token Key).Sound settings := by
  obtain ⟨inside, _⟩ := List.getElem?_eq_some_iff.mp found
  refine ⟨⟨?_, ?_, settled.apart_append free rested, ?_⟩, nofun, ?_⟩
  · simp
  · intro fetch member
    rcases List.mem_append.mp member with earlier | last
    · exact settled.past fetch earlier
    · obtain rfl := List.mem_singleton.mp last
      exact le_refl _
  · intro time fetched
    obtain ⟨fetch, member, known⟩ := settled.known time fetched
    exact ⟨fetch, List.mem_append_left _ member, known⟩
  · intro holder same
    obtain rfl := Option.some.inj same
    refine ⟨verifier.fetches, verifier.clock,
      { call with phase := .fetching verifier.clock }, rfl, free.ended, ?_, rfl⟩
    simp [inside]

variable {earlier : List (Fetch Key)} {now : ℚ}

theorem Held.end_fetch (held : verifier.Held index earlier now call)
    (ending : Ending Key) : verifier.end_fetch ending = { verifier with
      fetches := earlier ++ [⟨now, some (verifier.clock, ending)⟩] } := by
  simp [OIDCTokenVerifier.end_fetch, held.fetches]

theorem Held.ended_settled (held : verifier.Held index earlier now call)
    (settled : verifier.Settled settings) (ending : Ending Key) :
    (verifier.end_fetch ending).Settled settings := by
  rw [held.end_fetch]
  have fetches := held.fetches
  have apart := settled.apart
  have past := settled.past
  rw [fetches] at apart past
  obtain ⟨front, _, across⟩ := List.pairwise_append.mp apart
  constructor
  · show verifier.attempted_at = _
    rw [settled.attempted, fetches]
    simp
  · intro fetch member
    rcases List.mem_append.mp member with inFront | isLast
    · exact past fetch (List.mem_append_left _ inFront)
    · obtain rfl := List.mem_singleton.mp isLast
      exact past ⟨now, none⟩ (List.mem_append_right _ List.mem_cons_self)
  · refine List.pairwise_append.mpr ⟨front, List.pairwise_singleton _ _, ?_⟩
    intro fetch member later isLast
    obtain rfl := List.mem_singleton.mp isLast
    have before := across fetch member ⟨now, none⟩ List.mem_cons_self
    exact ⟨before.ended, before.interval⟩
  · intro time fetched
    obtain ⟨fetch, member, started, ended, known⟩ := settled.known time fetched
    rw [fetches] at member
    rcases List.mem_append.mp member with inFront | isLast
    · exact ⟨fetch, List.mem_append_left _ inFront, started, ended, known⟩
    · obtain rfl := List.mem_singleton.mp isLast
      cases known

theorem Held.all_ended (held : verifier.Held index earlier now call)
    (ending : Ending Key) : ∀ fetch ∈ (verifier.end_fetch ending).fetches,
      ∃ time ending, fetch.ended = some (time, ending) ∧ time ≤ verifier.clock := by
  rw [held.end_fetch]
  intro fetch member
  rcases List.mem_append.mp member with inFront | isLast
  · exact held.ended fetch inFront
  · obtain rfl := List.mem_singleton.mp isLast
    exact ⟨_, _, rfl, le_refl _⟩

theorem Held.latest (held : verifier.Held index earlier now call)
    (ending : Ending Key) : (verifier.end_fetch ending).fetches.getLast? =
      some ⟨now, some (verifier.clock, ending)⟩ := by
  rw [held.end_fetch]
  simp

theorem Held.cancelled_free (held : verifier.Held index earlier now call) :
    (verifier.end_fetch .cancelled).Free where
  ended := held.all_ended _
  keys := by
    intro fetch time keys last ended
    obtain rfl := Option.some.inj ((held.latest _).symm.trans last)
    cases ended
  failed := by
    intro fetch time reason last ended
    obtain rfl := Option.some.inj ((held.latest _).symm.trans last)
    cases ended

theorem Held.received_sound (held : verifier.Held index earlier now call)
    (settled : verifier.Settled settings) (reply : Reply Key) :
    (verifier.received settings index call now reply).Sound settings := by
  unfold received
  split
  · next reason failed =>
      have after := held.ended_settled settled (.failed reason)
      have remembered : ({ verifier.end_fetch (.failed reason) with
          last_failure := some reason } : OIDCTokenVerifier Token Key).Settled settings :=
        ⟨after.attempted, after.past, after.apart, after.known⟩
      apply remembered.answer
      refine ⟨held.all_ended _, ?_, ?_⟩
      · intro fetch time keys last ended
        obtain rfl := Option.some.inj ((held.latest _).symm.trans last)
        cases ended
      · intro fetch time reason last ended
        exact Option.some_ne_none _
  · next keys read =>
      have after := held.ended_settled settled (.keys keys)
      apply Settled.lookup
      · refine ⟨after.attempted, after.past, after.apart, ?_⟩
        intro time fetched
        obtain rfl := Option.some.inj fetched
        exact ⟨_, List.mem_of_getLast? (held.latest (.keys keys)), rfl, verifier.clock, rfl⟩
      · refine ⟨held.all_ended _, ?_, ?_⟩
        · intro fetch time read last ended
          obtain rfl := Option.some.inj ((held.latest _).symm.trans last)
          cases ended
          rfl
        · intro fetch time reason last ended
          obtain rfl := Option.some.inj ((held.latest _).symm.trans last)
          cases ended

theorem Sound.signing_key (sound : verifier.Sound settings) (unlocked : verifier.lock = none)
    (found : verifier.calls[index]? = some call) :
    (verifier.signing_key settings index call).Sound settings := by
  have free := sound.free unlocked
  rcases signing_key_cases settings verifier index call with
    ⟨_, _, same⟩ | ⟨rested, same⟩ | ⟨reason, _, same⟩ | ⟨_, _, _, same⟩
  · rw [same]
    exact sound.settled.lookup index call free
  · rw [same]
    exact sound.settled.fetch free rested found
  · rw [same]
    exact sound.settled.answer index call _ free
  · rw [same]
    exact sound.settled.lookup index call free

theorem step_cases {action : Action Token Key}
    (taken : verifier.step settings action = some next) :
    (∃ clock, action = .advance clock ∧ verifier.clock ≤ clock ∧
      next = { verifier with clock := clock }) ∨
    (∃ token, action = .verify token ∧ next = { verifier with
      calls := verifier.calls ++ [verify settings token] }) ∨
    (∃ index call, action = .acquire index ∧
      verifier.calls[index]? = some call ∧ verifier.lock = none ∧
      next = verifier.signing_key settings index call) ∨
    (∃ index call now reply, action = .fetched index reply ∧
      verifier.calls[index]? = some call ∧ call.phase = .fetching now ∧
      verifier.lock = some index ∧
      next = verifier.received settings index call now reply) ∨
    (∃ index call, action = .cancel index ∧
      verifier.calls[index]? = some call ∧ verifier.lock = some index ∧
      next = (verifier.end_fetch .cancelled).answer index call .cancelled) ∨
    (∃ index call, action = .cancel index ∧
      verifier.calls[index]? = some call ∧ call.phase.isWaiting = true ∧
      next = { verifier with
        calls := verifier.calls.set index { call with phase := .ended .cancelled } }) := by
  cases action with
  | advance clock =>
    simp only [step] at taken
    split at taken
    · next later => exact .inl ⟨clock, rfl, later, by simpa using taken.symm⟩
    · cases taken
  | verify token => exact .inr (.inl ⟨token, rfl, (Option.some.inj taken).symm⟩)
  | acquire index =>
    simp only [step] at taken
    split at taken
    · cases taken
    · next call found =>
        split at taken
        · next ready =>
            exact .inr (.inr (.inl ⟨index, call, rfl, found, ready.1,
              (Option.some.inj taken).symm⟩))
        · cases taken
  | fetched index reply =>
    simp only [step] at taken
    split at taken
    · cases taken
    · next call found =>
        split at taken
        · next now phase =>
            split at taken
            · next holds =>
                exact .inr (.inr (.inr (.inl ⟨index, call, now, reply, rfl,
                  found, phase, holds, (Option.some.inj taken).symm⟩)))
            · cases taken
        · cases taken
  | cancel index =>
    simp only [step] at taken
    split at taken
    · cases taken
    · next call found =>
        split at taken
        · next holds =>
            exact .inr (.inr (.inr (.inr (.inl ⟨index, call, rfl, found,
              holds, (Option.some.inj taken).symm⟩))))
        · split at taken
          · next waits =>
              exact .inr (.inr (.inr (.inr (.inr ⟨index, call, rfl, found,
                waits, (Option.some.inj taken).symm⟩))))
          · cases taken

theorem Sound.step (sound : verifier.Sound settings) {action : Action Token Key}
    (taken : verifier.step settings action = some next) :
    next.Sound settings := by
  have settled := sound.settled
  rcases step_cases taken with ⟨clock, _, later, rfl⟩ | ⟨token, _, rfl⟩ |
    ⟨index, call, _, found, unlocked, rfl⟩ |
    ⟨index, call, now, reply, _, found, phase, holds, rfl⟩ |
    ⟨index, call, _, found, holds, rfl⟩ | ⟨index, call, _, found, waits, rfl⟩
  · have ended_before : ∀ fetch : Fetch Key,
        (∃ time ending, fetch.ended = some (time, ending) ∧ time ≤ verifier.clock) →
        ∃ time ending, fetch.ended = some (time, ending) ∧ time ≤ clock := by
      rintro fetch ⟨time, ending, ended, before⟩
      exact ⟨time, ending, ended, before.trans later⟩
    refine ⟨⟨settled.attempted, ?_, settled.apart, settled.known⟩, ?_, ?_⟩
    · intro fetch member
      exact (settled.past fetch member).trans later
    · intro unlocked
      have free := sound.free unlocked
      exact ⟨fun fetch member => ended_before fetch (free.ended fetch member),
        free.keys, free.failed⟩
    · intro index holds
      obtain ⟨earlier, now, call, held⟩ := sound.held index holds
      exact ⟨earlier, now, call, held.fetches,
        fun fetch member => ended_before fetch (held.ended fetch member),
        held.found, held.phase⟩
  · refine ⟨⟨settled.attempted, settled.past, settled.apart, settled.known⟩, ?_, ?_⟩
    · intro unlocked
      have free := sound.free unlocked
      exact ⟨free.ended, free.keys, free.failed⟩
    · intro index holds
      obtain ⟨earlier, now, call, held⟩ := sound.held index holds
      obtain ⟨inside, _⟩ := List.getElem?_eq_some_iff.mp held.found
      refine ⟨earlier, now, call, held.fetches, held.ended, ?_, held.phase⟩
      show (verifier.calls ++ [_])[index]? = some call
      rw [List.getElem?_append_left inside]
      exact held.found
  · exact sound.signing_key unlocked found
  · obtain ⟨earlier, started, holder, held⟩ := sound.held index holds
    obtain rfl := Option.some.inj (held.found.symm.trans found)
    cases held.phase.symm.trans phase
    exact held.received_sound settled reply
  · obtain ⟨earlier, started, holder, held⟩ := sound.held index holds
    exact (held.ended_settled settled .cancelled).answer index call _ held.cancelled_free
  · refine ⟨⟨settled.attempted, settled.past, settled.apart, settled.known⟩, ?_, ?_⟩
    · intro unlocked
      have free := sound.free unlocked
      exact ⟨free.ended, free.keys, free.failed⟩
    · intro holder holds
      obtain ⟨earlier, now, other, held⟩ := sound.held holder holds
      have different : index ≠ holder := by
        rintro rfl
        obtain rfl := Option.some.inj (held.found.symm.trans found)
        rw [held.phase] at waits
        cases waits
      refine ⟨earlier, now, other, held.fetches, held.ended, ?_, held.phase⟩
      show (verifier.calls.set index _)[holder]? = some other
      rw [List.getElem?_set_ne different]
      exact held.found

def AllFounded (settings : Settings Token Key)
    (verifier : OIDCTokenVerifier Token Key) : Prop :=
  ∀ answer ∈ verifier.answers, Founded settings answer

theorem AllFounded.answer (earlier : verifier.AllFounded settings) {outcome : Outcome Key}
    (last : Founded settings ⟨verifier.clock, call.kid, outcome, verifier.fetches⟩) :
    (verifier.answer index call outcome).AllFounded settings := by
  intro answer member
  rcases List.mem_append.mp member with inFront | isLast
  · exact earlier answer inFront
  · obtain rfl := List.mem_singleton.mp isLast
    exact last

theorem AllFounded.lookup (earlier : verifier.AllFounded settings)
    (accepted : ∀ key, verifier.keys.lookup call.kid = some key →
      settings.decode call.token key = .ok () →
      ∃ fetch ∈ verifier.fetches, ∃ time keys, fetch.ended = some (time, .keys keys) ∧
          keys.lookup call.kid = some key ∧ verifier.clock - fetch.started <
              max settings.lifespan settings.min_refresh_interval)
    (unknown : verifier.keys.lookup call.kid = none →
      ∃ fetch time keys, verifier.fetches.getLast? = some fetch ∧
        fetch.ended = some (time, .keys keys) ∧ keys.lookup call.kid = none) :
    (verifier.lookup settings index call).AllFounded settings := by
  obtain ⟨outcome, same, found, missing⟩ :=
    lookup_cases settings verifier index call
  rw [same]
  apply earlier.answer
  constructor
  · intro key isAccepted
    obtain ⟨present, decoded⟩ := found key isAccepted
    exact accepted key present decoded
  · intro isUnknown
    exact unknown (missing isUnknown)

theorem Settled.fresh_age (settled : verifier.Settled settings)
    (fresh : verifier.fresh settings = true) :
    ∃ fetch ∈ verifier.fetches, ∃ time, fetch.ended = some (time, .keys verifier.keys) ∧
        verifier.clock - fetch.started <
          max settings.lifespan settings.min_refresh_interval := by
  unfold OIDCTokenVerifier.fresh at fresh
  split at fresh
  · cases fresh
  · next fetched_at fetched =>
      obtain ⟨fetch, member, rfl, time, ended⟩ :=
        settled.known fetched_at fetched
      exact ⟨fetch, member, time, ended, (of_decide_eq_true fresh).trans_le (le_max_left _ _)⟩

theorem Settled.cooling_age (settled : verifier.Settled settings)
    (free : verifier.Free) (cooling : verifier.cooling settings = true)
    (forgotten : verifier.last_failure = none)
    (undisturbed : ∀ fetch, verifier.fetches.getLast? = some fetch →
      fetch.isCancelled = false) :
    ∃ fetch time, verifier.fetches.getLast? = some fetch ∧
      fetch.ended = some (time, .keys verifier.keys) ∧ verifier.clock - fetch.started <
          max settings.lifespan settings.min_refresh_interval := by
  unfold OIDCTokenVerifier.cooling at cooling
  split at cooling
  · cases cooling
  · next attempted_at attempted =>
      rw [settled.attempted] at attempted
      obtain ⟨fetch, last, rfl⟩ := Option.map_eq_some_iff.mp attempted
      obtain ⟨time, ending, ended, _⟩ :=
        free.ended fetch (List.mem_of_getLast? last)
      cases ending with
      | keys keys =>
        obtain rfl := free.keys fetch time keys last ended
        exact ⟨fetch, time, last, ended,
          (of_decide_eq_true cooling).trans_le (le_max_right _ _)⟩
      | failed reason => exact (free.failed fetch time reason last ended forgotten).elim
      | cancelled =>
        have spared := undisturbed fetch last
        simp [Fetch.isCancelled, ended] at spared

theorem AllFounded.signing_key (earlier : verifier.AllFounded settings)
    (sound : verifier.Sound settings) (unlocked : verifier.lock = none)
    (undisturbed : ¬ (verifier.fresh settings ∧ (verifier.keys.lookup call.kid).isSome = true) →
      verifier.cooling settings = true → verifier.last_failure = none →
      ∀ fetch, verifier.fetches.getLast? = some fetch → fetch.isCancelled = false) :
    (verifier.signing_key settings index call).AllFounded settings := by
  rcases signing_key_cases settings verifier index call with
    ⟨fresh, present, same⟩ | ⟨_, same⟩ | ⟨reason, _, same⟩ |
    ⟨missing, cooling, forgotten, same⟩
  · rw [same]
    apply earlier.lookup
    · intro key found _
      obtain ⟨fetch, member, time, ended, age⟩ :=
        sound.settled.fresh_age fresh
      exact ⟨fetch, member, time, _, ended, found, age⟩
    · intro absent
      rw [absent] at present
      cases present
  · rw [same]
    exact earlier
  · rw [same]
    apply earlier.answer
    exact ⟨nofun, nofun⟩
  · rw [same]
    obtain ⟨fetch, time, last, ended, age⟩ :=
      sound.settled.cooling_age (sound.free unlocked) cooling forgotten
        (undisturbed missing cooling forgotten)
    apply earlier.lookup
    · intro key found _
      exact ⟨fetch, List.mem_of_getLast? last, time, _, ended, found, age⟩
    · intro absent
      exact ⟨fetch, time, _, last, ended, absent⟩

theorem AllFounded.received (earlier : verifier.AllFounded settings)
    {before : List (Fetch Key)} (held : verifier.Held index before now call)
    {reply : Reply Key}
    (soon : ∀ keys key, fetch_keys reply = .ok keys → keys.lookup call.kid = some key →
        settings.decode call.token key = .ok () → verifier.clock - now <
            max settings.lifespan settings.min_refresh_interval) :
    (verifier.received settings index call now reply).AllFounded settings := by
  unfold OIDCTokenVerifier.received
  split
  · next reason failed =>
      have same : ({ verifier.end_fetch (.failed reason) with
          last_failure := some reason } :
            OIDCTokenVerifier Token Key).AllFounded settings := earlier
      apply same.answer
      exact ⟨nofun, nofun⟩
  · next keys read =>
      have same : ({ verifier.end_fetch (.keys keys) with
          keys := keys, fetched_at := some now, last_failure := none } :
            OIDCTokenVerifier Token Key).AllFounded settings := earlier
      have last := held.latest (.keys keys)
      apply same.lookup
      · intro key found decoded
        exact ⟨_, List.mem_of_getLast? last, _, keys, rfl, found,
          soon keys key read found decoded⟩
      · intro absent
        exact ⟨_, _, keys, last, rfl, absent⟩

theorem AllFounded.step (earlier : verifier.AllFounded settings)
    (sound : verifier.Sound settings) {action : Action Token Key}
    (undisturbed : verifier.Undisturbed settings action)
    (taken : verifier.step settings action = some next) :
    next.AllFounded settings := by
  rcases step_cases taken with ⟨clock, _, _, rfl⟩ | ⟨token, _, rfl⟩ |
    ⟨index, call, rfl, found, unlocked, rfl⟩ |
    ⟨index, call, now, reply, rfl, found, phase, holds, rfl⟩ |
    ⟨index, call, _, found, holds, rfl⟩ | ⟨index, call, _, found, _, rfl⟩
  · exact earlier
  · exact earlier
  · exact earlier.signing_key sound unlocked (undisturbed call found)
  · obtain ⟨before, started, holder, held⟩ := sound.held index holds
    obtain rfl := Option.some.inj (held.found.symm.trans found)
    cases held.phase.symm.trans phase
    exact earlier.received held (undisturbed _ _ found phase)
  · have same : (verifier.end_fetch .cancelled).AllFounded settings := earlier
    apply same.answer
    exact ⟨nofun, nofun⟩
  · exact earlier

/-- Two fetches never overlap and start the interval apart; and in a run that
is not disturbed every accepted key and every unknown `kid` is founded on the
fetches. -/
theorem signing_keys_founded {schedule : List (Action Token Key)}
    {reached : OIDCTokenVerifier Token Key}
    (run : Runs.exec (step settings) initial schedule = some reached) :
    reached.fetches.Pairwise (Apart settings) ∧
      (Runs.Meets (step settings) (Undisturbed settings) initial schedule →
        ∀ answer ∈ reached.answers, Founded settings answer) := by
  constructor
  · have sound : reached.Sound settings := by
      apply Runs.exec_invariant _ sound_initial run
      intro verifier action next sound taken
      exact sound.step taken
    exact sound.settled.apart
  · intro undisturbed
    have both : reached.Sound settings ∧ reached.AllFounded settings := by
      apply Runs.exec_invariant_of_meets _ undisturbed ⟨sound_initial, nofun⟩ run
      intro verifier action next both undisturbed taken
      exact ⟨both.1.step taken, both.2.step both.1 undisturbed taken⟩
    exact both.2

/-- The defaults; a token is the `kid` it names, and every key verifies it. -/
def defaults : Settings String Nat where
  algorithms := ["RS256"]
  lifespan := 300
  min_refresh_interval := 60
  lifespan_nonneg := by norm_num
  interval_nonneg := by norm_num
  get_unverified_header := fun kid => some ⟨some "RS256", some kid⟩
  decode := fun _ _ => .ok ()

def realm : Reply Nat := .response 200 (.keys [⟨some "k", some "sig", 7⟩])

def fetchedOnce : List (Action String Nat) :=
  [.verify "k", .acquire 0, .fetched 0 realm]

theorem fetchedOnce_founded : ∃ reached,
    Runs.exec (step defaults) initial fetchedOnce = some reached ∧
    ⟨0, "k", .accepted 7, [⟨0, some (0, .keys [("k", 7)])⟩]⟩ ∈ reached.answers ∧
    ∀ answer ∈ reached.answers, Founded defaults answer := by
  have undisturbed : Runs.Meets (step defaults) (Undisturbed defaults) initial fetchedOnce := by
    refine ⟨trivial, fun verified taken => ?_⟩
    cases taken
    refine ⟨?_, fun fetching taken => ?_⟩
    · intro call found missing cooling
      cases cooling
    · cases taken
      refine ⟨?_, fun _ _ => trivial⟩
      intro call now found phase keys key read present decoded
      cases found
      cases phase
      show (0 : ℚ) - 0 < max 300 60
      norm_num
  have run : Runs.exec (step defaults) initial fetchedOnce = some _ := rfl
  exact ⟨_, run, List.mem_cons_self, (signing_keys_founded run).2 undisturbed⟩

/-- The key set is fetched once.  A hundred seconds past the lifespan a fetch
is cancelled, and in its cool-down two more calls are served from the cache. -/
def fetchCancelled : List (Action String Nat) :=
  fetchedOnce ++ [.advance 400, .verify "k", .acquire 1, .cancel 1, .verify "k", .acquire 2,
      .verify "n", .acquire 3]

theorem cancelled_unfounded : ∃ reached,
    Runs.exec (step defaults) initial fetchCancelled = some reached ∧
    (∃ answer ∈ reached.answers, answer.outcome = .accepted 7 ∧
      answer.clock = 400 ∧ ¬ Founded defaults answer) ∧
    ∃ answer ∈ reached.answers, answer.outcome = .unknown_kid ∧ ¬ Founded defaults answer := by
  have answered : (Runs.exec (step defaults) initial fetchCancelled).map
      OIDCTokenVerifier.answers = some
        [⟨0, "k", .accepted 7, [⟨0, some (0, .keys [("k", 7)])⟩]⟩,
          ⟨400, "k", .cancelled, [⟨0, some (0, .keys [("k", 7)])⟩,
            ⟨400, some (400, .cancelled)⟩]⟩,
          ⟨400, "k", .accepted 7, [⟨0, some (0, .keys [("k", 7)])⟩,
            ⟨400, some (400, .cancelled)⟩]⟩,
          ⟨400, "n", .unknown_kid, [⟨0, some (0, .keys [("k", 7)])⟩,
            ⟨400, some (400, .cancelled)⟩]⟩] := by
    with_unfolding_all decide
  obtain ⟨reached, run, answers⟩ := Option.map_eq_some_iff.mp answered
  refine ⟨reached, run, ?_, ?_⟩
  · rw [answers]
    refine ⟨_, List.mem_cons_of_mem _ (List.mem_cons_of_mem _ List.mem_cons_self), rfl, rfl, ?_⟩
    intro founded
    obtain ⟨fetch, member, time, keys, ended, _, age⟩ :=
      founded.accepted 7 rfl
    rcases List.mem_pair.mp member with rfl | rfl
    · norm_num [defaults] at age
    · cases ended
  · rw [answers]
    refine ⟨_, List.mem_cons_of_mem _ (List.mem_cons_of_mem _
      (List.mem_cons_of_mem _ List.mem_cons_self)), rfl, ?_⟩
    intro founded
    obtain ⟨fetch, time, keys, last, ended, _⟩ := founded.unknown rfl
    cases last
    cases ended

end OIDCTokenVerifier

end TempestSdk.Oidc
