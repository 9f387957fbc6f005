import TempestSdk.Sessions.Service

/-!
# A revoked session stays revoked

Any number of service calls run interleaved, one store command at a time,
while time passes.  Once the revocation of a session has returned, the session
is not in the store again: a `touch` in flight writes only what is still
there, and a `resolve` that starts later finds nothing.

Tokens are drawn at random.  So a login draws no token whose revocation was
asked for before, and nobody revokes the token of a login that has not
returned yet.
-/

namespace TempestSdk.Sessions

open Calls

section Revocation

variable {Store Command : Type} {Answer : Command → Type}

def drawn (hashOpaqueToken : Plaintext → SessionHash) : Request → Option SessionHash
  | .login _ _ _ _ token => some (hashOpaqueToken token)
  | _ => none

def revoking (hashOpaqueToken : Plaintext → SessionHash) : Request → Option SessionHash
  | .revoke token => some (hashOpaqueToken token)
  | _ => none

def Issued (hashOpaqueToken : Plaintext → SessionHash)
    (world : World Store Request Answer Outcome) (id : SessionHash) : Prop :=
  ∀ running ∈ world.calls, drawn hashOpaqueToken running.request = some id →
      running.rest.finished = true

/-- A login draws an id nobody has revoked, and what is revoked was handed
out. -/
def Unguessed (hashOpaqueToken : Plaintext → SessionHash)
    (world : World Store Request Answer Outcome) : Event Request → Prop
  | .start request =>
    (∀ id ∈ drawn hashOpaqueToken request, ∀ running ∈ world.calls,
      revoking hashOpaqueToken running.request ≠ some id) ∧
    ∀ id ∈ revoking hashOpaqueToken request, Issued hashOpaqueToken world id
  | _ => True

instance (hashOpaqueToken : Plaintext → SessionHash)
    (world : World Store Request Answer Outcome) (id : SessionHash) :
    Decidable (Issued hashOpaqueToken world id) :=
  inferInstanceAs (Decidable (∀ running ∈ world.calls,
    drawn hashOpaqueToken running.request = some id → running.rest.finished = true))

instance (hashOpaqueToken : Plaintext → SessionHash)
    (world : World Store Request Answer Outcome) (event : Event Request) :
    Decidable (Unguessed hashOpaqueToken world event) :=
  match event with
  | .start request =>
    inferInstanceAs (Decidable ( (∀ id ∈ drawn hashOpaqueToken request, ∀ running ∈ world.calls,
        revoking hashOpaqueToken running.request ≠ some id) ∧
      ∀ id ∈ revoking hashOpaqueToken request, Issued hashOpaqueToken world id))
  | .advance _ => .isTrue trivial
  | .elapse _ => .isTrue trivial

/-- Every answer that ends the call comes from a command that leaves `gone`
true. -/
def EndsOn (perform : (command : Command) → Store → Answer command × Store)
    (gone : Store → Prop) : Call Answer Outcome → Prop
  | .done _ => True
  | .ask command next => ∀ store,
      (next (perform command store).1).finished = true → gone (perform command store).2

structure Revocable (service : Service Store Request Answer Outcome)
    (hashOpaqueToken : Plaintext → SessionHash) where
  stored : SessionHash → Store → Prop
  creates : Command → SessionHash → Prop
  perform_absent : ∀ {id command store}, ¬ stored id store →
    ¬ creates command id → ¬ stored id (service.perform command store).2
  elapse_absent : ∀ {id duration store}, ¬ stored id store →
    ¬ stored id (service.elapse duration store)
  creates_drawn : ∀ request id, drawn hashOpaqueToken request ≠ some id →
    Call.Asks (fun command => ¬ creates command id) (service.program request)
  revoke_asks : ∀ token, (service.program (.revoke token)).finished = false
  revoke_removes : ∀ token, Call.Everywhere (EndsOn service.perform fun store =>
        ¬ stored (hashOpaqueToken token) store)
      (service.program (.revoke token))
  resolve_absent : ∀ token, ∃ command next,
    service.program (.resolve token) = .ask command next ∧
      ∀ store, ¬ stored (hashOpaqueToken token) store →
        next (service.perform command store).1 = .done (.resolved none)

variable {service : Service Store Request Answer Outcome}
  {hashOpaqueToken : Plaintext → SessionHash}
  (revocable : Revocable service hashOpaqueToken)

namespace Revocable

/-- What holds of every world a schedule of unguessed requests reaches. -/
structure Sound (world : World Store Request Answer Outcome) : Prop where
  creates_drawn : ∀ running ∈ world.calls, ∀ id,
    drawn hashOpaqueToken running.request ≠ some id →
      Call.Asks (fun command => ¬ revocable.creates command id) running.rest
  revoke_removes : ∀ running ∈ world.calls, ∀ token,
    running.request = .revoke token → Call.Everywhere (EndsOn service.perform fun store =>
          ¬ revocable.stored (hashOpaqueToken token) store)
        running.rest
  issued : ∀ running ∈ world.calls, ∀ id ∈ revoking hashOpaqueToken running.request,
      Issued hashOpaqueToken world id
  gone : ∀ running ∈ world.calls, ∀ token,
    running.request = .revoke token → running.rest.finished = true →
      ¬ revocable.stored (hashOpaqueToken token) world.store

variable {revocable}
  {world next : World Store Request Answer Outcome} {event : Event Request}

theorem Sound.initial (store : Store) : revocable.Sound (World.initial store) := by
  constructor <;> intro running member <;> cases member

variable {id : SessionHash}

theorem issued_step (issued : Issued hashOpaqueToken world id)
    (known : ∃ running ∈ world.calls, revoking hashOpaqueToken running.request = some id)
    (unguessed : Unguessed hashOpaqueToken world event)
    (taken : service.step world event = some next) :
    Issued hashOpaqueToken next id := by
  intro running member draws
  obtain ⟨index, found⟩ := List.mem_iff_getElem?.mp member
  rcases service.step_calls taken found with same | started | advanced
  · exact issued running (List.mem_of_getElem? same) draws
  · obtain ⟨rfl, _atEnd, _program⟩ := started
    obtain ⟨other, present, revokes⟩ := known
    exact (unguessed.1 id draws other present revokes).elim
  · obtain ⟨command, rest, _advance, before, _remaining⟩ := advanced
    have closed := issued _ (List.mem_of_getElem? before) draws
    cases closed

theorem known_step (known : ∃ running ∈ world.calls,
      revoking hashOpaqueToken running.request = some id)
    (taken : service.step world event = some next) :
    ∃ running ∈ next.calls, revoking hashOpaqueToken running.request = some id := by
  obtain ⟨running, member, presents⟩ := known
  obtain ⟨index, found⟩ := List.mem_iff_getElem?.mp member
  obtain ⟨rest, after⟩ := service.step_keeps_request taken found
  exact ⟨_, List.mem_of_getElem? after, presents⟩

theorem Sound.absent_step (sound : revocable.Sound world)
    (issued : Issued hashOpaqueToken world id)
    (absent : ¬ revocable.stored id world.store)
    (taken : service.step world event = some next) :
    ¬ revocable.stored id next.store := by
  cases event with
  | start request =>
    have after := service.step_start taken
    subst after
    exact absent
  | advance index =>
    obtain ⟨request, command, rest, moving, rfl⟩ :=
      service.step_advance taken
    have member := List.mem_of_getElem? moving
    have other : drawn hashOpaqueToken request ≠ some id := by
      intro draws
      have closed := issued _ member draws
      cases closed
    have harmless := (sound.creates_drawn _ member id other).here
    exact revocable.perform_absent absent harmless
  | elapse duration =>
    have after := service.step_elapse taken
    subst after
    exact revocable.elapse_absent absent

theorem Sound.step (sound : revocable.Sound world)
    (unguessed : Unguessed hashOpaqueToken world event)
    (taken : service.step world event = some next) :
    revocable.Sound next := by
  constructor
  · intro running member id other
    obtain ⟨index, found⟩ := List.mem_iff_getElem?.mp member
    rcases service.step_calls taken found with same | started | advanced
    · exact sound.creates_drawn running (List.mem_of_getElem? same) id other
    · rw [started.2.2]
      exact revocable.creates_drawn _ id other
    · obtain ⟨command, rest, _advance, before, remaining⟩ := advanced
      rw [remaining]
      exact (sound.creates_drawn _ (List.mem_of_getElem? before) id other).next _
  · intro running member token revokes
    obtain ⟨index, found⟩ := List.mem_iff_getElem?.mp member
    rcases service.step_calls taken found with same | started | advanced
    · exact sound.revoke_removes running (List.mem_of_getElem? same) token revokes
    · rw [started.2.2, revokes]
      exact revocable.revoke_removes token
    · obtain ⟨command, rest, _advance, before, remaining⟩ := advanced
      rw [remaining]
      exact (sound.revoke_removes _ (List.mem_of_getElem? before) token revokes).next _
  · intro running member id revokes
    obtain ⟨index, found⟩ := List.mem_iff_getElem?.mp member
    rcases service.step_calls taken found with same | started | advanced
    · have before := List.mem_of_getElem? same
      exact issued_step (sound.issued running before id revokes)
        ⟨running, before, revokes⟩ unguessed taken
    · obtain ⟨rfl, _atEnd, _program⟩ := started
      have issued := unguessed.2 id revokes
      have after := service.step_start taken
      subst after
      intro other present draws
      rcases List.mem_append.mp present with old | new
      · exact issued other old draws
      · rw [List.mem_singleton.mp new] at draws
        cases kind : running.request with
        | revoke token => rw [kind] at draws; cases draws
        | login _ _ _ _ _ => rw [kind] at revokes; cases revokes
        | resolve _ => rw [kind] at revokes; cases revokes
        | revokeAll _ => rw [kind] at revokes; cases revokes
    · obtain ⟨command, rest, _advance, moving, _remaining⟩ := advanced
      have before := List.mem_of_getElem? moving
      exact issued_step (sound.issued _ before id revokes) ⟨_, before, revokes⟩ unguessed taken
  · intro running member token revokes closed
    obtain ⟨index, found⟩ := List.mem_iff_getElem?.mp member
    have asked : revoking hashOpaqueToken running.request = some (hashOpaqueToken token) := by
      rw [revokes]
      rfl
    rcases service.step_calls taken found with same | started | advanced
    · have before := List.mem_of_getElem? same
      exact sound.absent_step (sound.issued running before _ asked)
        (sound.gone running before token revokes closed) taken
    · rw [started.2.2, revokes, revocable.revoke_asks token] at closed
      cases closed
    · obtain ⟨command, rest, rfl, moving, remaining⟩ := advanced
      have before := List.mem_of_getElem? moving
      have removes := (sound.revoke_removes _ before token revokes).here
      obtain ⟨request, other, next, advancing, rfl⟩ :=
        service.step_advance taken
      rw [moving] at advancing
      cases advancing
      rw [remaining] at closed
      exact removes world.store closed

/-- The session `id` is gone, and a `resolve` of it that is not among the first
`count` calls has not asked the store yet or found nothing. -/
structure Gone (revocable : Revocable service hashOpaqueToken)
    (id : SessionHash) (count : Nat)
    (world : World Store Request Answer Outcome) : Prop where
  sound : revocable.Sound world
  issued : Issued hashOpaqueToken world id
  known : ∃ running ∈ world.calls, revoking hashOpaqueToken running.request = some id
  absent : ¬ revocable.stored id world.store
  started : count ≤ world.calls.length
  later : ∀ index running token, count ≤ index → world.calls[index]? = some running →
      running.request = .resolve token → hashOpaqueToken token = id →
        running.rest = service.program (.resolve token) ∨ running.rest = .done (.resolved none)

theorem calls_length_step (taken : service.step world event = some next) :
    world.calls.length ≤ next.calls.length := by
  cases event with
  | start request =>
    have after := service.step_start taken
    subst after
    simp
  | advance index =>
    obtain ⟨_request, _command, _rest, _moving, rfl⟩ :=
      service.step_advance taken
    simp
  | elapse duration =>
    have after := service.step_elapse taken
    subst after
    exact Nat.le_refl _

theorem Gone.step {count : Nat} (gone : revocable.Gone id count world)
    (unguessed : Unguessed hashOpaqueToken world event)
    (taken : service.step world event = some next) :
    revocable.Gone id count next where
  sound := gone.sound.step unguessed taken
  issued := issued_step gone.issued gone.known unguessed taken
  known := known_step gone.known taken
  absent := gone.sound.absent_step gone.issued gone.absent taken
  started := Nat.le_trans gone.started (calls_length_step taken)
  later := by
    intro index running token after found resolves same_id
    rcases service.step_calls taken found with same | started | advanced
    · exact gone.later index running token after same resolves same_id
    · rw [started.2.2, resolves]
      exact .inl rfl
    · obtain ⟨command, rest, _advance, before, remaining⟩ := advanced
      have state := gone.later index _ token after before resolves same_id
      rcases state with waiting | closed
      · obtain ⟨first, then_, program, answered⟩ :=
          revocable.resolve_absent token
        rw [program] at waiting
        cases waiting
        right
        rw [remaining]
        apply answered
        rw [same_id]
        exact gone.absent
      · cases closed

theorem sticks {clock : Store} {before after : List (Event Request)}
    {middle final : World Store Request Answer Outcome}
    (early : Runs.Meets service.step (Unguessed hashOpaqueToken) (World.initial clock) before)
    (late : Runs.Meets service.step (Unguessed hashOpaqueToken) middle after)
    (reached : Runs.exec service.step (World.initial clock) before = some middle)
    (continued : Runs.exec service.step middle after = some final)
    {revocation : Running Request Answer Outcome} {token : Plaintext}
    (present : revocation ∈ middle.calls)
    (revokes : revocation.request = .revoke token)
    (closed : revocation.rest.finished = true) :
    revocable.Gone (hashOpaqueToken token) middle.calls.length final := by
  have sound : revocable.Sound middle := by
    refine Runs.exec_invariant_of_meets ?_ early (Sound.initial clock) reached
    intro _world _event _next sound unguessed taken
    exact sound.step unguessed taken
  have asked : revoking hashOpaqueToken revocation.request = some (hashOpaqueToken token) := by
    rw [revokes]
    rfl
  have gone : revocable.Gone (hashOpaqueToken token) middle.calls.length middle := by
    refine ⟨sound, sound.issued _ present _ asked, ⟨_, present, asked⟩,
      sound.gone _ present token revokes closed, Nat.le_refl _, ?_⟩
    intro index running other outside found
    rw [List.getElem?_eq_none outside] at found
    cases found
  refine Runs.exec_invariant_of_meets ?_ late gone continued
  intro _world _event _next gone unguessed taken
  exact gone.step unguessed taken

theorem Gone.resolve_result {count : Nat}
    (gone : revocable.Gone id count world) {later : Nat} {token : Plaintext}
    {result : Outcome} (same : hashOpaqueToken token = id)
    (started : count ≤ later)
    (found : world.calls[later]? = some ⟨.resolve token, .done result⟩) :
    result = .resolved none := by
  rcases gone.later later _ token started found rfl same with waiting | closed
  · obtain ⟨command, rest, program, _answered⟩ :=
      revocable.resolve_absent token
    rw [program] at waiting
    cases waiting
  · cases closed
    rfl

end Revocable

end Revocation

namespace RedisSessionStore

/-- `SET` without `XX`, under the key of the session. -/
def Creates (id : SessionHash) : RedisCommand → Prop
  | .set key _ _ => key = id
  | _ => False

theorem perform_absent {id : SessionHash} {command : RedisCommand}
    {redis : Redis} (absent : redis.strings id = none)
    (harmless : ¬ Creates id command) :
    (Expiring.Keyspace.perform command redis).2.strings id = none := by
  cases command with
  | set key value lifetime =>
    have different : id ≠ key := fun same => harmless same.symm
    simpa [Expiring.Keyspace.perform, different] using absent
  | setXX key value lifetime =>
    simp only [Expiring.Keyspace.perform]
    split
    · rename_i present
      have different : id ≠ key := by
        rintro rfl
        simp [absent] at present
      simpa [different] using absent
    · exact absent
  | del keys =>
    simp only [Expiring.Keyspace.perform, Expiring.Keyspace.discard]
    split
    · rfl
    · exact absent
  | time => exact absent
  | get key => exact absent
  | sadd owner member => simpa [Expiring.Keyspace.perform] using absent
  | srem owner member => simpa [Expiring.Keyspace.perform] using absent
  | smembers owner => exact absent
  | expire owner lifetime => simpa [Expiring.Keyspace.perform] using absent
  | delSet owner => exact absent

variable {id : SessionHash}

theorem unlist_creates (sessionId : SessionHash) (raw : Option Session) :
    Call.Asks (fun command => ¬ Creates id command) (unlist sessionId raw) := by
  cases raw with
  | none => trivial
  | some payload => simp [unlist, client, Call.issue, Creates]

theorem delete_creates (sessionId : SessionHash) :
    Call.Asks (fun command => ¬ Creates id command) (delete sessionId) := by
  constructor
  · exact not_false
  · intro raw
    apply Call.Asks.bind (unlist_creates sessionId raw)
    intro _unlisted
    exact ⟨not_false, fun _ => trivial⟩

theorem get_creates (sessionId : SessionHash) :
    Call.Asks (fun command => ¬ Creates id command) (get sessionId) := by
  constructor
  · exact not_false
  · intro raw
    cases raw with
    | none => trivial
    | some session =>
      constructor
      · exact not_false
      · intro now
        show Call.Asks _ (if isExpired session now = true then _ else _)
        split
        · apply Call.Asks.bind (delete_creates sessionId)
          intro _deleted
          trivial
        · trivial

theorem set_creates (session : Session) (other : session.sessionId ≠ id) :
    Call.Asks (fun command => ¬ Creates id command) (set session) := by
  refine ⟨not_false, fun _now => ⟨other, fun _ => ?_⟩⟩
  exact ⟨not_false, fun _ => ⟨not_false, fun _ => trivial⟩⟩

theorem touch_creates (session : Session) :
    Call.Asks (fun command => ¬ Creates id command) (touch session) := by
  refine ⟨not_false, fun _now => ⟨not_false, fun written => ?_⟩⟩
  cases written with
  | false => trivial
  | true => exact ⟨not_false, fun _ => trivial⟩

theorem deleteByUser_creates (userId : UserId) :
    Call.Asks (fun command => ¬ Creates id command) (deleteByUser userId) := by
  constructor
  · exact not_false
  · intro decoded
    have deletes : Call.Asks (fun command => ¬ Creates id command)
        (deleteSessions decoded) := by
      unfold deleteSessions
      split
      · trivial
      · exact ⟨not_false, fun _ => trivial⟩
    apply Call.Asks.bind deletes
    intro _deleted
    exact ⟨not_false, fun _ => trivial⟩

variable {settings : SessionSettings}
  {hashOpaqueToken : Plaintext → SessionHash}

theorem rotate_creates (previous : Option Plaintext) :
    Call.Asks (fun command => ¬ Creates id command)
      ((redisAuth settings hashOpaqueToken).rotate previous) := by
  cases previous with
  | none => trivial
  | some token =>
    simp only [SessionAuth.rotate]
    split
    · exact delete_creates _
    · trivial

theorem login_creates {userId : UserId} {ip userAgent : Option String}
    {previous : Option Plaintext} {token : Plaintext}
    (other : hashOpaqueToken token ≠ id) :
    Call.Asks (fun command => ¬ Creates id command)
      ((redisAuth settings hashOpaqueToken).login userId ip userAgent previous token) := by
  apply Call.Asks.bind (rotate_creates previous)
  intro _rotated
  refine ⟨not_false, fun now => ?_⟩
  apply Call.Asks.bind (set_creates ((redisAuth settings hashOpaqueToken).newSession userId ip
      userAgent token now) other)
  intro _stored
  trivial

theorem resolve_creates (token : Plaintext) : Call.Asks (fun command => ¬ Creates id command)
      ((redisAuth settings hashOpaqueToken).resolve token) := by
  apply Call.Asks.bind (get_creates _)
  intro found
  cases found with
  | none => trivial
  | some session =>
    refine ⟨not_false, fun now => ?_⟩
    apply Call.Asks.bind (touch_creates _)
    intro touched
    cases touched <;> trivial

theorem program_creates (request : Request) (other : drawn hashOpaqueToken request ≠ some id) :
    Call.Asks (fun command => ¬ Creates id command)
      ((redisService settings hashOpaqueToken).program request) := by
  cases request with
  | login userId ip userAgent previous token =>
    have different : hashOpaqueToken token ≠ id := by
      intro same
      exact other (congrArg some same)
    apply Call.Asks.bind (login_creates different)
    intro _opened
    trivial
  | resolve token =>
    apply Call.Asks.bind (resolve_creates token)
    intro _session
    trivial
  | revoke token =>
    apply Call.Asks.bind (delete_creates _)
    intro _deleted
    trivial
  | revokeAll userId =>
    apply Call.Asks.bind (deleteByUser_creates userId)
    intro _count
    trivial

theorem revoke_endsOn (token : Plaintext) : Call.Everywhere
      (EndsOn Expiring.Keyspace.perform fun redis : Redis =>
        ¬ redis.strings (hashOpaqueToken token) ≠ none)
      ((redisService settings hashOpaqueToken).program (.revoke token)) := by
  have del_removes : ∀ redis : Redis, ¬ (redis.discard [hashOpaqueToken token]).strings
        (hashOpaqueToken token) ≠ none := by
    intro redis stored
    apply stored
    exact Expiring.Keyspace.discard_of_mem List.mem_cons_self
  have goes_on : ∀ raw : Option Session, ((do
          unlist (hashOpaqueToken token) raw
          client (.del [hashOpaqueToken token])) >>= fun _deleted =>
            pure Outcome.revoked : RedisCall Outcome).finished = false := by
    intro raw
    cases raw <;> rfl
  constructor
  · intro redis closed
    have unfinished := goes_on ((redis.strings (hashOpaqueToken token)).map Prod.fst)
    cases unfinished.symm.trans closed
  · intro raw
    cases raw with
    | none => exact ⟨fun redis _over => del_removes redis, fun _ => trivial⟩
    | some payload =>
      refine ⟨?_, fun _ =>
        ⟨fun redis _over => del_removes redis, fun _ => trivial⟩⟩
      intro _redis closed
      cases closed

end RedisSessionStore

def redisRevocable (settings : SessionSettings) (hashOpaqueToken : Plaintext → SessionHash) :
    Revocable (redisService settings hashOpaqueToken) hashOpaqueToken where
  stored id redis := redis.strings id ≠ none
  creates command id := RedisSessionStore.Creates id command
  perform_absent absent harmless stored :=
    stored (RedisSessionStore.perform_absent (not_not.mp absent) harmless)
  elapse_absent := by
    intro id duration redis absent stored
    cases kept : (redis.elapse duration).strings id with
    | none => exact stored kept
    | some session =>
      obtain ⟨before, _lasts⟩ := Expiring.Keyspace.elapse_strings.mp kept
      exact absent (by simp [before])
  creates_drawn request id other :=
    RedisSessionStore.program_creates request other
  revoke_asks token := rfl
  revoke_removes token := RedisSessionStore.revoke_endsOn token
  resolve_absent token := by
    refine ⟨_, _, rfl, ?_⟩
    intro redis absent
    have missing : redis.strings (hashOpaqueToken token) = none :=
      not_not.mp absent
    have answer : (redis.strings (hashOpaqueToken token)).map Prod.fst = none := by
      simp [missing]
    simp [redisService, redisAuth, Expiring.Keyspace.perform, answer, Call.bind]

namespace Memory

variable {memory : Memory} {id : SessionHash}

@[simp] theorem discard_sessions (userId : UserId) (sessionId : SessionHash) :
    (memory.discard userId sessionId).sessions = memory.sessions := rfl

@[simp] theorem prune_sessions (userId : UserId) :
    (memory.prune userId).sessions = memory.sessions := by
  unfold prune
  split <;> rfl

@[simp] theorem rehome_sessions (session : Session) :
    (memory.rehome session).sessions = memory.sessions := by
  unfold rehome
  split
  · split <;> rfl
  · rfl

theorem forget_absent {sessionId : SessionHash} (absent : memory.sessions id = none) :
    (memory.forget sessionId).sessions id = none := by
  unfold forget
  by_cases same : id = sessionId
  · simp [same]
  · simpa [same] using absent

theorem delete_sessions (sessionId : SessionHash) : (memory.delete sessionId).sessions =
      (memory.forget sessionId).sessions := by
  unfold delete
  split
  · rfl
  · simp

theorem get_absent {sessionId : SessionHash} (absent : memory.sessions id = none) :
    (memory.get sessionId).2.sessions id = none := by
  unfold get
  split
  · split
    · simpa [evict] using forget_absent absent
    · exact absent
  · exact absent

theorem touch_absent {object : Reference} (absent : memory.sessions id = none) :
    (memory.touch object).2.sessions id = none := by
  unfold touch
  split
  · exact absent
  · rename_i session found
    split
    · exact absent
    · rename_i existing present
      split
      · have different : id ≠ session.sessionId := by
          rintro rfl
          simp [stored, absent] at present
        simpa [different] using absent
      · exact absent

theorem set_absent {session : Session} (different : session.sessionId ≠ id)
    (absent : memory.sessions id = none) :
    (memory.set session).sessions id = none := by
  have other : id ≠ session.sessionId := fun same => different same.symm
  simpa [set, other] using absent

end Memory

namespace MemorySessionStore

def Creates (id : SessionHash) : MemoryCommand → Prop
  | .set session => session.sessionId = id
  | _ => False

theorem perform_absent {id : SessionHash} {command : MemoryCommand}
    {memory : Memory} (absent : memory.sessions id = none)
    (harmless : ¬ Creates id command) :
    (Memory.perform command memory).2.sessions id = none := by
  cases command with
  | time => exact absent
  | get sessionId => exact Memory.get_absent absent
  | set session => exact Memory.set_absent harmless absent
  | touch object => exact Memory.touch_absent absent
  | delete sessionId =>
    simp only [Memory.perform, Memory.delete_sessions]
    exact Memory.forget_absent absent
  | deleteByUser userId =>
    simp only [Memory.perform, Memory.deleteByUser]
    split
    · rfl
    · exact absent
  | assign object change => exact absent
  | read object => exact absent

variable {settings : SessionSettings}
  {hashOpaqueToken : Plaintext → SessionHash} {id : SessionHash}

theorem rotate_creates (previous : Option Plaintext) :
    Call.Asks (fun command => ¬ Creates id command)
      ((memoryAuth settings hashOpaqueToken).rotate previous) := by
  cases previous with
  | none => trivial
  | some token =>
    simp only [SessionAuth.rotate]
    split
    · exact ⟨not_false, fun _ => trivial⟩
    · trivial

theorem program_creates (request : Request) (other : drawn hashOpaqueToken request ≠ some id) :
    Call.Asks (fun command => ¬ Creates id command)
      ((memoryService settings hashOpaqueToken).program request) := by
  cases request with
  | login userId ip userAgent previous token =>
    have different : hashOpaqueToken token ≠ id := by
      intro same
      exact other (congrArg some same)
    refine Call.Asks.bind (Call.Asks.bind (rotate_creates previous) fun _rotated => ?_)
      fun _opened => trivial
    exact ⟨not_false, fun _now => ⟨different, fun _ => trivial⟩⟩
  | resolve token =>
    refine ⟨not_false, fun found => ?_⟩
    cases found with
    | none => trivial
    | some object =>
      refine ⟨not_false, fun _now => ⟨not_false, fun _ =>
        ⟨not_false, fun touched => ?_⟩⟩⟩
      cases touched with
      | false => trivial
      | true => exact ⟨not_false, fun _ => trivial⟩
  | revoke token => exact ⟨not_false, fun _ => trivial⟩
  | revokeAll userId => exact ⟨not_false, fun _ => trivial⟩

end MemorySessionStore

def memoryRevocable (settings : SessionSettings) (hashOpaqueToken : Plaintext → SessionHash) :
    Revocable (memoryService settings hashOpaqueToken) hashOpaqueToken where
  stored id memory := memory.sessions id ≠ none
  creates command id := MemorySessionStore.Creates id command
  perform_absent absent harmless stored :=
    stored (MemorySessionStore.perform_absent (not_not.mp absent) harmless)
  elapse_absent absent := absent
  creates_drawn request id other :=
    MemorySessionStore.program_creates request other
  revoke_asks token := rfl
  revoke_removes token := by
    refine ⟨fun memory _over stored => stored ?_, fun _ => trivial⟩
    simp only [memoryService, Memory.perform]
    show (memory.delete (hashOpaqueToken token)).sessions _ = none
    rw [Memory.delete_sessions]
    simp [Memory.forget]
  resolve_absent token := by
    refine ⟨_, _, rfl, ?_⟩
    intro memory absent
    have missing : memory.sessions (hashOpaqueToken token) = none :=
      not_not.mp absent
    have answer : (memory.get (hashOpaqueToken token)).1 = none := by
      simp [Memory.get, missing]
    simp [memoryService, memoryAuth, Memory.perform, answer, Call.bind]

/-- Once a revocation has returned, however the other calls are interleaved
with it and with what follows, the session is never stored again and no
`resolve` that starts afterwards returns it. -/
theorem revocation_sticks (settings : SessionSettings)
    (hashOpaqueToken : Plaintext → SessionHash) (clock : Nat) :
    (∀ (before after : List (Event Request))
        (middle final : World Redis Request RedisAnswer Outcome)
        (position : Nat) (token : Plaintext) (outcome : Outcome),
      Runs.Meets (redisService settings hashOpaqueToken).step (Unguessed hashOpaqueToken)
          (World.initial (Expiring.Keyspace.empty clock)) before →
        Runs.exec (redisService settings hashOpaqueToken).step
            (World.initial (Expiring.Keyspace.empty clock)) before =
          some middle →
        middle.calls[position]? = some ⟨.revoke token, .done outcome⟩ →
        Runs.Meets (redisService settings hashOpaqueToken).step
          (Unguessed hashOpaqueToken) middle after →
        Runs.exec (redisService settings hashOpaqueToken).step middle after = some final →
        final.store.strings (hashOpaqueToken token) = none ∧
          ∀ later other result, hashOpaqueToken other = hashOpaqueToken token →
            middle.calls.length ≤ later →
            final.calls[later]? = some ⟨.resolve other, .done result⟩ →
            result = .resolved none) ∧
      ∀ (before after : List (Event Request))
        (middle final : World Memory Request MemoryAnswer Outcome)
        (position : Nat) (token : Plaintext) (outcome : Outcome),
      Runs.Meets (memoryService settings hashOpaqueToken).step (Unguessed hashOpaqueToken)
          (World.initial (Memory.empty clock)) before →
        Runs.exec (memoryService settings hashOpaqueToken).step
            (World.initial (Memory.empty clock)) before = some middle →
        middle.calls[position]? = some ⟨.revoke token, .done outcome⟩ →
        Runs.Meets (memoryService settings hashOpaqueToken).step
          (Unguessed hashOpaqueToken) middle after →
        Runs.exec (memoryService settings hashOpaqueToken).step middle after = some final →
        final.store.sessions (hashOpaqueToken token) = none ∧
          ∀ later other result, hashOpaqueToken other = hashOpaqueToken token →
            middle.calls.length ≤ later →
            final.calls[later]? = some ⟨.resolve other, .done result⟩ →
            result = .resolved none := by
  constructor
  · intro before after middle final position token outcome early reached revoked late continued
    have gone := (redisRevocable settings hashOpaqueToken).sticks early late
      reached continued (List.mem_of_getElem? revoked) rfl rfl
    exact ⟨not_not.mp gone.absent, fun later other result same started found =>
      gone.resolve_result same started found⟩
  · intro before after middle final position token outcome early reached revoked late continued
    have gone := (memoryRevocable settings hashOpaqueToken).sticks early late
      reached continued (List.mem_of_getElem? revoked) rfl rfl
    exact ⟨not_not.mp gone.absent, fun later other result same started found =>
      gone.resolve_result same started found⟩

def slidingMinute : SessionSettings where
  sessionTtlSeconds := 60
  sessionSliding := true
  sessionRotateOnLogin := true
  ttlAtLeastAMinute := minute_allowed

def advances (index count : Nat) : List (Event Request) :=
  List.replicate count (.advance index)

/-- A login, a `resolve` that has read the session, and its revocation.  The
numbers are how many commands each sends. -/
def revokedMidway (login read delete : Nat) : List (Event Request) :=
  [.start (.login 1 none none none 7)] ++ advances 0 login ++
    [.start (.resolve 7)] ++ advances 1 read ++
    [.start (.revoke 7)] ++ advances 2 delete

/-- The `resolve` writes, and another one starts. -/
def resolvedAfter : List (Event Request) :=
  advances 1 1 ++ [.start (.resolve 7)] ++ advances 3 1

theorem revocation_beats_touch : (∃ middle final, Runs.exec (redisService slidingMinute id).step
          (World.initial (Expiring.Keyspace.empty 0)) (revokedMidway 5 4 3) =
          some middle ∧
        Runs.exec (redisService slidingMinute id).step middle resolvedAfter = some final ∧
        final.store.strings 7 = none) ∧
      ∃ middle final, Runs.exec (memoryService slidingMinute id).step
            (World.initial (Memory.empty 0)) (revokedMidway 2 3 1) =
            some middle ∧
          Runs.exec (memoryService slidingMinute id).step middle resolvedAfter = some final ∧
          final.store.sessions 7 = none := by
  constructor
  · refine ⟨_, _, rfl, rfl, ?_⟩
    exact ((revocation_sticks slidingMinute id 0).1 (revokedMidway 5 4 3)
      resolvedAfter _ _ 2 7 .revoked (by decide) rfl rfl (by decide) rfl).1
  · refine ⟨_, _, rfl, rfl, ?_⟩
    exact ((revocation_sticks slidingMinute id 0).2 (revokedMidway 2 3 1)
      resolvedAfter _ _ 2 7 .revoked (by decide) rfl rfl (by decide) rfl).1

end TempestSdk.Sessions
