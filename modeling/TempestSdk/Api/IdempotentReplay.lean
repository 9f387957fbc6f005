import TempestSdk.Api.IdempotentRuns
import TempestSdk.Library.Framed

/-!
# What a caller of an idempotent endpoint gets

The answer to the request that ran the handler, and the answers that replay
it.  Both rebuild the headers through a dictionary, so a repeated header keeps
its last value only.  A response is replayed to the request it was stored for:
the digest determines the method, the path, the query and the body.
-/

namespace TempestSdk.Idempotency

open Framed

def encode (text : String) : List UInt8 := text.toByteArray.data.toList

/-- The parts that `_request_fingerprint` digests. -/
def fingerprintParts (request : Request) : List (List UInt8) :=
  [encode request.method, encode request.path, encode request.query, request.body.1]

/-- `_request_fingerprint` with this digest. -/
def Config.digesting (config : Config) (sha256 : List UInt8 → String) : Config :=
  { config with
    requestFingerprint := fun request =>
      sha256 (framed (fingerprintParts request)) }

def SameRequest (first second : Request) : Prop :=
  first.method = second.method ∧ first.path = second.path ∧
    first.query = second.query ∧ first.body = second.body

theorem encode_injective {first second : String}
    (same : encode first = encode second) : first = second :=
  String.toByteArray_inj.mp (ByteArray.ext (Array.toList_inj.mp same))

theorem parts_short (request : Request) :
    ∀ part ∈ fingerprintParts request, part.length < 2 ^ 64 := by
  have encoded : ∀ text ∈ [request.method, request.path, request.query],
      (encode text).length < 2 ^ 64 := by
    intro text member
    have sized := request.sized text member
    have length : (encode text).length = text.utf8ByteSize := rfl
    omega
  intro part member
  simp only [fingerprintParts, List.mem_cons, List.not_mem_nil, or_false] at member
  rcases member with rfl | rfl | rfl | rfl
  · exact encoded _ (by simp)
  · exact encoded _ (by simp)
  · exact encoded _ (by simp)
  · exact Nat.lt_trans request.body.2 (by decide)

theorem fingerprint_eq_iff {config : Config} {sha256 : List UInt8 → String}
    (collisionless : ∀ first second, sha256 first = sha256 second →
      first = second) {first second : Request} :
    (config.digesting sha256).requestFingerprint first =
        (config.digesting sha256).requestFingerprint second ↔
      SameRequest first second := by
  constructor
  · intro same
    have parts := framed_injective (parts_short first) (parts_short second)
      (collisionless _ _ same)
    simp only [fingerprintParts, List.cons.injEq, and_true] at parts
    obtain ⟨method, path, query, body⟩ := parts
    exact ⟨encode_injective method, encode_injective path,
      encode_injective query, Subtype.ext body⟩
  · rintro ⟨method, path, query, body⟩
    simp [Config.digesting, fingerprintParts, method, path, query, body]

/-- The answer has the status, the body and the headers of the response, in
any order. -/
structure Faithful (answer response : Response) : Prop where
  status_code : answer.status_code = response.status_code
  body : answer.body = response.body
  headers : answer.headers.Perm response.headers

/-- What a replay may give: the response without `Set-Cookie`. -/
def replayable (response : Response) : Response :=
  { response with
    headers := response.headers.filter fun header =>
      header.1.toLower ∉ unreplayableHeaders }

/-- What Starlette adds is in lower case and was not given. -/
structure Config.Lawful (config : Config) : Prop where
  lower : ∀ given, ∀ header ∈ config.defaultHeaders given, header.1.toLower = header.1
  absent : ∀ given, ∀ header ∈ config.defaultHeaders given,
    header.1 ∉ given.headers.map fun known => known.1.toLower

/-- The headers have distinct names in lower case, and nothing is added to
them. -/
structure Config.Plain (config : Config) (response : Response) : Prop where
  distinct : (response.headers.map Prod.fst).Nodup
  lower : ∀ header ∈ response.headers, header.1.toLower = header.1
  complete : config.defaultHeaders response = []

theorem toLower_toLower (char : Char) : char.toLower.toLower = char.toLower := by
  unfold Char.toLower
  split
  · next upper =>
      have above : ¬ (char.val + ('a'.val - 'A'.val) ≤ 'Z'.val) := by
        have low := UInt32.le_iff_toNat_le.mp upper.1
        have high := UInt32.le_iff_toNat_le.mp upper.2
        rw [UInt32.le_iff_toNat_le, UInt32.toNat_add]
        have letters : 'A'.val.toNat = 65 ∧ 'Z'.val.toNat = 90 ∧
            ('a'.val - 'A'.val).toNat = 32 := by decide
        omega
      rw [dif_neg (fun both => above both.2)]
  · rfl

theorem lower_of_chars {text : String} (lower : text.toList.map Char.toLower = text.toList) :
    text.toLower = text := by
  apply String.toList_inj.mp
  change (text.map Char.toLower).toList = text.toList
  rw [String.toList_map]
  exact lower

theorem lower_lower (text : String) : text.toLower.toLower = text.toLower := by
  apply String.toList_inj.mp
  change ((text.map Char.toLower).map Char.toLower).toList = (text.map Char.toLower).toList
  simp only [String.toList_map, List.map_map]
  apply List.map_congr_left
  intro char _
  exact toLower_toLower char

theorem rebuilt_headers (config : Config) (response : Response) :
    (rebuilt config response).headers = (PyDict.ofPairs response.headers).map
          (fun header => (header.1.toLower, header.2)) ++
        config.defaultHeaders
          { response with headers := PyDict.ofPairs response.headers } := rfl

theorem map_lower {headers : List (String × String)}
    (lower : ∀ header ∈ headers, header.1.toLower = header.1) :
    headers.map (fun header => (header.1.toLower, header.2)) = headers := by
  have same : headers.map (fun header => (header.1.toLower, header.2)) = headers.map id := by
    apply List.map_congr_left
    intro header member
    rw [lower header member]
    rfl
  rw [same, List.map_id]

theorem rebuilt_faithful_iff {config : Config} (lawful : config.Lawful) {response : Response} :
    Faithful (rebuilt config response) response ↔ config.Plain response := by
  have unchanged : (response.headers.map Prod.fst).Nodup →
      { response with headers := PyDict.ofPairs response.headers } =
        response := by
    intro distinct
    rw [PyDict.ofPairs_of_nodup distinct]
  constructor
  · intro faithful
    have perm : ((PyDict.ofPairs response.headers).map
          (fun header => (header.1.toLower, header.2)) ++
        config.defaultHeaders { response with headers := PyDict.ofPairs response.headers }).Perm
        response.headers := faithful.headers
    have complete : config.defaultHeaders
        { response with headers := PyDict.ofPairs response.headers } = [] := by
      rw [List.eq_nil_iff_forall_not_mem]
      intro added member
      have among : added.1 ∈ response.headers.map Prod.fst :=
        List.mem_map_of_mem (perm.mem_iff.mp (List.mem_append_right _ member))
      obtain ⟨given, entry, name⟩ :=
        List.mem_map.mp (PyDict.mem_keys_ofPairs.mpr among)
      apply lawful.absent _ added member
      refine List.mem_map.mpr ⟨given, entry, ?_⟩
      rw [name]
      exact lawful.lower _ added member
    rw [complete, List.append_nil] at perm
    have lengths := perm.length_eq
    rw [List.length_map] at lengths
    have distinct : (response.headers.map Prod.fst).Nodup :=
      PyDict.nodup_of_length (Nat.le_of_eq lengths.symm)
    refine ⟨distinct, ?_, ?_⟩
    · intro header member
      obtain ⟨given, _, rfl⟩ := List.mem_map.mp (perm.mem_iff.mpr member)
      exact lower_lower given.1
    · rwa [unchanged distinct] at complete
  · intro plain
    refine ⟨rfl, rfl, ?_⟩
    rw [rebuilt_headers, unchanged plain.distinct, plain.complete,
      PyDict.ofPairs_of_nodup plain.distinct, map_lower plain.lower,
      List.append_nil]

theorem replay_of_same {config : Config} {response : Response} {fingerprint : String} :
    replay config (cachedResponse response fingerprint) fingerprint =
      rebuilt config (replayable response) := by
  simp [replay, cachedResponse, rebuilt, replayable]

/-- The phase that a step of a task leads to, and what the step stores. -/
inductive Turn (config : Config) (task : Task)
    (cached : Option CachedResponse) :
    Event → Phase → Option CachedResponse → Prop where
  | wait (event : Event) : Turn config task cached event .acquiring none
  | acquire (event : Event) : Turn config task cached event .reading none
  | miss : Turn config task cached .read .handling none
  | hit (found : CachedResponse) : cached = some found →
      Turn config task cached .read (.answered (replay config found task.fingerprint)) none
  | stream (response : Response) :
      config.isUnboundedStream response = true →
      Turn config task cached (.handled response) (.answered response) none
  | keep (response : Response) :
      config.isUnboundedStream response = false →
      Turn config task cached (.handled response) (.storing response) none
  | answer (response : Response) :
      config.isUnboundedStream response = false →
      Turn config task cached (.handled response) (.answered (rebuilt config response)) none
  | store (response : Response) : task.phase = .storing response →
      Turn config task cached .stored (.answered (rebuilt config response))
        (some (cachedResponse response task.fingerprint))
  | raise (event : Event) : Turn config task cached event .raised none

def storing (store : String → Option CachedResponse) (key : String) :
    Option CachedResponse → String → Option CachedResponse
  | none => store
  | some cached => Function.update store key (some cached)

theorem act_turn {config : Config} {state next : State} {id : Nat}
    {task : Task} {event : Event} (found : state.tasks id = some task)
    (taken : act config state id task task.phase event = some next) :
    ∃ phase stored, Turn config task (state.store task.cacheKey) event phase stored ∧
      next.tasks = Function.update state.tasks id (some { task with phase }) ∧
      next.store = storing state.store task.cacheKey stored := by
  have gone : ∀ (base : State) phase, base.tasks = state.tasks →
      (leave base id task phase).tasks =
        Function.update state.tasks id (some { task with phase }) ∧
      (leave base id task phase).store = base.store := by
    intro base phase tasks
    constructor
    · simp [leave, State.setTask, State.setLock, tasks]
    · simp [leave, State.setTask, State.setLock]
  cases reached : task.phase with
  | acquiring =>
    rw [reached] at taken
    cases event with
    | resume =>
      have resumed : resume state id task = some next := taken
      unfold resume at resumed
      split at resumed
      · cases resumed
        exact ⟨_, none, .acquire _, rfl, rfl⟩
      · cases resumed
        refine ⟨_, none, .raise _, ?_, ?_⟩
        · simp [abandon, State.setTask, State.setLock]
        · simp [abandon, State.setTask, State.setLock, storing]
      · cases resumed
        refine ⟨_, none, .raise _, ?_, ?_⟩
        · simp [abandon, State.setTask, State.setLock]
        · simp [abandon, State.setTask, State.setLock, storing]
      · cases resumed
      · cases resumed
    | cancel =>
      cases taken
      refine ⟨_, none, .wait _, ?_, rfl⟩
      rw [← reached]
      exact (Function.update_eq_self_iff.mpr found.symm).symm
    | _ => cases taken
  | reading =>
    rw [reached] at taken
    cases event with
    | read =>
      cases taken
      unfold read
      split
      · next cached hit =>
          exact ⟨_, none, .hit cached hit, gone state _ rfl⟩
      · exact ⟨_, none, .miss, rfl, rfl⟩
    | fail =>
      cases taken
      exact ⟨_, none, .raise _, gone state _ rfl⟩
    | _ => cases taken
  | handling =>
    rw [reached] at taken
    cases event with
    | handled response =>
      cases taken
      unfold handled
      split
      · next unbounded =>
          exact ⟨_, none, .stream response unbounded, gone state _ rfl⟩
      · next bounded =>
          have ends := Bool.eq_false_iff.mpr bounded
          split
          · exact ⟨_, none, .keep response ends, rfl, rfl⟩
          · exact ⟨_, none, .answer response ends, gone state _ rfl⟩
    | fail =>
      cases taken
      exact ⟨_, none, .raise _, gone state _ rfl⟩
    | _ => cases taken
  | storing response =>
    rw [reached] at taken
    cases event with
    | stored =>
      cases taken
      unfold stored
      exact ⟨_, _, .store response reached, gone _ _ rfl⟩
    | fail =>
      cases taken
      exact ⟨_, none, .raise _, gone state _ rfl⟩
    | _ => cases taken
  | answered response =>
    rw [reached] at taken
    cases event <;> cases taken
  | raised =>
    rw [reached] at taken
    cases event <;> cases taken

def Stored (config : Config) (past : List Action) (key : String)
    (request : Request) (response : Response) : Prop :=
  ∃ id, .arrive id request ∈ past ∧ cacheKey config request = some key ∧
    .run id (.handled response) ∈ past ∧ .run id .stored ∈ past ∧
    config.isUnboundedStream response = false

/-- What a run leaves goes back to what has happened in it. -/
structure Founded (config : Config) (past : List Action) (state : State) :
    Prop where
  tasks : ∀ id task, state.tasks id = some task → ∃ request, .arrive id request ∈ past ∧
      cacheKey config request = some task.cacheKey ∧
      task.fingerprint = config.requestFingerprint request
  storing : ∀ id task response, state.tasks id = some task → task.phase = .storing response →
    .run id (.handled response) ∈ past ∧ config.isUnboundedStream response = false
  store : ∀ key cached, state.store key = some cached →
    ∃ request response, Stored config past key request response ∧ cached =
        cachedResponse response (config.requestFingerprint request)

section Founded

variable {config : Config} {past : List Action} {state next : State}

theorem Stored.later {key : String} {request : Request} {response : Response}
    (stored : Stored config past key request response) (action : Action) :
    Stored config (past ++ [action]) key request response := by
  obtain ⟨id, arrived, keyed, handled, ended, bounded⟩ := stored
  exact ⟨id, List.mem_append_left _ arrived, keyed,
    List.mem_append_left _ handled, List.mem_append_left _ ended, bounded⟩

theorem Founded.later (founded : Founded config past state) (action : Action) :
    Founded config (past ++ [action]) state where
  tasks := by
    intro id task found
    obtain ⟨request, arrived, rest⟩ := founded.tasks id task found
    exact ⟨request, List.mem_append_left _ arrived, rest⟩
  storing := by
    intro id task response found reached
    obtain ⟨handled, bounded⟩ :=
      founded.storing id task response found reached
    exact ⟨List.mem_append_left _ handled, bounded⟩
  store := by
    intro key cached held
    obtain ⟨request, response, stored, same⟩ := founded.store key cached held
    exact ⟨request, response, stored.later action, same⟩

theorem founded_initial : Founded config [] initial where
  tasks := by
    intro id task found
    cases found
  storing := by
    intro id task response found
    cases found
  store := by
    intro key cached held
    cases held

theorem arrive_task (state : State) (id : Nat) (key fingerprint : String) :
    ∃ task, (arrive state id key fingerprint).tasks =
        Function.update state.tasks id (some task) ∧
      task.cacheKey = key ∧ task.fingerprint = fingerprint ∧
      ∀ response, task.phase ≠ .storing response := by
  obtain ⟨_, tasks, _⟩ := lockFor_frame state key
  simp only [arrive]
  split
  · refine ⟨⟨key, fingerprint, (lockFor state key).2, .reading⟩, ?_, rfl, rfl, ?_⟩
    · simp only [State.setTask, State.setLock, tasks]
    · intro response absurd
      cases absurd
  · refine ⟨⟨key, fingerprint, (lockFor state key).2, .acquiring⟩, ?_, rfl, rfl, ?_⟩
    · simp only [State.setTask, State.setLock, tasks]
    · intro response absurd
      cases absurd

section

variable (founded : Founded config past state)

include founded

theorem Founded.arrive {id : Nat}
    {request : Request} {key : String}
    (keyed : cacheKey config request = some key) :
    Founded config (past ++ [.arrive id request])
      (arrive state id key (config.requestFingerprint request)) := by
  have later := founded.later (.arrive id request)
  obtain ⟨task, tasks, here, digest, waits⟩ :=
    arrive_task state id key (config.requestFingerprint request)
  constructor
  · intro other known found
    rw [tasks] at found
    by_cases same : other = id
    · subst same
      rw [Function.update_self] at found
      cases found
      exact ⟨request, by simp, here ▸ keyed, digest⟩
    · rw [Function.update_of_ne same] at found
      exact later.tasks other known found
  · intro other known response found reached
    rw [tasks] at found
    by_cases same : other = id
    · subst same
      rw [Function.update_self] at found
      cases found
      exact (waits response reached).elim
    · rw [Function.update_of_ne same] at found
      exact later.storing other known response found reached
  · rw [arrive_store]
    exact later.store

theorem Founded.run {id : Nat}
    {event : Event} {task : Task} (found : state.tasks id = some task)
    (taken : act config state id task task.phase event = some next) :
    Founded config (past ++ [.run id event]) next := by
  have later := founded.later (.run id event)
  obtain ⟨phase, stored, turn, tasks, store⟩ := act_turn found taken
  obtain ⟨request, arrived, keyed, digest⟩ := founded.tasks id task found
  constructor
  · intro other known present
    rw [tasks] at present
    by_cases same : other = id
    · subst same
      rw [Function.update_self] at present
      cases present
      exact ⟨request, List.mem_append_left _ arrived, keyed, digest⟩
    · rw [Function.update_of_ne same] at present
      exact later.tasks other known present
  · intro other known response present reached
    rw [tasks] at present
    by_cases same : other = id
    · subst same
      rw [Function.update_self] at present
      cases present
      cases turn with
      | keep given bounded =>
        cases reached
        exact ⟨by simp, bounded⟩
      | _ => cases reached
    · rw [Function.update_of_ne same] at present
      exact later.storing other known response present reached
  · intro key cached held
    rw [store] at held
    cases turn with
    | store response reached =>
      simp only [Idempotency.storing] at held
      by_cases same : key = task.cacheKey
      · subst same
        rw [Function.update_self] at held
        cases held
        obtain ⟨handled, bounded⟩ :=
          founded.storing id task response found reached
        exact ⟨request, response, ⟨id, List.mem_append_left _ arrived, keyed,
            List.mem_append_left _ handled, by simp, bounded⟩, by
          rw [digest]⟩
      · rw [Function.update_of_ne same] at held
        exact later.store key cached held
    | _ => exact later.store key cached held

theorem Founded.step {action : Action}
    (taken : step config state action = some next) :
    Founded config (past ++ [action]) next := by
  cases action with
  | arrive id request =>
    simp only [Idempotency.step] at taken
    split at taken
    · cases taken
    · cases taken
      exact founded.later _
    · next key _ keyed =>
        cases taken
        exact founded.arrive keyed
  | run id event =>
    obtain ⟨task, found, acted⟩ := Option.bind_eq_some_iff.mp taken
    exact founded.run found acted
  | expire key =>
    cases taken
    have later := founded.later (.expire key)
    refine ⟨later.tasks, later.storing, ?_⟩
    intro other cached held
    have kept : Function.update state.store key none other = some cached := held
    by_cases same : other = key
    · simp [same] at kept
    · rw [Function.update_of_ne same] at kept
      exact later.store other cached kept

end

end Founded

/-- The caller that ran the handler gets its response, and one that replays it
gets it without `Set-Cookie`, exactly when its headers go through a dictionary
unchanged; it is replayed to the same request only. -/
theorem answers_faithful {config : Config} {sha256 : List UInt8 → String}
    (lawful : config.Lawful)
    (collisionless : ∀ first second, sha256 first = sha256 second → first = second)
    {past : List Action} {state next : State} {id : Nat} {event : Event}
    {task : Task} {reply : Response}
    (run : Runs.exec (step (config.digesting sha256)) initial past = some state)
    (found : state.tasks id = some task)
    (taken : step (config.digesting sha256) state (.run id event) = some next)
    (answered : next.tasks id = some { task with phase := .answered reply }) :
    ∃ request, .arrive id request ∈ past ∧ cacheKey config request = some task.cacheKey ∧
      ((∃ response, .run id (.handled response) ∈ past ++ [.run id event] ∧
          ((config.isUnboundedStream response = true ∧ reply = response) ∨
            (config.isUnboundedStream response = false ∧ reply = rebuilt config response ∧
              (Faithful reply response ↔ config.Plain response)))) ∨
        ∃ origin response, Stored config past task.cacheKey origin response ∧
          ((¬ SameRequest request origin ∧ reply = keyReused config) ∨
            (SameRequest request origin ∧ reply = rebuilt config (replayable response) ∧
              (Faithful reply (replayable response) ↔
                config.Plain (replayable response))))) := by
  have kept : ∀ past state action next, Founded (config.digesting sha256) past state →
      step (config.digesting sha256) state action = some next →
      Founded (config.digesting sha256) (past ++ [action]) next :=
    fun past state action next founded taken => founded.step taken
  have founded := Runs.exec_history kept founded_initial run
  obtain ⟨request, arrived, keyed, digest⟩ := founded.tasks id task found
  obtain ⟨acting, same, acted⟩ := Option.bind_eq_some_iff.mp taken
  obtain rfl := Option.some.inj (found.symm.trans same)
  obtain ⟨phase, stored, turn, tasks, _⟩ := act_turn found acted
  rw [tasks, Function.update_self] at answered
  have reached : phase = .answered reply :=
    congrArg Task.phase (Option.some.inj answered)
  refine ⟨request, arrived, keyed, ?_⟩
  cases turn with
  | stream response unbounded =>
    cases reached
    exact .inl ⟨reply, by simp, .inl ⟨unbounded, rfl⟩⟩
  | answer response bounded =>
    cases reached
    exact .inl ⟨response, by simp,
      .inr ⟨bounded, rfl, rebuilt_faithful_iff lawful⟩⟩
  | store response held =>
    cases reached
    obtain ⟨handled, bounded⟩ :=
      founded.storing id task response found held
    exact .inl ⟨response, List.mem_append_left _ handled,
      .inr ⟨bounded, rfl, rebuilt_faithful_iff lawful⟩⟩
  | hit cached hit =>
    cases reached
    obtain ⟨origin, response, origins, rfl⟩ :=
      founded.store task.cacheKey cached hit
    refine .inr ⟨origin, response, origins, ?_⟩
    by_cases equal : SameRequest request origin
    · right
      rw [digest, (fingerprint_eq_iff collisionless).mpr equal, replay_of_same]
      exact ⟨equal, rfl, rebuilt_faithful_iff lawful⟩
    · left
      refine ⟨equal, ?_⟩
      have differs : (config.digesting sha256).requestFingerprint origin ≠
          task.fingerprint := by
        rw [digest]
        intro digests
        exact equal ((fingerprint_eq_iff collisionless).mp digests.symm)
      exact if_pos differs
  | _ => cases reached

def asText (bytes : List UInt8) : String :=
  String.ofList (bytes.map fun byte => Char.ofNat byte.toNat)

theorem asText_injective : ∀ first second, asText first = asText second → first = second := by
  intro first second same
  have chars := String.ofList_inj.mp same
  apply List.map_injective_iff.mpr _ chars
  intro byte other equal
  have codes := congrArg Char.toNat equal
  have small : ∀ byte : UInt8, (Char.ofNat byte.toNat).toNat = byte.toNat := by
    intro byte
    have bound := byte.toNat_lt
    have valid : byte.toNat.isValidChar := Or.inl (by omega)
    rw [Char.ofNat, dif_pos valid]
    rfl
  rw [small, small] at codes
  exact UInt8.toNat_inj.mp codes

theorem config_lawful : (config.digesting asText).Lawful where
  lower := by
    intro given header added
    cases added
  absent := by
    intro given header added
    cases added

def paid (response : Response) : List Action :=
  [.arrive 0 payment, .run 0 .read, .run 0 (.handled response)]

theorem answers_faithful_payment : Faithful (rebuilt config (answer 201)) (answer 201) := by
  obtain ⟨request, _, _, ran | ⟨origin, response, replayed, _⟩⟩ :=
    answers_faithful config_lawful asText_injective
      (show Runs.exec (step (config.digesting asText)) initial
        (paid (answer 201)) = some _ from rfl) rfl
      (show step (config.digesting asText) _ (.run 0 .stored) = some _ from rfl)
      rfl
  · obtain ⟨response, handled, outcome⟩ := ran
    obtain rfl : response = answer 201 := by simpa [paid] using handled
    rcases outcome with ⟨unbounded, _⟩ | ⟨_, _, faithful⟩
    · cases unbounded
    · refine faithful.mpr ⟨List.nodup_nil, ?_, rfl⟩
      intro header member
      cases member
  · obtain ⟨other, _, _, _, ended, _⟩ := replayed
    simp [paid] at ended

def signedIn : Response where
  status_code := 200
  headers := [("set-cookie", "a=1"), ("set-cookie", "b=2"), ("content-length", "2")]
  body := .bytes [123, 125]
  media_type := none

theorem cookie_lost : ∃ final task reply, Runs.exec (step config) initial
        (paid signedIn ++ [.run 0 .stored]) = some final ∧
      final.tasks 0 = some task ∧ task.phase = .answered reply ∧
      reply.headers = [("set-cookie", "b=2"), ("content-length", "2")] ∧
      ¬ Faithful reply signedIn := by
  have headers : (rebuilt config signedIn).headers =
      [("set-cookie", "b=2"), ("content-length", "2")] := by
    have cookie : "set-cookie".toLower = "set-cookie" :=
      lower_of_chars (by decide)
    have length : "content-length".toLower = "content-length" :=
      lower_of_chars (by decide)
    have entries : PyDict.ofPairs signedIn.headers =
        [("set-cookie", "b=2"), ("content-length", "2")] := by decide
    rw [rebuilt_headers, entries, List.map_cons, List.map_cons, cookie, length]
    rfl
  refine ⟨_, _, rebuilt config signedIn, rfl, rfl, rfl, headers, ?_⟩
  intro faithful
  have lengths := faithful.headers.length_eq
  rw [headers] at lengths
  cases lengths

end TempestSdk.Idempotency
