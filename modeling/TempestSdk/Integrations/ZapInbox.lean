import TempestSdk.Library.Runs

/-!
# Delivery rows

`ZapInbox.track` and `ZapInbox.send_text` on sessions of their own.  One call of
the repository is one step: a read of a row, an insert under the unique
constraints, or an update that writes what the call has changed on the row it
loaded and reads the row again.
-/

namespace TempestSdk.Zap

inductive AcceptedResponseStatus where
  | queued
  | sending
  | sent
  | delivered
  | read
  | failed
deriving DecidableEq

/-- `_STATUS_RANK`; `failed` is not on the ladder. -/
def statusRank : AcceptedResponseStatus → Nat
  | .queued => 0
  | .sending => 1
  | .sent => 2
  | .delivered => 3
  | .read => 4
  | .failed => 0

def failable (status : AcceptedResponseStatus) : Bool :=
  status = .queued || status = .sending || status = .sent

def is_forward_transition (current new : AcceptedResponseStatus) : Bool :=
  if current = .failed then false
  else if new = .failed then failable current
  else decide (statusRank current < statusRank new)

theorem forward_trans {first second third : AcceptedResponseStatus}
    (up : is_forward_transition first second = true)
    (further : is_forward_transition second third = true) :
    is_forward_transition first third = true := by
  revert up further
  cases first <;> cases second <;> cases third <;> decide

theorem forward_irrefl (status : AcceptedResponseStatus) :
    is_forward_transition status status = false := by
  cases status <;> decide

structure ZapStatusCallback where
  id : String
  recipient : String
  status : AcceptedResponseStatus
  error : Option String
deriving DecidableEq

structure AcceptedResponse where
  id : Option String
  status : Option AcceptedResponseStatus
deriving DecidableEq

structure Delivery where
  outbound_id : String
  chat_key : String
  idempotency_key : Option String
  status : AcceptedResponseStatus
  error : Option String
deriving DecidableEq

inductive Request where
  | track (callback : ZapStatusCallback)
  | send_text (recipient idempotency_key : String) (accepted : AcceptedResponse)
deriving DecidableEq

namespace Request

/-- `accepted.id or idempotency_key`. -/
def outbound_id : Request → String
  | .track callback => callback.id
  | .send_text _ idempotency_key accepted =>
    match accepted.id with
    | none => idempotency_key
    | some id => if id = "" then idempotency_key else id

/-- `accepted.status or AcceptedResponseStatus.SENT`. -/
def status : Request → AcceptedResponseStatus
  | .track callback => callback.status
  | .send_text _ _ accepted => accepted.status.getD .sent

def error : Request → Option String
  | .track callback => callback.error
  | .send_text _ _ _ => none

def idempotency_key : Request → Option String
  | .track _ => none
  | .send_text _ idempotency_key _ => some idempotency_key

def row (request : Request) : Delivery where
  outbound_id := request.outbound_id
  chat_key :=
    match request with
    | .track callback => callback.recipient
    | .send_text recipient _ _ => recipient
  idempotency_key := request.idempotency_key
  status := request.status
  error := request.error

end Request

inductive Outcome where
  /-- `APPLIED`, or the send has written its status. -/
  | applied
  | stale
  | raised
deriving DecidableEq

inductive Phase where
  /-- `get_or_none` by the idempotency key. -/
  | byKey
  /-- `get_or_none` by the outbound id. -/
  | byOutbound
  | adding
  /-- `get_or_none` after a conflict. -/
  | rereading
  | attaching (row : Nat) (loaded : Delivery)
  /-- The update of `_advance`. -/
  | writing (row : Nat) (loaded : Delivery)
  | ended (outcome : Outcome)
deriving DecidableEq

structure Call where
  request : Request
  phase : Phase
deriving DecidableEq

structure Database where
  deliveries : List Delivery
  calls : List Call
deriving DecidableEq

inductive Action where
  | start (request : Request)
  | go (call : Nat)
deriving DecidableEq

/-- `track`, or `send_text` once the gateway has answered. -/
def start : Request → Call
  | .track callback => ⟨.track callback, .byOutbound⟩
  | .send_text recipient idempotency_key accepted =>
    if accepted.status = some .failed then
      ⟨.send_text recipient idempotency_key accepted, .ended .raised⟩
    else ⟨.send_text recipient idempotency_key accepted, .byKey⟩

/-- `_advance` on a loaded row. -/
def advance (request : Request) (row : Nat) (loaded : Delivery) : Phase :=
  if is_forward_transition loaded.status request.status then
    .writing row loaded
  else .ended .stale

def found (request : Request) (row : Nat) (loaded : Delivery) : Phase :=
  match request with
  | .track callback => advance (.track callback) row loaded
  | .send_text recipient idempotency_key accepted =>
    if loaded.idempotency_key = none then .attaching row loaded
    else advance (.send_text recipient idempotency_key accepted) row loaded

namespace Database

variable (database : Database)

def get_or_none (wanted : Delivery → Bool) : Option (Nat × Delivery) :=
  match database.deliveries.findIdx? wanted with
  | none => none
  | some row => (database.deliveries[row]?).map (row, ·)

/-- `get_or_none`, with what the call goes on with when there is no row. -/
def get (request : Request) (wanted : Delivery → Bool) (absent : Phase) : Phase :=
  match database.get_or_none wanted with
  | some (row, loaded) => found request row loaded
  | none => absent

def byOutbound (request : Request) (absent : Phase) : Phase :=
  database.get request (fun delivery => delivery.outbound_id = request.outbound_id) absent

def conflicts (row : Delivery) : Bool :=
  database.deliveries.any fun delivery =>
    delivery.outbound_id = row.outbound_id || (row.idempotency_key.isSome &&
        delivery.idempotency_key = row.idempotency_key)

/-- Another row than the one at `row` has the key. -/
def keyTaken (row : Nat) (key : Option String) : Bool :=
  (database.deliveries.eraseIdx row).any fun delivery =>
    delivery.idempotency_key = key

def setPhase (call : Nat) (request : Request) (phase : Phase) : Database :=
  { database with calls := database.calls.set call ⟨request, phase⟩ }

def write (row : Nat) (change : Delivery → Delivery) : Database :=
  { database with deliveries := database.deliveries.modify row change }

/-- What `_advance` writes: the columns that differ from the loaded row. -/
def advanced (request : Request) (loaded delivery : Delivery) : Delivery :=
  { delivery with
    status := request.status
    error :=
      if request.status = .failed ∧ request.error ≠ loaded.error then
        request.error
      else delivery.error }

def go (call : Nat) (request : Request) : Phase → Option Database
  | .byKey => some (database.setPhase call request
      (database.get request (fun delivery => delivery.idempotency_key = request.idempotency_key)
        .byOutbound))
  | .byOutbound => some (database.setPhase call request (database.byOutbound request .adding))
  | .adding =>
    if database.conflicts request.row then
      some (database.setPhase call request .rereading)
    else
      some ({ database with
        deliveries := database.deliveries ++ [request.row] }.setPhase call
          request (.ended .applied))
  | .rereading =>
    some (database.setPhase call request (database.byOutbound request (.ended .raised)))
  | .attaching row _loaded =>
    if database.keyTaken row request.idempotency_key then
      some (database.setPhase call request (.ended .raised))
    else
      let written := database.write row fun delivery =>
        { delivery with idempotency_key := request.idempotency_key }
      (written.deliveries[row]?).map fun refreshed =>
        written.setPhase call request (advance request row refreshed)
  | .writing row loaded =>
    some ((database.write row (advanced request loaded)).setPhase call request
      (.ended .applied))
  | .ended _ => none

def step : Action → Option Database
  | .start request => some { database with calls := database.calls ++ [Zap.start request] }
  | .go index =>
    match database.calls[index]? with
    | none => none
    | some call => database.go index call.request call.phase

/-- When a call writes a status, the stored status is still the one that it
read. -/
def Unchanged : Action → Prop
  | .start _ => True
  | .go index => ∀ call row loaded, database.calls[index]? = some call →
      call.phase = .writing row loaded →
        ∀ stored, database.deliveries[row]? = some stored → stored.status = loaded.status

def initial : Database where
  deliveries := []
  calls := []

/-- `Unchanged`, computed. -/
def unchanged : Action → Bool
  | .start _ => true
  | .go index =>
    match database.calls[index]? with
    | some ⟨_, .writing row loaded⟩ =>
      (database.deliveries[row]?).all fun stored =>
        stored.status = loaded.status
    | _ => true

theorem unchanged_iff (action : Action) :
    database.unchanged action = true ↔ database.Unchanged action := by
  cases action with
  | start request => exact iff_of_true rfl trivial
  | go index =>
    simp only [unchanged, Unchanged]
    split
    · next request row loaded present =>
        rw [present]
        constructor
        · intro same call other value isCall isWriting stored isStored
          cases isCall
          cases isWriting
          rw [isStored] at same
          exact of_decide_eq_true same
        · intro same
          cases stored : database.deliveries[row]? with
          | none => rfl
          | some value => exact decide_eq_true (same _ row loaded rfl rfl value stored)
    · next other =>
        refine iff_of_true rfl ?_
        intro call row loaded present isWriting
        obtain ⟨request, phase⟩ := call
        cases isWriting
        exact (other request row loaded present).elim

instance : DecidablePred database.Unchanged := fun action =>
  decidable_of_iff _ (database.unchanged_iff action)

/-- What a call of the repository leaves in the table and what the call goes
on with. -/
inductive Turn (database : Database) (request : Request) :
    Phase → List Delivery → Phase → Prop where
  | key : Turn database request .byKey database.deliveries
      (database.get request (fun delivery => delivery.idempotency_key = request.idempotency_key)
        .byOutbound)
  | outbound : Turn database request .byOutbound database.deliveries
      (database.byOutbound request .adding)
  | conflict : Turn database request .adding database.deliveries .rereading
  | insert : database.conflicts request.row = false →
      Turn database request .adding (database.deliveries ++ [request.row]) (.ended .applied)
  | reread : Turn database request .rereading database.deliveries
      (database.byOutbound request (.ended .raised))
  | refused (row : Nat) (loaded : Delivery) :
      Turn database request (.attaching row loaded) database.deliveries (.ended .raised)
  | attach (row : Nat) (loaded refreshed : Delivery) :
      database.keyTaken row request.idempotency_key = false →
      Turn database request (.attaching row loaded)
        (database.deliveries.modify row fun delivery =>
          { delivery with idempotency_key := request.idempotency_key })
        (advance request row refreshed)
  | write (row : Nat) (loaded : Delivery) :
      Turn database request (.writing row loaded)
        (database.deliveries.modify row (advanced request loaded))
        (.ended .applied)

variable {database next : Database} {request : Request}

theorem go_cases {index : Nat} {phase : Phase}
    (taken : database.go index request phase = some next) :
    ∃ deliveries after, Turn database request phase deliveries after ∧
      next = ⟨deliveries, database.calls.set index ⟨request, after⟩⟩ := by
  cases phase with
  | byKey =>
    obtain rfl := Option.some.inj taken
    exact ⟨_, _, .key, rfl⟩
  | byOutbound =>
    obtain rfl := Option.some.inj taken
    exact ⟨_, _, .outbound, rfl⟩
  | adding =>
    simp only [go] at taken
    split at taken
    · obtain rfl := Option.some.inj taken
      exact ⟨_, _, .conflict, rfl⟩
    · next free =>
        obtain rfl := Option.some.inj taken
        exact ⟨_, _, .insert (by simpa using free), rfl⟩
  | rereading =>
    obtain rfl := Option.some.inj taken
    exact ⟨_, _, .reread, rfl⟩
  | attaching row loaded =>
    simp only [go] at taken
    split at taken
    · obtain rfl := Option.some.inj taken
      exact ⟨_, _, .refused row loaded, rfl⟩
    · next free =>
        obtain ⟨refreshed, _, rfl⟩ := Option.map_eq_some_iff.mp taken
        exact ⟨_, _, .attach row loaded refreshed (by simpa using free), rfl⟩
  | writing row loaded =>
    obtain rfl := Option.some.inj taken
    exact ⟨_, _, .write row loaded, rfl⟩
  | ended outcome => cases taken

theorem step_cases {action : Action} (taken : database.step action = some next) :
    (∃ request, action = .start request ∧
      next = ⟨database.deliveries, database.calls ++ [Zap.start request]⟩) ∨
    ∃ index call deliveries after, action = .go index ∧ database.calls[index]? = some call ∧
      Turn database call.request call.phase deliveries after ∧
      next = ⟨deliveries, database.calls.set index ⟨call.request, after⟩⟩ := by
  cases action with
  | start request => exact .inl ⟨request, rfl, (Option.some.inj taken).symm⟩
  | go index =>
    simp only [step] at taken
    split at taken
    · cases taken
    · next call present =>
        obtain ⟨deliveries, after, turn, rfl⟩ := go_cases taken
        exact .inr ⟨index, call, deliveries, after, rfl, present, turn, rfl⟩

variable {loaded : Delivery}

theorem get_or_none_spec {wanted : Delivery → Bool} {row : Nat}
    (read : database.get_or_none wanted = some (row, loaded)) :
    database.deliveries[row]? = some loaded ∧ wanted loaded = true := by
  unfold get_or_none at read
  split at read
  · cases read
  · next index at_index =>
      obtain ⟨value, stored, same⟩ := Option.map_eq_some_iff.mp read
      cases same
      obtain ⟨inside, holds, _⟩ :=
        List.findIdx?_eq_some_iff_getElem.mp at_index
      obtain ⟨_, rfl⟩ := List.getElem?_eq_some_iff.mp stored
      exact ⟨stored, holds⟩

/-- At most one row for an outbound id and for an idempotency key. -/
structure Unique (deliveries : List Delivery) : Prop where
  outbound : ∀ (first second : Nat) (row other : Delivery),
    deliveries[first]? = some row → deliveries[second]? = some other →
    row.outbound_id = other.outbound_id → first = second
  key : ∀ (first second : Nat) (row other : Delivery),
    deliveries[first]? = some row → deliveries[second]? = some other →
    row.idempotency_key.isSome = true →
    row.idempotency_key = other.idempotency_key → first = second

variable {deliveries : List Delivery}

theorem Unique.modify (unique : Unique deliveries) {index : Nat} {change : Delivery → Delivery}
    (outbound : ∀ delivery, (change delivery).outbound_id = delivery.outbound_id)
    (key : ∀ delivery, (change delivery).idempotency_key =
      delivery.idempotency_key) : Unique (deliveries.modify index change) := by
  have before : ∀ (row : Nat) (value : Delivery),
      (deliveries.modify index change)[row]? = some value →
      ∃ old, deliveries[row]? = some old ∧ value.outbound_id = old.outbound_id ∧
        value.idempotency_key = old.idempotency_key := by
    intro row value stored
    rw [List.getElem?_modify] at stored
    obtain ⟨old, found, rfl⟩ := Option.map_eq_some_iff.mp stored
    split
    · exact ⟨old, found, outbound old, key old⟩
    · exact ⟨old, found, rfl, rfl⟩
  constructor
  · intro first second row other atFirst atSecond same
    obtain ⟨old, found, oldOutbound, _⟩ := before first row atFirst
    obtain ⟨older, present, otherOutbound, _⟩ := before second other atSecond
    exact unique.outbound first second old older found present
      (oldOutbound.symm.trans (same.trans otherOutbound))
  · intro first second row other atFirst atSecond some_key same
    obtain ⟨old, found, _, oldKey⟩ := before first row atFirst
    obtain ⟨older, present, _, otherKey⟩ := before second other atSecond
    exact unique.key first second old older found present (oldKey ▸ some_key)
      (oldKey.symm.trans (same.trans otherKey))

section

variable (unique : Unique database.deliveries)

include unique

theorem Unique.insert {row : Delivery} (free : database.conflicts row = false) :
    Unique (database.deliveries ++ [row]) := by
  have apart : ∀ delivery ∈ database.deliveries, delivery.outbound_id ≠ row.outbound_id ∧
        (row.idempotency_key.isSome = true →
          delivery.idempotency_key ≠ row.idempotency_key) := by
    intro delivery member
    have differs := List.any_eq_false.mp free delivery member
    simpa using differs
  have position : ∀ (index : Nat) (value : Delivery), (database.deliveries ++ [row])[index]? =
      some value → (database.deliveries[index]? = some value) ∨
        (index = database.deliveries.length ∧ value = row) := by
    intro index value stored
    rcases Nat.lt_trichotomy index database.deliveries.length with
      inside | last | outside
    · rw [List.getElem?_append_left inside] at stored
      exact .inl stored
    · subst last
      simp at stored
      exact .inr ⟨rfl, stored.symm⟩
    · have beyond : (database.deliveries ++ [row]).length ≤ index := by
        rw [List.length_append, List.length_singleton]
        omega
      rw [List.getElem?_eq_none beyond] at stored
      cases stored
  constructor
  · intro first second value other atFirst atSecond same
    rcases position first value atFirst with old | ⟨rfl, rfl⟩
    · rcases position second other atSecond with older | ⟨rfl, rfl⟩
      · exact unique.outbound first second value other old older same
      · exact ((apart value (List.mem_of_getElem? old)).1 same).elim
    · rcases position second other atSecond with older | ⟨rfl, rfl⟩
      · exact ((apart other (List.mem_of_getElem? older)).1 same.symm).elim
      · rfl
  · intro first second value other atFirst atSecond some_key same
    rcases position first value atFirst with old | ⟨rfl, rfl⟩
    · rcases position second other atSecond with older | ⟨rfl, rfl⟩
      · exact unique.key first second value other old older some_key same
      · exact ((apart value (List.mem_of_getElem? old)).2 (same ▸ some_key) same).elim
    · rcases position second other atSecond with older | ⟨rfl, rfl⟩
      · exact ((apart other (List.mem_of_getElem? older)).2 some_key same.symm).elim
      · rfl

theorem Unique.attach {index : Nat}
    {key : Option String} (free : database.keyTaken index key = false) :
    Unique (database.deliveries.modify index fun delivery =>
      { delivery with idempotency_key := key }) := by
  have apart : ∀ (other : Nat) (value : Delivery), other ≠ index →
      database.deliveries[other]? = some value → value.idempotency_key ≠ key := by
    intro other value different stored
    have erased := List.any_eq_false.mp free value
      (List.mem_eraseIdx_iff_getElem?.mpr ⟨other, different, stored⟩)
    simpa using erased
  have before : ∀ (row : Nat) (value : Delivery),
      (database.deliveries.modify index fun delivery =>
        { delivery with idempotency_key := key })[row]? = some value →
      ∃ old, database.deliveries[row]? = some old ∧ value.outbound_id = old.outbound_id ∧
        (row = index ∧ value.idempotency_key = key ∨ row ≠ index ∧ value = old) := by
    intro row value stored
    rw [List.getElem?_modify] at stored
    obtain ⟨old, found, rfl⟩ := Option.map_eq_some_iff.mp stored
    split
    · next same => exact ⟨old, found, rfl, .inl ⟨same.symm, rfl⟩⟩
    · next differs => exact ⟨old, found, rfl, .inr ⟨Ne.symm differs, rfl⟩⟩
  constructor
  · intro first second row other atFirst atSecond same
    obtain ⟨old, found, oldOutbound, _⟩ := before first row atFirst
    obtain ⟨older, present, otherOutbound, _⟩ := before second other atSecond
    exact unique.outbound first second old older found present
      (oldOutbound.symm.trans (same.trans otherOutbound))
  · intro first second row other atFirst atSecond some_key same
    obtain ⟨old, found, _, changed⟩ := before first row atFirst
    obtain ⟨older, present, _, otherChanged⟩ := before second other atSecond
    rcases changed with ⟨rfl, isKey⟩ | ⟨differs, rfl⟩
    · rcases otherChanged with ⟨rfl, _⟩ | ⟨otherDiffers, rfl⟩
      · rfl
      · exact (apart second other otherDiffers present (same.symm.trans isKey)).elim
    · rcases otherChanged with ⟨rfl, isKey⟩ | ⟨otherDiffers, rfl⟩
      · exact (apart first row differs found (same.trans isKey)).elim
      · exact unique.key first second row other found present some_key same

theorem Unique.turn {phase after : Phase}
    (turn : Turn database request phase deliveries after) :
    Unique deliveries := by
  cases turn with
  | key | outbound | conflict | reread | refused => exact unique
  | insert free => exact unique.insert free
  | attach row loaded refreshed free => exact unique.attach free
  | write row loaded => exact unique.modify (fun _ => rfl) (fun _ => rfl)

end

def Advances (before after : List Delivery) : Prop :=
  ∀ (row : Nat) (delivery : Delivery), before[row]? = some delivery →
    ∃ later, after[row]? = some later ∧ later.outbound_id = delivery.outbound_id ∧
      (later.status = delivery.status ∨
        is_forward_transition delivery.status later.status = true)

def Climbs (database : Database) (action : Action) : Prop :=
  ∀ next, database.step action = some next → Advances database.deliveries next.deliveries

def Heard (deliveries : List Delivery) (callback : ZapStatusCallback) : Prop :=
  ∃ delivery ∈ deliveries, delivery.outbound_id = callback.id ∧
    is_forward_transition delivery.status callback.status = false

theorem advances_refl (deliveries : List Delivery) : Advances deliveries deliveries :=
  fun _ delivery stored => ⟨delivery, stored, rfl, .inl rfl⟩

theorem advances_append (deliveries : List Delivery) (row : Delivery) :
    Advances deliveries (deliveries ++ [row]) := by
  intro index delivery stored
  obtain ⟨inside, _⟩ := List.getElem?_eq_some_iff.mp stored
  refine ⟨delivery, ?_, rfl, .inl rfl⟩
  rw [List.getElem?_append_left inside]
  exact stored

theorem advances_modify {index : Nat} {change : Delivery → Delivery}
    (outbound : ∀ delivery, (change delivery).outbound_id = delivery.outbound_id)
    (climbs : ∀ delivery, deliveries[index]? = some delivery →
      (change delivery).status = delivery.status ∨
        is_forward_transition delivery.status (change delivery).status = true) :
    Advances deliveries (deliveries.modify index change) := by
  intro row delivery stored
  by_cases same : index = row
  · subst same
    refine ⟨change delivery, ?_, outbound delivery, climbs delivery stored⟩
    simp [stored]
  · refine ⟨delivery, ?_, rfl, .inl rfl⟩
    simp [stored, same]

theorem Heard.advance {before after : List Delivery}
    {callback : ZapStatusCallback} (heard : Heard before callback)
    (advances : Advances before after) : Heard after callback := by
  obtain ⟨delivery, member, outbound, outranked⟩ := heard
  obtain ⟨row, stored⟩ := List.mem_iff_getElem?.mp member
  obtain ⟨later, present, same, status⟩ := advances row delivery stored
  refine ⟨later, List.mem_of_getElem? present, same.trans outbound, ?_⟩
  rcases status with kept | up
  · rw [kept]
    exact outranked
  · rw [Bool.eq_false_iff] at outranked ⊢
    intro further
    exact outranked (forward_trans up further)

/-- What is known of a call between two of its calls of the repository. -/
structure Placed (deliveries : List Delivery) (request : Request)
    (phase : Phase) : Prop where
  ladder : ∀ row loaded, phase = .writing row loaded →
    is_forward_transition loaded.status request.status = true
  stored : ∀ callback row loaded, request = .track callback → phase = .writing row loaded →
    ∃ delivery, deliveries[row]? = some delivery ∧ delivery.outbound_id = callback.id
  plain : ∀ callback, request = .track callback → phase ≠ .byKey ∧
    ∀ row loaded, phase ≠ .attaching row loaded
  heard : ∀ callback, request = .track callback →
    (phase = .ended .applied ∨ phase = .ended .stale) →
    Heard deliveries callback

theorem Placed.advance {before after : List Delivery} {phase : Phase}
    (placed : Placed before request phase) (advances : Advances before after) :
    Placed after request phase where
  ladder := placed.ladder
  stored := by
    intro callback row loaded isTrack isWriting
    obtain ⟨delivery, stored, outbound⟩ :=
      placed.stored callback row loaded isTrack isWriting
    obtain ⟨later, present, same, _⟩ := advances row delivery stored
    exact ⟨later, present, same.trans outbound⟩
  plain := placed.plain
  heard := fun callback isTrack isEnded =>
    (placed.heard callback isTrack isEnded).advance advances

def Phase.isIdle : Phase → Bool
  | .byOutbound | .adding | .rereading | .ended .raised => true
  | _ => false

theorem placed_idle {phase : Phase} (idle : Phase.isIdle phase = true) :
    Placed deliveries request phase := by
  constructor
  · rintro row loaded rfl
    cases idle
  · rintro callback row loaded _ rfl
    cases idle
  · intro callback _
    constructor
    · rintro rfl
      cases idle
    · rintro row loaded rfl
      cases idle
  · rintro callback _ (rfl | rfl)
    · cases idle
    · cases idle

theorem placed_send {recipient key : String} {accepted : AcceptedResponse} {phase : Phase}
    (ladder : ∀ row loaded, phase = .writing row loaded → is_forward_transition loaded.status
        (Request.send_text recipient key accepted).status = true) :
    Placed deliveries (.send_text recipient key accepted) phase where
  ladder := ladder
  stored := by
    intro callback row loaded isTrack
    cases isTrack
  plain := by
    intro callback isTrack
    cases isTrack
  heard := by
    intro callback isTrack
    cases isTrack

theorem ladder_advance {row : Nat} :
    ∀ index value, advance request row loaded = .writing index value →
      is_forward_transition value.status request.status = true := by
  intro index value same
  unfold advance at same
  split at same
  · next up =>
      cases same
      exact up
  · cases same

theorem placed_start (deliveries : List Delivery) (request : Request) :
    Placed deliveries (Zap.start request).request (Zap.start request).phase := by
  cases request with
  | track callback => exact placed_idle rfl
  | send_text recipient key accepted =>
    by_cases failed : accepted.status = some .failed
    · rw [Zap.start, if_pos failed]
      exact placed_idle rfl
    · rw [Zap.start, if_neg failed]
      apply placed_send
      intro row loaded absurd
      cases absurd

theorem placed_advance {callback : ZapStatusCallback} {row : Nat}
    (stored : database.deliveries[row]? = some loaded)
    (outbound : loaded.outbound_id = callback.id) :
    Placed database.deliveries (.track callback) (advance (.track callback) row loaded) := by
  constructor
  · exact ladder_advance
  · intro other index value isTrack same
    cases isTrack
    unfold advance at same
    split at same
    · cases same
      exact ⟨loaded, stored, outbound⟩
    · cases same
  · intro other _
    unfold advance
    split
    · constructor
      · intro absurd
        cases absurd
      · intro index value absurd
        cases absurd
    · constructor
      · intro absurd
        cases absurd
      · intro index value absurd
        cases absurd
  · intro other isTrack isEnded
    cases isTrack
    unfold advance at isEnded
    split at isEnded
    · rcases isEnded with absurd | absurd
      · cases absurd
      · cases absurd
    · next level =>
        exact ⟨loaded, List.mem_of_getElem? stored, outbound, Bool.eq_false_iff.mpr level⟩

theorem placed_found_send {recipient key : String} {accepted : AcceptedResponse} {row : Nat} :
    Placed deliveries (.send_text recipient key accepted)
      (found (.send_text recipient key accepted) row loaded) := by
  apply placed_send
  intro index value same
  simp only [found] at same
  split at same
  · cases same
  · exact ladder_advance index value same

theorem placed_byOutbound {absent : Phase}
    (missing : Placed database.deliveries request absent) :
    Placed database.deliveries request (database.byOutbound request absent) := by
  unfold byOutbound get
  split
  · next row loaded read =>
      obtain ⟨stored, outbound⟩ := get_or_none_spec read
      cases request with
      | track callback => exact placed_advance stored (of_decide_eq_true outbound)
      | send_text recipient key accepted => exact placed_found_send
  · exact missing

theorem Turn.advances {phase after : Phase}
    (turn : Turn database request phase deliveries after)
    (placed : Placed database.deliveries request phase)
    (unchanged : ∀ row loaded, phase = .writing row loaded →
      ∀ stored, database.deliveries[row]? = some stored → stored.status = loaded.status) :
    Advances database.deliveries deliveries := by
  cases turn with
  | key | outbound | conflict | reread | refused => exact advances_refl _
  | insert free => exact advances_append _ _
  | attach row loaded refreshed free =>
    apply advances_modify
    · intro delivery
      rfl
    · intro delivery _
      exact .inl rfl
  | write row loaded =>
    apply advances_modify
    · intro delivery
      rfl
    · intro stored present
      right
      rw [unchanged row loaded rfl stored present]
      exact placed.ladder row loaded rfl

theorem Turn.placed {phase after : Phase} (turn : Turn database request phase deliveries after)
    (placed : Placed database.deliveries request phase) :
    Placed deliveries request after := by
  cases turn with
  | key =>
    cases request with
    | track callback => exact ((placed.plain callback rfl).1 rfl).elim
    | send_text recipient key accepted =>
      unfold get
      split
      · exact placed_found_send
      · exact placed_idle rfl
  | outbound => exact placed_byOutbound (placed_idle rfl)
  | conflict => exact placed_idle rfl
  | insert free =>
    cases request with
    | track callback =>
      constructor
      · intro row loaded absurd
        cases absurd
      · intro other row loaded _ absurd
        cases absurd
      · intro other _
        constructor
        · intro absurd
          cases absurd
        · intro row loaded absurd
          cases absurd
      · intro other isTrack _
        cases isTrack
        exact ⟨_, List.mem_append_right _ List.mem_cons_self, rfl, forward_irrefl _⟩
    | send_text recipient key accepted =>
      apply placed_send
      intro row loaded absurd
      cases absurd
  | reread => exact placed_byOutbound (placed_idle rfl)
  | refused row loaded => exact placed_idle rfl
  | attach row loaded refreshed free =>
    cases request with
    | track callback => exact ((placed.plain callback rfl).2 row loaded rfl).elim
    | send_text recipient key accepted => exact placed_send ladder_advance
  | write row loaded =>
    cases request with
    | track callback =>
      obtain ⟨delivery, stored, outbound⟩ :=
        placed.stored callback row loaded rfl rfl
      constructor
      · intro row loaded absurd
        cases absurd
      · intro other row loaded _ absurd
        cases absurd
      · intro other _
        constructor
        · intro absurd
          cases absurd
        · intro row loaded absurd
          cases absurd
      · intro other isTrack _
        cases isTrack
        have written : (database.deliveries.modify row
            (advanced (.track callback) loaded))[row]? =
              some (advanced (.track callback) loaded delivery) := by
          simp [stored]
        exact ⟨_, List.mem_of_getElem? written, outbound, forward_irrefl _⟩
    | send_text recipient key accepted =>
      apply placed_send
      intro row loaded absurd
      cases absurd

def AllPlaced (database : Database) : Prop :=
  ∀ call ∈ database.calls, Placed database.deliveries call.request call.phase

theorem AllPlaced.step (placed : database.AllPlaced) {action : Action}
    (unchanged : database.Unchanged action)
    (taken : database.step action = some next) :
    Advances database.deliveries next.deliveries ∧ next.AllPlaced := by
  rcases step_cases taken with ⟨request, rfl, rfl⟩ |
    ⟨index, call, deliveries, after, rfl, present, turn, rfl⟩
  · refine ⟨advances_refl _, ?_⟩
    intro call member
    rcases List.mem_append.mp member with earlier | last
    · exact placed call earlier
    · obtain rfl := List.mem_singleton.mp last
      exact placed_start _ _
  · have here := placed call (List.mem_of_getElem? present)
    have advances := turn.advances here (fun row loaded isWriting =>
        unchanged call row loaded present isWriting)
    refine ⟨advances, ?_⟩
    intro other member
    rcases List.mem_or_eq_of_mem_set member with earlier | rfl
    · exact (placed other earlier).advance advances
    · exact turn.placed here

theorem Unique.step (unique : Unique database.deliveries) {action : Action}
    (taken : database.step action = some next) : Unique next.deliveries := by
  rcases step_cases taken with ⟨request, rfl, rfl⟩ |
    ⟨index, call, deliveries, after, rfl, present, turn, rfl⟩
  · exact unique
  · exact unique.turn turn

theorem unique_initial : Unique initial.deliveries := by
  constructor
  · intro first second row other stored
    simp [initial] at stored
  · intro first second row other stored
    simp [initial] at stored

theorem placed_initial : initial.AllPlaced := by
  intro call member
  cases member

/-- The rows are unique; and in a run in which no call writes over a status that
it has not read, the stored statuses climb and every callback that was answered
stays heard. -/
theorem status_only_climbs {schedule : List Action} {reached : Database}
    (run : Runs.exec step initial schedule = some reached) :
    Unique reached.deliveries ∧ (Runs.Meets step Unchanged initial schedule →
        Runs.Meets step Climbs initial schedule ∧
          ∀ call ∈ reached.calls, ∀ callback, call.request = .track callback →
            (call.phase = .ended .applied ∨ call.phase = .ended .stale) →
              Heard reached.deliveries callback) := by
  constructor
  · have kept : ∀ (database : Database) action next,
        Unique database.deliveries → database.step action = some next →
        Unique next.deliveries :=
      fun database action next unique taken => Unique.step unique taken
    exact Runs.exec_invariant kept unique_initial run
  · intro unchanged
    constructor
    · apply Runs.Meets.of_invariant _ _ unchanged placed_initial
      · intro database action next placed unchanged taken
        exact (placed.step unchanged taken).2
      · intro database action placed unchanged next taken
        exact (placed.step unchanged taken).1
    · have placed : reached.AllPlaced := by
        apply Runs.exec_invariant_of_meets _ unchanged placed_initial run
        intro database action next placed unchanged taken
        exact (placed.step unchanged taken).2
      intro call member callback isTrack isEnded
      exact (placed call member).heard callback isTrack isEnded

def sentMessage : Request :=
  .send_text "5511" "k1" { id := some "m1", status := some .queued }

def callbackOf (status : AcceptedResponseStatus) : Request :=
  .track { id := "m1", recipient := "5511", status := status, error := none }

def sending : List Action :=
  [.start sentMessage, .go 0, .go 0, .go 0]

def inTurn : List Action :=
  sending ++ [.start (callbackOf .sent), .go 1, .go 1, .start (callbackOf .read), .go 2, .go 2]

theorem status_only_climbs_in_turn : ∃ reached, Runs.exec step initial inTurn = some reached ∧
      reached.deliveries.map Delivery.status = [.read] ∧
      Unique reached.deliveries ∧ Runs.Meets step Climbs initial inTurn := by
  have run := status_only_climbs (show Runs.exec step initial inTurn = some _ from rfl)
  exact ⟨_, rfl, rfl, run.1, (run.2 (by decide)).1⟩

/-- Both callbacks read the row while it is queued, and the newer one is
written. -/
def crossing : List Action :=
  sending ++ [.start (callbackOf .read), .start (callbackOf .sent), .go 1, .go 2, .go 1]

theorem status_steps_down :
    ∃ reached, Runs.exec step initial (crossing ++ [.go 2]) = some reached ∧
      reached.deliveries.map Delivery.status = [.sent] ∧
      ¬ Runs.Meets step Climbs initial (crossing ++ [.go 2]) ∧
      ∃ callback, ⟨.track callback, .ended .applied⟩ ∈ reached.calls ∧
        ¬ Heard reached.deliveries callback := by
  refine ⟨_, rfl, rfl, ?_, ⟨"m1", "5511", .read, none⟩, by decide, ?_⟩
  · intro climbs
    have last := (climbs.of_append).2 _ rfl
    obtain ⟨later, present, _, status⟩ := last.1 _ rfl 0 _ rfl
    cases present
    rcases status with kept | up
    · cases kept
    · cases up
  · rintro ⟨delivery, member, _, outranked⟩
    obtain rfl := List.mem_singleton.mp member
    cases outranked

end Database

end TempestSdk.Zap
