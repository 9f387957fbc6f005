import Mathlib.Logic.Function.Basic

/-!
# Consume-side deduplication

The stores of processed message ids, in memory and in Redis, and the middleware
that claims an id, runs the handler, and marks the id done or forgets it.  A
delivery is a task that takes one step at a time: its claim, which in Redis is
two commands, the handler, and the command after the handler.  The clock and
the lifetime of a mark are in the same unit.
-/

namespace TempestSdk.Queue

inductive Marker where
  | inFlight
  | done
deriving DecidableEq

inductive DedupState where
  | new
  | inFlight
  | done
deriving DecidableEq

inductive Backend where
  | memory
  | redis
deriving DecidableEq

structure Mark where
  marker : Marker
  expiresAt : Nat
  /-- The delivery that wrote it, which no store knows. -/
  writer : Nat
deriving DecidableEq

def Backend.live (clock expiresAt : Nat) : Backend → Bool
  | .memory => clock < expiresAt
  | .redis => clock ≤ expiresAt

def Mark.live (backend : Backend) (clock : Nat) (mark : Mark) : Bool :=
  backend.live clock mark.expiresAt

structure DedupStore where
  clock : Nat
  marks : String → Option Mark

namespace DedupStore

def empty : DedupStore where
  clock := 0
  marks := fun _ => none

/-- `_live`, and `GET`. -/
def current (backend : Backend) (store : DedupStore) (key : String) : Option Mark :=
  (store.marks key).filter (Mark.live backend store.clock)

def write (store : DedupStore) (key : String) (mark : Option Mark) : DedupStore :=
  { store with marks := Function.update store.marks key mark }

def claimMark (store : DedupStore) (ttl writer : Nat) : Mark where
  marker := .inFlight
  expiresAt := store.clock + ttl
  writer := writer

def claim (store : DedupStore) (key : String) (ttl writer : Nat) : DedupStore × DedupState :=
  match store.current .memory key with
  | some ⟨.done, _, _⟩ => (store, .done)
  | some ⟨.inFlight, _, _⟩ => (store, .inFlight)
  | none => (store.write key (some (store.claimMark ttl writer)), .new)

/-- `SET key in_flight NX EX ttl`, and whether it was stored. -/
def setNx (store : DedupStore) (key : String) (ttl writer : Nat) : DedupStore × Bool :=
  match store.current .redis key with
  | some _ => (store, false)
  | none => (store.write key (some (store.claimMark ttl writer)), true)

/-- What `RedisDedupStore.claim` makes of the answer to its `GET`. -/
def readMarker (store : DedupStore) (key : String) : DedupState :=
  match store.current .redis key with
  | some ⟨.inFlight, _, _⟩ => .inFlight
  | _ => .done

def complete (store : DedupStore) (key : String) (ttl writer : Nat) : DedupStore :=
  store.write key (some ⟨.done, store.clock + ttl, writer⟩)

def release (store : DedupStore) (key : String) : DedupStore :=
  store.write key none

def tick (store : DedupStore) : DedupStore :=
  { store with clock := store.clock + 1 }

@[simp] theorem write_clock (store : DedupStore) (key : String)
    (mark : Option Mark) : (store.write key mark).clock = store.clock := rfl

@[simp] theorem write_self (store : DedupStore) (key : String)
    (mark : Option Mark) : (store.write key mark).marks key = mark := by
  simp [write]

theorem write_of_ne {store : DedupStore} {key other : String}
    (mark : Option Mark) (differs : other ≠ key) :
    (store.write key mark).marks other = store.marks other := by
  simp [write, Function.update_of_ne differs]

theorem current_eq_some {backend : Backend} {store : DedupStore} {key : String} {mark : Mark} :
    store.current backend key = some mark ↔
      store.marks key = some mark ∧ mark.live backend store.clock = true := by
  simp [current, Option.filter_eq_some_iff]

end DedupStore

structure Message where
  message_id : Option String
  correlation_id : Option String
deriving DecidableEq

def truthy (id : Option String) : Option String :=
  id.filter fun text => text ≠ ""

def messageKey (message : Message) : Option String :=
  (truthy message.message_id).or (truthy message.correlation_id)

inductive Outcome where
  | returned
  | skipped
  /-- `ConcurrentDeliveryError`. -/
  | concurrent
  | raised
  | crashed
deriving DecidableEq

inductive Phase where
  /-- In Redis, after a refused `SET NX`, before the `GET`. -/
  | reading
  /-- In `call_next`. -/
  | handling
  | completing
  | releasing
  | ended (outcome : Outcome)
deriving DecidableEq

structure Delivery where
  key : Option String
  claimedUntil : Nat
  phase : Phase
deriving DecidableEq

def Delivery.expired (backend : Backend) (clock : Nat) (delivery : Delivery) : Bool :=
  !backend.live clock delivery.claimedUntil

inductive Event where
  | read
  | succeed
  | fail
  | complete
  | release
deriving DecidableEq

def afterClaim : DedupState → Phase
  | .new => .handling
  | .inFlight => .ended .concurrent
  | .done => .ended .skipped

/-- `consume_scope` up to the first wait after the claim was sent. -/
def begin (backend : Backend) (ttl id : Nat) (store : DedupStore) :
    Option String → DedupStore × Delivery
  | none => (store, ⟨none, 0, .handling⟩)
  | some key =>
    match backend with
    | .memory =>
      let (claimed, state) := store.claim key ttl id
      (claimed, ⟨some key, store.clock + ttl, afterClaim state⟩)
    | .redis =>
      let (claimed, stored) := store.setNx key ttl id
      (claimed, ⟨some key, store.clock + ttl, if stored then .handling else .reading⟩)

def Delivery.crash (delivery : Delivery) : Delivery :=
  { delivery with phase := .ended .crashed }

/-- The next part of `consume_scope`. -/
def act (ttl id : Nat) (store : DedupStore) (delivery : Delivery) :
    Event → Option (DedupStore × Delivery)
  | .read =>
    match delivery.phase, delivery.key with
    | .reading, some key =>
      some (store, { delivery with phase := afterClaim (store.readMarker key) })
    | _, _ => none
  | .succeed =>
    match delivery.phase, delivery.key with
    | .handling, some _ => some (store, { delivery with phase := .completing })
    | .handling, none => some (store, { delivery with phase := .ended .returned })
    | _, _ => none
  | .fail =>
    match delivery.phase, delivery.key with
    | .handling, some _ => some (store, { delivery with phase := .releasing })
    | .handling, none => some (store, { delivery with phase := .ended .raised })
    | _, _ => none
  | .complete =>
    match delivery.phase, delivery.key with
    | .completing, some key =>
      some (store.complete key ttl id, { delivery with phase := .ended .returned })
    | _, _ => none
  | .release =>
    match delivery.phase, delivery.key with
    | .releasing, some key =>
      some (store.release key, { delivery with phase := .ended .raised })
    | _, _ => none

theorem begin_spec (backend : Backend) (ttl id : Nat) (store : DedupStore) (key : String) :
    (store.current backend key = none ∧ begin backend ttl id store (some key) =
          (store.write key (some (store.claimMark ttl id)),
            ⟨some key, store.clock + ttl, .handling⟩)) ∨
      ∃ mark phase, store.current backend key = some mark ∧
        (phase = .reading ∨ phase = .ended .concurrent ∨
          phase = .ended .skipped ∧ mark.marker = .done) ∧
        begin backend ttl id store (some key) =
          (store, ⟨some key, store.clock + ttl, phase⟩) := by
  cases backend with
  | memory =>
    cases present : store.current .memory key with
    | none => exact .inl ⟨rfl, by simp [begin, DedupStore.claim, present,
        afterClaim]⟩
    | some mark =>
      obtain ⟨marker, expiresAt, writer⟩ := mark
      cases marker with
      | inFlight =>
        exact .inr ⟨_, .ended .concurrent, rfl, .inr (.inl rfl),
          by simp [begin, DedupStore.claim, present, afterClaim]⟩
      | done =>
        exact .inr ⟨_, .ended .skipped, rfl, .inr (.inr ⟨rfl, rfl⟩),
          by simp [begin, DedupStore.claim, present, afterClaim]⟩
  | redis =>
    cases present : store.current .redis key with
    | none => exact .inl ⟨rfl, by simp [begin, DedupStore.setNx, present]⟩
    | some mark =>
      exact .inr ⟨mark, .reading, rfl, .inl rfl, by simp [begin, DedupStore.setNx, present]⟩

theorem act_cases {ttl id : Nat} {store after : DedupStore}
    {delivery moved : Delivery} {event : Event}
    (taken : act ttl id store delivery event = some (after, moved)) :
    (∃ key, event = .read ∧ delivery.phase = .reading ∧
        delivery.key = some key ∧ after = store ∧
        moved = { delivery with phase := afterClaim (store.readMarker key) }) ∨
      (event = .succeed ∧ delivery.phase = .handling ∧ after = store ∧
        ∃ phase, (phase = .completing ∨ phase = .ended .returned) ∧
          moved = { delivery with phase }) ∨
      (event = .fail ∧ delivery.phase = .handling ∧ after = store ∧
        ∃ phase, (phase = .releasing ∨ phase = .ended .raised) ∧
          moved = { delivery with phase }) ∨
      (∃ key, event = .complete ∧ delivery.phase = .completing ∧
        delivery.key = some key ∧ after = store.complete key ttl id ∧
        moved = { delivery with phase := .ended .returned }) ∨
      ∃ key, event = .release ∧ delivery.phase = .releasing ∧
        delivery.key = some key ∧ after = store.release key ∧
        moved = { delivery with phase := .ended .raised } := by
  cases event with
  | read =>
    left
    simp only [act] at taken
    split at taken
    · rename_i key reading keyed
      cases taken
      exact ⟨key, rfl, reading, keyed, rfl, rfl⟩
    · cases taken
  | succeed =>
    right; left
    simp only [act] at taken
    split at taken
    · rename_i handling _keyed
      cases taken
      exact ⟨rfl, handling, rfl, _, .inl rfl, rfl⟩
    · rename_i handling _unkeyed
      cases taken
      exact ⟨rfl, handling, rfl, _, .inr rfl, rfl⟩
    · cases taken
  | fail =>
    right; right; left
    simp only [act] at taken
    split at taken
    · rename_i handling _keyed
      cases taken
      exact ⟨rfl, handling, rfl, _, .inl rfl, rfl⟩
    · rename_i handling _unkeyed
      cases taken
      exact ⟨rfl, handling, rfl, _, .inr rfl, rfl⟩
    · cases taken
  | complete =>
    right; right; right; left
    simp only [act] at taken
    split at taken
    · rename_i key completing keyed
      cases taken
      exact ⟨key, rfl, completing, keyed, rfl, rfl⟩
    · cases taken
  | release =>
    right; right; right; right
    simp only [act] at taken
    split at taken
    · rename_i key releasing keyed
      cases taken
      exact ⟨key, rfl, releasing, keyed, rfl, rfl⟩
    · cases taken

theorem act_spec {ttl id : Nat} {store after : DedupStore}
    {delivery moved : Delivery} {event : Event}
    (taken : act ttl id store delivery event = some (after, moved)) :
    moved.claimedUntil = delivery.claimedUntil ∧
      (after = store ∧ event ≠ .complete ∧ event ≠ .release ∨
        (∃ key, event = .complete ∧ delivery.key = some key ∧
          delivery.phase = .completing ∧ after = store.complete key ttl id) ∨
        ∃ key, event = .release ∧ delivery.key = some key ∧
          delivery.phase = .releasing ∧ after = store.release key) := by
  rcases act_cases taken with
    ⟨key, rfl, _, _, rfl, rfl⟩ | ⟨rfl, _, rfl, _, _, rfl⟩ |
    ⟨rfl, _, rfl, _, _, rfl⟩ | ⟨key, rfl, completing, keyed, rfl, rfl⟩ |
    ⟨key, rfl, releasing, keyed, rfl, rfl⟩
  · exact ⟨rfl, .inl ⟨rfl, by simp, by simp⟩⟩
  · exact ⟨rfl, .inl ⟨rfl, by simp, by simp⟩⟩
  · exact ⟨rfl, .inl ⟨rfl, by simp, by simp⟩⟩
  · exact ⟨rfl, .inr (.inl ⟨key, rfl, keyed, completing, rfl⟩)⟩
  · exact ⟨rfl, .inr (.inr ⟨key, rfl, keyed, releasing, rfl⟩)⟩

end TempestSdk.Queue
