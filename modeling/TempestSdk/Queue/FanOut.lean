import TempestSdk.Library.Runs
import TempestSdk.Queue.Dedup
import TempestSdk.Queue.Topology

/-!
# One event, several consumers

An event is published once to an exchange, and every bound queue gets a copy
with the id of the message.  `deduplicate` is installed with one store for all
consumers, in one process or in several.  The claim is made under the id of the
message, which the copies share.
-/

namespace TempestSdk.Queue.FanOut

/-- The consumers with the key each is bound under, and the event. -/
structure Publication where
  exchange : ExchangeSpec
  consumers : List (String × String)
  dead_letter_exchange : Option String
  routing_key : String
  message : Message
  backend : Backend
  ttl : Nat
  lasts : 0 < ttl

namespace Publication

def queueOf (publication : Publication) (consumer : String × String) : QueueSpec :=
  QueueSpec.consumer consumer.1 consumer.2 publication.exchange publication.dead_letter_exchange

def subscribe (publication : Publication) (broker : Amqp.Topology)
    (consumer : String × String) : Amqp.Topology :=
  let spec := publication.queueOf consumer
  (broker.declareQueue spec.name (rabbitArguments spec)).bind
    ⟨publication.exchange.name, consumer.2, spec.name⟩

def broker (publication : Publication) : Amqp.Topology :=
  publication.consumers.foldl publication.subscribe
    (Amqp.Topology.empty.declareExchange publication.exchange.name publication.exchange.kind)

def bound (publication : Publication) : List String :=
  publication.broker.route publication.exchange.name publication.routing_key

end Publication

structure State where
  store : DedupStore
  /-- The delivery of the copy in the queue of this place. -/
  deliveries : Nat → Option Delivery
  ran : List Nat

def published : State where
  store := DedupStore.empty
  deliveries := fun _ => none
  ran := []

inductive Action where
  | deliver (queue : Nat)
  | run (queue : Nat) (event : Event)
  | tick

def State.set (state : State) (queue : Nat) (store : DedupStore)
    (delivery : Delivery) : State :=
  { state with
    store := store
    deliveries := Function.update state.deliveries queue (some delivery) }

def State.noteHandler (state : State) (queue : Nat) (delivery : Delivery) : State :=
  if delivery.phase = .handling then { state with ran := queue :: state.ran }
  else state

def step (publication : Publication) (state : State) : Action → Option State
  | .deliver queue =>
    if queue < publication.bound.length then
      match state.deliveries queue with
      | some _ => none
      | none =>
        let (store, delivery) := begin publication.backend publication.ttl
          queue state.store (messageKey publication.message)
        some ((state.set queue store delivery).noteHandler queue delivery)
    else none
  | .run queue event =>
    (state.deliveries queue).bind fun delivery =>
      (act publication.ttl queue state.store delivery event).map
        fun (store, moved) => state.set queue store moved
  | .tick => some { state with store := state.store.tick }

def Settled (publication : Publication) (state : State) : Prop :=
  ∀ queue < publication.bound.length, ∃ delivery outcome,
    state.deliveries queue = some delivery ∧ delivery.phase = .ended outcome

/-- In every order of the deliveries, the handler of every bound consumer
runs. -/
def FansOut (publication : Publication) : Prop :=
  ∀ schedule final, Runs.exec (step publication) published schedule = some final →
    Settled publication final →
    ∀ queue < publication.bound.length, queue ∈ final.ran

variable {publication : Publication}

def Apart (publication : Publication) : Prop :=
  messageKey publication.message = none ∨ publication.bound.length ≤ 1

structure AllRan (publication : Publication) (state : State) : Prop where
  ran : ∀ queue delivery, state.deliveries queue = some delivery → queue ∈ state.ran
  bound : ∀ queue delivery, state.deliveries queue = some delivery →
    queue < publication.bound.length
  fresh : (∀ queue, state.deliveries queue = none) → ∀ key, state.store.marks key = none

variable {state : State}

theorem begin_handles {queue : Nat} (apart : Apart publication) (all : AllRan publication state)
    (within_bound : queue < publication.bound.length)
    (free : state.deliveries queue = none) :
    (begin publication.backend publication.ttl queue state.store
      (messageKey publication.message)).2.phase = .handling := by
  rcases apart with unkeyed | few
  · rw [unkeyed]
    rfl
  · cases named : messageKey publication.message with
    | none => rfl
    | some key =>
      -- the only copy, so nothing was claimed yet
      have nobody : ∀ other, state.deliveries other = none := by
        intro other
        cases there : state.deliveries other with
        | none => rfl
        | some delivery =>
          have also := all.bound other delivery there
          have same : other = queue := by omega
          rw [same, free] at there
          cases there
      rcases begin_spec publication.backend publication.ttl queue
          state.store key with ⟨_, begun⟩ | ⟨mark, _, present, _, _⟩
      · rw [begun]
      · have marked := (DedupStore.current_eq_some.mp present).1
        rw [all.fresh nobody key] at marked
        cases marked

theorem AllRan.deliver {queue : Nat} {store : DedupStore}
    {delivery : Delivery} (all : AllRan publication state)
    (within_bound : queue < publication.bound.length)
    (handles : delivery.phase = .handling) :
    AllRan publication ((state.set queue store delivery).noteHandler queue delivery) := by
  rw [State.noteHandler, if_pos handles]
  constructor
  · intro other found there
    by_cases same : other = queue
    · rw [same]
      exact List.mem_cons_self
    · apply List.mem_cons_of_mem
      apply all.ran other found
      simpa [State.set, Function.update_of_ne same] using there
  · intro other found there
    by_cases same : other = queue
    · rw [same]
      exact within_bound
    · apply all.bound other found
      simpa [State.set, Function.update_of_ne same] using there
  · intro nobody
    have none_there := nobody queue
    simp [State.set] at none_there

theorem AllRan.run {queue : Nat} {store : DedupStore}
    {delivery moved : Delivery} (all : AllRan publication state)
    (found : state.deliveries queue = some delivery) :
    AllRan publication (state.set queue store moved) := by
  have before : ∀ other after, (state.set queue store moved).deliveries other = some after →
      ∃ earlier, state.deliveries other = some earlier := by
    intro other after there
    by_cases same : other = queue
    · exact ⟨delivery, by rw [same]; exact found⟩
    · exact ⟨after, by simpa [State.set, Function.update_of_ne same] using there⟩
  constructor
  · intro other after there
    obtain ⟨earlier, was_there⟩ := before other after there
    exact all.ran other earlier was_there
  · intro other after there
    obtain ⟨earlier, was_there⟩ := before other after there
    exact all.bound other earlier was_there
  · intro nobody
    have none_there := nobody queue
    simp [State.set] at none_there

theorem allRan_step {state next : State} {action : Action}
    (apart : Apart publication) (all : AllRan publication state)
    (taken : step publication state action = some next) :
    AllRan publication next := by
  cases action with
  | deliver queue =>
    simp only [step] at taken
    split at taken
    · rename_i within_bound
      split at taken
      · cases taken
      · rename_i free
        cases taken
        exact all.deliver within_bound (begin_handles apart all within_bound free)
    · cases taken
  | run queue event =>
    obtain ⟨delivery, found, moved⟩ := Option.bind_eq_some_iff.mp taken
    obtain ⟨⟨store, after⟩, _acted, rfl⟩ := Option.map_eq_some_iff.mp moved
    exact all.run found
  | tick =>
    cases taken
    exact ⟨all.ran, all.bound, all.fresh⟩

theorem fansOut_of_apart (apart : Apart publication) : FansOut publication := by
  intro schedule final run settled queue within_bound
  have start : AllRan publication published := by
    constructor
    · intro other delivery there
      cases there
    · intro other delivery there
      cases there
    · intro _nobody key
      rfl
  have all : AllRan publication final := Runs.exec_invariant
    (fun state action next => allRan_step apart) start run
  obtain ⟨delivery, _outcome, there, _over⟩ := settled queue within_bound
  exact all.ran queue delivery there

def skip (backend : Backend) (queue : Nat) : List Action :=
  match backend with
  | .memory => [.deliver queue]
  | .redis => [.deliver queue, .run queue .read]

def skipped (key : String) (deadline : Nat) : Delivery where
  key := some key
  claimedUntil := deadline
  phase := .ended .skipped

theorem exec_skip {queue : Nat} {key : String} {deadline writer : Nat}
    (named : messageKey publication.message = some key)
    (within_bound : queue < publication.bound.length)
    (free : state.deliveries queue = none)
    (done : state.store.marks key = some ⟨.done, deadline, writer⟩)
    (lasts : state.store.clock < deadline) :
    Runs.exec (step publication) state (skip publication.backend queue) =
      some (state.set queue state.store
        (skipped key (state.store.clock + publication.ttl))) := by
  have live : ∀ backend : Backend,
      state.store.current backend key = some ⟨.done, deadline, writer⟩ := by
    intro backend
    apply DedupStore.current_eq_some.mpr
    refine ⟨done, ?_⟩
    cases backend <;> simp [Mark.live, Backend.live] <;> omega
  cases backend : publication.backend with
  | memory =>
    simp [skip, Runs.exec, step, within_bound, free, named, backend, begin,
      DedupStore.claim, live, afterClaim, State.noteHandler, skipped]
  | redis =>
    simp [skip, Runs.exec, step, within_bound, free, named, backend, begin,
      DedupStore.setNx, live, afterClaim, State.noteHandler, skipped,
      State.set, act, DedupStore.readMarker]

theorem exec_skips {key : String} {deadline writer : Nat} {queues : List Nat}
    (named : messageKey publication.message = some key)
    (within_bound : ∀ queue ∈ queues, queue < publication.bound.length)
    (distinct : queues.Nodup)
    (free : ∀ queue ∈ queues, state.deliveries queue = none)
    (done : state.store.marks key = some ⟨.done, deadline, writer⟩)
    (lasts : state.store.clock < deadline) :
    ∃ final, Runs.exec (step publication) state
        (queues.flatMap (skip publication.backend)) = some final ∧
      final.ran = state.ran ∧
      ∀ queue, (queue ∈ queues → ∃ until_, final.deliveries queue = some (skipped key until_)) ∧
        (queue ∉ queues → final.deliveries queue = state.deliveries queue) := by
  induction queues generalizing state with
  | nil => exact ⟨state, rfl, rfl, fun queue => ⟨by simp, fun _ => rfl⟩⟩
  | cons first rest induction =>
    obtain ⟨absent, rest_distinct⟩ := List.nodup_cons.mp distinct
    have one := exec_skip named (within_bound first List.mem_cons_self)
      (free first List.mem_cons_self) done lasts
    have rest_free : ∀ queue ∈ rest, (state.set first state.store
          (skipped key (state.store.clock + publication.ttl))).deliveries queue = none := by
      intro queue member
      have differs : queue ≠ first := by
        rintro rfl
        exact absent member
      simp only [State.set, Function.update_of_ne differs]
      exact free queue (List.mem_cons_of_mem _ member)
    obtain ⟨final, run, ran, delivered⟩ := induction (fun queue member =>
        within_bound queue (List.mem_cons_of_mem _ member))
      rest_distinct rest_free done lasts
    refine ⟨final, ?_, ran, ?_⟩
    · rw [List.flatMap_cons]
      exact Runs.exec_append.mpr ⟨_, one, run⟩
    · intro queue
      obtain ⟨inside, outside⟩ := delivered queue
      constructor
      · intro member
        rcases List.mem_cons.mp member with rfl | later
        · exact ⟨_, (outside absent).trans (Function.update_self ..)⟩
        · exact inside later
      · intro missing
        have differs : queue ≠ first := by
          rintro rfl
          exact missing List.mem_cons_self
        have not_later : queue ∉ rest :=
          fun member => missing (List.mem_cons_of_mem _ member)
        rw [outside not_later]
        exact Function.update_of_ne differs ..

theorem exec_first {key : String} (named : messageKey publication.message = some key)
    (several : 0 < publication.bound.length) :
    ∃ state, Runs.exec (step publication) published
        [.deliver 0, .run 0 .succeed, .run 0 .complete] = some state ∧
      state.ran = [0] ∧ state.store.clock = 0 ∧
      state.store.marks key = some ⟨.done, publication.ttl, 0⟩ ∧
      (∃ delivery, state.deliveries 0 = some delivery ∧ delivery.phase = .ended .returned) ∧
      ∀ queue, queue ≠ 0 → state.deliveries queue = none := by
  let claimed := DedupStore.empty.write key
    (some (DedupStore.empty.claimMark publication.ttl 0))
  let delivery (phase : Phase) : Delivery := ⟨some key, publication.ttl, phase⟩
  have begun : begin publication.backend publication.ttl 0 DedupStore.empty
      (some key) = (claimed, delivery .handling) := by
    cases publication.backend <;>
      simp [begin, DedupStore.claim, DedupStore.setNx, DedupStore.current,
        DedupStore.empty, afterClaim, claimed, delivery]
  refine ⟨((published.set 0 claimed (delivery .handling)).noteHandler 0
      (delivery .handling) |>.set 0 claimed (delivery .completing)).set 0
      (claimed.complete key publication.ttl 0)
      (delivery (.ended .returned)), ?_, rfl, rfl, ?_,
    ⟨delivery (.ended .returned), ?_, rfl⟩, ?_⟩
  · simp only [Runs.exec, step, if_pos several, named]
    simp only [published, begun, delivery]
    simp [State.noteHandler, State.set, act]
  · simp [State.set, DedupStore.complete, DedupStore.empty, claimed]
  · simp [State.set]
  · intro queue differs
    simp [State.set, State.noteHandler, delivery, published, Function.update_of_ne differs]

theorem not_fansOut {key : String} (named : messageKey publication.message = some key)
    (several : 2 ≤ publication.bound.length) : ¬ FansOut publication := by
  intro fansOut
  obtain ⟨state, first, ran, clock, done, ⟨one, one_there, settled⟩, free⟩ :=
    exec_first named (by omega)
  let others := List.range' 1 (publication.bound.length - 1)
  have mem_others : ∀ queue, queue ∈ others ↔ 1 ≤ queue ∧ queue < publication.bound.length := by
    intro queue
    simp only [others, List.mem_range'_1]
    omega
  obtain ⟨final, rest, same_ran, delivered⟩ := exec_skips
    named (fun queue member => ((mem_others queue).mp member).2)
    List.nodup_range' (fun queue member => free queue
      (by have := (mem_others queue).mp member; omega)) done
    (by rw [clock]; exact publication.lasts)
  have settled : Settled publication final := by
    intro queue within_bound
    by_cases zero : queue = 0
    · subst zero
      have kept := (delivered 0).2 (by simp [mem_others])
      exact ⟨one, .returned, kept.trans one_there, settled⟩
    · obtain ⟨_, there⟩ := (delivered queue).1 ((mem_others queue).mpr (by omega))
      exact ⟨_, .skipped, there, rfl⟩
  have second := fansOut _ final (Runs.exec_append.mpr ⟨state, first, rest⟩)
    settled 1 (by omega)
  rw [same_ran, ran] at second
  simp at second

/-- Every bound consumer runs in every order exactly when the message carries
no id, or only one bound queue gets it. -/
theorem fansOut_iff (publication : Publication) : FansOut publication ↔
      messageKey publication.message = none ∨ publication.bound.length ≤ 1 := by
  constructor
  · intro fansOut
    cases named : messageKey publication.message with
    | none => exact .inl rfl
    | some key =>
      right
      by_contra several
      exact not_fansOut named (by omega) fansOut
  · intro apart
    exact fansOut_of_apart apart

theorem second_consumer_skipped : ¬ ∀ publication : Publication, FansOut publication := by
  intro fansOut
  let completed : Publication :=
    { exchange := ⟨"domain", .fanout⟩
      consumers := [("stats", "done"), ("mail", "done")]
      dead_letter_exchange := none
      routing_key := "done"
      message := ⟨some "m1", none⟩
      backend := .redis
      ttl := 10
      lasts := by decide }
  have both : completed.bound.length = 2 := by decide
  have ends : (Runs.exec (step completed) published
      [.deliver 0, .run 0 .succeed, .run 0 .complete, .deliver 1,
        .run 1 .read]).map (fun state =>
          (state.deliveries 0, state.deliveries 1, state.ran)) =
      some (some ⟨some "m1", 10, .ended .returned⟩,
        some ⟨some "m1", 10, .ended .skipped⟩, [0]) := by decide
  obtain ⟨final, run, reached⟩ := Option.map_eq_some_iff.mp ends
  simp only [Prod.mk.injEq] at reached
  obtain ⟨first, second, ran⟩ := reached
  have settled : Settled completed final := by
    intro queue within_bound
    rw [both] at within_bound
    match queue, within_bound with
    | 0, _ => exact ⟨_, _, first, rfl⟩
    | 1, _ => exact ⟨_, _, second, rfl⟩
  have handled := fansOut completed _ final run settled 1 (by rw [both]; decide)
  rw [ran] at handled
  exact absurd handled (by decide)

end TempestSdk.Queue.FanOut
