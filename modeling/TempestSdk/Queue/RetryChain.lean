import TempestSdk.Library.Runs
import TempestSdk.Queue.Topology

/-!
# The retry chain

A message whose handler always raises, in the topology that `retry_queues` and
`declare_retry_topology` set up, with the dead-letter middleware installed.
The middleware tells the sink and raises again, so the message is rejected as
before, and the work queue's only exchange for rejected messages is the one of
the waiting queue: the message comes back for ever.
-/

namespace TempestSdk.Queue.RetryChain

/-- What was declared, and the key the message was published with, which the
binding of the work queue matches. -/
structure Chain where
  channel : String
  policy : ConsumerRetryPolicy
  retry_exchange : String
  main_exchange : String
  dead_exchange : String
  routing_key : String
  routed : Amqp.keyMatches .topic channel routing_key = true

namespace Chain

def topology (chain : Chain) : RetryTopology :=
  retryQueues chain.channel chain.policy chain.retry_exchange
    chain.main_exchange chain.dead_exchange

def broker (chain : Chain) : Amqp.Topology :=
  declareRetryTopology chain.topology Amqp.Topology.empty

end Chain

/-- A copy of the message in a queue, and since when. -/
structure Copy where
  queue : String
  message : Amqp.Message
  since : Nat
deriving DecidableEq

structure State where
  clock : Nat
  copies : List Copy
  deliveries : Nat
  sink : List DeadLetter
deriving DecidableEq

def published (chain : Chain) : State where
  clock := 0
  copies := [⟨chain.topology.main.name, ⟨chain.routing_key, []⟩, 0⟩]
  deliveries := 0
  sink := []

inductive Action where
  /-- The copy is delivered, the handler raises, and it is rejected. -/
  | consume (index : Nat)
  /-- The copy is past the time its queue keeps a message. -/
  | expire (index : Nat)
  | tick

def State.die (state : State) (chain : Chain) (index : Nat) (copy : Copy)
    (reason : Amqp.Reason) : State :=
  { state with
    copies := state.copies.eraseIdx index ++
      (chain.broker.deadLetter copy.queue reason copy.message).map
        fun (queue, message) => ⟨queue, message, state.clock⟩ }

/-- The handler raises, the middleware may tell the sink, and the broker
rejects the copy. -/
def State.consume (state : State) (chain : Chain) (index : Nat) (copy : Copy) : State :=
  { state.die chain index copy .rejected with
    deliveries := state.deliveries + 1
    sink := state.sink ++ reportFailure chain.policy.max_attempts copy.message }

def expires (chain : Chain) (clock : Nat) (copy : Copy) : Bool :=
  match (chain.broker.argumentsOf copy.queue).bind
      Amqp.QueueArguments.messageTtl with
  | some ttl => copy.since + ttl ≤ clock
  | none => false

def step (chain : Chain) (state : State) : Action → Option State
  | .consume index =>
    state.copies[index]?.bind fun copy =>
      if copy.queue = chain.topology.main.name then
        some (state.consume chain index copy)
      else none
  | .expire index =>
    state.copies[index]?.bind fun copy =>
      if expires chain state.clock copy then
        some (state.die chain index copy .expired)
      else none
  | .tick => some { state with clock := state.clock + 1 }

/-- The message used up its attempts, the sink was told once, and it lies in
the dead queue. -/
structure Ended (chain : Chain) (state : State) : Prop where
  delivered : state.deliveries = chain.policy.max_attempts
  told : state.sink.length = 1
  dead : ∃ copy, state.copies = [copy] ∧ copy.queue = chain.topology.dead.name

/-- The handler never runs more than `max_attempts` times and the sink is told
at most once; every run can go on to the end; and at the end no step brings the
message back to the work queue. -/
structure Ends (chain : Chain) : Prop where
  bounded : ∀ schedule state, Runs.exec (step chain) (published chain) schedule = some state →
    state.deliveries ≤ chain.policy.max_attempts ∧ state.sink.length ≤ 1
  reached : ∀ schedule state, Runs.exec (step chain) (published chain) schedule = some state →
    ∃ rest final, Runs.exec (step chain) state rest = some final ∧ Ended chain final
  settled : ∀ schedule state, Runs.exec (step chain) (published chain) schedule = some state →
    Ended chain state → ∀ rest final,
    Runs.exec (step chain) state rest = some final →
    ∀ copy ∈ final.copies, copy.queue ≠ chain.topology.main.name

section

variable (chain : Chain)

theorem broker_exchanges : chain.broker.exchanges =
    [(chain.main_exchange, .topic), (chain.retry_exchange, .topic),
      (chain.dead_exchange, .topic)] := rfl

theorem broker_bindings : chain.broker.bindings =
    [⟨chain.main_exchange, chain.channel, chain.topology.main.name⟩,
      ⟨chain.retry_exchange, chain.channel, chain.topology.retry.name⟩,
      ⟨chain.dead_exchange, chain.channel, chain.topology.dead.name⟩] := rfl

theorem kindOf_retry : chain.broker.kindOf chain.retry_exchange = some .topic := by
  rw [Amqp.Topology.kindOf, broker_exchanges]
  simp only [List.lookup_cons, beq_self_eq_true]
  split <;> rfl

theorem kindOf_main : chain.broker.kindOf chain.main_exchange = some .topic := by
  rw [Amqp.Topology.kindOf, broker_exchanges]
  simp only [List.lookup_cons, beq_self_eq_true]

theorem main_arguments : chain.broker.argumentsOf chain.topology.main.name =
      some ⟨some chain.retry_exchange, none, none⟩ := by
  show List.lookup _ _ = _
  simp [Chain.broker, declareRetryTopology, declareBound,
    Amqp.Topology.declareExchange, Amqp.Topology.declareQueue,
    Amqp.Topology.bind, Amqp.Topology.empty, rabbitArguments, Chain.topology,
    retryQueues]

theorem append_ne_self (channel suffix : String) (filled : suffix ≠ "") :
    channel ++ suffix ≠ channel := by
  intro same
  exact filled (by simpa using same)

theorem retry_arguments : chain.broker.argumentsOf chain.topology.retry.name =
      some ⟨some chain.main_exchange, some chain.channel, some chain.policy.delay_ms⟩ := by
  have differs : (chain.channel ++ retrySuffix == chain.channel) = false := by
    simp [append_ne_self _ retrySuffix (by decide)]
  show List.lookup _ _ = _
  simp [Chain.broker, declareRetryTopology, declareBound,
    Amqp.Topology.declareExchange, Amqp.Topology.declareQueue,
    Amqp.Topology.bind, Amqp.Topology.empty, rabbitArguments, Chain.topology,
    retryQueues, List.lookup_cons, differs]

theorem main_to_retry (reason : Amqp.Reason) {message : Amqp.Message}
    (routed : Amqp.keyMatches .topic chain.channel message.routingKey = true) :
    ∃ dead, (chain.topology.retry.name, dead) ∈
      chain.broker.deadLetter chain.topology.main.name reason message := by
  refine ⟨_, (Amqp.Topology.mem_deadLetter (main_arguments chain) rfl).mpr
    ⟨Amqp.Topology.mem_route.mpr ?_, rfl⟩⟩
  exact ⟨.topic, chain.channel, kindOf_retry chain, by simp [broker_bindings], routed⟩

theorem retry_to_main (reason : Amqp.Reason) (message : Amqp.Message) :
    ∃ back, (chain.topology.main.name, back) ∈
        chain.broker.deadLetter chain.topology.retry.name reason message ∧
      back.routingKey = chain.channel := by
  refine ⟨_, (Amqp.Topology.mem_deadLetter (retry_arguments chain) rfl).mpr
    ⟨Amqp.Topology.mem_route.mpr ?_, rfl⟩, rfl⟩
  exact ⟨.topic, chain.channel, kindOf_main chain,
    by simp [broker_bindings], Amqp.keyMatches_self _ _⟩

end

def Circulates (chain : Chain) (queue : String) (message : Amqp.Message) : Prop :=
  queue = chain.topology.main.name ∧
      Amqp.keyMatches .topic chain.channel message.routingKey = true ∨
    queue = chain.topology.retry.name

def Alive (chain : Chain) (state : State) : Prop :=
  ∃ copy ∈ state.copies, Circulates chain copy.queue copy.message

variable {chain : Chain}

theorem mem_die {state : State} {index : Nat} {copy : Copy}
    {reason : Amqp.Reason} {queue : String} {message : Amqp.Message}
    (goes : (queue, message) ∈ chain.broker.deadLetter copy.queue reason copy.message) :
    ⟨queue, message, state.clock⟩ ∈ (state.die chain index copy reason).copies := by
  apply List.mem_append.mpr
  right
  exact List.mem_map.mpr ⟨(queue, message), goes, rfl⟩

theorem exec_ticks (chain : Chain) (state : State) (count : Nat) :
    Runs.exec (step chain) state (List.replicate count .tick) =
      some { state with clock := state.clock + count } := by
  induction count generalizing state with
  | zero => rfl
  | succ count induction =>
    rw [List.replicate_succ]
    apply Runs.exec_cons.mpr
    refine ⟨_, rfl, ?_⟩
    rw [induction]
    simp only [Option.some.injEq, State.mk.injEq, and_self, and_true]
    omega

theorem consumed {state : State} {copy : Copy} (there : copy ∈ state.copies)
    (work : copy.queue = chain.topology.main.name)
    (routed : Amqp.keyMatches .topic chain.channel copy.message.routingKey = true) :
    ∃ action next, step chain state action = some next ∧
      next.deliveries = state.deliveries + 1 ∧ Alive chain next := by
  obtain ⟨index, at_index⟩ := List.mem_iff_getElem?.mp there
  refine ⟨.consume index, state.consume chain index copy, ?_, rfl, ?_⟩
  · simp only [step, at_index, Option.bind_some, if_pos work]
  · obtain ⟨dead, goes⟩ := main_to_retry chain .rejected routed
    rw [← work] at goes
    exact ⟨_, mem_die goes, .inr rfl⟩

theorem returned {state : State} {copy : Copy} (there : copy ∈ state.copies)
    (waits : copy.queue = chain.topology.retry.name) :
    ∃ schedule next back, Runs.exec (step chain) state schedule = some next ∧
      next.deliveries = state.deliveries ∧ back ∈ next.copies ∧
      back.queue = chain.topology.main.name ∧
      back.message.routingKey = chain.channel := by
  obtain ⟨index, at_index⟩ := List.mem_iff_getElem?.mp there
  let wait := copy.since + chain.policy.delay_ms
  let later : State := { state with clock := state.clock + wait }
  have due : expires chain later.clock copy = true := by
    simp only [expires, waits, retry_arguments, Option.bind_some,
      decide_eq_true_eq, later, wait]
    omega
  have taken : step chain later (.expire index) =
      some (later.die chain index copy .expired) := by
    have found : later.copies[index]? = some copy := at_index
    simp only [step, found, Option.bind_some, due, if_true]
  obtain ⟨message, goes, key⟩ := retry_to_main chain .expired copy.message
  rw [← waits] at goes
  refine ⟨List.replicate wait .tick ++ [.expire index], later.die chain index copy .expired,
    ⟨chain.topology.main.name, message, later.clock⟩,
    Runs.exec_append.mpr ⟨later, exec_ticks chain state wait,
      Runs.exec_cons.mpr ⟨_, taken, rfl⟩⟩, rfl, mem_die goes, rfl, key⟩

theorem delivered_again {state : State} (alive : Alive chain state) :
    ∃ schedule next, Runs.exec (step chain) state schedule = some next ∧
      next.deliveries = state.deliveries + 1 ∧ Alive chain next := by
  obtain ⟨copy, there, ⟨work, routed⟩ | waits⟩ := alive
  · obtain ⟨action, next, taken, counted, again⟩ := consumed there work routed
    exact ⟨[action], next, Runs.exec_cons.mpr ⟨next, taken, rfl⟩, counted, again⟩
  · obtain ⟨schedule, between, back, run, same, present, work, key⟩ :=
      returned there waits
    have routed : Amqp.keyMatches .topic chain.channel back.message.routingKey = true := by
      rw [key]
      exact Amqp.keyMatches_self _ _
    obtain ⟨action, next, taken, counted, again⟩ := consumed present work routed
    refine ⟨schedule ++ [action], next, Runs.exec_append.mpr
      ⟨between, run, Runs.exec_cons.mpr ⟨next, taken, rfl⟩⟩, ?_, again⟩
    rw [counted, same]

theorem alive_published (chain : Chain) : Alive chain (published chain) :=
  ⟨_, List.mem_singleton_self _, .inl ⟨rfl, chain.routed⟩⟩

theorem delivered_any_number (chain : Chain) (count : Nat) : ∃ schedule state,
      Runs.exec (step chain) (published chain) schedule = some state ∧
      state.deliveries = count ∧ Alive chain state := by
  induction count with
  | zero => exact ⟨[], published chain, rfl, rfl, alive_published chain⟩
  | succ count induction =>
    obtain ⟨schedule, state, run, counted, alive⟩ := induction
    obtain ⟨more, next, further, again, still⟩ := delivered_again alive
    exact ⟨schedule ++ more, next, Runs.exec_append.mpr ⟨state, run, further⟩,
      by rw [again, counted], still⟩

theorem circulates_of_bound {exchange queue : String} {message : Amqp.Message}
    (declared : chain.broker.kindOf exchange = some .topic)
    (not_dead : exchange ≠ chain.dead_exchange)
    (routed : queue ∈ chain.broker.route exchange message.routingKey) :
    Circulates chain queue message := by
  obtain ⟨kind, key, same, bound, matching⟩ :=
    Amqp.Topology.mem_route.mp routed
  rw [declared] at same
  cases same
  rw [broker_bindings] at bound
  simp only [List.mem_cons, Amqp.Binding.mk.injEq, List.not_mem_nil, or_false] at bound
  rcases bound with ⟨_, rfl, main⟩ | ⟨_, _, retry⟩ | ⟨dead, _⟩
  · exact .inl ⟨main, matching⟩
  · exact .inr retry
  · exact (not_dead dead).elim

theorem circulates_of_dead (not_retry : chain.dead_exchange ≠ chain.retry_exchange)
    (not_main : chain.dead_exchange ≠ chain.main_exchange)
    {queue target : String} {reason : Amqp.Reason}
    {message dead : Amqp.Message}
    (circulates : Circulates chain queue message)
    (goes : (target, dead) ∈ chain.broker.deadLetter queue reason message) :
    Circulates chain target dead := by
  rcases circulates with ⟨rfl, _⟩ | rfl
  · obtain ⟨routed, rfl⟩ :=
      (Amqp.Topology.mem_deadLetter (main_arguments chain) rfl).mp goes
    exact circulates_of_bound (kindOf_retry chain) not_retry.symm routed
  · obtain ⟨routed, rfl⟩ :=
      (Amqp.Topology.mem_deadLetter (retry_arguments chain) rfl).mp goes
    exact circulates_of_bound (kindOf_main chain) not_main.symm routed

theorem Circulates.not_dead {queue : String} {message : Amqp.Message}
    (circulates : Circulates chain queue message) :
    queue ≠ chain.topology.dead.name := by
  rcases circulates with ⟨rfl, _⟩ | rfl
  · exact (append_ne_self chain.channel deadSuffix (by decide)).symm
  · intro same
    have suffixes : retrySuffix = deadSuffix := by
      simpa [Chain.topology, retryQueues] using same
    exact absurd suffixes (by decide)

/-- Where the exchanges are distinct, no copy of the message is ever parked. -/
theorem message_circulates (chain : Chain)
    (not_retry : chain.dead_exchange ≠ chain.retry_exchange)
    (not_main : chain.dead_exchange ≠ chain.main_exchange)
    {schedule : List Action} {final : State}
    (run : Runs.exec (step chain) (published chain) schedule = some final) :
    ∀ copy ∈ final.copies, Circulates chain copy.queue copy.message := by
  have died : ∀ (state : State) (index : Nat) (copy : Copy) (reason : Amqp.Reason),
      (∀ other ∈ state.copies, Circulates chain other.queue other.message) →
      copy ∈ state.copies →
      ∀ other ∈ (state.die chain index copy reason).copies,
        Circulates chain other.queue other.message := by
    intro state index copy reason all there other member
    rcases List.mem_append.mp member with stays | new
    · exact all other (List.mem_of_mem_eraseIdx stays)
    · obtain ⟨⟨queue, message⟩, goes, rfl⟩ := List.mem_map.mp new
      exact circulates_of_dead not_retry not_main (all copy there) goes
  have kept : ∀ (state : State) (action : Action) (next : State),
      (∀ copy ∈ state.copies, Circulates chain copy.queue copy.message) →
      step chain state action = some next →
      ∀ copy ∈ next.copies, Circulates chain copy.queue copy.message := by
    intro state action next all taken
    cases action with
    | consume index =>
      obtain ⟨copy, found, moved⟩ := Option.bind_eq_some_iff.mp taken
      split at moved
      · cases moved
        exact died state index copy .rejected all (List.mem_of_getElem? found)
      · cases moved
    | expire index =>
      obtain ⟨copy, found, moved⟩ := Option.bind_eq_some_iff.mp taken
      split at moved
      · cases moved
        exact died state index copy .expired all (List.mem_of_getElem? found)
      · cases moved
    | tick =>
      cases taken
      exact all
  apply Runs.exec_invariant kept _ run
  intro copy there
  rw [List.mem_singleton.mp there]
  exact .inl ⟨rfl, chain.routed⟩

theorem message_circulates_orders : ∃ (chain : Chain) (final : State),
    Runs.exec (step chain) (published chain) [.consume 0, .tick, .expire 0] = some final ∧
      ∀ copy ∈ final.copies, Circulates chain copy.queue copy.message := by
  let orders : Chain :=
    ⟨"orders", ⟨1, 1, by decide, by decide⟩, "retry", "main", "dead", "orders",
      Amqp.keyMatches_self _ _⟩
  have ends : (Runs.exec (step orders) (published orders)
      [.consume 0, .tick, .expire 0]).isSome = true := by decide
  obtain ⟨final, run⟩ := Option.isSome_iff_exists.mp ends
  exact ⟨orders, final, run, message_circulates orders (by decide) (by decide) run⟩

/-- For no channel, policy and exchanges does the chain end. -/
theorem retry_chain_never_ends (chain : Chain) : ¬ Ends chain := by
  intro ends
  obtain ⟨schedule, state, run, counted, _alive⟩ :=
    delivered_any_number chain (chain.policy.max_attempts + 1)
  have bounded := (ends.bounded schedule state run).1
  omega

theorem retry_chain_orders : ¬ ∀ chain : Chain, Ends chain := by
  intro ends
  let orders : Chain :=
    { channel := "orders"
      policy := ⟨1, 1, by decide, by decide⟩
      retry_exchange := "retry"
      main_exchange := "main"
      dead_exchange := "dead"
      routing_key := "orders"
      routed := Amqp.keyMatches_self _ _ }
  have told : (Runs.exec (step orders) (published orders)
      [.consume 0, .tick, .expire 0, .consume 0]).map
        (fun state => state.sink.length) = some 2 := by decide
  obtain ⟨state, run, twice⟩ := Option.map_eq_some_iff.mp told
  have once := ((ends orders).bounded _ state run).2
  omega

end TempestSdk.Queue.RetryChain
