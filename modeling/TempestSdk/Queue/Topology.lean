import TempestSdk.Library.Amqp

/-!
# Queues of a channel

The description of a queue and what it asks of the broker: where its rejected
messages go, how long a message stays, and which exchange it is bound to.
-/

namespace TempestSdk.Queue

structure DeadLetterSpec where
  exchange : String
  routing_key : Option String
  queue : Option String
deriving DecidableEq

structure ExchangeSpec where
  name : String
  kind : Amqp.ExchangeKind
deriving DecidableEq

structure ExchangeBinding where
  exchange : ExchangeSpec
  routing_key : String
deriving DecidableEq

structure QueueSpec where
  name : String
  dead_letter : Option DeadLetterSpec
  message_ttl_ms : Option Nat
  binding : Option ExchangeBinding
deriving DecidableEq

def retrySuffix : String := ".retry"

def deadSuffix : String := ".dead"

def deadLetterQueueSuffix : String := ".dlq"

/-- `QueueSpec.consumer`: one consumer's own queue for an event. -/
def QueueSpec.consumer (consumer channel : String) (exchange : ExchangeSpec)
    (dead_letter_exchange : Option String) : QueueSpec :=
  let name := consumer ++ "." ++ channel
  { name
    dead_letter := dead_letter_exchange.map fun letters =>
      { exchange := letters
        routing_key := some name
        queue := some (name ++ deadLetterQueueSuffix) }
    message_ttl_ms := none
    binding := some { exchange, routing_key := channel } }

def rabbitArguments (spec : QueueSpec) : Amqp.QueueArguments where
  deadLetterExchange := spec.dead_letter.map DeadLetterSpec.exchange
  deadLetterRoutingKey := spec.dead_letter.bind DeadLetterSpec.routing_key
  messageTtl := spec.message_ttl_ms

structure ConsumerRetryPolicy where
  max_attempts : Nat
  delay_ms : Nat
  at_least_one : 1 ≤ max_attempts
  positive : 0 < delay_ms

structure RetryTopology where
  main : QueueSpec
  retry : QueueSpec
  dead : QueueSpec
  channel : String
  main_exchange : String
  retry_exchange : String
  dead_exchange : String

def retryQueues (channel : String) (policy : ConsumerRetryPolicy)
    (retry_exchange main_exchange dead_exchange : String) : RetryTopology where
  channel := channel
  main_exchange := main_exchange
  retry_exchange := retry_exchange
  dead_exchange := dead_exchange
  main :=
    { name := channel
      dead_letter := some ⟨retry_exchange, none, none⟩
      message_ttl_ms := none
      binding := none }
  retry :=
    { name := channel ++ retrySuffix
      dead_letter := some ⟨main_exchange, some channel, none⟩
      message_ttl_ms := some policy.delay_ms
      binding := none }
  dead :=
    { name := channel ++ deadSuffix
      dead_letter := none
      message_ttl_ms := none
      binding := none }

def declareBound (spec : QueueSpec) (exchange channel : String)
    (broker : Amqp.Topology) : Amqp.Topology :=
  ((broker.declareExchange exchange .topic).declareQueue spec.name
    (rabbitArguments spec)).bind ⟨exchange, channel, spec.name⟩

def declareRetryTopology (topology : RetryTopology) (broker : Amqp.Topology) : Amqp.Topology :=
  declareBound topology.dead topology.dead_exchange topology.channel
    (declareBound topology.retry topology.retry_exchange topology.channel
      (declareBound topology.main topology.main_exchange topology.channel broker))

/-- `delivery_attempt`: expiries are not failed deliveries. -/
def deliveryAttempt (message : Amqp.Message) : Nat :=
  Amqp.deathCount (fun reason => reason ≠ .expired) message.deaths + 1

theorem deliveryAttempt_dead {topology : Amqp.Topology} {queue target : String}
    {reason : Amqp.Reason} {message dead : Amqp.Message}
    (goes : (target, dead) ∈ topology.deadLetter queue reason message) :
    deliveryAttempt dead ≤ deliveryAttempt message + if reason = .expired then 0 else 1 := by
  have counted := Amqp.deathCount_recordDeath_le
    (fun reason => reason ≠ .expired) queue reason message.deaths
  rw [deliveryAttempt, Amqp.Topology.deaths_of_deadLetter goes, deliveryAttempt]
  cases reason <;> simp at counted ⊢ <;> omega

structure DeadLetter where
  task_name : String
  retries : Nat
deriving DecidableEq

/-- `make_dead_letter_middleware`: the sink's calls when the handler raises
anything but `ConcurrentDeliveryError`. -/
def reportFailure (max_attempts : Nat) (message : Amqp.Message) : List DeadLetter :=
  if max_attempts ≤ deliveryAttempt message then
    [⟨message.routingKey, max_attempts - 1⟩]
  else []

end TempestSdk.Queue
