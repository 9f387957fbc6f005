import Mathlib.Algebra.GroupWithZero.Nat
import Mathlib.Data.List.Dedup
import Mathlib.Data.List.Infix

/-!
# Exchanges, queues and dead letters

What a broker does with a message, as far as its path depends on it: an
exchange routes by its bindings, a queue may name an exchange that its
rejected and expired messages go to, and a message carries how often it was
dead-lettered by which queue and why.  The names are those of AMQP.
-/

namespace Amqp

inductive ExchangeKind where
  | topic
  | direct
  | fanout
  | headers
deriving DecidableEq

structure Binding where
  exchange : String
  key : String
  queue : String
deriving DecidableEq

structure QueueArguments where
  deadLetterExchange : Option String
  deadLetterRoutingKey : Option String
  messageTtl : Option Nat
deriving DecidableEq

inductive Reason where
  | rejected
  | expired
deriving DecidableEq

/-- An entry of the `x-death` header: one for each queue and reason. -/
structure Death where
  queue : String
  reason : Reason
  count : Nat
deriving DecidableEq

structure Message where
  routingKey : String
  deaths : List Death
deriving DecidableEq

structure Topology where
  exchanges : List (String × ExchangeKind)
  queues : List (String × QueueArguments)
  bindings : List Binding

def splitDots : List Char → List (List Char)
  | [] => [[]]
  | char :: rest =>
    if char = '.' then [] :: splitDots rest
    else match splitDots rest with
      | [] => [[char]]
      | word :: words => (char :: word) :: words

def words (key : String) : List (List Char) :=
  if key = "" then [] else splitDots key.toList

/-- `*` stands for one word, `#` for any number of words. -/
def wordsMatch : List (List Char) → List (List Char) → Bool
  | [], given => given.isEmpty
  | pattern :: patterns, given =>
    if pattern = ['#'] then given.tails.any fun rest => wordsMatch patterns rest
    else match given with
      | [] => false
      | word :: rest => (pattern = ['*'] || pattern = word) && wordsMatch patterns rest

/-- A binding with this key receives a message with that routing key.  No
binding here names header values, and such a binding receives everything. -/
def keyMatches (kind : ExchangeKind) (bound routingKey : String) : Bool :=
  match kind with
  | .topic => wordsMatch (words bound) (words routingKey)
  | .direct => bound = routingKey
  | .fanout | .headers => true

theorem wordsMatch_self (pattern : List (List Char)) : wordsMatch pattern pattern = true := by
  induction pattern with
  | nil => rfl
  | cons word rest induction =>
    rw [wordsMatch]
    split
    · apply List.any_eq_true.mpr
      exact ⟨rest, by simp [List.mem_tails], induction⟩
    · simpa using induction

theorem keyMatches_self (kind : ExchangeKind) (key : String) :
    keyMatches kind key key = true := by
  cases kind with
  | topic => exact wordsMatch_self _
  | direct => simp [keyMatches]
  | fanout => rfl
  | headers => rfl

namespace Topology

def empty : Topology where
  exchanges := []
  queues := []
  bindings := []

def declareExchange (name : String) (kind : ExchangeKind) (topology : Topology) : Topology :=
  { topology with exchanges := topology.exchanges ++ [(name, kind)] }

def declareQueue (name : String) (arguments : QueueArguments)
    (topology : Topology) : Topology :=
  { topology with queues := topology.queues ++ [(name, arguments)] }

def bind (binding : Binding) (topology : Topology) : Topology :=
  { topology with bindings := topology.bindings ++ [binding] }

def kindOf (topology : Topology) (exchange : String) : Option ExchangeKind :=
  topology.exchanges.lookup exchange

def argumentsOf (topology : Topology) (queue : String) : Option QueueArguments :=
  topology.queues.lookup queue

def route (topology : Topology) (exchange routingKey : String) : List String :=
  match topology.kindOf exchange with
  | none => []
  | some kind =>
    ((topology.bindings.filter fun binding =>
      binding.exchange = exchange && keyMatches kind binding.key routingKey
      ).map Binding.queue).dedup

theorem mem_route {topology : Topology} {exchange routingKey queue : String} :
    queue ∈ topology.route exchange routingKey ↔
      ∃ kind key, topology.kindOf exchange = some kind ∧
        ⟨exchange, key, queue⟩ ∈ topology.bindings ∧
        keyMatches kind key routingKey = true := by
  unfold route
  cases declared : topology.kindOf exchange with
  | none => simp
  | some kind =>
    simp only [List.mem_dedup, List.mem_map, List.mem_filter,
      Bool.and_eq_true, decide_eq_true_eq]
    constructor
    · rintro ⟨⟨_, key, _⟩, ⟨bound, rfl, matching⟩, rfl⟩
      exact ⟨kind, key, rfl, bound, matching⟩
    · rintro ⟨_, key, same, bound, matching⟩
      cases same
      exact ⟨_, ⟨bound, rfl, matching⟩, rfl⟩

end Topology

def recordDeath (queue : String) (reason : Reason) (deaths : List Death) : List Death :=
  let same := fun death : Death => death.queue = queue ∧ death.reason = reason
  let before := match deaths.find? fun death => decide (same death) with
    | some death => death.count
    | none => 0
  ⟨queue, reason, before + 1⟩ :: deaths.filter fun death => ¬ same death

def deathCount (counts : Reason → Bool) (deaths : List Death) : Nat :=
  ((deaths.filter fun death => counts death.reason).map Death.count).sum

theorem deathCount_cons (counts : Reason → Bool) (death : Death) (deaths : List Death) :
    deathCount counts (death :: deaths) =
      (if counts death.reason then death.count else 0) + deathCount counts deaths := by
  simp only [deathCount, List.filter_cons]
  split <;> simp

theorem deathCount_filter_le (counts : Reason → Bool) (keeps : Death → Bool)
    (deaths : List Death) :
    deathCount counts (deaths.filter keeps) ≤ deathCount counts deaths := by
  induction deaths with
  | nil => exact Nat.le_refl _
  | cons death rest induction =>
    rw [deathCount_cons, List.filter_cons]
    split
    · rw [deathCount_cons]
      omega
    · omega

theorem deathCount_recordDeath_le (counts : Reason → Bool) (queue : String)
    (reason : Reason) (deaths : List Death) :
    deathCount counts (recordDeath queue reason deaths) ≤
      deathCount counts deaths + if counts reason then 1 else 0 := by
  simp only [recordDeath, deathCount_cons]
  induction deaths with
  | nil => simp [deathCount]
  | cons death rest induction =>
    rw [deathCount_cons]
    by_cases same : death.queue = queue ∧ death.reason = reason
    · have fewer := deathCount_filter_le counts
        (fun death => decide (¬(death.queue = queue ∧ death.reason = reason)))
        rest
      simp only [List.find?_cons, List.filter_cons, same, and_self,
        decide_true, not_true_eq_false, decide_false, Bool.false_eq_true,
        if_false]
      split <;> omega
    · simp only [List.find?_cons, List.filter_cons, same, decide_false,
        not_false_eq_true, decide_true, if_true, deathCount_cons]
      omega

/-- Where a message that dies in a queue goes: nowhere, when the queue names no
exchange for it. -/
def Topology.deadLetter (topology : Topology) (queue : String)
    (reason : Reason) (message : Message) : List (String × Message) :=
  match topology.argumentsOf queue with
  | none => []
  | some arguments =>
    match arguments.deadLetterExchange with
    | none => []
    | some exchange =>
      let key := arguments.deadLetterRoutingKey.getD message.routingKey
      (topology.route exchange key).map fun target =>
        (target, ⟨key, recordDeath queue reason message.deaths⟩)

theorem Topology.mem_deadLetter {topology : Topology} {queue : String}
    {reason : Reason} {message : Message} {arguments : QueueArguments}
    {exchange : String} (declared : topology.argumentsOf queue = some arguments)
    (letters : arguments.deadLetterExchange = some exchange)
    {target : String} {dead : Message} :
    (target, dead) ∈ topology.deadLetter queue reason message ↔ target ∈ topology.route exchange
          (arguments.deadLetterRoutingKey.getD message.routingKey) ∧
        dead = ⟨arguments.deadLetterRoutingKey.getD message.routingKey,
          recordDeath queue reason message.deaths⟩ := by
  simp only [deadLetter, declared, letters, List.mem_map, Prod.mk.injEq]
  constructor
  · rintro ⟨found, routed, rfl, rfl⟩
    exact ⟨routed, rfl⟩
  · rintro ⟨routed, rfl⟩
    exact ⟨target, routed, rfl, rfl⟩

theorem Topology.deaths_of_deadLetter {topology : Topology} {queue : String}
    {reason : Reason} {message : Message} {target : String} {dead : Message}
    (goes : (target, dead) ∈ topology.deadLetter queue reason message) :
    dead.deaths = recordDeath queue reason message.deaths := by
  unfold deadLetter at goes
  split at goes
  · cases goes
  · split at goes
    · cases goes
    · obtain ⟨found, _routed, same⟩ := List.mem_map.mp goes
      cases same
      rfl

end Amqp
