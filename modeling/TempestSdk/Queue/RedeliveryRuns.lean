import TempestSdk.Queue.Redelivery

/-!
# At least once

Three things that hold of every run, each under its own condition: what is
acknowledged was handled, no dead letter goes nowhere, and the count of
attempts that the broker keeps is a count of raises.
-/

namespace TempestSdk.Queue.Redelivery

open RetryChain (Circulates)

inductive Stepped (config : Config) (state : State) :
    Action → State → Prop where
  | deliver {id index : Nat} {copy : Copy} :
      state.workers id = none → copy ∈ state.copies →
      Stepped config state (.deliver id index) (deliver config state id index copy)
  | run {id : Nat} {event : Event} {worker : Worker} {store : DedupStore}
      {moved : Delivery} :
      state.workers id = some worker →
      act config.ttl id state.store worker.delivery event = some (store, moved) →
      Stepped config state (.run id event) (run state id worker event store moved)
  | report {id : Nat} {worker : Worker} :
      state.workers id = some worker → worker.raised = true →
      Stepped config state (.report id) (report config state id worker)
  | late {id : Nat} : Stepped config state (.settle id) state
  | ack {id : Nat} {worker : Worker} {copy : Copy} :
      state.workers id = some worker → copy ∈ state.copies →
      worker.delivery.phase = .ended .returned ∨ worker.delivery.phase = .ended .skipped →
      Stepped config state (.settle id) (state.ack copy)
  | reject {id : Nat} {worker : Worker} {copy : Copy} :
      state.workers id = some worker → copy ∈ state.copies →
      copy.holder = some id →
      worker.delivery.phase = .ended .concurrent ∨ worker.delivery.phase = .ended .raised →
      Stepped config state (.settle id) (state.die config copy .rejected)
  | disconnect {id : Nat} :
      Stepped config state (.disconnect id) (state.requeue id)
  | crash {id : Nat} {worker : Worker} :
      state.workers id = some worker →
      Stepped config state (.crash id) ((state.requeue id).setWorker id
        { worker with delivery := worker.delivery.crash })
  | expire {index : Nat} {copy : Copy} : copy ∈ state.copies →
      Stepped config state (.expire index) (state.die config copy .expired)
  | tick : Stepped config state .tick
      { state with store := state.store.tick }

variable {state : State} {copy : Copy} {id : Nat}

theorem find_holder (found : (state.copies.find? fun copy => copy.holder = some id) =
      some copy) : copy ∈ state.copies ∧ copy.holder = some id :=
  ⟨List.mem_of_find?_eq_some found, by simpa using List.find?_some found⟩

variable {config : Config} {worker : Worker}

theorem settle_stepped {outcome : Outcome} (found : state.workers id = some worker)
    (ended : worker.delivery.phase = .ended outcome)
    (alive : outcome ≠ .crashed) :
    Stepped config state (.settle id) (settle config state id outcome) := by
  unfold settle
  split
  · exact .late
  · rename_i copy handed
    obtain ⟨there, held⟩ := find_holder handed
    cases outcome with
    | returned => exact .ack found there (.inl ended)
    | skipped => exact .ack found there (.inr ended)
    | concurrent => exact .reject found there held (.inl ended)
    | raised => exact .reject found there held (.inr ended)
    | crashed => exact (alive rfl).elim

variable {action : Action}
variable {state next : State}

theorem step_cases (taken : step config state action = some next) :
    Stepped config state action next := by
  cases action with
  | deliver id index =>
    simp only [step] at taken
    split at taken
    · rename_i handed free at_index
      split at taken
      · cases taken
        exact .deliver free (List.mem_of_getElem? at_index)
      · cases taken
    · cases taken
  | run id event =>
    obtain ⟨worker, found, moved⟩ := Option.bind_eq_some_iff.mp taken
    obtain ⟨⟨store, after⟩, acted, rfl⟩ := Option.map_eq_some_iff.mp moved
    exact .run found acted
  | report id =>
    obtain ⟨worker, found, moved⟩ := Option.bind_eq_some_iff.mp taken
    split at moved
    · rename_i may
      cases moved
      exact .report found may.1
    · cases moved
  | settle id =>
    obtain ⟨worker, found, moved⟩ := Option.bind_eq_some_iff.mp taken
    split at moved
    · cases moved
    · rename_i outcome alive ended
      split at moved
      · cases moved
      · cases moved
        exact settle_stepped found ended alive
    · cases moved
  | disconnect id =>
    cases taken
    exact .disconnect
  | crash id =>
    obtain ⟨worker, found, rfl⟩ := Option.map_eq_some_iff.mp taken
    exact .crash found
  | expire index =>
    obtain ⟨expired, at_index, moved⟩ := Option.bind_eq_some_iff.mp taken
    split at moved
    · cases moved
      exact .expire (List.mem_of_getElem? at_index)
    · cases moved
  | tick =>
    cases taken
    exact .tick

theorem mem_requeue (member : copy ∈ (state.requeue id).copies) :
    ∃ before ∈ state.copies, copy.queue = before.queue ∧ copy.message = before.message ∧
      (copy.holder = none ∨ copy = before) := by
  obtain ⟨before, there, rfl⟩ := List.mem_map.mp member
  refine ⟨before, there, ?_⟩
  split
  · exact ⟨rfl, rfl, .inl rfl⟩
  · exact ⟨rfl, rfl, .inr rfl⟩

theorem mem_die {copy other : Copy} {reason : Amqp.Reason}
    (member : other ∈ (state.die config copy reason).copies) :
    other ∈ state.copies ∨ other.holder = none ∧ (other.queue, other.message) ∈
        config.chain.broker.deadLetter copy.queue reason copy.message := by
  rcases List.mem_append.mp member with stays | new
  · exact .inl (List.mem_of_mem_erase stays)
  · obtain ⟨⟨queue, message⟩, goes, rfl⟩ := List.mem_map.mp new
    exact .inr ⟨rfl, goes⟩

theorem mem_deliver {id index : Nat} {copy other : Copy}
    (member : other ∈ (deliver config state id index copy).copies) :
    other ∈ state.copies ∨ other = { copy with holder := some id } :=
  List.mem_or_eq_of_mem_set member

structure Kept (config : Config) (state : State) : Prop where
  circulate : ∀ copy ∈ state.copies, Circulates config.chain copy.queue copy.message
  discarded : state.discarded = false

theorem dead_letter_goes {queue : String} {message : Amqp.Message} (reason : Amqp.Reason)
    (circulates : Circulates config.chain queue message) :
    config.chain.broker.deadLetter queue reason message ≠ [] := by
  intro nowhere
  rcases circulates with ⟨rfl, routed⟩ | rfl
  · obtain ⟨dead, goes⟩ := RetryChain.main_to_retry config.chain reason routed
    rw [nowhere] at goes
    cases goes
  · obtain ⟨back, goes, _⟩ :=
      RetryChain.retry_to_main config.chain reason message
    rw [nowhere] at goes
    cases goes

theorem Kept.die {reason : Amqp.Reason} (kept : Kept config state)
    (there : copy ∈ state.copies) :
    Kept config (state.die config copy reason) := by
  constructor
  · intro other member
    rcases mem_die member with stays | ⟨_, goes⟩
    · exact kept.circulate other stays
    · exact RetryChain.circulates_of_dead config.not_retry config.not_main
        (kept.circulate copy there) goes
  · have goes := dead_letter_goes reason (kept.circulate copy there)
    simp [State.die, kept.discarded, goes]

theorem Kept.requeue (id : Nat) (kept : Kept config state) :
    Kept config (state.requeue id) := by
  refine ⟨?_, kept.discarded⟩
  intro copy member
  obtain ⟨before, there, queue, message, _⟩ := mem_requeue member
  rw [queue, message]
  exact kept.circulate before there

theorem kept_step (kept : Kept config state)
    (taken : step config state action = some next) : Kept config next := by
  cases step_cases taken with
  | @deliver id index handed _free there =>
    refine ⟨?_, kept.discarded⟩
    intro copy member
    rcases mem_deliver member with stays | rfl
    · exact kept.circulate copy stays
    · exact kept.circulate handed there
  | run _found _acted => exact ⟨kept.circulate, kept.discarded⟩
  | report _found _raised => exact ⟨kept.circulate, kept.discarded⟩
  | late => exact kept
  | ack _found _there _ended =>
    refine ⟨?_, kept.discarded⟩
    intro copy member
    exact kept.circulate copy (List.mem_of_mem_erase member)
  | reject _found there _held _ended => exact kept.die there
  | disconnect => exact kept.requeue _
  | crash _found =>
    obtain ⟨circulate, discarded⟩ := kept.requeue _
    exact ⟨circulate, discarded⟩
  | expire there => exact kept.die there
  | tick => exact ⟨kept.circulate, kept.discarded⟩

def SeenDone (phase : Phase) : Prop :=
  phase = .completing ∨ phase = .ended .returned ∨ phase = .ended .skipped

structure Handled (state : State) : Prop where
  marks : ∀ key mark, state.store.marks key = some mark →
    mark.marker = .done → state.completed = true
  workers : ∀ id worker, state.workers id = some worker →
    SeenDone worker.delivery.phase → state.completed = true
  acked : state.acked = true → state.completed = true

theorem Handled.workers_update (handled : Handled state)
    (own : SeenDone worker.delivery.phase → state.completed = true) :
    ∀ other found, Function.update state.workers id (some worker) other = some found →
      SeenDone found.delivery.phase → state.completed = true := by
  intro other found there seen
  by_cases same : other = id
  · subst same
    rw [Function.update_self] at there
    cases there
    exact own seen
  · rw [Function.update_of_ne same] at there
    exact handled.workers other found there seen

theorem Handled.write {key : String} {mark : Option Mark} (handled : Handled state)
    (fresh : ∀ new, mark = some new → new.marker = .done → state.completed = true) :
    ∀ other found, (state.store.write key mark).marks other = some found →
      found.marker = .done → state.completed = true := by
  intro other found there done
  by_cases same : other = key
  · subst same
    rw [DedupStore.write_self] at there
    exact fresh found there done
  · rw [DedupStore.write_of_ne _ same] at there
    exact handled.marks other found there done

theorem Handled.deliver {id index : Nat} (handled : Handled state) :
    Handled (Redelivery.deliver config state id index copy) := by
  unfold Redelivery.deliver
  cases named : messageKey config.message with
  | none =>
    refine ⟨handled.marks, ?_, handled.acked⟩
    apply handled.workers_update
    rintro (seen | seen | seen) <;> cases seen
  | some key =>
    rcases begin_spec config.backend config.ttl id state.store key with
      ⟨_missing, begun⟩ | ⟨mark, phase, present, refused, begun⟩
    · rw [begun]
      refine ⟨handled.write ?_, ?_, handled.acked⟩
      · intro new written done
        cases written
        cases done
      · apply handled.workers_update
        rintro (seen | seen | seen) <;> cases seen
    · rw [begun]
      refine ⟨handled.marks, ?_, handled.acked⟩
      apply handled.workers_update
      intro seen
      rcases refused with rfl | rfl | ⟨rfl, done⟩
      · rcases seen with seen | seen | seen <;> cases seen
      · rcases seen with seen | seen | seen <;> cases seen
      · exact handled.marks key mark (DedupStore.current_eq_some.mp present).1 done

theorem Handled.read {key : String} (handled : Handled state)
    (found : state.store.current .redis key ≠ none)
    (seen : SeenDone (afterClaim (state.store.readMarker key))) :
    state.completed = true := by
  cases present : state.store.current .redis key with
  | none => exact (found present).elim
  | some mark =>
    obtain ⟨marker, expiresAt, writer⟩ := mark
    cases marker with
    | done => exact handled.marks key _ (DedupStore.current_eq_some.mp present).1 rfl
    | inFlight =>
      simp only [DedupStore.readMarker, present, afterClaim] at seen
      rcases seen with seen | seen | seen <;> cases seen

theorem Handled.run {event : Event} {store : DedupStore} {moved : Delivery}
    (handled : Handled state) (there : state.workers id = some worker)
    (found : MarkFound state (.run id event))
    (acted : act config.ttl id state.store worker.delivery event = some (store, moved)) :
    Handled (Redelivery.run state id worker event store moved) := by
  rcases act_cases acted with
    ⟨key, rfl, reading, keyed, rfl, rfl⟩ | ⟨rfl, _, _, _⟩ |
    ⟨rfl, _, rfl, phase, kind, rfl⟩ | ⟨key, rfl, completing, _, rfl, rfl⟩ |
    ⟨key, rfl, _, _, rfl, rfl⟩
  · refine ⟨handled.marks, ?_, handled.acked⟩
    apply handled.workers_update
    exact handled.read (found worker key there reading keyed)
  · exact ⟨fun _ _ _ _ => rfl, fun _ _ _ _ => rfl, fun _ => rfl⟩
  · refine ⟨handled.marks, ?_, handled.acked⟩
    apply handled.workers_update
    rcases kind with rfl | rfl <;> rintro (seen | seen | seen) <;> cases seen
  · have completed := handled.workers id worker there (.inl completing)
    exact ⟨handled.write fun _ _ _ => completed,
      handled.workers_update fun _ => completed, handled.acked⟩
  · refine ⟨handled.write ?_, ?_, handled.acked⟩
    · intro new written
      cases written
    · apply handled.workers_update
      rintro (seen | seen | seen) <;> cases seen

theorem handled_step (handled : Handled state) (found : MarkFound state action)
    (taken : step config state action = some next) : Handled next := by
  cases step_cases taken with
  | deliver _free _there => exact handled.deliver
  | run there acted => exact handled.run there found acted
  | @report id worker there _raised =>
    refine ⟨handled.marks, ?_, handled.acked⟩
    exact handled.workers_update (handled.workers id worker there)
  | late => exact handled
  | @ack id worker copy there _ ended =>
    exact ⟨handled.marks, handled.workers,
      fun _ => handled.workers id worker there (.inr ended)⟩
  | reject _there _ _held _ended => exact ⟨handled.marks, handled.workers, handled.acked⟩
  | disconnect => exact ⟨handled.marks, handled.workers, handled.acked⟩
  | crash _there =>
    refine ⟨handled.marks, ?_, handled.acked⟩
    apply handled.workers_update
    rintro (seen | seen | seen) <;> cases seen
  | expire _there => exact ⟨handled.marks, handled.workers, handled.acked⟩
  | tick => exact ⟨handled.marks, handled.workers, handled.acked⟩

/-- Every attempt on record but the present one is a raise, and the present
one is when its delivery raised. -/
structure Counted (config : Config) (state : State) : Prop where
  copies : ∀ copy ∈ state.copies, deliveryAttempt copy.message ≤ state.raises + 1
  workers : ∀ id worker, state.workers id = some worker →
    deliveryAttempt worker.message ≤ state.raises + 1
  spent : ∀ id worker, state.workers id = some worker →
    worker.raised = true → deliveryAttempt worker.message ≤ state.raises
  raised : ∀ id worker, state.workers id = some worker → worker.delivery.phase = .releasing ∨
      worker.delivery.phase = .ended .raised → worker.raised = true
  held : ∀ copy ∈ state.copies, ∀ id, copy.holder = some id →
    ∃ worker, state.workers id = some worker ∧ worker.message = copy.message
  told : state.sink ≠ [] → config.chain.policy.max_attempts ≤ state.raises

theorem Counted.update {before : Worker} (counted : Counted config state)
    (worker : Worker) (found : state.workers id = some before)
    (message : worker.message = before.message)
    (copies : next.copies = state.copies)
    (workers : next.workers = Function.update state.workers id (some worker))
    (raises : state.raises ≤ next.raises)
    (spent : worker.raised = true → deliveryAttempt worker.message ≤ next.raises)
    (raised : worker.delivery.phase = .releasing ∨
      worker.delivery.phase = .ended .raised → worker.raised = true)
    (told : next.sink ≠ [] → config.chain.policy.max_attempts ≤ next.raises) :
    Counted config next := by
  have found_cases : ∀ other one, next.workers other = some one →
      other = id ∧ one = worker ∨ state.workers other = some one := by
    intro other one there
    rw [workers] at there
    by_cases same : other = id
    · subst same
      rw [Function.update_self] at there
      exact .inl ⟨rfl, (Option.some.inj there).symm⟩
    · rw [Function.update_of_ne same] at there
      exact .inr there
  constructor
  · intro copy member
    rw [copies] at member
    have before := counted.copies copy member
    omega
  · intro other one there
    rcases found_cases other one there with ⟨rfl, rfl⟩ | earlier
    · have before := counted.workers other before found
      rw [message]
      omega
    · have before := counted.workers other one earlier
      omega
  · intro other one there raises_it
    rcases found_cases other one there with ⟨rfl, rfl⟩ | earlier
    · exact spent raises_it
    · have before := counted.spent other one earlier raises_it
      omega
  · intro other one there phase
    rcases found_cases other one there with ⟨rfl, rfl⟩ | earlier
    · exact raised phase
    · exact counted.raised other one earlier phase
  · intro copy member other holds
    rw [copies] at member
    obtain ⟨one, there, same_message⟩ := counted.held copy member other holds
    by_cases same : other = id
    · subst same
      rw [found] at there
      cases there
      exact ⟨worker, by rw [workers, Function.update_self],
        message.trans same_message⟩
    · exact ⟨one, by rw [workers, Function.update_of_ne same]; exact there,
        same_message⟩
  · exact told

theorem Counted.run {event : Event} {store : DedupStore} {moved : Delivery}
    (counted : Counted config state) (found : state.workers id = some worker)
    (acted : act config.ttl id state.store worker.delivery event = some (store, moved)) :
    Counted config (Redelivery.run state id worker event store moved) := by
  have attempts := counted.workers id worker found
  have more : state.raises ≤ (Redelivery.run state id worker event store moved).raises := by
    simp only [Redelivery.run]
    split <;> omega
  apply counted.update { worker with
      delivery := moved
      raised := if event = .fail then true else worker.raised } found
  · rfl
  · rfl
  · rfl
  · exact more
  · intro raised
    by_cases failed : event = .fail
    · simpa [Redelivery.run, failed] using attempts
    · have before : worker.raised = true := by simpa [failed] using raised
      have spent := counted.spent id worker found before
      exact Nat.le_trans spent more
  · intro phase
    rcases act_cases acted with
      ⟨key, rfl, _, _, _, rfl⟩ | ⟨rfl, _, _, next, kind, rfl⟩ |
      ⟨rfl, _⟩ | ⟨key, rfl, _, _, _, rfl⟩ | ⟨key, rfl, releasing, _⟩
    · unfold DedupStore.readMarker at phase
      split at phase <;> rcases phase with phase | phase <;> cases phase
    · rcases kind with rfl | rfl <;>
        rcases phase with phase | phase <;> cases phase
    · rfl
    · rcases phase with phase | phase <;> cases phase
    · exact counted.raised id worker found (.inl releasing)
  · intro told
    exact Nat.le_trans (counted.told told) more

theorem Counted.requeue (id : Nat) (counted : Counted config state) :
    Counted config (state.requeue id) := by
  refine ⟨?_, counted.workers, counted.spent, counted.raised, ?_, counted.told⟩
  · intro copy member
    obtain ⟨before, there, _, message, _⟩ := mem_requeue member
    rw [message]
    exact counted.copies before there
  · intro copy member other holds
    obtain ⟨before, there, _, _, free | same⟩ := mem_requeue member
    · rw [free] at holds
      cases holds
    · rw [same] at holds ⊢
      exact counted.held before there other holds

theorem Counted.die {reason : Amqp.Reason} (counted : Counted config state)
    (there : copy ∈ state.copies)
    (spent : reason ≠ .expired → deliveryAttempt copy.message ≤ state.raises) :
    Counted config (state.die config copy reason) := by
  refine ⟨?_, counted.workers, counted.spent, counted.raised, ?_, counted.told⟩
  · intro other member
    show deliveryAttempt other.message ≤ state.raises + 1
    rcases mem_die member with stays | ⟨_, goes⟩
    · exact counted.copies other stays
    · have counts := deliveryAttempt_dead goes
      have before := counted.copies copy there
      by_cases expired : reason = .expired
      · rw [if_pos expired] at counts
        omega
      · rw [if_neg expired] at counts
        have paid := spent expired
        omega
  · intro other member holder holds
    rcases mem_die member with stays | ⟨free, _⟩
    · exact counted.held other stays holder holds
    · rw [free] at holds
      cases holds

theorem begin_not_raised (backend : Backend) (ttl id : Nat)
    (store : DedupStore) (key : Option String) :
    ¬ ((begin backend ttl id store key).2.phase = .releasing ∨
      (begin backend ttl id store key).2.phase = .ended .raised) := by
  cases key with
  | none => rintro (phase | phase) <;> cases phase
  | some key =>
    rcases begin_spec backend ttl id store key with
      ⟨_, begun⟩ | ⟨mark, _, _, rfl | rfl | ⟨rfl, _⟩, begun⟩ <;>
      rw [begun] <;> rintro (phase | phase) <;> cases phase

theorem Counted.deliver {id index : Nat} (counted : Counted config state)
    (free : state.workers id = none) (there : copy ∈ state.copies) :
    Counted config (Redelivery.deliver config state id index copy) := by
  have found_cases : ∀ other one,
      (Redelivery.deliver config state id index copy).workers other = some one →
      other = id ∧ one.message = copy.message ∧ one.raised = false ∧
          one.delivery = (begin config.backend config.ttl id state.store
            (messageKey config.message)).2 ∨
        state.workers other = some one := by
    intro other one found
    by_cases same : other = id
    · subst same
      simp only [Redelivery.deliver, Function.update_self, Option.some.injEq] at found
      subst found
      exact .inl ⟨rfl, rfl, rfl, rfl⟩
    · simp only [Redelivery.deliver, Function.update_of_ne same] at found
      exact .inr found
  constructor
  · intro other member
    rcases mem_deliver member with stays | rfl
    · exact counted.copies other stays
    · exact counted.copies copy there
  · intro other one found
    rcases found_cases other one found with ⟨_, message, _⟩ | earlier
    · rw [message]
      exact counted.copies copy there
    · exact counted.workers other one earlier
  · intro other one found raised
    rcases found_cases other one found with ⟨_, _, quiet, _⟩ | earlier
    · rw [quiet] at raised
      cases raised
    · exact counted.spent other one earlier raised
  · intro other one found phase
    rcases found_cases other one found with ⟨_, _, _, begun⟩ | earlier
    · rw [begun] at phase
      exact (begin_not_raised _ _ _ _ _ phase).elim
    · exact counted.raised other one earlier phase
  · intro other member holder holds
    rcases mem_deliver member with stays | rfl
    · obtain ⟨one, found, message⟩ := counted.held other stays holder holds
      have differs : holder ≠ id := by
        rintro rfl
        rw [free] at found
        cases found
      refine ⟨one, ?_, message⟩
      simpa [Redelivery.deliver, Function.update_of_ne differs] using found
    · cases holds
      exact ⟨_, Function.update_self .., rfl⟩
  · exact counted.told

theorem told_reportFailure {max_attempts : Nat} {message : Amqp.Message}
    (told : reportFailure max_attempts message ≠ []) :
    max_attempts ≤ deliveryAttempt message := by
  unfold reportFailure at told
  split at told
  · assumption
  · exact (told rfl).elim

theorem counted_step (counted : Counted config state) (apart : NotConcurrent state action)
    (taken : step config state action = some next) : Counted config next := by
  cases step_cases taken with
  | deliver free there => exact counted.deliver free there
  | run found acted => exact counted.run found acted
  | @report id worker found raised =>
    apply counted.update { worker with reported := true } found
    · rfl
    · rfl
    · rfl
    · exact Nat.le_refl _
    · exact counted.spent id worker found
    · exact counted.raised id worker found
    · intro told
      by_cases before : state.sink = []
      · have now : reportFailure config.chain.policy.max_attempts worker.message ≠ [] := by
          simpa [report, State.setWorker, before] using told
        have attempts := told_reportFailure now
        have spent := counted.spent id worker found raised
        exact Nat.le_trans attempts spent
      · exact counted.told before
  | late => exact counted
  | ack _found _there _ended =>
    refine ⟨?_, counted.workers, counted.spent, counted.raised, ?_, counted.told⟩
    · intro copy member
      exact counted.copies copy (List.mem_of_mem_erase member)
    · intro copy member
      exact counted.held copy (List.mem_of_mem_erase member)
  | @reject id worker copy found there held ended =>
    apply counted.die there
    intro _rejected
    rcases ended with concurrent | raised
    · exact (apart worker found concurrent copy there held).elim
    · obtain ⟨other, same, message⟩ := counted.held copy there id held
      rw [found] at same
      cases same
      rw [← message]
      exact counted.spent id worker found (counted.raised id worker found (.inr raised))
  | disconnect => exact counted.requeue _
  | @crash id worker found =>
    apply (counted.requeue id).update { worker with delivery := worker.delivery.crash } found
    · rfl
    · rfl
    · rfl
    · exact Nat.le_refl _
    · exact counted.spent id worker found
    · rintro (phase | phase) <;> cases phase
    · exact counted.told
  | expire there =>
    apply counted.die there
    intro not_expired
    exact (not_expired rfl).elim
  | tick =>
    exact ⟨counted.copies, counted.workers, counted.spent, counted.raised,
      counted.held, counted.told⟩

theorem kept_published (config : Config) : Kept config (published config) where
  circulate := by
    intro copy member
    rw [List.mem_singleton.mp member]
    exact .inl ⟨rfl, config.chain.routed⟩
  discarded := rfl

theorem handled_published (config : Config) : Handled (published config) where
  marks := by
    intro key mark there
    cases there
  workers := by
    intro id worker there
    cases there
  acked := by
    intro acked
    cases acked

theorem counted_published (config : Config) : Counted config (published config) where
  copies := by
    intro copy member
    rw [List.mem_singleton.mp member]
    exact Nat.le_refl _
  workers := by
    intro id worker there
    cases there
  spent := by
    intro id worker there
    cases there
  raised := by
    intro id worker there
    cases there
  held := by
    intro copy member id holds
    rw [List.mem_singleton.mp member] at holds
    cases holds
  told := by
    intro told
    exact (told rfl).elim

/-- No dead letter of the message goes nowhere or to the dead queue.  What is
acknowledged was handled to the end, as long as every claim in Redis reads the
mark that refused it.  And the sink is told only after the handler raised as
often as allowed, as long as no rejection for a delivery in progress is
counted. -/
theorem delivered_at_least_once (config : Config) (schedule : List Action) (final : State)
    (run : Runs.exec (step config) (published config) schedule = some final) :
    final.discarded = false ∧ (∀ copy ∈ final.copies,
        copy.queue ≠ config.chain.topology.dead.name) ∧
      (Runs.Meets (step config) MarkFound (published config) schedule →
        final.acked = true → final.completed = true) ∧
      (Runs.Meets (step config) NotConcurrent (published config) schedule →
        (final.sink ≠ [] → config.chain.policy.max_attempts ≤ final.raises) ∧
          ∀ copy ∈ final.copies, deliveryAttempt copy.message ≤ final.raises + 1) := by
  have kept : Kept config final := Runs.exec_invariant
    (fun _ _ _ => kept_step) (kept_published config) run
  refine ⟨kept.discarded, ?_, ?_, ?_⟩
  · intro copy member
    exact (kept.circulate copy member).not_dead
  · intro found
    have handled : Handled final := Runs.exec_invariant_of_meets
      (fun _ _ _ => handled_step) found (handled_published config) run
    exact handled.acked
  · intro apart
    have counted : Counted config final := Runs.exec_invariant_of_meets
      (fun _ _ _ => counted_step) apart (counted_published config) run
    exact ⟨counted.told, counted.copies⟩

def orders (backend : Backend) : Config where
  chain :=
    { channel := "orders"
      policy := ⟨2, 1, by decide, by decide⟩
      retry_exchange := "retry"
      main_exchange := "main"
      dead_exchange := "dead"
      routing_key := "orders"
      routed := Amqp.keyMatches_self _ _ }
  backend := backend
  ttl := 1
  message := ⟨some "m1", none⟩
  not_retry := by decide
  not_main := by decide

theorem delivered_at_least_once_retry :
    ∃ final, Runs.exec (step (orders .memory)) (published (orders .memory))
        [.deliver 0 0, .run 0 .fail, .report 0, .run 0 .release, .settle 0,
          .tick, .expire 0, .deliver 1 0, .run 1 .succeed, .run 1 .complete,
          .settle 1] = some final ∧
      final.acked = true ∧ final.completed = true ∧
      final.discarded = false := by
  have ends : (Runs.exec (step (orders .memory)) (published (orders .memory))
      [.deliver 0 0, .run 0 .fail, .report 0, .run 0 .release, .settle 0,
        .tick, .expire 0, .deliver 1 0, .run 1 .succeed, .run 1 .complete,
        .settle 1]).map State.acked = some true := by decide
  obtain ⟨final, run, acked⟩ := Option.map_eq_some_iff.mp ends
  obtain ⟨discarded, _, handled, _⟩ :=
    delivered_at_least_once (orders .memory) _ final run
  refine ⟨final, run, acked, handled ?_ acked, discarded⟩
  have no_read : ∀ action ∈ [Action.deliver 0 0, .run 0 .fail, .report 0,
      .run 0 .release, .settle 0, .tick, .expire 0, .deliver 1 0,
      .run 1 .succeed, .run 1 .complete, .settle 1],
      ∀ state, MarkFound state action := by
    simp [MarkFound]
  exact (Runs.Meets.of_forall no_read).mono fun state _action found => found state

/-- A worker dies and its message is handed to another, whose claim in Redis is
refused; the mark expires before it is read, which counts as done, and the
message that nobody handled is acknowledged. -/
theorem acknowledged_unhandled : ¬ ∀ (config : Config) (schedule : List Action) (final : State),
      Runs.exec (step config) (published config) schedule = some final →
      AtLeastOnce config final := by
  intro holds
  have ends : (Runs.exec (step (orders .redis)) (published (orders .redis))
      [.deliver 0 0, .crash 0, .deliver 1 0, .tick, .tick, .run 1 .read,
        .settle 1]).map (fun state => (state.acked, state.completed)) =
      some (true, false) := by decide
  obtain ⟨final, run, reached⟩ := Option.map_eq_some_iff.mp ends
  simp only [Prod.mk.injEq] at reached
  have handled := (holds (orders .redis) _ final run).acknowledged reached.1
  rw [reached.2] at handled
  cases handled

-- the redelivery finds the claim of the first worker and is rejected: the next
-- delivery is the second attempt, and no handler raised
end TempestSdk.Queue.Redelivery
