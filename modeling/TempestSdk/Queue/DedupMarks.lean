import TempestSdk.Library.Runs
import TempestSdk.Queue.Dedup

/-!
# Marks that stay

Any number of deliveries of any messages share one store.  A completed mark
stays for its time to live as long as no release finds a live mark that is not
the claim of its own delivery.  A release has no way to tell: it deletes the
key.
-/

namespace TempestSdk.Queue.Marks

structure State where
  store : DedupStore
  deliveries : Nat → Option Delivery
  completions : List (String × Nat)

def initial : State where
  store := DedupStore.empty
  deliveries := fun _ => none
  completions := []

inductive Action where
  | deliver (id : Nat) (message : Message)
  | run (id : Nat) (event : Event)
  | crash (id : Nat)
  | tick

def State.setDelivery (state : State) (id : Nat) (store : DedupStore)
    (delivery : Delivery) : State :=
  { state with
    store := store
    deliveries := Function.update state.deliveries id (some delivery) }

def State.note (state : State) (delivery : Delivery) : Event → State
  | .complete =>
    match delivery.key with
    | some key =>
      { state with
        completions := (key, state.store.clock) :: state.completions }
    | none => state
  | _ => state

def step (backend : Backend) (ttl : Nat) (state : State) : Action → Option State
  | .deliver id message =>
    match state.deliveries id with
    | some _ => none
    | none =>
      let (store, delivery) :=
        begin backend ttl id state.store (messageKey message)
      some (state.setDelivery id store delivery)
  | .run id event =>
    (state.deliveries id).bind fun delivery =>
      (act ttl id state.store delivery event).map fun (store, moved) =>
        (state.note delivery event).setDelivery id store moved
  | .crash id =>
    (state.deliveries id).map fun delivery =>
      state.setDelivery id state.store delivery.crash
  | .tick => some { state with store := state.store.tick }

def Handling (state : State) (id : Nat) (key : String) : Prop :=
  ∃ delivery, state.deliveries id = some delivery ∧
    delivery.key = some key ∧ delivery.phase = .handling

/-- No handler starts for a key that was completed less than `ttl` ago, and a
release whose claim has expired takes no mark away. -/
def Deduplicated (backend : Backend) (ttl : Nat) (state : State) : Action → Prop
  | .deliver id message => ∀ next key time,
      step backend ttl state (.deliver id message) = some next →
      Handling next id key → (key, time) ∈ state.completions →
      time + ttl ≤ state.store.clock
  | .run id .release => ∀ next delivery key,
      step backend ttl state (.run id .release) = some next →
      state.deliveries id = some delivery →
      delivery.expired backend state.store.clock = true →
      next.store.current backend key = state.store.current backend key
  | _ => True

def OwnRelease (backend : Backend) (state : State) : Action → Prop
  | .run id .release => ∀ delivery key mark,
      state.deliveries id = some delivery → delivery.phase = .releasing →
      delivery.key = some key →
      state.store.current backend key = some mark →
      mark.marker = .inFlight ∧ mark.writer = id
  | _ => True

/-- Claims carry the deadline of their delivery, and what was completed is
marked until its time to live is over. -/
structure Invariant (ttl : Nat) (state : State) : Prop where
  claims : ∀ key mark, state.store.marks key = some mark →
    ∃ delivery, state.deliveries mark.writer = some delivery ∧
      (mark.marker = .inFlight → mark.expiresAt = delivery.claimedUntil)
  past : ∀ key time, (key, time) ∈ state.completions → time ≤ state.store.clock
  marked : ∀ key time, (key, time) ∈ state.completions → state.store.clock < time + ttl →
    ∃ mark, state.store.marks key = some mark ∧ mark.marker = .done ∧
      time + ttl ≤ mark.expiresAt

section

variable {backend : Backend} {ttl : Nat} {state next : State}

@[simp] theorem note_store (delivery : Delivery) (event : Event) :
    (state.note delivery event).store = state.store := by
  cases event <;> simp only [State.note]
  split <;> rfl

@[simp] theorem note_deliveries (delivery : Delivery) (event : Event) :
    (state.note delivery event).deliveries = state.deliveries := by
  cases event <;> simp only [State.note]
  split <;> rfl

theorem live_of_lt {clock expiresAt : Nat} (before : clock < expiresAt) :
    backend.live clock expiresAt = true := by
  cases backend <;> simp [Backend.live] <;> omega

theorem Invariant.current_done (invariant : Invariant ttl state)
    (backend : Backend) {key : String} {time : Nat}
    (completed : (key, time) ∈ state.completions)
    (recent : state.store.clock < time + ttl) :
    ∃ mark, state.store.current backend key = some mark ∧ mark.marker = .done := by
  obtain ⟨mark, marked, done, lasts⟩ := invariant.marked key time completed recent
  refine ⟨mark, DedupStore.current_eq_some.mpr ⟨marked, ?_⟩, done⟩
  exact live_of_lt (by omega)

variable {delivery moved : Delivery}

section

variable (invariant : Invariant ttl state)

include invariant

theorem Invariant.claims_update {id : Nat}
    (found : state.deliveries id = some delivery)
    (deadline : moved.claimedUntil = delivery.claimedUntil) {key : String}
    {mark : Mark} (marked : state.store.marks key = some mark) :
    ∃ other, Function.update state.deliveries id (some moved) mark.writer = some other ∧
      (mark.marker = .inFlight → mark.expiresAt = other.claimedUntil) := by
  obtain ⟨other, there, claimed⟩ := invariant.claims key mark marked
  by_cases same : mark.writer = id
  · refine ⟨moved, by rw [same, Function.update_self], ?_⟩
    rw [same, found] at there
    cases there
    rw [deadline]
    exact claimed
  · exact ⟨other, by rw [Function.update_of_ne same]; exact there, claimed⟩

theorem Invariant.move {id : Nat}
    (found : state.deliveries id = some delivery)
    (deadline : moved.claimedUntil = delivery.claimedUntil) :
    Invariant ttl (state.setDelivery id state.store moved) where
  claims := fun _key _mark marked =>
    invariant.claims_update found deadline marked
  past := invariant.past
  marked := invariant.marked

theorem Invariant.complete {id : Nat}
    {key : String} (found : state.deliveries id = some delivery)
    (deadline : moved.claimedUntil = delivery.claimedUntil)
    (keyed : delivery.key = some key) :
    Invariant ttl ((state.note delivery .complete).setDelivery id
      (state.store.complete key ttl id) moved) := by
  constructor
  · intro at_key mark marked
    simp only [State.setDelivery, note_deliveries] at marked ⊢
    by_cases same : at_key = key
    · subst same
      simp only [DedupStore.complete, DedupStore.write_self, Option.some.injEq] at marked
      subst marked
      exact ⟨moved, Function.update_self .., by simp⟩
    · rw [DedupStore.complete, DedupStore.write_of_ne _ same] at marked
      exact invariant.claims_update found deadline marked
  · intro at_key time completed
    simp only [State.setDelivery, State.note, keyed] at completed ⊢
    rcases List.mem_cons.mp completed with new | earlier
    · cases new
      simp [DedupStore.complete]
    · exact invariant.past at_key time earlier
  · intro at_key time completed recent
    simp only [State.setDelivery, State.note, keyed] at completed recent ⊢
    by_cases same : at_key = key
    · subst same
      refine ⟨_, DedupStore.write_self .., rfl, ?_⟩
      rcases List.mem_cons.mp completed with new | earlier
      · cases new
        exact Nat.le_refl _
      · have before := invariant.past at_key time earlier
        show time + ttl ≤ state.store.clock + ttl
        omega
    · rcases List.mem_cons.mp completed with new | earlier
      · cases new
        exact (same rfl).elim
      · rw [DedupStore.complete, DedupStore.write_of_ne _ same]
        exact invariant.marked at_key time earlier recent

theorem Invariant.release {id : Nat}
    {key : String} (found : state.deliveries id = some delivery)
    (deadline : moved.claimedUntil = delivery.claimedUntil)
    (own : ∀ mark, state.store.current backend key = some mark → mark.marker = .inFlight) :
    Invariant ttl (state.setDelivery id (state.store.release key) moved) := by
  constructor
  · intro at_key mark marked
    simp only [State.setDelivery] at marked ⊢
    by_cases same : at_key = key
    · subst same
      simp [DedupStore.release] at marked
    · rw [DedupStore.release, DedupStore.write_of_ne _ same] at marked
      exact invariant.claims_update found deadline marked
  · exact invariant.past
  · intro at_key time completed recent
    by_cases same : at_key = key
    · subst same
      obtain ⟨mark, current, done⟩ :=
        invariant.current_done backend completed recent
      have inFlight := own mark current
      rw [done] at inFlight
      cases inFlight
    · simp only [State.setDelivery]
      rw [DedupStore.release, DedupStore.write_of_ne _ same]
      exact invariant.marked at_key time completed recent

theorem Invariant.tick :
    Invariant ttl { state with store := state.store.tick } where
  claims := invariant.claims
  past := by
    intro key time completed
    have before := invariant.past key time completed
    show time ≤ state.store.clock + 1
    omega
  marked := by
    intro key time completed recent
    have recent : state.store.clock + 1 < time + ttl := recent
    exact invariant.marked key time completed (by omega)

theorem Invariant.deliver {id : Nat}
    (free : state.deliveries id = none) (message : Option String) :
    Invariant ttl (state.setDelivery id (begin backend ttl id state.store message).1
      (begin backend ttl id state.store message).2) := by
  have others : ∀ {key mark}, state.store.marks key = some mark → ∀ delivery, ∃ other,
        Function.update state.deliveries id (some delivery) mark.writer = some other ∧
        (mark.marker = .inFlight → mark.expiresAt = other.claimedUntil) := by
    intro key mark marked delivery
    obtain ⟨other, there, claimed⟩ := invariant.claims key mark marked
    have differs : mark.writer ≠ id := by
      intro same
      rw [same, free] at there
      cases there
    exact ⟨other, by rw [Function.update_of_ne differs]; exact there, claimed⟩
  cases message with
  | none =>
    exact
      { claims := fun _key _mark marked => others marked _
        past := invariant.past
        marked := invariant.marked }
  | some key =>
    rcases begin_spec backend ttl id state.store key with
      ⟨missing, begun⟩ | ⟨mark, phase, _present, _refused, begun⟩
    · rw [begun]
      constructor
      · intro at_key mark marked
        simp only [State.setDelivery] at marked ⊢
        by_cases same : at_key = key
        · subst same
          rw [DedupStore.write_self] at marked
          cases marked
          exact ⟨_, Function.update_self .., fun _claimed => rfl⟩
        · rw [DedupStore.write_of_ne _ same] at marked
          exact others marked _
      · exact invariant.past
      · intro at_key time completed recent
        by_cases same : at_key = key
        · subst same
          obtain ⟨mark, current, _done⟩ :=
            invariant.current_done backend completed recent
          rw [missing] at current
          cases current
        · simp only [State.setDelivery]
          rw [DedupStore.write_of_ne _ same]
          exact invariant.marked at_key time completed recent
    · rw [begun]
      exact
        { claims := fun _key _mark marked => others marked _
          past := invariant.past
          marked := invariant.marked }

end

theorem invariant_initial : Invariant ttl initial where
  claims := by
    intro key mark marked
    cases marked
  past := by
    intro key time completed
    cases completed
  marked := by
    intro key time completed
    cases completed

theorem invariant_step {action : Action} (invariant : Invariant ttl state)
    (own : OwnRelease backend state action)
    (taken : step backend ttl state action = some next) :
    Invariant ttl next := by
  cases action with
  | deliver id message =>
    simp only [step] at taken
    split at taken
    · cases taken
    · rename_i free
      cases taken
      exact invariant.deliver free _
  | run id event =>
    obtain ⟨delivery, found, moved⟩ := Option.bind_eq_some_iff.mp taken
    obtain ⟨⟨store, after⟩, acted, rfl⟩ := Option.map_eq_some_iff.mp moved
    obtain ⟨deadline, quiet | completes | releases⟩ :=
      act_spec acted
    · obtain ⟨rfl, not_complete, _⟩ := quiet
      have noted : state.note delivery event = state := by
        cases event with
        | complete => exact (not_complete rfl).elim
        | _ => rfl
      rw [noted]
      exact invariant.move found deadline
    · obtain ⟨key, rfl, keyed, _completing, rfl⟩ := completes
      exact invariant.complete found deadline keyed
    · obtain ⟨key, rfl, keyed, releasing, rfl⟩ := releases
      have claimed : ∀ mark, state.store.current backend key = some mark →
          mark.marker = .inFlight := by
        intro mark current
        exact (own delivery key mark found releasing keyed current).1
      exact invariant.release found deadline claimed
  | crash id =>
    obtain ⟨delivery, found, rfl⟩ := Option.map_eq_some_iff.mp taken
    exact invariant.move found rfl
  | tick =>
    cases taken
    exact invariant.tick

theorem deduplicated_of_invariant {action : Action} (invariant : Invariant ttl state)
    (own : OwnRelease backend state action) :
    Deduplicated backend ttl state action := by
  cases action with
  | deliver id message =>
    intro next key time taken handling completed
    by_contra recent
    obtain ⟨mark, current, _done⟩ := invariant.current_done backend completed (by omega)
    simp only [step] at taken
    split at taken
    · cases taken
    · cases taken
      obtain ⟨delivery, there, keyed, handles⟩ := handling
      simp only [State.setDelivery, Function.update_self, Option.some.injEq] at there
      subst there
      cases named : messageKey message with
      | none =>
        rw [named] at keyed
        cases keyed
      | some other =>
        rw [named] at keyed handles
        rcases begin_spec backend ttl id state.store other with
          ⟨missing, begun⟩ | ⟨_mark, phase, _present, refused, begun⟩
        · rw [begun] at keyed
          cases keyed
          rw [missing] at current
          cases current
        · rw [begun] at handles
          have handles : phase = .handling := handles
          rcases refused with rfl | rfl | ⟨rfl, _⟩ <;> cases handles
  | run id event =>
    cases event with
    | release =>
      intro next delivery at_key taken found expired
      obtain ⟨one, there, moved⟩ := Option.bind_eq_some_iff.mp taken
      rw [found] at there
      cases there
      obtain ⟨⟨store, after⟩, acted, rfl⟩ := Option.map_eq_some_iff.mp moved
      obtain ⟨_deadline, quiet | completes | releases⟩ :=
        act_spec acted
      · exact (quiet.2.2 rfl).elim
      · obtain ⟨key, impossible, _⟩ := completes
        cases impossible
      · obtain ⟨key, _, keyed, releasing, rfl⟩ := releases
        -- a live mark here would be the expired claim itself
        have gone : state.store.current backend key = none := by
          cases current : state.store.current backend key with
          | none => rfl
          | some mark =>
            obtain ⟨inFlight, wrote⟩ :=
              own delivery key mark found releasing keyed current
            obtain ⟨marked, live⟩ :=
              DedupStore.current_eq_some.mp current
            obtain ⟨writer, wrote_it, deadline⟩ :=
              invariant.claims key mark marked
            rw [wrote, found] at wrote_it
            cases wrote_it
            rw [Mark.live, deadline inFlight] at live
            simp [Delivery.expired, live] at expired
        by_cases same : at_key = key
        · subst same
          rw [gone]
          simp [State.setDelivery, DedupStore.release, DedupStore.current]
        · simp only [State.setDelivery, DedupStore.current]
          rw [DedupStore.release, DedupStore.write_of_ne _ same]
          rfl
    | _ => trivial
  | crash id => trivial
  | tick => trivial

end

/-- As long as no release meets a live mark that is not its own claim, what
was completed is not handled again while its time to live runs, and an expired
claim releases nothing. -/
theorem marks_kept (backend : Backend) (ttl : Nat) (schedule : List Action)
    (own : Runs.Meets (step backend ttl) (OwnRelease backend) initial schedule) :
    Runs.Meets (step backend ttl) (Deduplicated backend ttl) initial schedule := by
  have kept : ∀ state action next, Invariant ttl state → OwnRelease backend state action →
      step backend ttl state action = some next → Invariant ttl next := by
    intro state action next invariant own taken
    exact invariant_step invariant own taken
  have holds : ∀ state action, Invariant ttl state → OwnRelease backend state action →
      Deduplicated backend ttl state action := by
    intro state action invariant own
    exact deduplicated_of_invariant invariant own
  exact .of_invariant kept holds own invariant_initial

def paid : Message where
  message_id := some "m1"
  correlation_id := none

theorem marks_kept_retry : (∃ final, Runs.exec (step .redis 10) initial
        [.deliver 0 paid, .run 0 .fail, .run 0 .release, .deliver 1 paid,
          .run 1 .succeed, .run 1 .complete, .deliver 2 paid, .run 2 .read] =
        some final ∧
      final.deliveries 2 = some ⟨some "m1", 10, .ended .skipped⟩) ∧
      Runs.Meets (step .redis 10) (Deduplicated .redis 10) initial
        [.deliver 0 paid, .run 0 .fail, .run 0 .release, .deliver 1 paid,
          .run 1 .succeed, .run 1 .complete, .deliver 2 paid,
          .run 2 .read] := by
  refine ⟨⟨_, rfl, rfl⟩, marks_kept .redis 10 _ ?_⟩
  apply Runs.Meets.cons trivial rfl
  apply Runs.Meets.cons trivial rfl
  apply Runs.Meets.cons _ rfl
  · exact .cons trivial rfl (.cons trivial rfl (.cons trivial rfl
      (.cons trivial rfl (.cons trivial rfl trivial))))
  · intro delivery key mark found releasing keyed current
    cases found
    cases keyed
    cases current
    exact ⟨rfl, rfl⟩

/-- The claim of the first worker expires while its handler runs; the second
worker completes the message; the first one fails and deletes the completed
mark, and a third delivery runs the handler again. -/
theorem mark_released_by_stale_claim :
    ¬ ∀ (backend : Backend) (ttl : Nat) (schedule : List Action),
      Runs.Meets (step backend ttl) (Deduplicated backend ttl) initial schedule := by
  intro deduplicated
  have meets := deduplicated .memory 1
    ([.deliver 0 paid, .tick, .deliver 1 paid, .run 1 .succeed,
      .run 1 .complete, .run 0 .fail, .run 0 .release] ++ [.deliver 2 paid])
  have again := (meets.of_append.2 _ rfl).1 _ "m1" 1 rfl ⟨_, rfl, rfl, rfl⟩ List.mem_cons_self
  exact absurd again (by decide)

end TempestSdk.Queue.Marks
