import Mathlib.Algebra.Order.Group.Nat
import TempestSdk.Utils.Throttle

/-!
# Slots of a throttle

Reservations against the budget of one window.  `release` is two verbs, and a
reservation that lands between them is wiped out by the second.  The counter
covers every outstanding slot as long as that does not happen and each slot
given back is one of them.
-/

namespace TempestSdk.Throttle

variable {throttle : AttemptThrottle} {state next : State}

/-- No window ends, and `fail_open` lets no reservation past uncounted. -/
def InWindow (throttle : AttemptThrottle) (state : State) : Action → Prop
  | .begin _ => True
  | .command id fate =>
    match state.calls[id]? with
    | some ⟨.reserve, .running _⟩ => fate.isFailed = true → throttle.failOpen = false
    | _ => True
  | .tick =>
    Counter.current (state.clock + 1) state.counter = Counter.current state.clock state.counter

/-- `DECR` gives back an outstanding slot, or one the counter has to spare,
and `DEL` of a `release` finds no slot outstanding. -/
def GivesBack (state : State) : Action → Prop
  | .command id fate =>
    match state.calls[id]? with
    | some ⟨.release slot, .running .decrementing⟩ =>
      fate.executed = true → slot ∈ state.outstanding ∨
          (state.outstanding.length : Int) < state.value
    | some ⟨.release _, .running .deleting⟩ => fate.executed = true → state.outstanding = []
    | _ => True
  | _ => True

instance (action : Action) : Decidable (InWindow throttle state action) := by
  unfold InWindow
  split
  · infer_instance
  · split <;> infer_instance
  · infer_instance

instance (action : Action) : Decidable (GivesBack state action) := by
  unfold GivesBack
  split
  · split <;> infer_instance
  · infer_instance

theorem length_outstanding : (state.outstanding.length : Int) =
      (state.reserved.length : Int) - (state.reserved.filter fun slot =>
          decide (slot ∈ state.released)).length := by
  have parts := List.length_eq_length_filter_add
    (l := state.reserved) fun slot => decide (slot ∈ state.released)
  have same : (state.reserved.filter fun slot =>
      !decide (slot ∈ state.released)) = state.outstanding := by
    unfold State.outstanding
    congr 1
    funext slot
    simp
  rw [same] at parts
  omega

theorem outstanding_reserve (state : State) (id : Nat) :
    ({ state with reserved := id :: state.reserved }
      : State).outstanding.length ≤ state.outstanding.length + 1 := by
  simp only [State.outstanding, List.filter_cons]
  split
  · simp
  · omega

theorem outstanding_release (slot : Nat) :
    ({ state with released := slot :: state.released } : State).outstanding =
      state.outstanding.filter fun other => decide (other ≠ slot) := by
  simp only [State.outstanding, List.filter_filter]
  congr 1
  funext other
  simp [List.mem_cons, not_or]

theorem outstanding_release_le (state : State) (slot : Nat) :
    ({ state with released := slot :: state.released }
      : State).outstanding.length ≤ state.outstanding.length := by
  rw [outstanding_release]
  exact List.length_filter_le _ _

theorem outstanding_release_lt {slot : Nat} (member : slot ∈ state.outstanding) :
    ({ state with released := slot :: state.released }
      : State).outstanding.length < state.outstanding.length := by
  rw [outstanding_release]
  apply List.length_filter_lt_length_iff_exists.mpr
  exact ⟨slot, member, by simp⟩

theorem after_of_inWindow {id : Nat} {operation : Operation} {phase : Phase} {fate : Fate}
    (found : state.calls[id]? = some ⟨operation, .running phase⟩)
    (in_window : InWindow throttle state (.command id fate)) :
    state.after throttle id operation phase fate =
      if fate.executed then state.execute throttle id operation phase
      else state := by
  cases fate with
  | failed executed =>
    cases operation with
    | reserve =>
      simp only [InWindow, found] at in_window
      have closed := in_window rfl
      simp [State.after, State.letPast, closed]
    | _ => rfl
  | answered => cases operation <;> rfl
  | cancelled executed => cases operation <;> rfl

/-- Every outstanding slot is counted, and they fit the budget. -/
structure Covered (throttle : AttemptThrottle) (state : State) : Prop where
  within : (state.outstanding.length : Int) ≤ throttle.maxAttempts
  counted : (state.outstanding.length : Int) ≤ state.value

theorem Covered.initial : Covered throttle State.initial where
  within := by
    have allowed := throttle.attempts_allowed
    simp only [State.outstanding, State.initial, List.filter_nil, List.length_nil]
    omega
  counted := le_refl _

theorem Covered.of_same {other : State} (covered : Covered throttle state)
    (slots : other.outstanding = state.outstanding)
    (value : state.value ≤ other.value) : Covered throttle other where
  within := by
    rw [slots]
    exact covered.within
  counted := by
    rw [slots]
    exact covered.counted.trans value

theorem execute_value (id : Nat) (operation : Operation) (phase : Phase) :
    (state.execute throttle id operation phase).value = Counter.value state.clock
        (throttle.perform state.clock state.counter operation phase).1 := by
  unfold State.value State.execute
  simp only [book_clock]

theorem Covered.incr {id : Nat} {operation : Operation} (covered : Covered throttle state)
    (runs : operation.runs .incrementing = true) :
    Covered throttle (state.execute throttle id operation .incrementing) := by
  have value : (state.execute throttle id operation .incrementing).value = state.value + 1 := by
    rw [execute_value]
    exact Counter.value_incr
  cases operation with
  | hit => exact covered.of_same rfl (by omega)
  | reserve =>
    have answer : (Counter.incr state.clock state.counter).1 =
        state.value + 1 := Counter.answer_incr
    by_cases fits : (Counter.incr state.clock state.counter).1 ≤ throttle.maxAttempts
    · have slots : (state.execute throttle id .reserve .incrementing).outstanding =
            ({ state with reserved := id :: state.reserved } : State).outstanding := by
        simp only [State.execute, State.book, if_pos fits]
        rfl
      have longer := outstanding_reserve state id
      have counted := covered.counted
      constructor
      · rw [slots]
        omega
      · rw [slots, value]
        omega
    · apply covered.of_same
      · simp only [State.execute, State.book, if_neg fits]
        rfl
      · omega
  | _ => cases runs

theorem Covered.decr {id slot : Nat} (covered : Covered throttle state)
    (gives : slot ∈ state.outstanding ∨ (state.outstanding.length : Int) < state.value) :
    Covered throttle (state.execute throttle id (.release slot) .decrementing) := by
  have value : (state.execute throttle id (.release slot)
      .decrementing).value = state.value - 1 := by
    rw [execute_value]
    exact Counter.value_decr
  have slots : (state.execute throttle id (.release slot) .decrementing).outstanding =
        ({ state with released := slot :: state.released } : State).outstanding := rfl
  have shorter := outstanding_release_le state slot
  have within := covered.within
  have counted := covered.counted
  constructor
  · rw [slots]
    omega
  · rw [slots, value]
    rcases gives with held | spare
    · have fewer := outstanding_release_lt held
      omega
    · omega

theorem Covered.of_empty {other : State} (empty : other.outstanding = [])
    (value : 0 ≤ other.value) : Covered throttle other where
  within := by
    have allowed := throttle.attempts_allowed
    rw [empty, List.length_nil]
    omega
  counted := by
    rw [empty]
    exact value

theorem Covered.execute {id : Nat} {operation : Operation} {phase : Phase}
    (covered : Covered throttle state)
    (runs : operation.runs phase = true)
    (decrements : ∀ slot, operation = .release slot →
      phase = .decrementing → slot ∈ state.outstanding ∨
        (state.outstanding.length : Int) < state.value)
    (deletes : ∀ slot, operation = .release slot → phase = .deleting → state.outstanding = []) :
    Covered throttle (state.execute throttle id operation phase) := by
  cases phase with
  | incrementing => exact covered.incr runs
  | decrementing =>
    cases operation with
    | release slot => exact covered.decr (decrements slot rfl rfl)
    | _ => cases runs
  | deleting =>
    have value : (state.execute throttle id operation .deleting).value = 0 := by
      rw [execute_value]
      exact Counter.value_none
    cases operation with
    | reset => exact Covered.of_empty rfl value.ge
    | release slot =>
      apply Covered.of_empty
      · exact deletes slot rfl rfl
      · exact value.ge
    | _ => cases runs
  | expiring attempts =>
    have value : (state.execute throttle id operation
        (.expiring attempts)).value = state.value := by
      rw [execute_value]
      exact Counter.value_expire throttle.window_positive
    cases operation with
    | hit | reserve => exact covered.of_same rfl value.ge
    | _ => cases runs
  | getting =>
    cases operation with
    | status | raiseIfBlocked => exact covered.of_same rfl (le_refl _)
    | _ => cases runs
  | asking attempts =>
    cases operation with
    | status | raiseIfBlocked | hit | reserve => exact covered.of_same rfl (le_refl _)
    | _ => cases runs

/-- What holds of the slots and of the calls that are under way. -/
structure Sound (throttle : AttemptThrottle) (state : State) : Prop where
  covered : Covered throttle state
  formed : ∀ call ∈ state.calls, call.formed

theorem Sound.step {action : Action} (sound : Sound throttle state)
    (in_window : InWindow throttle state action)
    (gives_back : GivesBack state action)
    (taken : Throttle.step throttle state action = some next) :
    Sound throttle next where
  formed := step_formed sound.formed taken
  covered := by
    cases action with
    | begin operation =>
      cases taken
      exact sound.covered.of_same rfl (le_refl _)
    | tick =>
      cases taken
      have value : Counter.value (state.clock + 1) state.counter =
          Counter.value state.clock state.counter := by
        unfold Counter.value
        rw [show Counter.current (state.clock + 1) state.counter =
          Counter.current state.clock state.counter from in_window]
      exact sound.covered.of_same rfl value.ge
    | command id fate =>
      obtain ⟨operation, phase, found, rfl⟩ := step_command taken
      have runs := sound.formed _ (List.mem_of_getElem? found) phase rfl
      have counted := after_of_inWindow found in_window
      simp only [GivesBack, found] at gives_back
      by_cases executed : fate.executed = true
      · rw [if_pos executed] at counted
        have kept : Covered throttle (state.execute throttle id operation phase) := by
          apply sound.covered.execute runs
          · rintro slot rfl rfl
            exact gives_back executed
          · rintro slot rfl rfl
            exact gives_back executed
        rw [counted]
        exact kept.of_same rfl (le_refl _)
      · rw [if_neg executed] at counted
        rw [counted]
        exact sound.covered.of_same rfl (le_refl _)

theorem Sound.initial : Sound throttle State.initial where
  covered := Covered.initial
  formed := by
    intro call member
    cases member

theorem reservations_within_budget {schedule : List Action} {final : State}
    (in_window : Runs.Meets (step throttle) (InWindow throttle) State.initial schedule)
    (gives_back : Runs.Meets (step throttle) GivesBack State.initial schedule)
    (run : Runs.exec (step throttle) State.initial schedule = some final) :
    (final.reserved.length : Int) - (final.reserved.filter fun slot =>
          decide (slot ∈ final.released)).length ≤
      throttle.maxAttempts := by
  have sound : Sound throttle final := by
    apply Runs.exec_invariant_of_meets _ (in_window.and gives_back) Sound.initial run
    intro state action next sound ⟨in_window, gives_back⟩ taken
    exact sound.step in_window gives_back taken
  rw [← length_outstanding]
  exact sound.covered.within

def oneAttempt : AttemptThrottle where
  maxAttempts := 1
  windowSeconds := 60
  failOpen := true
  decr := true
  attempts_allowed := le_refl _
  window_positive := by decide

/-- A reservation as call number `id`, from its `INCR` to its `TTL`. -/
def reserveAlone (id : Nat) : List Action :=
  .begin .reserve :: List.replicate 3 (.command id .answered)

/-- A slot is taken, given back and taken again. -/
def takenTwice : List Action :=
  reserveAlone 0 ++ [.begin (.release 0), .command 1 .answered,
    .command 1 .answered] ++ reserveAlone 2

theorem reservations_within_budget_of_one : ∃ final,
      Runs.exec (step oneAttempt) State.initial takenTwice = some final ∧
      final.reserved = [2, 0] ∧
      (final.reserved.length : Int) - (final.reserved.filter fun slot =>
            decide (slot ∈ final.released)).length ≤
        oneAttempt.maxAttempts := by
  have reached : (Runs.exec (step oneAttempt) State.initial takenTwice).map
      State.reserved = some [2, 0] := by decide
  obtain ⟨final, run, reserved⟩ := Option.map_eq_some_iff.mp reached
  refine ⟨final, run, reserved, ?_⟩
  exact reservations_within_budget (by decide) (by decide) run

/-- A slot is taken while the one before is given back. -/
def takenInBetween : List Action :=
  reserveAlone 0 ++ [.begin (.release 0), .command 1 .answered] ++
    reserveAlone 2 ++ [.command 1 .answered] ++ reserveAlone 3

theorem budget_exceeded_by_release : ∃ final,
      Runs.Meets (step oneAttempt) (InWindow oneAttempt) State.initial takenInBetween ∧
      Runs.exec (step oneAttempt) State.initial takenInBetween = some final ∧
      final.released = [0] ∧
      ¬ ((final.reserved.length : Int) - (final.reserved.filter fun slot =>
              decide (slot ∈ final.released)).length ≤
          oneAttempt.maxAttempts) := by
  have reached : (Runs.exec (step oneAttempt) State.initial
      takenInBetween).map (fun final => (final.reserved, final.released)) =
        some ([3, 2, 0], [0]) := by decide
  obtain ⟨final, run, slots⟩ := Option.map_eq_some_iff.mp reached
  obtain ⟨reserved, released⟩ := Prod.mk.inj slots
  refine ⟨final, by decide, run, released, ?_⟩
  rw [reserved, released]
  decide

end TempestSdk.Throttle
