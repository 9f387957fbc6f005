import Mathlib.Data.List.Perm.Basic
import TempestSdk.Utils.Throttle

/-!
# The end of a window

The call whose `INCR` opened a window sets its deadline with a verb of its own.
Interleavings do no harm to that.  A counter is left without a deadline when
this call is lost in between, and `fail_open` swallows the error.
-/

namespace TempestSdk.Throttle

variable {throttle : AttemptThrottle} {state next : State}

/-- About to run `EXPIRE`. -/
def Call.expiring (call : Call) : Bool :=
  match call.progress with
  | .running (.expiring _) => true
  | _ => false

def Pending (calls : List Call) : Prop :=
  ∃ call ∈ calls, call.expiring = true

instance (calls : List Call) : Decidable (Pending calls) :=
  inferInstanceAs (Decidable (∃ call ∈ calls, call.expiring = true))

def WindowEnds (state : State) : Prop :=
  ∀ entry, Counter.current state.clock state.counter = some entry →
    0 < entry.count → entry.expiresAt ≠ none ∨ Pending state.calls

/-- No call is lost between the `INCR` that opened a window and its `EXPIRE`,
unless another call is about to set the deadline. -/
def KeepsExpiry (state : State) : Action → Prop
  | .command id fate =>
    match state.calls[id]? with
    | some ⟨_, .running .incrementing⟩ =>
      fate ≠ .answered → fate.executed = true → Counter.Endless
          (Counter.incr state.clock state.counter).2 →
        Pending (state.calls.eraseIdx id)
    | some ⟨_, .running (.expiring _)⟩ =>
      fate.executed = false → Counter.Endless state.counter → Pending (state.calls.eraseIdx id)
    | _ => True
  | _ => True

theorem windowEnds_iff : WindowEnds state ↔
      (Counter.Endless state.counter → Pending state.calls) := by
  constructor
  · intro ends endless
    obtain ⟨count, positive, held⟩ := endless.held state.clock
    rcases ends _ held positive with dated | pending
    · exact (dated rfl).elim
    · exact pending
  · intro ends entry found positive
    obtain ⟨same, _live⟩ := Counter.current_eq_some.mp found
    obtain ⟨count, expiresAt⟩ := entry
    cases expiresAt with
    | some deadline => exact .inl (Option.some_ne_none deadline)
    | none =>
      right
      apply ends
      rw [same]
      exact positive

theorem pending_set {calls : List Call} {id : Nat} {old new : Call}
    (found : calls[id]? = some old) :
    Pending (calls.set id new) ↔ new.expiring = true ∨ Pending (calls.eraseIdx id) := by
  obtain ⟨within, _same⟩ := List.getElem?_eq_some_iff.mp found
  have rearranged := List.set_perm_cons_eraseIdx within new
  simp only [Pending, rearranged.mem_iff, List.mem_cons]
  constructor
  · rintro ⟨call, rfl | other, expiring⟩
    · exact .inl expiring
    · exact .inr ⟨call, other, expiring⟩
  · rintro (expiring | ⟨call, other, expiring⟩)
    · exact ⟨new, .inl rfl, expiring⟩
    · exact ⟨call, .inr other, expiring⟩

theorem pending_others {calls : List Call} {id : Nat} {old : Call}
    (found : calls[id]? = some old) (idle : old.expiring = false)
    (pending : Pending calls) : Pending (calls.eraseIdx id) := by
  have unchanged : calls.set id old = calls := by
    obtain ⟨within, same⟩ := List.getElem?_eq_some_iff.mp found
    rw [← same]
    exact List.set_getElem_self within
  rw [← unchanged] at pending
  rcases (pending_set found).mp pending with expiring | others
  · rw [idle] at expiring
    cases expiring
  · exact others

theorem pending_begin {calls : List Call} (call : Call)
    (pending : Pending calls) : Pending (calls ++ [call]) := by
  obtain ⟨old, member, expiring⟩ := pending
  exact ⟨old, List.mem_append_left _ member, expiring⟩

theorem after_counter (id : Nat) (operation : Operation) (phase : Phase) (fate : Fate) :
    (state.after throttle id operation phase fate).counter = if fate.executed then
        (throttle.perform state.clock state.counter operation phase).1
      else state.counter := by
  unfold State.after
  simp only [letPast_counter]
  split <;> rfl

variable {operation : Operation}

theorem settle_lost {phase : Phase} {fate : Fate} (lost : fate ≠ .answered) :
    Call.expiring ⟨operation, settle throttle state operation phase fate⟩ = false := by
  cases fate with
  | answered => exact (lost rfl).elim
  | failed executed => rfl
  | cancelled executed => rfl

theorem settle_opened (opened : (Counter.incr state.clock state.counter).1 = 1) :
    Call.expiring ⟨operation,
      settle throttle state operation .incrementing .answered⟩ = true := by
  simp only [settle, AttemptThrottle.perform, if_pos opened]
  rfl

theorem endless_of_perform {phase : Phase} (other : phase ≠ .incrementing)
    (endless : Counter.Endless (throttle.perform state.clock state.counter operation phase).1) :
    Counter.Endless state.counter := by
  cases phase with
  | getting => exact endless
  | incrementing => exact (other rfl).elim
  | expiring attempts => exact (Counter.not_endless_expire endless).elim
  | asking attempts => exact endless
  | decrementing => exact Counter.Endless.of_decr endless
  | deleting => exact (Counter.not_endless_none endless).elim

theorem incrementing_exact {id : Nat} {fate : Fate}
    (found : state.calls[id]? = some ⟨operation, .running .incrementing⟩)
    (ends : Counter.Endless state.counter → Pending state.calls)
    (taken : step throttle state (.command id fate) = some next) :
    KeepsExpiry state (.command id fate) ↔ WindowEnds next := by
  have rest : Counter.Endless state.counter →
      Pending (state.calls.eraseIdx id) := fun endless =>
    pending_others found rfl (ends endless)
  obtain ⟨_, _, same, rfl⟩ := step_command taken
  rw [found] at same
  cases same
  simp only [KeepsExpiry, found]
  rw [windowEnds_iff, pending_set found, after_counter]
  by_cases executed : fate.executed = true
  · rw [if_pos executed]
    by_cases answered : fate = .answered
    · subst answered
      constructor
      · intro _met endless
        rcases Counter.Endless.of_incr endless with opened | before
        · exact .inl (settle_opened opened)
        · exact .inr (rest before)
      · intro _holds unanswered
        exact (unanswered rfl).elim
    · rw [settle_lost answered]
      constructor
      · intro met endless
        exact .inr (met answered executed endless)
      · intro holds _lost _executed endless
        rcases holds endless with expiring | others
        · cases expiring
        · exact others
  · rw [if_neg executed]
    constructor
    · intro _met endless
      exact .inr (rest endless)
    · intro _holds _lost ran
      exact (executed ran).elim

theorem expiring_exact {id : Nat} {attempts : Int} {fate : Fate}
    (found : state.calls[id]? = some ⟨operation, .running (.expiring attempts)⟩)
    (taken : step throttle state (.command id fate) = some next) :
    KeepsExpiry state (.command id fate) ↔ WindowEnds next := by
  obtain ⟨_, _, same, rfl⟩ := step_command taken
  rw [found] at same
  cases same
  simp only [KeepsExpiry, found]
  rw [windowEnds_iff, pending_set found, after_counter]
  by_cases executed : fate.executed = true
  · rw [if_pos executed]
    constructor
    · intro _met endless
      exact (Counter.not_endless_expire endless).elim
    · intro _holds unexecuted
      rw [executed] at unexecuted
      cases unexecuted
  · have lost : fate ≠ .answered := by
      rintro rfl
      exact executed rfl
    rw [if_neg executed, settle_lost lost]
    constructor
    · intro met endless
      exact .inr (met (by simpa using executed) endless)
    · intro holds _lost endless
      rcases holds endless with expiring | others
      · cases expiring
      · exact others

theorem other_keeps {id : Nat} {phase : Phase} {fate : Fate}
    (found : state.calls[id]? = some ⟨operation, .running phase⟩)
    (opens : phase ≠ .incrementing)
    (idle : Call.expiring ⟨operation, .running phase⟩ = false)
    (ends : Counter.Endless state.counter → Pending state.calls)
    (taken : step throttle state (.command id fate) = some next) :
    WindowEnds next := by
  obtain ⟨_, _, same, rfl⟩ := step_command taken
  rw [found] at same
  cases same
  rw [windowEnds_iff, pending_set found, after_counter]
  intro endless
  right
  apply pending_others found idle
  apply ends
  split at endless
  · exact endless_of_perform opens endless
  · exact endless

theorem windowEnds_exact {action : Action} (ends : WindowEnds state)
    (taken : step throttle state action = some next) :
    KeepsExpiry state action ↔ WindowEnds next := by
  have kept := (windowEnds_iff).mp ends
  cases action with
  | begin operation =>
    cases taken
    refine iff_of_true trivial ?_
    apply (windowEnds_iff).mpr
    intro endless
    exact pending_begin _ (kept endless)
  | tick =>
    cases taken
    exact iff_of_true trivial ((windowEnds_iff).mpr kept)
  | command id fate =>
    obtain ⟨operation, phase, found, _reached⟩ := step_command taken
    cases phase with
    | incrementing => exact incrementing_exact found kept taken
    | expiring attempts => exact expiring_exact found taken
    | getting | asking attempts | decrementing | deleting =>
      apply iff_of_true
      · simp only [KeepsExpiry, found]
      · exact other_keeps found (by simp) rfl kept taken

theorem keepsExpiry_of_disabled {action : Action}
    (disabled : step throttle state action = none) :
    KeepsExpiry state action := by
  cases action with
  | begin operation => trivial
  | tick => trivial
  | command id fate =>
    cases found : state.calls[id]? with
    | none => simp only [KeepsExpiry, found]
    | some call =>
      obtain ⟨operation, progress⟩ := call
      cases progress with
      | running phase => simp [step, found] at disabled
      | ended outcome => simp only [KeepsExpiry, found]

/-- Whatever the interleaving, every window of a run ends, or is about to be
given its end, exactly when no call is lost on the way to its `EXPIRE`. -/
theorem windows_end_iff (throttle : AttemptThrottle) (schedule : List Action) :
    Runs.Meets (step throttle) KeepsExpiry State.initial schedule ↔
      ∀ front, front <+: schedule → ∀ reached,
        Runs.exec (step throttle) State.initial front = some reached → WindowEnds reached := by
  apply Runs.meets_iff_reached
  · intro state action next ends taken
    exact windowEnds_exact ends taken
  · intro state action disabled
    exact keepsExpiry_of_disabled disabled
  · intro entry found
    cases found

/-- The backend executes no `DECR` and no `DEL`. -/
def TakesOnly (state : State) : Action → Prop
  | .command id fate =>
    match state.calls[id]? with
    | some ⟨_, .running .decrementing⟩ | some ⟨_, .running .deleting⟩ => fate.executed = false
    | _ => True
  | _ => True

/-- The counter never ends, and nobody is about to change that. -/
structure Locked (state : State) : Prop where
  endless : Counter.Endless state.counter
  abandoned : ¬ Pending state.calls

theorem start_idle (operation : Operation) :
    Call.expiring ⟨operation, throttle.start operation⟩ = false := by
  cases operation with
  | release slot =>
    simp only [AttemptThrottle.start]
    split <;> rfl
  | _ => rfl

theorem Locked.perform {phase : Phase} (locked : Locked state)
    (idle : Call.expiring ⟨operation, .running phase⟩ = false)
    (takes : phase ≠ .decrementing ∧ phase ≠ .deleting) :
    Counter.Endless (throttle.perform state.clock state.counter operation phase).1 ∧
      Call.expiring ⟨operation,
        (throttle.perform state.clock state.counter operation phase).2⟩ = false := by
  have endless := locked.endless
  cases phase with
  | getting =>
    refine ⟨endless, ?_⟩
    simp only [AttemptThrottle.perform]
    split <;> rfl
  | incrementing =>
    refine ⟨endless.incr, ?_⟩
    have high : (Counter.incr state.clock state.counter).1 ≠ 1 := by
      obtain ⟨count, positive, held⟩ := endless.held state.clock
      rw [Counter.answer_incr, Counter.value_of_current held]
      simp only
      omega
    simp only [AttemptThrottle.perform, if_neg high]
    rfl
  | expiring attempts => cases idle
  | asking attempts => exact ⟨endless, rfl⟩
  | decrementing => exact (takes.1 rfl).elim
  | deleting => exact (takes.2 rfl).elim

theorem Locked.step {action : Action} (locked : Locked state) (takes : TakesOnly state action)
    (taken : Throttle.step throttle state action = some next) :
    Locked next := by
  cases action with
  | begin operation =>
    cases taken
    refine ⟨locked.endless, ?_⟩
    rintro ⟨call, member, expiring⟩
    rcases List.mem_append.mp member with old | new
    · exact locked.abandoned ⟨call, old, expiring⟩
    · rw [List.mem_singleton.mp new, start_idle] at expiring
      cases expiring
  | tick =>
    cases taken
    exact ⟨locked.endless, locked.abandoned⟩
  | command id fate =>
    obtain ⟨operation, phase, found, rfl⟩ := step_command taken
    have idle : Call.expiring ⟨operation, .running phase⟩ = false := by
      by_contra expiring
      apply locked.abandoned
      exact ⟨_, List.mem_of_getElem? found, by simpa using expiring⟩
    have nobody : ¬ Pending (state.calls.eraseIdx id) := by
      rintro ⟨call, member, expiring⟩
      exact locked.abandoned ⟨call, List.mem_of_mem_eraseIdx member, expiring⟩
    have executes : fate.executed = true → phase ≠ .decrementing ∧ phase ≠ .deleting := by
      intro executed
      constructor
      · rintro rfl
        simp [TakesOnly, found, executed] at takes
      · rintro rfl
        simp [TakesOnly, found, executed] at takes
    constructor
    · simp only [after_counter]
      split
      case isTrue executed => exact (locked.perform idle (executes executed)).1
      case isFalse => exact locked.endless
    · rw [pending_set found]
      rintro (expiring | others)
      · by_cases answered : fate = .answered
        · subst answered
          simp only [settle] at expiring
          rw [(locked.perform idle (executes rfl)).2] at expiring
          cases expiring
        · rw [settle_lost answered] at expiring
          cases expiring
      · exact nobody others

/-- A key whose window has lost its end stays locked, whatever is hit, asked
and reserved, as long as no slot is given back and nothing is reset. -/
theorem locked_for_good {schedule : List Action} {start final : State} (locked : Locked start)
    (takes : Runs.Meets (step throttle) TakesOnly start schedule)
    (run : Runs.exec (step throttle) start schedule = some final) :
    Locked final := by
  apply Runs.exec_invariant_of_meets _ takes locked run
  intro state action next locked takes taken
  exact locked.step takes taken

def fiveAttempts : AttemptThrottle where
  maxAttempts := 5
  windowSeconds := 900
  failOpen := true
  decr := true
  attempts_allowed := by decide
  window_positive := by decide

/-- `EXPIRE` of the first failure does not get through. -/
def lostExpiry : List Action :=
  [.begin .hit, .command 0 .answered, .command 0 (.failed false)]

theorem locked_for_good_hit : ∃ start final, Locked start ∧
    Runs.exec (step fiveAttempts) start [.begin .hit, .command 0 .answered] = some final ∧
      Locked final := by
  let start : State := { State.initial with counter := some ⟨1, none⟩ }
  have locked : Locked start := ⟨by decide, by rintro ⟨call, member, _⟩; cases member⟩
  have takes : Runs.Meets (step fiveAttempts) TakesOnly start
      [.begin .hit, .command 0 .answered] := by
    refine ⟨trivial, ?_⟩
    rintro next ⟨⟩
    exact ⟨trivial, fun _ _ => trivial⟩
  exact ⟨start, _, locked, rfl, locked_for_good locked takes rfl⟩

theorem window_without_end : ∃ final,
      Runs.exec (step fiveAttempts) State.initial lostExpiry = some final ∧
      final.calls = [⟨.hit, .ended (.answered .empty)⟩] ∧
      ¬ WindowEnds final := by
  have reached : (Runs.exec (step fiveAttempts) State.initial
      lostExpiry).map (fun final => (final.counter, final.calls)) =
        some (some ⟨1, none⟩, [⟨.hit, .ended (.answered .empty)⟩]) := by
    decide
  obtain ⟨final, run, same⟩ := Option.map_eq_some_iff.mp reached
  obtain ⟨counter, calls⟩ := Prod.mk.inj same
  refine ⟨final, run, calls, ?_⟩
  rw [windowEnds_iff, counter, calls]
  decide

end TempestSdk.Throttle
