import Mathlib.Algebra.GroupWithZero.Nat
import Mathlib.Data.List.Basic

/-!
# Runs of a partial step function

A system is a function `step` that says whether an action is enabled in a
state and which state it leads to.  A schedule is a list of actions, so a
theorem about every schedule is a theorem about every interleaving.  The
induction over a schedule is packaged here once: an invariant of one step is
an invariant of every run, and a condition on the steps of a run may be used
while proving that.
-/

namespace Runs

variable {State Action : Type*}

/-- The state after a schedule, or `none` when one action is not enabled. -/
def exec (step : State → Action → Option State) : State → List Action → Option State
  | state, [] => some state
  | state, action :: rest => (step state action).bind fun next => exec step next rest

/-- Every step the schedule takes from `state` meets `condition`. -/
def Meets (step : State → Action → Option State)
    (condition : State → Action → Prop) : State → List Action → Prop
  | _, [] => True
  | state, action :: rest =>
    condition state action ∧
      ∀ next, step state action = some next → Meets step condition next rest

variable {step : State → Action → Option State}

@[simp] theorem exec_nil (state : State) :
    exec step state [] = some state := rfl

theorem exec_cons {state final : State} {action : Action} {rest : List Action} :
    exec step state (action :: rest) = some final ↔
      ∃ next, step state action = some next ∧ exec step next rest = some final :=
  Option.bind_eq_some_iff

theorem exec_append {state final : State} {first second : List Action} :
    exec step state (first ++ second) = some final ↔
      ∃ middle, exec step state first = some middle ∧ exec step middle second = some final := by
  induction first generalizing state with
  | nil => simp
  | cons action rest induction =>
    constructor
    · intro run
      obtain ⟨next, taken, remaining⟩ := (exec_cons).mp run
      obtain ⟨middle, front, back⟩ := induction.mp remaining
      exact ⟨middle, (exec_cons).mpr ⟨next, taken, front⟩, back⟩
    · rintro ⟨middle, run, back⟩
      obtain ⟨next, taken, front⟩ := (exec_cons).mp run
      exact (exec_cons).mpr ⟨next, taken, induction.mpr ⟨middle, front, back⟩⟩

theorem exec_invariant_of_meets {condition : State → Action → Prop} {invariant : State → Prop}
    (kept : ∀ state action next, invariant state → condition state action →
      step state action = some next → invariant next)
    {start final : State} {schedule : List Action}
    (meets : Meets step condition start schedule)
    (initial : invariant start)
    (run : exec step start schedule = some final) :
    invariant final := by
  induction schedule generalizing start with
  | nil =>
    cases run
    exact initial
  | cons action rest induction =>
    obtain ⟨next, taken, remaining⟩ := (exec_cons).mp run
    exact induction (meets.2 next taken)
      (kept start action next initial meets.1 taken) remaining

theorem exec_history {invariant : List Action → State → Prop}
    (kept : ∀ past state action next, invariant past state →
      step state action = some next → invariant (past ++ [action]) next)
    {start final : State} {past schedule : List Action}
    (initial : invariant past start)
    (run : exec step start schedule = some final) :
    invariant (past ++ schedule) final := by
  induction schedule generalizing start past with
  | nil =>
    cases run
    simpa using initial
  | cons action rest induction =>
    obtain ⟨next, taken, remaining⟩ := (exec_cons).mp run
    have later := induction (kept past start action next initial taken) remaining
    rwa [List.append_assoc] at later

theorem exec_back {good : State → Prop}
    (back : ∀ state action next, step state action = some next → good next → good state)
    {start final : State} {schedule : List Action} (ends : good final)
    (run : exec step start schedule = some final) : good start := by
  induction schedule generalizing start with
  | nil =>
    cases run
    exact ends
  | cons action rest induction =>
    obtain ⟨next, taken, remaining⟩ := (exec_cons).mp run
    exact back start action next taken (induction remaining)

theorem Meets.of_invariant {condition property : State → Action → Prop}
    {invariant : State → Prop}
    (kept : ∀ state action next, invariant state → condition state action →
      step state action = some next → invariant next)
    (holds : ∀ state action, invariant state → condition state action → property state action)
    {start : State} {schedule : List Action}
    (meets : Meets step condition start schedule)
    (initial : invariant start) : Meets step property start schedule := by
  induction schedule generalizing start with
  | nil => trivial
  | cons action rest induction =>
    refine ⟨holds start action initial meets.1, ?_⟩
    intro next taken
    exact induction (meets.2 next taken) (kept start action next initial meets.1 taken)

theorem exec_invariant {invariant : State → Prop} (kept : ∀ state action next, invariant state →
      step state action = some next → invariant next)
    {start final : State} {schedule : List Action}
    (initial : invariant start)
    (run : exec step start schedule = some final) :
    invariant final := by
  induction schedule generalizing start with
  | nil =>
    cases run
    exact initial
  | cons action rest induction =>
    obtain ⟨next, taken, remaining⟩ := (exec_cons).mp run
    exact induction (kept start action next initial taken) remaining

theorem exec_lockstep {condition : State → Action → Prop} {related : State → State → Prop}
    (kept : ∀ first second action next other, related first second →
      condition first action → condition second action →
      step first action = some next → step second action = some other →
      related next other)
    {first second last final : State} {schedule : List Action}
    (first_meets : Meets step condition first schedule)
    (second_meets : Meets step condition second schedule)
    (initial : related first second)
    (first_run : exec step first schedule = some last)
    (second_run : exec step second schedule = some final) :
    related last final := by
  induction schedule generalizing first second with
  | nil =>
    cases first_run
    cases second_run
    exact initial
  | cons action rest induction =>
    obtain ⟨next, taken, remaining⟩ := (exec_cons).mp first_run
    obtain ⟨other, other_taken, other_remaining⟩ := (exec_cons).mp second_run
    apply induction (first_meets.2 next taken)
      (second_meets.2 other other_taken) _ remaining other_remaining
    exact kept first second action next other initial first_meets.1
      second_meets.1 taken other_taken

theorem Meets.of_append {condition : State → Action → Prop} {state : State}
    {first second : List Action}
    (meets : Meets step condition state (first ++ second)) :
    Meets step condition state first ∧ ∀ middle, exec step state first = some middle →
        Meets step condition middle second := by
  induction first generalizing state with
  | nil =>
    refine ⟨trivial, ?_⟩
    intro middle reached
    cases reached
    exact meets
  | cons action rest induction =>
    constructor
    · exact ⟨meets.1, fun next taken => (induction (meets.2 next taken)).1⟩
    · intro middle reached
      obtain ⟨next, taken, remaining⟩ := (exec_cons).mp reached
      exact (induction (meets.2 next taken)).2 middle remaining

theorem meets_iff_well {condition : State → Action → Prop} {invariant good : State → Prop}
    (exact : ∀ state action next, invariant state → good state →
      step state action = some next → (condition state action ↔ good next))
    (kept : ∀ state action next, invariant state → good state →
      step state action = some next → good next → invariant next)
    (disabled : ∀ state action, step state action = none → condition state action)
    {start : State} {schedule : List Action} (initial : invariant start)
    (begun : good start) :
    Meets step condition start schedule ↔ ∀ front, front <+: schedule → ∀ reached,
        exec step start front = some reached → good reached := by
  constructor
  · rintro meets front ⟨back, rfl⟩ reached run
    have both : invariant reached ∧ good reached := by
      apply exec_invariant_of_meets _ (meets.of_append).1 ⟨initial, begun⟩ run
      rintro state action next ⟨holds, well⟩ met taken
      have after := (exact state action next holds well taken).mp met
      exact ⟨kept state action next holds well taken after, after⟩
    exact both.2
  · intro reached
    induction schedule generalizing start with
    | nil => trivial
    | cons action rest induction =>
      have well : ∀ next, step start action = some next → good next := by
        intro next taken
        apply reached [action] (List.prefix_iff_eq_take.mpr rfl)
        simp [exec, taken]
      refine ⟨?_, ?_⟩
      · cases taken : step start action with
        | none => exact disabled start action taken
        | some next => exact (exact start action next initial begun taken).mpr (well next taken)
      · intro next taken
        apply induction (kept start action next initial begun taken
          (well next taken)) (well next taken)
        rintro front ⟨back, rfl⟩ final run
        apply reached (action :: front) ⟨back, rfl⟩
        exact (exec_cons).mpr ⟨next, taken, run⟩

theorem meets_iff_reached {condition : State → Action → Prop} {invariant : State → Prop}
    (exact : ∀ state action next, invariant state →
      step state action = some next → (condition state action ↔ invariant next))
    (disabled : ∀ state action, step state action = none → condition state action)
    {start : State} {schedule : List Action} (initial : invariant start) :
    Meets step condition start schedule ↔ ∀ front, front <+: schedule → ∀ reached,
        exec step start front = some reached → invariant reached :=
  meets_iff_well (fun state action next holds _ taken =>
    exact state action next holds taken)
    (fun _ _ _ _ _ _ after => after) disabled initial initial

theorem meets_iff_each {condition : State → Action → Prop} {start : State}
    {schedule : List Action} :
    Meets step condition start schedule ↔
      ∀ front action, front ++ [action] <+: schedule → ∀ reached,
        exec step start front = some reached → condition reached action := by
  constructor
  · rintro meets front action ⟨back, rfl⟩ reached run
    rw [List.append_assoc] at meets
    exact ((meets.of_append).2 reached run).1
  · intro each
    induction schedule generalizing start with
    | nil => trivial
    | cons action rest induction =>
      refine ⟨each [] action ⟨rest, rfl⟩ start rfl, ?_⟩
      intro next taken
      apply induction
      rintro front later ⟨back, rfl⟩ reached run
      apply each (action :: front) later ⟨back, rfl⟩
      exact (exec_cons).mpr ⟨next, taken, run⟩

theorem meets_iff_good {assumption condition : State → Action → Prop}
    {invariant good : State → Prop}
    (exact : ∀ state action next, invariant state → assumption state action →
      step state action = some next → (condition state action ↔ good next))
    (kept : ∀ state action next, invariant state → assumption state action →
      step state action = some next → good next → invariant next)
    (back : ∀ state action next, step state action = some next → good next → good state)
    {start final : State} {schedule : List Action}
    (assumed : Meets step assumption start schedule)
    (initial : invariant start) (begun : good start)
    (run : exec step start schedule = some final) :
    Meets step condition start schedule ↔ good final := by
  induction schedule generalizing start with
  | nil =>
    cases run
    exact iff_of_true trivial begun
  | cons action rest induction =>
    obtain ⟨next, taken, remaining⟩ := (exec_cons).mp run
    have here := exact start action next initial assumed.1 taken
    have after : good next → (Meets step condition next rest ↔ good final) :=
      fun well => induction (assumed.2 next taken)
        (kept start action next initial assumed.1 taken well) well remaining
    constructor
    · intro meets
      have well := here.mp meets.1
      exact (after well).mp (meets.2 next taken)
    · intro ends
      have well : good next := by
        apply exec_back _ ends remaining
        intro state action next taken
        exact back state action next taken
      refine ⟨here.mpr well, ?_⟩
      intro other other_taken
      rw [taken] at other_taken
      cases other_taken
      exact (after well).mpr ends

theorem exec_measure {invariant : State → Prop} {measure : State → Nat} {cost : Action → Nat}
    (paid : ∀ state action next, invariant state → invariant next →
      step state action = some next →
      cost action + measure next ≤ measure state)
    {start final : State} {schedule : List Action}
    (holds : ∀ front, front <+: schedule → ∀ reached,
      exec step start front = some reached → invariant reached)
    (run : exec step start schedule = some final) :
    (schedule.map cost).sum + measure final ≤ measure start := by
  induction schedule generalizing start with
  | nil =>
    cases run
    simp
  | cons action rest induction =>
    obtain ⟨next, taken, remaining⟩ := (exec_cons).mp run
    have first : invariant start :=
      holds [] List.nil_prefix start (exec_nil start)
    have second : invariant next := by
      apply holds [action] (List.prefix_iff_eq_take.mpr rfl)
      simp [exec, taken]
    have later : (rest.map cost).sum + measure final ≤ measure next := by
      apply induction _ remaining
      rintro front ⟨back, rfl⟩ reached front_run
      apply holds (action :: front) ⟨back, rfl⟩
      exact (exec_cons).mpr ⟨next, taken, front_run⟩
    have here := paid start action next first second taken
    rw [List.map_cons, List.sum_cons]
    omega

theorem exec_cost {measure : State → Nat} {cost gain : Action → Nat}
    (paid : ∀ state action next, step state action = some next →
      cost action + measure next ≤ measure state + gain action)
    {start final : State} {schedule : List Action}
    (run : exec step start schedule = some final) :
    (schedule.map cost).sum + measure final ≤ measure start + (schedule.map gain).sum := by
  induction schedule generalizing start with
  | nil =>
    cases run
    simp
  | cons action rest induction =>
    obtain ⟨next, taken, remaining⟩ := (exec_cons).mp run
    have later := induction remaining
    have here := paid start action next taken
    rw [List.map_cons, List.map_cons, List.sum_cons, List.sum_cons]
    omega

theorem Meets.and {condition other : State → Action → Prop} {state : State}
    {schedule : List Action} (meets : Meets step condition state schedule)
    (others : Meets step other state schedule) :
    Meets step (fun state action => condition state action ∧ other state action)
      state schedule := by
  induction schedule generalizing state with
  | nil => trivial
  | cons action rest induction =>
    exact ⟨⟨meets.1, others.1⟩, fun next taken =>
      induction (meets.2 next taken) (others.2 next taken)⟩

theorem Meets.cons {condition : State → Action → Prop}
    {state next : State} {action : Action} {rest : List Action}
    (met : condition state action) (taken : step state action = some next)
    (remaining : Meets step condition next rest) :
    Meets step condition state (action :: rest) := by
  refine ⟨met, ?_⟩
  intro other other_taken
  rw [taken] at other_taken
  cases other_taken
  exact remaining

theorem Meets.mono {condition weaker : State → Action → Prop}
    (implies : ∀ state action, condition state action → weaker state action)
    {state : State} {schedule : List Action}
    (meets : Meets step condition state schedule) :
    Meets step weaker state schedule := by
  induction schedule generalizing state with
  | nil => trivial
  | cons action rest induction =>
    exact ⟨implies state action meets.1, fun next taken =>
      induction (meets.2 next taken)⟩

theorem Meets.of_forall {condition : Action → Prop} {state : State} {schedule : List Action}
    (all : ∀ action ∈ schedule, condition action) :
    Meets step (fun _ action => condition action) state schedule := by
  induction schedule generalizing state with
  | nil => trivial
  | cons action rest induction =>
    exact ⟨all action List.mem_cons_self, fun next _taken =>
      induction fun other member =>
        all other (List.mem_cons_of_mem _ member)⟩

theorem Meets.of_imp {condition : State → Action → Prop} {assumption : Prop}
    {state : State} {schedule : List Action}
    (meets : assumption → Meets step condition state schedule) :
    Meets step (fun state action => assumption → condition state action) state schedule := by
  induction schedule generalizing state with
  | nil => trivial
  | cons action rest induction =>
    exact ⟨fun holds => (meets holds).1, fun next taken =>
      induction fun holds => (meets holds).2 next taken⟩

instance decidableMeets {condition : State → Action → Prop}
    [∀ state action, Decidable (condition state action)] :
    ∀ (state : State) (schedule : List Action), Decidable (Meets step condition state schedule)
  | _, [] => .isTrue trivial
  | state, action :: rest =>
    match taken : step state action with
    | none => decidable_of_iff (condition state action) (by simp [Meets, taken])
    | some next =>
      have : Decidable (Meets step condition next rest) :=
        decidableMeets next rest
      decidable_of_iff (condition state action ∧ Meets step condition next rest)
        (by simp [Meets, taken])

end Runs
