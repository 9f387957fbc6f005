import Mathlib.Logic.Basic

/-!
# Programs that change a state and may raise

A program keeps the changes it made when it raises.  `Keeps relation` says
that a program relates whatever state it finds to the one it leaves; for a
reflexive and transitive relation the rules below take a program apart along
its syntax.
-/

namespace Effects

variable {State Error α β : Type}

def Program (State Error α : Type) : Type := State → Except Error α × State

instance : Monad (Program State Error) where
  pure value := fun state => (.ok value, state)
  bind program next := fun state =>
    match program state with
    | (.ok value, left) => next value left
    | (.error error, left) => (.error error, left)

instance : MonadExceptOf Error (Program State Error) where
  throw error := fun state => (.error error, state)
  tryCatch program handler := fun state =>
    match program state with
    | (.ok value, left) => (.ok value, left)
    | (.error error, left) => handler error left

instance : MonadStateOf State (Program State Error) where
  get := fun state => (.ok state, state)
  set state := fun _ => (.ok ⟨⟩, state)
  modifyGet change := fun state =>
    let (value, left) := change state
    (.ok value, left)

def after (program : Program State Error α) (state : State) : State :=
  (program state).2

def result (program : Program State Error α) (state : State) : Except Error α :=
  (program state).1

def Keeps (relation : State → State → Prop) (program : Program State Error α) : Prop :=
  ∀ state, relation state (after program state)

theorem bind_apply (program : Program State Error α)
    (next : α → Program State Error β) (state : State) :
    (program >>= next) state = match result program state with
      | .ok value => next value (after program state)
      | .error error => (.error error, after program state) := by
  change (match program state with
    | (.ok value, left) => next value left
    | (.error error, left) => (.error error, left)) = _
  unfold result after
  generalize program state = done
  obtain ⟨outcome, left⟩ := done
  cases outcome <;> rfl

theorem tryCatch_apply (program : Program State Error α)
    (handler : Error → Program State Error α) (state : State) :
    (tryCatch program handler) state = match result program state with
      | .ok value => (Except.ok value, after program state)
      | .error error => handler error (after program state) := by
  change (match program state with
    | (.ok value, left) => (Except.ok value, left)
    | (.error error, left) => handler error left) = _
  unfold result after
  generalize program state = done
  obtain ⟨outcome, left⟩ := done
  cases outcome <;> rfl

theorem error_of_bind {program : Program State Error α}
    {next : α → Program State Error β} {state left : State} {error : Error}
    (raised : (program >>= next) state = (.error error, left)) :
    program state = (.error error, left) ∨ ∃ value middle, program state = (.ok value, middle) ∧
        next value middle = (.error error, left) := by
  have split := bind_apply program next state
  rw [raised] at split
  unfold result after at split
  generalize program state = done at split ⊢
  obtain ⟨outcome, middle⟩ := done
  cases outcome with
  | ok value => exact .inr ⟨value, middle, rfl, split.symm⟩
  | error other =>
    left
    cases split
    rfl

theorem error_of_tryCatch {program : Program State Error α}
    {handler : Error → Program State Error α} {state left : State}
    {error : Error}
    (raised : (tryCatch program handler) state = (.error error, left)) :
    ∃ first middle, program state = (.error first, middle) ∧
      handler first middle = (.error error, left) := by
  have split := tryCatch_apply program handler state
  rw [raised] at split
  unfold result after at split
  generalize program state = done at split ⊢
  obtain ⟨outcome, middle⟩ := done
  cases outcome with
  | ok value => cases split
  | error other => exact ⟨other, middle, rfl, split.symm⟩

theorem error_of_discard {program : Program State Error α} {state left : State} {error : Error}
    (raised : (discard program) state = (.error error, left)) :
    program state = (.error error, left) := by
  have parts : (program >>= fun _ => (pure () : Program State Error PUnit))
      state = (.error error, left) := raised
  rcases error_of_bind parts with first | ⟨value, middle, _, absurd⟩
  · exact first
  · cases absurd

theorem after_discard (program : Program State Error α) (state : State) :
    after (discard program) state = after program state := by
  have split := bind_apply program (fun _ => (pure () : Program State Error _)) state
  change (discard program) state = _ at split
  rw [after, split]
  cases result program state <;> rfl

section Rules

variable {relation : State → State → Prop}
variable {program : Program State Error α}

theorem Keeps.run (keeps : Keeps relation program) {state left : State}
    {outcome : Except Error α} (done : program state = (outcome, left)) :
    relation state left := by
  have kept := keeps state
  rw [after, done] at kept
  exact kept

section

variable (refl : ∀ state, relation state state)

include refl

theorem keeps_of_same
    (same : ∀ state, after program state = state) : Keeps relation program := by
  intro state
  rw [same state]
  exact refl state

theorem keeps_pure (value : α) : Keeps relation (pure value : Program State Error α) :=
  keeps_of_same refl fun _ => rfl

theorem keeps_throw (error : Error) : Keeps relation (throw error : Program State Error α) :=
  keeps_of_same refl fun _ => rfl

end

theorem keeps_bind (trans : ∀ first second third, relation first second →
      relation second third → relation first third)
    {next : α → Program State Error β} (first : Keeps relation program)
    (rest : ∀ value, Keeps relation (next value)) :
    Keeps relation (program >>= next) := by
  intro state
  have done := first state
  rw [after, bind_apply]
  split
  · exact trans _ _ _ done (rest _ _)
  · exact done

theorem keeps_tryCatch (trans : ∀ first second third, relation first second →
      relation second third → relation first third)
    {handler : Error → Program State Error α} (body : Keeps relation program)
    (handled : ∀ error, Keeps relation (handler error)) :
    Keeps relation (tryCatch program handler) := by
  intro state
  have done := body state
  rw [after, tryCatch_apply]
  split
  · exact done
  · exact trans _ _ _ done (handled _ _)

theorem keeps_forM (refl : ∀ state, relation state state)
    (trans : ∀ first second third, relation first second →
      relation second third → relation first third)
    {items : List α} {body : α → Program State Error PUnit}
    (each : ∀ item ∈ items, Keeps relation (body item)) :
    Keeps relation (items.forM body) := by
  induction items with
  | nil => exact keeps_pure refl _
  | cons item rest induction =>
    rw [List.forM_eq_forM, List.forM_cons]
    apply keeps_bind trans (each item List.mem_cons_self)
    intro _
    exact induction fun other member =>
      each other (List.mem_cons_of_mem _ member)

end Rules

theorem ok_of_bind {computation : Except Error α} {next : α → Except Error β}
    {value : β} (done : computation >>= next = .ok value) :
    ∃ first, computation = .ok first ∧ next first = .ok value := by
  cases computation with
  | error error => contradiction
  | ok first => exact ⟨first, rfl, done⟩

theorem ok_of_map {computation : Except Error α} {change : α → β} {value : β}
    (done : computation.map change = .ok value) :
    ∃ first, computation = .ok first ∧ change first = value := by
  cases computation with
  | error error => contradiction
  | ok first =>
    cases done
    exact ⟨first, rfl, rfl⟩

end Effects
