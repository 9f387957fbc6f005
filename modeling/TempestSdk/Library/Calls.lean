import TempestSdk.Library.Runs

/-!
# Calls that share a store

A call asks a store for one command at a time and goes on with the answer.
The store performs each command at once, and between two commands of one call
anything else may happen.  `Call` is the code of such a call, as a tree of
commands; `World` runs any number of them interleaved, `Service.alone` runs
one with nothing but time passing in between.

Two kinds of reasoning are packaged here.  `Everywhere` says something about
every command a call may still ask for, whatever it is answered, so a step of
the call keeps it.  `wp` is the weakest precondition of a call that runs alone.
-/

namespace Calls

inductive Call {Command : Type} (Answer : Command → Type) (Result : Type) where
  | done (result : Result)
  | ask (command : Command) (next : Answer command → Call Answer Result)

namespace Call

variable {Command : Type} {Answer : Command → Type} {Result Other : Type}

def bind : Call Answer Result → (Result → Call Answer Other) → Call Answer Other
  | .done result, continuation => continuation result
  | .ask command next, continuation =>
    .ask command fun answer => (next answer).bind continuation

instance : Monad (Call Answer) where
  pure := .done
  bind := bind

def issue (command : Command) : Call Answer (Answer command) :=
  .ask command .done

@[simp] theorem pure_eq (result : Result) :
    (pure result : Call Answer Result) = .done result := rfl

@[simp] theorem done_bind (result : Result)
    (continuation : Result → Call Answer Other) :
    ((.done result : Call Answer Result) >>= continuation) = continuation result := rfl

@[simp] theorem ask_bind (command : Command)
    (next : Answer command → Call Answer Result)
    (continuation : Result → Call Answer Other) :
    (.ask command next >>= continuation) =
      .ask command fun answer => next answer >>= continuation := rfl

@[simp] theorem issue_bind (command : Command)
    (continuation : Answer command → Call Answer Other) :
    (issue command >>= continuation) = .ask command continuation := rfl

def finished : Call Answer Result → Bool
  | .done _ => true
  | .ask _ _ => false

/-- `holds` is true of the call and of all it may still become. -/
def Everywhere (holds : Call Answer Result → Prop) : Call Answer Result → Prop
  | .done result => holds (.done result)
  | .ask command next => holds (.ask command next) ∧ ∀ answer, Everywhere holds (next answer)

theorem Everywhere.here {holds : Call Answer Result → Prop}
    {call : Call Answer Result} (everywhere : Everywhere holds call) :
    holds call := by
  cases call with
  | done result => exact everywhere
  | ask command next => exact everywhere.1

theorem Everywhere.next {holds : Call Answer Result → Prop}
    {command : Command} {next : Answer command → Call Answer Result}
    (everywhere : Everywhere holds (.ask command next))
    (answer : Answer command) : Everywhere holds (next answer) :=
  everywhere.2 answer

theorem Everywhere.bind {front : Call Answer Result → Prop}
    {holds : Call Answer Other → Prop} {call : Call Answer Result}
    {continuation : Result → Call Answer Other}
    (everywhere : Everywhere front call)
    (extends_front : ∀ command next, front (.ask command next) →
      holds (.ask command next >>= continuation))
    (rest : ∀ result, Everywhere holds (continuation result)) :
    Everywhere holds (call >>= continuation) := by
  induction call with
  | done result => exact rest result
  | ask command next induction =>
    constructor
    · exact extends_front command next everywhere.1
    · intro answer
      exact induction answer (everywhere.2 answer)

/-- Only commands that are `allowed` are ever asked for. -/
def Asks (allowed : Command → Prop) : Call Answer Result → Prop :=
  Everywhere fun
    | .done _ => True
    | .ask command _ => allowed command

@[simp] theorem asks_done {allowed : Command → Prop} (result : Result) :
    Asks allowed (.done result : Call Answer Result) := trivial

@[simp] theorem asks_ask {allowed : Command → Prop} {command : Command}
    {next : Answer command → Call Answer Result} :
    Asks allowed (.ask command next) ↔
      allowed command ∧ ∀ answer, Asks allowed (next answer) := Iff.rfl

theorem Asks.bind {allowed : Command → Prop} {call : Call Answer Result}
    {continuation : Result → Call Answer Other}
    (first : Asks allowed call)
    (rest : ∀ result, Asks allowed (continuation result)) :
    Asks allowed (call >>= continuation) :=
  Everywhere.bind first (fun _command _next permitted => permitted) rest

end Call

structure Service (Store Request : Type) {Command : Type}
    (Answer : Command → Type) (Result : Type) where
  perform : (command : Command) → Store → Answer command × Store
  elapse : Nat → Store → Store
  program : Request → Call Answer Result

section Interleaving

variable {Store Request Command Result : Type} {Answer : Command → Type}

/-- A call in flight, with the request it serves. -/
structure Running (Request : Type) {Command : Type}
    (Answer : Command → Type) (Result : Type) where
  request : Request
  rest : Call Answer Result

/-- The store and every call ever started, in the order they started. -/
structure World (Store Request : Type) {Command : Type}
    (Answer : Command → Type) (Result : Type) where
  store : Store
  calls : List (Running Request Answer Result)

inductive Event (Request : Type) where
  | start (request : Request)
  | advance (index : Nat)
  | elapse (duration : Nat)

def World.initial (store : Store) : World Store Request Answer Result where
  store := store
  calls := []

def World.Quiet (world : World Store Request Answer Result) : Prop :=
  ∀ running ∈ world.calls, running.rest.finished = true

instance (world : World Store Request Answer Result) :
    Decidable world.Quiet :=
  inferInstanceAs (Decidable (∀ running ∈ world.calls, running.rest.finished = true))

def Service.step (service : Service Store Request Answer Result)
    (world : World Store Request Answer Result) :
    Event Request → Option (World Store Request Answer Result)
  | .start request =>
    some { world with
      calls := world.calls ++ [⟨request, service.program request⟩] }
  | .advance index =>
    match world.calls[index]? with
    | some ⟨request, .ask command next⟩ =>
      let performed := service.perform command world.store
      some ⟨performed.2, world.calls.set index ⟨request, next performed.1⟩⟩
    | _ => none
  | .elapse duration => some { world with store := service.elapse duration world.store }

variable {service : Service Store Request Answer Result}
  {world next : World Store Request Answer Result}

theorem Service.step_start {request : Request}
    (taken : service.step world (.start request) = some next) :
    next = { world with
      calls := world.calls ++ [⟨request, service.program request⟩] } :=
  (Option.some.inj taken).symm

theorem Service.step_advance {index : Nat}
    (taken : service.step world (.advance index) = some next) :
    ∃ request command rest, world.calls[index]? = some ⟨request, .ask command rest⟩ ∧
        next = ⟨(service.perform command world.store).2, world.calls.set index
            ⟨request, rest (service.perform command world.store).1⟩⟩ := by
  simp only [Service.step] at taken
  split at taken
  · rename_i request command rest running
    exact ⟨request, command, rest, running, (Option.some.inj taken).symm⟩
  · cases taken

theorem Service.step_elapse {duration : Nat}
    (taken : service.step world (.elapse duration) = some next) :
    next = { world with store := service.elapse duration world.store } :=
  (Option.some.inj taken).symm

theorem Service.step_calls {event : Event Request} {index : Nat}
    {running : Running Request Answer Result}
    (taken : service.step world event = some next)
    (found : next.calls[index]? = some running) :
    world.calls[index]? = some running ∨
      (event = .start running.request ∧ index = world.calls.length ∧
        running.rest = service.program running.request) ∨
      ∃ command rest, event = .advance index ∧
          world.calls[index]? = some ⟨running.request, .ask command rest⟩ ∧
            running.rest = rest (service.perform command world.store).1 := by
  cases event with
  | start request =>
    have after := service.step_start taken
    subst after
    rcases Nat.lt_trichotomy index world.calls.length with
      inside | same | outside
    · rw [List.getElem?_append_left inside] at found
      exact .inl found
    · subst same
      simp only [List.getElem?_append_right, Nat.le_refl, Nat.sub_self,
        List.getElem?_cons_zero, Option.some.injEq] at found
      subst found
      exact .inr (.inl ⟨rfl, rfl, rfl⟩)
    · have beyond : world.calls.length + 1 ≤ index := outside
      rw [List.getElem?_eq_none (by simpa using beyond)] at found
      cases found
  | advance other =>
    obtain ⟨request, command, rest, moving, rfl⟩ := service.step_advance taken
    by_cases same : other = index
    · subst same
      have present : other < world.calls.length :=
        (List.getElem?_eq_some_iff.mp moving).1
      simp only [List.getElem?_set_self present, Option.some.injEq] at found
      subst found
      exact .inr (.inr ⟨command, rest, rfl, moving, rfl⟩)
    · simp only [List.getElem?_set_ne same] at found
      exact .inl found
  | elapse duration =>
    have after := service.step_elapse taken
    subst after
    exact .inl found

theorem Service.step_keeps_request {event : Event Request} {index : Nat}
    {running : Running Request Answer Result}
    (taken : service.step world event = some next)
    (before : world.calls[index]? = some running) :
    ∃ rest, next.calls[index]? = some ⟨running.request, rest⟩ := by
  have inside : index < world.calls.length :=
    (List.getElem?_eq_some_iff.mp before).1
  cases event with
  | start request =>
    have after := service.step_start taken
    subst after
    refine ⟨running.rest, ?_⟩
    rw [List.getElem?_append_left inside]
    exact before
  | advance other =>
    obtain ⟨request, command, rest, moving, rfl⟩ := service.step_advance taken
    by_cases same : other = index
    · subst same
      rw [before] at moving
      cases moving
      exact ⟨rest (service.perform command world.store).1, List.getElem?_set_self inside⟩
    · exact ⟨running.rest, by simpa [same] using before⟩
  | elapse duration =>
    have after := service.step_elapse taken
    subst after
    exact ⟨running.rest, before⟩

theorem Service.step_everywhere {holds : Request → Call Answer Result → Prop}
    (programs : ∀ request, Call.Everywhere (holds request) (service.program request))
    {event : Event Request}
    (everywhere : ∀ running ∈ world.calls, Call.Everywhere (holds running.request) running.rest)
    (taken : service.step world event = some next) :
    ∀ running ∈ next.calls, Call.Everywhere (holds running.request) running.rest := by
  intro running member
  obtain ⟨index, found⟩ := List.mem_iff_getElem?.mp member
  rcases service.step_calls taken found with same | started | advanced
  · exact everywhere running (List.mem_of_getElem? same)
  · rw [started.2.2]
    exact programs running.request
  · obtain ⟨command, rest, _advance, before, remaining⟩ := advanced
    rw [remaining]
    exact (everywhere _ (List.mem_of_getElem? before)).next _

/-- Run a call to its end: what it returns, the store it leaves and how many
commands it sent. -/
def Service.uninterrupted (service : Service Store Request Answer Result) :
    Call Answer Result → Store → Result × Store × Nat
  | .done result, store => (result, store, 0)
  | .ask command next, store =>
    let performed := service.perform command store
    let finished := service.uninterrupted (next performed.1) performed.2
    (finished.1, finished.2.1, finished.2.2 + 1)

theorem Service.exec_uninterrupted
    (old : List (Running Request Answer Result)) (request : Request)
    (call : Call Answer Result) (store : Store) :
    Runs.exec service.step ⟨store, old ++ [⟨request, call⟩]⟩
        (List.replicate (service.uninterrupted call store).2.2 (.advance old.length)) =
      some ⟨(service.uninterrupted call store).2.1,
        old ++ [⟨request, .done (service.uninterrupted call store).1⟩]⟩ := by
  induction call generalizing store with
  | done result => rfl
  | ask command next induction =>
    simp only [Service.uninterrupted, List.replicate_succ]
    apply Runs.exec_cons.mpr
    refine ⟨⟨(service.perform command store).2,
      old ++ [⟨request, next (service.perform command store).1⟩]⟩, ?_, ?_⟩
    · simp [Service.step]
    · exact induction _ _

end Interleaving

section Alone

variable {Store Request Command Result Other : Type} {Answer : Command → Type}

/-- Run a call with only time passing before each of its commands.  `waits`
says how long; what is left of it is returned. -/
def Service.alone (service : Service Store Request Answer Result) :
    List Nat → Call Answer Other → Store → Other × Store × List Nat
  | waits, .done result, store => (result, store, waits)
  | waits, .ask command next, store =>
    let performed :=
      service.perform command (service.elapse (waits.headD 0) store)
    service.alone waits.tail (next performed.1) performed.2

/-- Every command finds the store in a state that meets `condition`. -/
def Service.Along (service : Service Store Request Answer Result)
    (condition : Store → Command → Prop) :
    List Nat → Call Answer Other → Store → Prop
  | _, .done _, _ => True
  | waits, .ask command next, store =>
    let reached := service.elapse (waits.headD 0) store
    let performed := service.perform command reached
    condition reached command ∧
      service.Along condition waits.tail (next performed.1) performed.2

/-- The weakest precondition of a call that runs alone, for any waits, when
its commands meet `condition`. -/
def Service.wp (service : Service Store Request Answer Result)
    (condition : Store → Command → Prop) (post : Other → Store → Prop) :
    Call Answer Other → Store → Prop
  | .done result, store => post result store
  | .ask command next, store => ∀ wait,
      condition (service.elapse wait store) command → service.wp condition post
          (next (service.perform command (service.elapse wait store)).1)
          (service.perform command (service.elapse wait store)).2

variable {service : Service Store Request Answer Result}
  {condition : Store → Command → Prop}

@[simp] theorem Service.wp_done {post : Other → Store → Prop}
    {result : Other} {store : Store} :
    service.wp condition post (.done result) store ↔ post result store :=
  Iff.rfl

variable {store : Store}

theorem Service.wp_ask {post : Other → Store → Prop} {command : Command}
    {next : Answer command → Call Answer Other} :
    service.wp condition post (.ask command next) store ↔
      ∀ wait, condition (service.elapse wait store) command → service.wp condition post
          (next (service.perform command (service.elapse wait store)).1)
          (service.perform command (service.elapse wait store)).2 :=
  Iff.rfl

variable {call : Call Answer Other}

theorem Service.wp_mono {first second : Other → Store → Prop}
    (weaken : ∀ result store, first result store → second result store)
    (holds : service.wp condition first call store) :
    service.wp condition second call store := by
  induction call generalizing store with
  | done result => exact weaken result store holds
  | ask command next induction =>
    intro wait met
    exact induction _ (holds wait met)

theorem Service.wp_bind {Last : Type} {post : Last → Store → Prop}
    {continuation : Other → Call Answer Last} :
    service.wp condition post (call >>= continuation) store ↔
      service.wp condition (fun result reached =>
          service.wp condition post (continuation result) reached)
        call store := by
  induction call generalizing store with
  | done result => exact Iff.rfl
  | ask command next induction =>
    constructor
    · intro holds wait met
      exact (induction _).mp (holds wait met)
    · intro holds wait met
      exact (induction _).mpr (holds wait met)

theorem Service.wp_sound {post : Other → Store → Prop}
    (holds : service.wp condition post call store) (waits : List Nat)
    (met : service.Along condition waits call store) :
    post (service.alone waits call store).1 (service.alone waits call store).2.1 := by
  induction call generalizing store waits with
  | done result => exact holds
  | ask command next induction =>
    exact induction _ (holds (waits.headD 0) met.1) waits.tail met.2

theorem Service.along_bind {Last : Type} {waits : List Nat}
    {continuation : Other → Call Answer Last} :
    service.Along condition waits (call >>= continuation) store ↔
      service.Along condition waits call store ∧
        service.Along condition (service.alone waits call store).2.2
          (continuation (service.alone waits call store).1)
          (service.alone waits call store).2.1 := by
  induction call generalizing waits store with
  | done result => exact ⟨fun along => ⟨trivial, along⟩, fun along => along.2⟩
  | ask command next induction =>
    constructor
    · rintro ⟨met, along⟩
      obtain ⟨front, back⟩ := (induction _).mp along
      exact ⟨⟨met, front⟩, back⟩
    · rintro ⟨⟨met, front⟩, back⟩
      exact ⟨met, (induction _).mpr ⟨front, back⟩⟩

theorem Service.along_of_asks {allowed : Command → Prop}
    (always : ∀ command store, allowed command → condition store command)
    (asks : Call.Asks allowed call) (waits : List Nat) (store : Store) :
    service.Along condition waits call store := by
  induction call generalizing waits store with
  | done result => trivial
  | ask command next induction =>
    exact ⟨always command _ asks.here, induction _ (asks.next _) _ _⟩

theorem Service.alone_bind {Last : Type} {waits : List Nat}
    {continuation : Other → Call Answer Last} :
    service.alone waits (call >>= continuation) store =
      service.alone (service.alone waits call store).2.2
        (continuation (service.alone waits call store).1)
        (service.alone waits call store).2.1 := by
  induction call generalizing waits store with
  | done result => rfl
  | ask command next induction => exact induction _

@[simp] theorem Service.alone_nil_waits {call : Call Answer Other}
    {store : Store} : (service.alone [] call store).2.2 = [] := by
  induction call generalizing store with
  | done result => rfl
  | ask command next induction => exact induction _

theorem Service.alone_keeps {allowed : Command → Prop} {keeps : Store → Prop}
    (performed : ∀ command store, allowed command → keeps store →
      keeps (service.perform command store).2)
    (elapsed : ∀ duration store, keeps store →
      keeps (service.elapse duration store)) (asks : Call.Asks allowed call)
    {waits : List Nat} (holds : keeps store) :
    keeps (service.alone waits call store).2.1 := by
  induction call generalizing waits store with
  | done result => exact holds
  | ask command next induction =>
    apply induction
    · exact asks.next _
    · exact performed command _ asks.here (elapsed _ store holds)

end Alone

end Calls
