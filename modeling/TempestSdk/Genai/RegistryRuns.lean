import TempestSdk.Genai.RegistryHolds
import TempestSdk.Utils.LifecycleRuns

/-!
# Calls on the models of a registry

Any number of threads that call models, each on a handle of its own choice and
one call at a time, while models are taken and evicted.  What runs under a lock
is one step.
-/

namespace TempestSdk.Genai

open Lifecycle (ModelLifecycle Phase)

inductive Stage where
  /-- At the top of the loop of `_admit`. -/
  | arriving
  | readmitting
  | waiting (blockers left : List Nat)
  | holding (phase : Phase)
deriving DecidableEq

structure ModelCall where
  model : Nat
  stage : Stage
deriving DecidableEq

structure World where
  registry : ModelRegistry
  calls : List ModelCall

inductive Action where
  | get (key : String)
  | evict (key : String)
  | call (name : Nat)
  | check (index : Nat)
  | readmitModel (index : Nat)
  | wake (index : Nat)
  | drop (index : Nat)
  | acquire (index : Nat)
  | finishBuild (index : Nat) (success : Bool)
  | leave (index : Nat)
deriving DecidableEq

namespace World

def initial (maxModels : Nat) (positive : 0 < maxModels) : World where
  registry := .new maxModels positive
  calls := []

def withModel (world : World) (name : Nat) (model : ModelLifecycle Nat) : World :=
  { world with
    registry := { world.registry with
      fleet := Function.update world.registry.fleet name model } }

def setStage (world : World) (index : Nat) (stage : Stage) : World :=
  { world with
    calls := world.calls.modify index fun call => { call with stage := stage } }

end World

def World.building (world : World) (name : Nat) : Bool :=
  world.calls.any fun call => call == ⟨name, .holding .building⟩

def callStep (world : World) (index : Nat) (call : ModelCall) : Action → Option World
  | .check _ =>
    let model := world.registry.fleet call.model
    if call.stage = .arriving then
      if model.admits 0 then
        some ((world.withModel call.model (model.enter 0)).setStage index (.holding .admitted))
      else if model.evicted then some (world.setStage index .readmitting)
      else
        some (world.setStage index (.waiting model.blockers model.blockers))
    else none
  | .readmitModel _ =>
    if call.stage = .readmitting then
      some ({ world with registry := world.registry.readmitModel call.model
        }.setStage index .arriving)
    else none
  | .wake _ =>
    match call.stage with
    | .waiting blockers (blocker :: left) =>
      if (world.registry.fleet blocker).unloadPending then none
      else some (world.setStage index (.waiting blockers left))
    | _ => none
  | .drop _ =>
    match call.stage with
    | .waiting blockers [] =>
      let model := world.registry.fleet call.model
      some ((world.withModel call.model (model.waited blockers)).setStage index .arriving)
    | _ => none
  | .acquire _ =>
    if call.stage = .holding .admitted ∧ world.building call.model = false then
      if (world.registry.fleet call.model).loaded then
        some (world.setStage index (.holding .inside))
      else some (world.setStage index (.holding .building))
    else none
  | .finishBuild _ success =>
    if call.stage = .holding .building then
      if success then
        let model := world.registry.fleet call.model
        some ((world.withModel call.model model.built).setStage index (.holding .inside))
      else some (world.setStage index (.holding .failed))
    else none
  | .leave _ =>
    if call.stage = .holding .inside ∨ call.stage = .holding .failed then
      let model := world.registry.fleet call.model
      some { world.withModel call.model (model.leave 0) with
        calls := world.calls.eraseIdx index }
    else none
  | _ => none

def step (world : World) (action : Action) : Option World :=
  match action with
  | .get key => some { world with registry := (world.registry.get key).2 }
  | .evict key => some { world with registry := (world.registry.evict key).2 }
  | .call name =>
    if name < world.registry.made.length then
      some { world with calls := world.calls ++ [⟨name, .arriving⟩] }
    else none
  | .check index | .readmitModel index | .wake index | .drop index
  | .acquire index | .finishBuild index _ | .leave index =>
    world.calls[index]?.bind fun call => callStep world index call action

inductive Steps (world : World) : Action → World → Prop where
  | get (key : String) :
      Steps world (.get key) { world with registry := (world.registry.get key).2 }
  | evict (key : String) :
      Steps world (.evict key) { world with registry := (world.registry.evict key).2 }
  | call (name : Nat) (made : name < world.registry.made.length) :
      Steps world (.call name) { world with calls := world.calls ++ [⟨name, .arriving⟩] }
  | enter (index name : Nat)
      (there : world.calls[index]? = some ⟨name, .arriving⟩)
      (admits : (world.registry.fleet name).admits 0 = true) :
      Steps world (.check index)
        ((world.withModel name ((world.registry.fleet name).enter 0)).setStage
          index (.holding .admitted))
  | pause (action : Action) (index : Nat) (call : ModelCall) (stage : Stage)
      (there : world.calls[index]? = some call)
      (outside : ∀ phase, call.stage ≠ .holding phase ∧ stage ≠ .holding phase) :
      Steps world action (world.setStage index stage)
  | readmitModel (index name : Nat)
      (there : world.calls[index]? = some ⟨name, .readmitting⟩) :
      Steps world (.readmitModel index)
        ({ world with registry := world.registry.readmitModel name }.setStage index .arriving)
  | drop (index name : Nat) (blockers : List Nat)
      (there : world.calls[index]? = some ⟨name, .waiting blockers []⟩) :
      Steps world (.drop index) ((world.withModel name
          ((world.registry.fleet name).waited blockers)).setStage index .arriving)
  | go (action : Action) (index name : Nat) (old phase : Phase)
      (there : world.calls[index]? = some ⟨name, .holding old⟩) :
      Steps world action (world.setStage index (.holding phase))
  | built (index name : Nat)
      (there : world.calls[index]? = some ⟨name, .holding .building⟩) :
      Steps world (.finishBuild index true)
        ((world.withModel name (world.registry.fleet name).built).setStage index
          (.holding .inside))
  | leave (index name : Nat) (phase : Phase)
      (there : world.calls[index]? = some ⟨name, .holding phase⟩) :
      Steps world (.leave index)
        { world.withModel name ((world.registry.fleet name).leave 0) with
          calls := world.calls.eraseIdx index }

section

variable {world next : World}

theorem callStep_cases {action : Action} {index : Nat} {call : ModelCall}
    (there : world.calls[index]? = some call)
    (own : action = .check index ∨ action = .readmitModel index ∨
      action = .wake index ∨ action = .drop index ∨ action = .acquire index ∨
      (∃ success, action = .finishBuild index success) ∨ action = .leave index)
    (taken : callStep world index call action = some next) :
    Steps world action next := by
  obtain ⟨name, stage⟩ := call
  rcases own with rfl | rfl | rfl | rfl | rfl | ⟨success, rfl⟩ | rfl
  · simp only [callStep] at taken
    split at taken
    case isFalse => cases taken
    case isTrue arrives =>
      subst arrives
      split at taken
      case isTrue admits =>
        cases taken
        exact .enter index name there admits
      case isFalse =>
        split at taken
        · cases taken
          exact .pause _ index _ _ there fun phase => ⟨by simp, by simp⟩
        · cases taken
          exact .pause _ index _ _ there fun phase => ⟨by simp, by simp⟩
  · simp only [callStep] at taken
    split at taken
    case isFalse => cases taken
    case isTrue readmits =>
      subst readmits
      cases taken
      exact .readmitModel index name there
  · simp only [callStep] at taken
    split at taken
    case h_2 => cases taken
    case h_1 _ blockers blocker left =>
      split at taken
      case isTrue => cases taken
      case isFalse =>
        cases taken
        exact .pause _ index _ _ there fun phase => ⟨by simp, by simp⟩
  · simp only [callStep] at taken
    split at taken
    case h_2 => cases taken
    case h_1 _ blockers =>
      cases taken
      exact .drop index name blockers there
  · simp only [callStep] at taken
    split at taken
    case isFalse => cases taken
    case isTrue ready =>
      obtain ⟨admitted, _free⟩ := ready
      subst admitted
      split at taken
      · cases taken
        exact .go _ index name _ _ there
      · cases taken
        exact .go _ index name _ _ there
  · simp only [callStep] at taken
    split at taken
    case isFalse => cases taken
    case isTrue builds =>
      subst builds
      cases success with
      | true =>
        cases taken
        exact .built index name there
      | false =>
        cases taken
        exact .go _ index name _ _ there
  · simp only [callStep] at taken
    split at taken
    case isFalse => cases taken
    case isTrue ended =>
      cases taken
      rcases ended with rfl | rfl
      · exact .leave index name _ there
      · exact .leave index name _ there

theorem step_cases {action : Action} (taken : step world action = some next) :
    Steps world action next := by
  cases action with
  | get key =>
    cases taken
    exact .get key
  | evict key =>
    cases taken
    exact .evict key
  | call name =>
    simp only [step] at taken
    split at taken
    case isTrue made =>
      cases taken
      exact .call name made
    case isFalse => cases taken
  | check index =>
    obtain ⟨call, there, stepped⟩ := Option.bind_eq_some_iff.mp taken
    exact callStep_cases there (by simp) stepped
  | readmitModel index =>
    obtain ⟨call, there, stepped⟩ := Option.bind_eq_some_iff.mp taken
    exact callStep_cases there (by simp) stepped
  | wake index =>
    obtain ⟨call, there, stepped⟩ := Option.bind_eq_some_iff.mp taken
    exact callStep_cases there (by simp) stepped
  | drop index =>
    obtain ⟨call, there, stepped⟩ := Option.bind_eq_some_iff.mp taken
    exact callStep_cases there (by simp) stepped
  | acquire index =>
    obtain ⟨call, there, stepped⟩ := Option.bind_eq_some_iff.mp taken
    exact callStep_cases there (by simp) stepped
  | finishBuild index success =>
    obtain ⟨call, there, stepped⟩ := Option.bind_eq_some_iff.mp taken
    exact callStep_cases there (by simp) stepped
  | leave index =>
    obtain ⟨call, there, stepped⟩ := Option.bind_eq_some_iff.mp taken
    exact callStep_cases there (by simp) stepped

end

def ModelCall.holds (name : Nat) (call : ModelCall) : Bool :=
  decide (call.model = name) && match call.stage with
    | .holding _ => true
    | _ => false

structure Served (world : World) : Prop where
  holds : world.registry.Holds
  known : ∀ call ∈ world.calls, call.model < world.registry.made.length
  counted : ∀ name, (world.registry.fleet name).inFlight =
    world.calls.countP (ModelCall.holds name)

section

variable {world next : World}

theorem holds_iff {name : Nat} {call : ModelCall} : call.holds name = true ↔
      call.model = name ∧ ∃ phase, call.stage = .holding phase := by
  unfold ModelCall.holds
  rw [Bool.and_eq_true, decide_eq_true_eq]
  apply and_congr_right
  intro _same
  cases call.stage with
  | holding phase => simp
  | arriving => simp
  | readmitting => simp
  | waiting blockers left => simp

theorem Served.setStage {index : Nat} {call : ModelCall} {stage : Stage}
    (served : Served world) (there : world.calls[index]? = some call)
    (same : ∀ name, ModelCall.holds name { call with stage := stage } =
      call.holds name) : Served (world.setStage index stage) := by
  constructor
  · exact served.holds
  · intro other member
    rcases Entries.mem_modify member with old | ⟨old, inside, rfl⟩
    · exact served.known other old
    · exact served.known old inside
  · intro name
    have counted := Entries.countP_modify (ModelCall.holds name)
      (fun call : ModelCall => { call with stage := stage }) there
    rw [same name] at counted
    exact (served.counted name).trans (Nat.add_right_cancel counted).symm

theorem Served.same_counts (served : Served world) {registry : ModelRegistry}
    (holds : registry.Holds)
    (made : ∃ more, registry.made = world.registry.made ++ more)
    (counts : ∀ name, (registry.fleet name).inFlight = (world.registry.fleet name).inFlight) :
    Served { world with registry := registry } := by
  constructor
  · exact holds
  · intro call member
    obtain ⟨more, longer⟩ := made
    rw [longer, List.length_append]
    exact (served.known call member).trans_le (Nat.le_add_right _ _)
  · intro name
    rw [counts name]
    exact served.counted name

theorem Served.withModel {name : Nat} (served : Served world)
    (model : ModelLifecycle Nat) (made : name < world.registry.made.length)
    (evicted : model.evicted = (world.registry.fleet name).evicted)
    (pending : model.unloadPending = true → 0 < model.inFlight)
    (away : name ∉ world.registry.models → Occupied model → model.unloadPending = true)
    (count : model.inFlight = (world.registry.fleet name).inFlight) :
    Served (world.withModel name model) := by
  constructor
  · exact served.holds.update made evicted pending away
  · exact served.known
  · intro other
    refine Eq.trans ?_ (served.counted other)
    change (Function.update world.registry.fleet name model other).inFlight = _
    by_cases same : other = name
    · rw [same, Function.update_self]
      exact count
    · rw [Function.update_of_ne same]

theorem known_of_there {index : Nat} {call : ModelCall} (served : Served world)
    (there : world.calls[index]? = some call) :
    call.model < world.registry.made.length :=
  served.known call (List.mem_of_getElem? there)

theorem busy_of_holding {index name : Nat} {phase : Phase} (served : Served world)
    (there : world.calls[index]? = some ⟨name, .holding phase⟩) :
    0 < (world.registry.fleet name).inFlight := by
  rw [served.counted name]
  apply List.countP_pos_iff.mpr
  exact ⟨_, List.mem_of_getElem? there, (holds_iff).mpr ⟨rfl, phase, rfl⟩⟩

theorem admits_cases {model : ModelLifecycle Nat} (admits : model.admits 0 = true) :
    0 < model.inFlight ∨ (model.evicted = false ∧ model.blockers = []) := by
  unfold ModelLifecycle.admits at admits
  rcases Bool.or_eq_true_iff.mp admits with busy | idle
  · exact .inl (of_decide_eq_true busy)
  · right
    simpa using idle

theorem leave_evicted (model : ModelLifecycle Nat) (now : ℚ) :
    (model.leave now).evicted = model.evicted ∧ (model.leave now).blockers = model.blockers ∧
      (model.leave now).inFlight = model.inFlight - 1 := by
  rcases model.leave_cases now with ⟨last, _pending, left⟩ | ⟨_staying, left⟩
  · rw [left]
    exact ⟨rfl, rfl, last.symm⟩
  · rw [left]
    exact ⟨rfl, rfl, rfl⟩

theorem leave_pending {model : ModelLifecycle Nat} {now : ℚ}
    (pending : (model.leave now).unloadPending = true) :
    model.unloadPending = true ∧ 0 < (model.leave now).inFlight := by
  rcases model.leave_cases now with ⟨_last, _pending, left⟩ | ⟨staying, left⟩
  · rw [left] at pending
    cases pending
  · rw [left] at pending ⊢
    refine ⟨pending, ?_⟩
    change 0 < model.inFlight - 1
    by_contra last
    have quiet := staying (Nat.eq_zero_of_not_pos last)
    rw [show model.unloadPending = true from pending] at quiet
    cases quiet

theorem leave_occupied {model : ModelLifecycle Nat} {now : ℚ}
    (pending : model.unloadPending = true)
    (occupied : Occupied (model.leave now)) :
    (model.leave now).unloadPending = true := by
  rcases model.leave_cases now with ⟨_last, _pending, left⟩ | ⟨_staying, left⟩
  · rw [left] at occupied
    rcases occupied with busy | loaded
    · cases busy
    · cases loaded
  · rw [left]
    exact pending

theorem Served.kept {action : Action} (served : Served world)
    (taken : step world action = some next) : Served next := by
  have holds := served.holds
  cases step_cases taken with
  | get key =>
    exact served.same_counts (holds.get key).1 (ModelRegistry.get_made key)
      fun name => ModelRegistry.get_inFlight (holds.fresh _ (le_refl _))
  | evict key =>
    exact served.same_counts (holds.evict key).1
      ⟨[], by rw [ModelRegistry.evict_made, List.append_nil]⟩
      fun name => ModelRegistry.evict_inFlight
  | call name made =>
    constructor
    · exact holds
    · intro call member
      rcases List.mem_append.mp member with old | new
      · exact served.known call old
      · rw [List.mem_singleton.mp new]
        exact made
    · intro other
      have none_more : List.countP (ModelCall.holds other)
          ([⟨name, .arriving⟩] : List ModelCall) = 0 := by
        apply List.countP_eq_zero.mpr
        intro call new held
        rw [List.mem_singleton.mp new] at held
        obtain ⟨_same, phase, stage⟩ := (holds_iff).mp held
        cases stage
      change _ = (world.calls ++ [(⟨name, .arriving⟩ : ModelCall)]).countP _
      rw [List.countP_append, none_more, Nat.add_zero]
      exact served.counted other
  | enter index name there admits =>
    have made : name < world.registry.made.length :=
      known_of_there served there
    have entered : ∀ other, Function.update world.registry.fleet name
        ((world.registry.fleet name).enter 0) other =
        if other = name then (world.registry.fleet name).enter 0
        else world.registry.fleet other :=
      fun other => Function.update_apply _ _ _ _
    constructor
    · refine holds.update made ?_ ?_ ?_
      · rfl
      · intro _pending
        exact Nat.succ_pos _
      · intro absent _occupied
        rcases admits_cases admits with busy | ⟨present, _free⟩
        · exact holds.away name absent (.inl busy)
        · have gone := (holds.evicted name made).mpr absent
          rw [gone] at present
          cases present
    · intro call member
      rcases Entries.mem_modify member with old | ⟨old, inside, rfl⟩
      · exact served.known call old
      · exact served.known old inside
    · intro other
      have counted := Entries.countP_modify (ModelCall.holds other)
        (fun call : ModelCall => { call with stage := .holding .admitted })
        there
      have before := served.counted other
      change (Function.update world.registry.fleet name _ other).inFlight =
        (world.calls.modify index _).countP _
      rw [entered]
      have arriving : ModelCall.holds other ⟨name, .arriving⟩ = false := by
        simp [ModelCall.holds]
      rw [arriving] at counted
      by_cases same : other = name
      · have held : ModelCall.holds other ⟨name, .holding .admitted⟩ =
            true := (holds_iff).mpr ⟨same.symm, _, rfl⟩
        rw [if_pos same]
        rw [held, if_pos rfl] at counted
        rw [same] at before counted ⊢
        change (world.registry.fleet name).inFlight + 1 = _
        rw [before]
        exact counted.symm
      · have held : ModelCall.holds other ⟨name, .holding .admitted⟩ = false := by
          rw [← Bool.not_eq_true]
          intro holding
          exact same ((holds_iff).mp holding).1.symm
        rw [if_neg same]
        rw [held] at counted
        rw [before]
        exact counted.symm
  | pause action index call stage there outside =>
    apply served.setStage there
    intro name
    rw [Bool.eq_iff_iff, holds_iff, holds_iff]
    constructor
    · rintro ⟨_same, phase, holding⟩
      exact ((outside phase).2 holding).elim
    · rintro ⟨_same, phase, holding⟩
      exact ((outside phase).1 holding).elim
  | readmitModel index name there =>
    have made : name < world.registry.made.length :=
      known_of_there served there
    have readmitted : Served { world with
        registry := world.registry.readmitModel name } :=
      served.same_counts (holds.readmitModel made).1
        ⟨[], by rw [ModelRegistry.readmitModel_made, List.append_nil]⟩
        fun other => ModelRegistry.readmitModel_inFlight
    refine @Served.setStage _ index ⟨name, .readmitting⟩ .arriving readmitted there ?_
    intro other
    simp [ModelCall.holds]
  | drop index name blockers there =>
    have made : name < world.registry.made.length :=
      known_of_there served there
    have dropped : Served (world.withModel name
        ((world.registry.fleet name).waited blockers)) :=
      served.withModel ((world.registry.fleet name).waited blockers) made rfl
        (holds.pending name) (holds.away name) rfl
    refine @Served.setStage _ index ⟨name, .waiting blockers []⟩ .arriving dropped there ?_
    intro other
    simp [ModelCall.holds]
  | go action index name old phase there =>
    apply served.setStage there
    intro other
    simp [ModelCall.holds]
  | built index name there =>
    have made : name < world.registry.made.length :=
      known_of_there served there
    have busy := busy_of_holding served there
    have done : Served (world.withModel name (world.registry.fleet name).built) := by
      refine served.withModel (world.registry.fleet name).built made rfl
        (holds.pending name) ?_ rfl
      intro absent _occupied
      exact holds.away name absent (.inl busy)
    refine @Served.setStage _ index ⟨name, .holding .building⟩ _ done there ?_
    intro other
    simp [ModelCall.holds]
  | leave index name phase there =>
    have made : name < world.registry.made.length :=
      known_of_there served there
    have busy := busy_of_holding served there
    obtain ⟨evicted, blockers, in_flight⟩ :=
      leave_evicted (world.registry.fleet name) 0
    constructor
    · refine holds.update made evicted ?_ ?_
      · intro pending
        exact (leave_pending pending).2
      · intro absent occupied
        exact leave_occupied (holds.away name absent (.inl busy)) occupied
    · intro call member
      exact served.known call (List.mem_of_mem_eraseIdx member)
    · intro other
      have counted := Entries.countP_eraseIdx (ModelCall.holds other) there
      have before := served.counted other
      change (Function.update world.registry.fleet name _ other).inFlight =
        (world.calls.eraseIdx index).countP _
      by_cases same : other = name
      · have held : ModelCall.holds other ⟨name, .holding phase⟩ = true :=
          (holds_iff).mpr ⟨same.symm, phase, rfl⟩
        rw [held, if_pos rfl] at counted
        rw [same] at before counted ⊢
        rw [Function.update_self, in_flight]
        omega
      · have held : ModelCall.holds other ⟨name, .holding phase⟩ = false := by
          rw [← Bool.not_eq_true]
          intro holding
          exact same ((holds_iff).mp holding).1.symm
        rw [held] at counted
        rw [Function.update_of_ne same, before]
        exact counted.symm

end

def Stage.snapshot : Stage → List Nat
  | .waiting blockers _ => blockers
  | _ => []

/-- No model is evicted while it waits for another one, none is evicted by its
key while calls use it, and no call forgets a blocker that is in use again. -/
def Orderly (world : World) : Action → Prop
  | .get key => ∀ old ∈ world.registry.displaced key
      world.registry.made.length, ¬ world.registry.Waits old
  | .readmitModel index => ∀ call ∈ world.calls[index]?,
      ∀ old ∈ world.registry.displaced
        (world.registry.made.getD call.model "") call.model, ¬ world.registry.Waits old
  | .evict key => ∀ old ∈ world.registry.lookup key,
      (world.registry.fleet old).inFlight = 0 ∧ ¬ world.registry.Waits old
  | .drop index => ∀ call ∈ world.calls[index]?,
      ∀ blocker ∈ call.stage.snapshot, (world.registry.fleet blocker).unloadPending = false
  | _ => True

instance (registry : ModelRegistry) (name : Nat) :
    Decidable (registry.Waits name) :=
  inferInstanceAs (Decidable (∃ blocker ∈ (registry.fleet name).blockers,
    (registry.fleet blocker).unloadPending = true))

instance (world : World) (action : Action) :
    Decidable (Orderly world action) := by
  cases action with
  | get key => exact inferInstanceAs (Decidable (∀ old ∈ _, _))
  | readmitModel index => exact inferInstanceAs (Decidable (∀ call ∈ _, ∀ old ∈ _, _))
  | evict key => exact inferInstanceAs (Decidable (∀ old ∈ _, _))
  | drop index => exact inferInstanceAs (Decidable (∀ call ∈ _, ∀ blocker ∈ _, _))
  | call name => exact .isTrue trivial
  | check index => exact .isTrue trivial
  | wake index => exact .isTrue trivial
  | acquire index => exact .isTrue trivial
  | finishBuild index success => exact .isTrue trivial
  | leave index => exact .isTrue trivial

section

variable {world next : World}

theorem Served.placed {action : Action} {place : Nat → Nat}
    (served : Served world) (placed : world.registry.Placed place)
    (orderly : Orderly world action) (taken : step world action = some next) :
    ∃ after, next.registry.Placed after := by
  have holds := served.holds
  cases step_cases taken with
  | get key => exact (holds.get key).2 place placed orderly
  | evict key => exact ⟨place, (holds.evict key).2 place placed orderly⟩
  | call name made => exact ⟨place, placed⟩
  | enter index name there admits =>
    refine ⟨place, placed.update (fun pending => pending) ?_⟩
    intro other waits same
    obtain ⟨_inside, blocker, free⟩ := placed.charged other waits
    rw [same] at blocker free
    refine ⟨blocker, fun _occupied => ?_⟩
    rcases admits_cases admits with busy | ⟨_present, none_waits⟩
    · exact free (.inl busy)
    · rw [none_waits] at blocker
      cases blocker
  | pause action index call stage there outside => exact ⟨place, placed⟩
  | readmitModel index name there =>
    have made : name < world.registry.made.length :=
      known_of_there served there
    exact (holds.readmitModel made).2 place placed (orderly _ there)
  | drop index name blockers there =>
    refine ⟨place, placed.update (fun pending => pending) ?_⟩
    intro other waits same
    obtain ⟨_inside, blocker, free⟩ := placed.charged other waits
    rw [same] at blocker free
    refine ⟨List.mem_filter.mpr ⟨blocker, decide_eq_true ?_⟩, free⟩
    intro forgotten
    have ended := orderly _ there other forgotten
    rw [waits] at ended
    cases ended
  | go action index name old phase there => exact ⟨place, placed⟩
  | built index name there =>
    have busy := busy_of_holding served there
    refine ⟨place, placed.update (fun pending => pending) ?_⟩
    intro other waits same
    obtain ⟨_inside, blocker, free⟩ := placed.charged other waits
    rw [same] at blocker free
    exact ⟨blocker, fun _occupied => free (.inl busy)⟩
  | leave index name phase there =>
    have busy := busy_of_holding served there
    refine ⟨place, placed.update (fun pending => (leave_pending pending).1) ?_⟩
    intro other waits same
    obtain ⟨_inside, blocker, free⟩ := placed.charged other waits
    rw [same] at blocker free
    rw [(leave_evicted (world.registry.fleet name) 0).2.1]
    exact ⟨blocker, leave_occupied (free (.inl busy))⟩

end

theorem maxModels_kept {world next : World} {action : Action}
    (taken : step world action = some next) :
    next.registry.maxModels = world.registry.maxModels := by
  cases step_cases taken with
  | get key => exact ModelRegistry.get_maxModels
  | evict key => exact ModelRegistry.evict_maxModels
  | call name made => rfl
  | enter index name there admits => rfl
  | pause action index call stage there outside => rfl
  | readmitModel index name there => exact ModelRegistry.readmitModel_maxModels
  | drop index name blockers there => rfl
  | go action index name old phase there => rfl
  | built index name there => rfl
  | leave index name phase there => rfl

theorem Served.initial {maxModels : Nat} (positive : 0 < maxModels) :
    Served (World.initial maxModels positive) where
  holds := ModelRegistry.Holds.new positive
  known _ member := by cases member
  counted _ := rfl

end TempestSdk.Genai
