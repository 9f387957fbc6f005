import TempestSdk.Genai.RegistryRuns

/-!
# Progress of the calls on a registry

Some call can always be brought to its end, however the calls wait for each
other: a call waits for calls of another model only before it is counted, and
the calls that are counted wait for nothing but a build.
-/

namespace TempestSdk.Genai

open Lifecycle (ModelLifecycle Phase)

def Action.own : Action → Bool
  | .get _ => false
  | .evict _ => false
  | .call _ => false
  | _ => true

def Finishes (world : World) : Prop :=
  ∃ schedule final, (∀ action ∈ schedule, action.own = true) ∧
    Runs.exec step world schedule = some final ∧
    final.calls.length + 1 = world.calls.length

section

variable {world next : World}

theorem Finishes.before {action : Action} (own : action.own = true)
    (taken : step world action = some next)
    (same : next.calls.length = world.calls.length) (finishes : Finishes next) :
    Finishes world := by
  obtain ⟨schedule, final, all, run, shorter⟩ := finishes
  refine ⟨action :: schedule, final, ?_, ?_, ?_⟩
  · intro other member
    rcases List.mem_cons.mp member with rfl | later
    · exact own
    · exact all other later
  · exact Runs.exec_cons.mpr ⟨next, taken, run⟩
  · exact shorter.trans same

theorem setStage_length (index : Nat) (stage : Stage) :
    (world.setStage index stage).calls.length = world.calls.length :=
  List.length_modify _ _ _

theorem setStage_there {index : Nat} {call : ModelCall} (stage : Stage)
    (there : world.calls[index]? = some call) :
    (world.setStage index stage).calls[index]? = some { call with stage := stage } := by
  change (world.calls.modify index _)[index]? = _
  rw [List.getElem?_modify, there]
  simp

theorem step_own {action : Action} {index : Nat} {call : ModelCall}
    (there : world.calls[index]? = some call)
    (own : step world action =
      world.calls[index]?.bind fun call => callStep world index call action) :
    step world action = callStep world index call action := by
  rw [own, there]
  rfl

variable {index name : Nat}

theorem finishes_over {phase : Phase}
    (there : world.calls[index]? = some ⟨name, .holding phase⟩)
    (ended : phase = .inside ∨ phase = .failed) : Finishes world := by
  have taken : step world (.leave index) =
      some { world.withModel name ((world.registry.fleet name).leave 0) with
        calls := world.calls.eraseIdx index } := by
    rw [step_own there rfl]
    rcases ended with rfl | rfl
    · rfl
    · rfl
  obtain ⟨inside, _entry⟩ := List.getElem?_eq_some_iff.mp there
  refine ⟨[.leave index], _, ?_, Runs.exec_cons.mpr ⟨_, taken, rfl⟩, ?_⟩
  · intro action member
    rw [List.mem_singleton.mp member]
    rfl
  · change (world.calls.eraseIdx index).length + 1 = world.calls.length
    rw [List.length_eraseIdx_of_lt inside]
    omega

theorem finishes_building (there : world.calls[index]? = some ⟨name, .holding .building⟩) :
    Finishes world := by
  have taken : step world (.finishBuild index false) =
      some (world.setStage index (.holding .failed)) := by
    rw [step_own there rfl]
    rfl
  apply Finishes.before rfl taken (setStage_length _ _)
  exact finishes_over (setStage_there _ there) (.inr rfl)

theorem finishes_holding {phase : Phase}
    (there : world.calls[index]? = some ⟨name, .holding phase⟩) :
    Finishes world := by
  cases phase with
  | inside => exact finishes_over there (.inl rfl)
  | failed => exact finishes_over there (.inr rfl)
  | building => exact finishes_building there
  | admitted =>
    cases builds : world.building name with
    | true =>
      obtain ⟨call, member, same⟩ := List.any_eq_true.mp builds
      obtain ⟨other, found⟩ := List.mem_iff_getElem?.mp member
      rw [eq_of_beq same] at found
      exact finishes_building found
    | false =>
      have taken : step world (.acquire index) = if (world.registry.fleet name).loaded then
            some (world.setStage index (.holding .inside))
          else some (world.setStage index (.holding .building)) := by
        rw [step_own there rfl]
        simp [callStep, builds]
      cases loaded : (world.registry.fleet name).loaded with
      | true =>
        rw [if_pos loaded] at taken
        apply Finishes.before rfl taken (setStage_length _ _)
        exact finishes_over (setStage_there _ there) (.inl rfl)
      | false =>
        rw [if_neg (by simp [loaded])] at taken
        apply Finishes.before rfl taken (setStage_length _ _)
        exact finishes_building (setStage_there _ there)

def Quiet (world : World) : Prop :=
  ∀ name, (world.registry.fleet name).unloadPending = false

theorem finishes_admitted (there : world.calls[index]? = some ⟨name, .arriving⟩)
    (admits : (world.registry.fleet name).admits 0 = true) :
    Finishes world := by
  have taken : step world (.check index) =
      some ((world.withModel name ((world.registry.fleet name).enter 0)).setStage
        index (.holding .admitted)) := by
    rw [step_own there rfl]
    simp [callStep, admits]
  apply Finishes.before rfl taken
  · exact @setStage_length (world.withModel name _) index (.holding .admitted)
  · exact finishes_holding (@setStage_there (world.withModel name
      ((world.registry.fleet name).enter 0)) index _ (.holding .admitted) there)

theorem setStage_twice {index : Nat} (one two : Stage) :
    (world.setStage index one).setStage index two = world.setStage index two := by
  unfold World.setStage
  congr 1
  dsimp only
  rw [List.modify_modify_eq]
  rfl

theorem finishes_waiting {blockers left : List Nat} (quiet : Quiet world)
    (there : world.calls[index]? = some ⟨name, .waiting blockers left⟩)
    (back : Finishes ((world.withModel name
      ((world.registry.fleet name).waited blockers)).setStage index
        .arriving)) : Finishes world := by
  induction left generalizing world with
  | nil =>
    have taken : step world (.drop index) = some ((world.withModel name
          ((world.registry.fleet name).waited blockers)).setStage index .arriving) := by
      rw [step_own there rfl]
      rfl
    apply Finishes.before rfl taken _ back
    exact @setStage_length (world.withModel name _) index .arriving
  | cons blocker left induction =>
    have taken : step world (.wake index) =
        some (world.setStage index (.waiting blockers left)) := by
      rw [step_own there rfl]
      simp [callStep, quiet blocker]
    apply Finishes.before rfl taken (setStage_length _ _)
    have later : Quiet (world.setStage index (.waiting blockers left)) := quiet
    apply induction later (setStage_there _ there)
    have same := @setStage_twice (world.withModel name
      ((world.registry.fleet name).waited blockers)) index (.waiting blockers left) .arriving
    rw [← same] at back
    exact back

theorem waited_self (model : ModelLifecycle Nat) :
    (model.waited model.blockers).blockers = [] := by
  apply List.filter_eq_nil_iff.mpr
  intro blocker member kept
  exact of_decide_eq_true kept member

theorem finishes_present (quiet : Quiet world)
    (there : world.calls[index]? = some ⟨name, .arriving⟩)
    (present : (world.registry.fleet name).evicted = false) :
    Finishes world := by
  cases admits : (world.registry.fleet name).admits 0 with
  | true => exact finishes_admitted there admits
  | false =>
    have taken : step world (.check index) = some (world.setStage index (.waiting
          (world.registry.fleet name).blockers
          (world.registry.fleet name).blockers)) := by
      rw [step_own there rfl]
      simp [callStep, admits, present]
    apply Finishes.before rfl taken (setStage_length _ _)
    have later : Quiet (world.setStage index (.waiting (world.registry.fleet name).blockers
      (world.registry.fleet name).blockers)) := quiet
    apply finishes_waiting later (setStage_there _ there)
    let cleared := ((world.setStage index (.waiting (world.registry.fleet name).blockers
      (world.registry.fleet name).blockers)).withModel name
        ((world.registry.fleet name).waited (world.registry.fleet name).blockers))
    have waiting := @setStage_there world index _ (.waiting (world.registry.fleet name).blockers
      (world.registry.fleet name).blockers) there
    have model : (cleared.setStage index .arriving).registry.fleet name =
        (world.registry.fleet name).waited (world.registry.fleet name).blockers :=
      Function.update_self _ _ _
    apply @finishes_admitted (cleared.setStage index .arriving) index name
    · exact @setStage_there cleared index _ .arriving waiting
    · rw [model]
      have none_left := waited_self (world.registry.fleet name)
      have still : ((world.registry.fleet name).waited
          (world.registry.fleet name).blockers).evicted = false := present
      simp [ModelLifecycle.admits, none_left, still]

section

variable (served : Served world)

include served

section

variable (idle : ∀ name, (world.registry.fleet name).inFlight = 0)

include idle

theorem quiet_of_idle : Quiet world := by
  intro name
  rw [← Bool.not_eq_true]
  intro pending
  have busy := served.holds.pending name pending
  rw [idle name] at busy
  cases busy

theorem finishes_readmitting (there : world.calls[index]? = some ⟨name, .readmitting⟩) :
    Finishes world := by
  have made : name < world.registry.made.length := known_of_there served there
  have taken : step world (.readmitModel index) =
      some ({ world with registry := world.registry.readmitModel name }.setStage index
        .arriving) := by
    rw [step_own there rfl]
    rfl
  have after := served.kept taken
  have later : Quiet ({ world with
      registry := world.registry.readmitModel name }.setStage index .arriving) := by
    apply quiet_of_idle after
    intro other
    exact ModelRegistry.readmitModel_inFlight.trans (idle other)
  apply Finishes.before rfl taken
  · exact @setStage_length { world with
      registry := world.registry.readmitModel name } index .arriving
  · apply finishes_present later
    · exact @setStage_there { world with
        registry := world.registry.readmitModel name } index _ .arriving there
    · have known : name < (world.registry.readmitModel name).made.length := by
        rw [ModelRegistry.readmitModel_made]
        exact made
      rw [← Bool.not_eq_true]
      intro gone
      exact (after.holds.evicted name known).mp gone (ModelRegistry.mem_readmitModel name)

theorem finishes_arriving (there : world.calls[index]? = some ⟨name, .arriving⟩) :
    Finishes world := by
  cases gone : (world.registry.fleet name).evicted with
  | false => exact finishes_present (quiet_of_idle served idle) there gone
  | true =>
    have admits : (world.registry.fleet name).admits 0 = false := by
      simp [ModelLifecycle.admits, gone, idle name]
    have taken : step world (.check index) = some (world.setStage index .readmitting) := by
      rw [step_own there rfl]
      simp [callStep, admits, gone]
    apply Finishes.before rfl taken (setStage_length _ _)
    exact finishes_readmitting (served.kept taken) idle (setStage_there _ there)

end

theorem Served.finishes (some_call : world.calls ≠ []) : Finishes world := by
  by_cases busy : ∃ name, 0 < (world.registry.fleet name).inFlight
  · obtain ⟨name, counted⟩ := busy
    rw [served.counted name] at counted
    obtain ⟨call, member, held⟩ := List.countP_pos_iff.mp counted
    obtain ⟨rfl, phase, holding⟩ := holds_iff.mp held
    obtain ⟨index, there⟩ := List.mem_iff_getElem?.mp member
    obtain ⟨model, stage⟩ := call
    subst holding
    exact finishes_holding there
  · have idle : ∀ name, (world.registry.fleet name).inFlight = 0 := by
      intro name
      by_contra some_count
      exact busy ⟨name, Nat.pos_of_ne_zero some_count⟩
    obtain ⟨⟨name, stage⟩, others, entries⟩ := List.exists_cons_of_ne_nil some_call
    have there : world.calls[0]? = some ⟨name, stage⟩ := by
      rw [entries]
      rfl
    cases stage with
    | arriving => exact finishes_arriving served idle there
    | readmitting => exact finishes_readmitting served idle there
    | holding phase => exact finishes_holding there
    | waiting blockers left =>
      have made : name < world.registry.made.length :=
        known_of_there served there
      have dropped : Served ((world.withModel name
          ((world.registry.fleet name).waited blockers)).setStage 0 .arriving) := by
        refine @Served.setStage _ 0 ⟨name, .waiting blockers left⟩ .arriving
          (served.withModel ((world.registry.fleet name).waited blockers)
            made rfl (served.holds.pending name) (served.holds.away name) rfl)
          there ?_
        intro other
        simp [ModelCall.holds]
      apply finishes_waiting (quiet_of_idle served idle) there
      apply finishes_arriving dropped
      · intro other
        change (Function.update world.registry.fleet name _ other).inFlight = 0
        by_cases same : other = name
        · rw [same, Function.update_self]
          exact idle name
        · rw [Function.update_of_ne same]
          exact idle other
      · exact @setStage_there (world.withModel name
          ((world.registry.fleet name).waited blockers)) 0 _ .arriving there

end

end

/-- In every run some call can be ended, and in an orderly one the registry
keeps its ceiling. -/
theorem ceiling_kept {maxModels : Nat} {positive : 0 < maxModels}
    {schedule : List Action} {final : World}
    (run : Runs.exec step (World.initial maxModels positive) schedule = some final) :
    (final.calls ≠ [] → Finishes final) ∧
    (Runs.Meets step Orderly (World.initial maxModels positive) schedule →
      final.registry.resident ≤ maxModels) := by
  have served : Served final := by
    apply Runs.exec_invariant _ (Served.initial positive) run
    intro world action next served taken
    exact served.kept taken
  have same : final.registry.maxModels = maxModels := by
    refine @Runs.exec_invariant _ _ _
      (fun world => world.registry.maxModels = maxModels) ?_ _ _ _ rfl run
    intro world action next before taken
    exact (maxModels_kept taken).trans before
  refine ⟨served.finishes, ?_⟩
  intro orderly
  have placed : Served final ∧ ∃ place, final.registry.Placed place := by
    refine @Runs.exec_invariant_of_meets _ _ step Orderly
      (fun world => Served world ∧ ∃ place, world.registry.Placed place) ?_ _ _
      _ orderly ⟨Served.initial positive, id, ModelRegistry.Placed.new positive⟩ run
    rintro world action next ⟨serves, place, placed⟩ orderly taken
    exact ⟨serves.kept taken, serves.placed placed orderly taken⟩
  obtain ⟨serves, place, placed⟩ := placed
  rw [← same]
  exact placed.resident_le serves.holds

/-- A model in use is evicted by its key, and nothing waits for it. -/
def evictedInUse : List Action :=
  [.get "a", .call 0, .check 0, .acquire 0, .finishBuild 0 true, .evict "a",
    .get "b", .call 1, .check 1, .acquire 1, .finishBuild 1 true]

theorem two_resident : ∃ final, Runs.exec step (World.initial 1 Nat.one_pos) evictedInUse =
      some final ∧ final.registry.resident = 2 := by
  have ends : (Runs.exec step (World.initial 1 Nat.one_pos) evictedInUse).map
      (fun world => world.registry.resident) = some 2 := by
    decide
  exact Option.map_eq_some_iff.mp ends

/-- The place of the model that waited is not handed on. -/
example : (Runs.exec step (World.initial 1 Nat.one_pos)
    [.get "a", .call 0, .check 0, .acquire 0, .finishBuild 0 true, .get "b",
      .get "c", .call 2, .check 1, .acquire 1, .finishBuild 1 true]).map
        (fun world => world.registry.resident) = some 2 := by
  decide

theorem ceiling_kept_in_turn : ∃ final, Runs.exec step (World.initial 1 Nat.one_pos)
        [.get "a", .call 0, .check 0, .acquire 0, .finishBuild 0 true,
          .get "b", .call 1, .check 1, .leave 0, .wake 0, .drop 0, .check 0,
          .acquire 0, .finishBuild 0 true] = some final ∧
      final.registry.resident ≤ 1 := by
  have ends : (Runs.exec step (World.initial 1 Nat.one_pos)
      [.get "a", .call 0, .check 0, .acquire 0, .finishBuild 0 true,
        .get "b", .call 1, .check 1, .leave 0, .wake 0, .drop 0, .check 0,
        .acquire 0, .finishBuild 0 true]).isSome = true := by
    decide
  obtain ⟨final, run⟩ := Option.isSome_iff_exists.mp ends
  exact ⟨final, run, (ceiling_kept run).2 (by decide)⟩

end TempestSdk.Genai
