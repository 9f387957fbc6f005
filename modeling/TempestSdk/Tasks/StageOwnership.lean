import TempestSdk.Library.Runs
import TempestSdk.Tasks.Stages

/-!
# Runs of one stage

Any number of runs of a stage on one record: a run marks the stage as running,
works, reads the record again to see whether it still owns the stage, and, when
it does, marks it as done or failed.  Other requests ask for the stage again or
cancel it at any time.
-/

namespace TempestSdk.Stages

variable {Result : Type}

inductive RunPhase where
  | working
  | owning
  | ended
deriving DecidableEq

inductive Outcome (Result : Type) where
  | done (result : Option Result)
  | failed (error : Option String)
deriving DecidableEq

def Outcome.status : Outcome Result → StageStatusEnum
  | .done _ => .DONE
  | .failed _ => .FAILED

def Outcome.error : Outcome Result → Option String
  | .done _ => none
  | .failed error => error

def Outcome.result : Outcome Result → Option Result
  | .done result => result
  | .failed _ => none

structure Pipeline (Result : Type) where
  record : Record Result
  runs : List RunPhase
  /-- The runs that wrote a terminal status, each with how many had started. -/
  writes : List (Nat × Nat)

inductive Action (Result : Type) where
  | request
  | start
  | cancel (requested : Option (List String))
  | check (run : Nat)
  | finish (run : Nat) (outcome : Outcome Result)

def Action.run : Action Result → Option Nat
  | .check run | .finish run _ => some run
  | _ => none

namespace Pipeline

def initial (record : Record Result) : Pipeline Result := ⟨record, [], []⟩

variable (stages : StageMap) (stage : String)

def step (pipeline : Pipeline Result) : Action Result → Option (Pipeline Result)
  | .request =>
    (stages.mark pipeline.record stage .PENDING none none).toOption.map
      fun record => { pipeline with record }
  | .start =>
    (stages.mark pipeline.record stage .RUNNING none none).toOption.map
      fun record => { pipeline with
        record, runs := pipeline.runs ++ [.working] }
  | .cancel requested =>
    some { pipeline with
      record := (stages.cancel pipeline.record requested).1 }
  | .check run =>
    if pipeline.runs[run]? = some .working then
      (stages.owns pipeline.record stage .RUNNING).toOption.map fun owns =>
        { pipeline with
          runs := pipeline.runs.set run (if owns then .owning else .ended) }
    else none
  | .finish run outcome =>
    if pipeline.runs[run]? = some .owning then
      (stages.mark pipeline.record stage outcome.status outcome.error
          outcome.result).toOption.map fun record =>
        { record
          runs := pipeline.runs.set run .ended
          writes := (run, pipeline.runs.length) :: pipeline.writes }
    else none

/-- A run that is not the last one looks at the stage only while no run has it
running, and no run starts while another one is about to write. -/
def Undisputed (pipeline : Pipeline Result) : Action Result → Prop
  | .check run => pipeline.runs[run]? = some .working →
      run + 1 < pipeline.runs.length → stages.owns pipeline.record stage .RUNNING ≠ .ok true
  | .start => RunPhase.owning ∈ pipeline.runs →
      ∀ record, stages.mark pipeline.record stage .RUNNING none none ≠ .ok record
  | _ => True

/-- Only the last run finds itself the owner and writes. -/
structure Ruled (pipeline : Pipeline Result) : Prop where
  owner : ∀ run, pipeline.runs[run]? = some .owning → run + 1 = pipeline.runs.length
  writes : ∀ write ∈ pipeline.writes, write.1 + 1 = write.2
  superseded : ∀ action run next, action.run = some run → run + 1 < pipeline.runs.length →
      step stages stage pipeline action = some next → next.record = pipeline.record

variable {stages stage} {pipeline next : Pipeline Result}

theorem still_of_owner (owner : ∀ run, pipeline.runs[run]? = some .owning →
      run + 1 = pipeline.runs.length) (action : Action Result) (run : Nat)
    (next : Pipeline Result) (acts : action.run = some run)
    (older : run + 1 < pipeline.runs.length)
    (stepped : step stages stage pipeline action = some next) :
    next.record = pipeline.record := by
  cases action with
  | request => cases acts
  | start => cases acts
  | cancel requested => cases acts
  | check checking =>
    unfold step at stepped
    dsimp only at stepped
    split at stepped
    next =>
      obtain ⟨owns, -, rfl⟩ := Option.map_eq_some_iff.mp stepped
      rfl
    next => cases stepped
  | finish finishing outcome =>
    cases acts
    unfold step at stepped
    dsimp only at stepped
    split at stepped
    next owning =>
      have latest := owner run owning
      omega
    next => cases stepped

theorem ruled_iff : pipeline.Ruled stages stage ↔
      (∀ run, pipeline.runs[run]? = some .owning → run + 1 = pipeline.runs.length) ∧
      ∀ write ∈ pipeline.writes, write.1 + 1 = write.2 :=
  ⟨fun ruled => ⟨ruled.owner, ruled.writes⟩,
    fun ⟨owner, writes⟩ => ⟨owner, writes, still_of_owner owner⟩⟩

section

variable (ruled : pipeline.Ruled stages stage)

include ruled

theorem ruled_of_same (runs : next.runs = pipeline.runs)
    (writes : next.writes = pipeline.writes) : next.Ruled stages stage := by
  rw [ruled_iff, runs, writes]
  exact (ruled_iff).mp ruled

theorem start_iff (stepped : step stages stage pipeline .start = some next) :
    pipeline.Undisputed stages stage .start ↔ next.Ruled stages stage := by
  obtain ⟨record, marked, rfl⟩ := Option.map_eq_some_iff.mp stepped
  have marks : stages.mark pipeline.record stage .RUNNING none none = .ok record := by
    cases result : stages.mark pipeline.record stage .RUNNING none none with
    | error error =>
      rw [result] at marked
      cases marked
    | ok other =>
      rw [result] at marked
      cases marked
      rfl
  constructor
  · intro undisputed
    have idle : RunPhase.owning ∉ pipeline.runs :=
      fun owning => undisputed owning record marks
    refine (ruled_iff).mpr ⟨?_, ruled.writes⟩
    intro run owning
    rcases List.mem_append.mp (List.mem_of_getElem? owning) with old | new
    · exact absurd old idle
    · cases List.mem_singleton.mp new
  · intro after owning
    obtain ⟨run, inside, phase⟩ := List.getElem_of_mem owning
    have found : pipeline.runs[run]? = some .owning := by
      rw [List.getElem?_eq_getElem inside, phase]
    have before := ruled.owner run found
    have now := after.owner run (by
      rw [List.getElem?_append_left inside]
      exact found)
    rw [List.length_append, List.length_singleton] at now
    omega

theorem check_iff {run : Nat} (stepped : step stages stage pipeline (.check run) = some next) :
    pipeline.Undisputed stages stage (.check run) ↔ next.Ruled stages stage := by
  unfold step at stepped
  dsimp only at stepped
  split at stepped
  next working =>
    obtain ⟨owns, answered, rfl⟩ := Option.map_eq_some_iff.mp stepped
    have inside : run < pipeline.runs.length :=
      (List.getElem?_eq_some_iff.mp working).1
    have answer : stages.owns pipeline.record stage .RUNNING = .ok owns := by
      cases result : stages.owns pipeline.record stage .RUNNING with
      | error error =>
        rw [result] at answered
        cases answered
      | ok other =>
        rw [result] at answered
        cases answered
        rfl
    constructor
    · intro undisputed
      refine (ruled_iff).mpr ⟨?_, ruled.writes⟩
      intro other owning
      rw [List.length_set]
      rw [List.getElem?_set] at owning
      split at owning
      next same =>
        subst same
        cases owns with
        | false => cases owning
        | true =>
          have last := mt (undisputed working) (not_not_intro answer)
          omega
      next => exact ruled.owner other owning
    · intro after _ older owned
      rw [answer] at owned
      cases owned
      have latest := after.owner run (by
        rw [List.getElem?_set_self inside]
        rfl)
      rw [List.length_set] at latest
      omega
  next => cases stepped

theorem step_iff {action : Action Result}
    (stepped : step stages stage pipeline action = some next) :
    pipeline.Undisputed stages stage action ↔ next.Ruled stages stage := by
  cases action with
  | request =>
    obtain ⟨record, -, rfl⟩ := Option.map_eq_some_iff.mp stepped
    exact iff_of_true trivial (ruled_of_same ruled rfl rfl)
  | start => exact start_iff ruled stepped
  | cancel requested =>
    cases stepped
    exact iff_of_true trivial (ruled_of_same ruled rfl rfl)
  | check run => exact check_iff ruled stepped
  | finish run outcome =>
    unfold step at stepped
    dsimp only at stepped
    split at stepped
    next owning =>
      obtain ⟨record, -, rfl⟩ := Option.map_eq_some_iff.mp stepped
      have latest := ruled.owner run owning
      refine iff_of_true trivial ((ruled_iff).mpr ⟨?_, ?_⟩)
      · intro other found
        rw [List.length_set]
        rw [List.getElem?_set] at found
        split at found
        next same =>
          split at found
          next => cases found
          next => cases found
        next => exact ruled.owner other found
      · intro write member
        rcases List.mem_cons.mp member with rfl | earlier
        · exact latest
        · exact ruled.writes write earlier
    next => cases stepped

end

theorem undisputed_of_disabled {action : Action Result}
    (disabled : step stages stage pipeline action = none) :
    pipeline.Undisputed stages stage action := by
  cases action with
  | request => trivial
  | start =>
    intro _ record marked
    unfold step at disabled
    rw [marked] at disabled
    cases disabled
  | cancel requested => trivial
  | check run =>
    intro working _ owned
    unfold step at disabled
    dsimp only at disabled
    rw [if_pos working, owned] at disabled
    cases disabled
  | finish run outcome => trivial

end Pipeline

open Pipeline

/-- Only the most recently started run writes, in every state of a schedule,
exactly when no step of it is disputed. -/
theorem stage_ownership_iff (stages : StageMap) (stage : String)
    (record : Record Result) (schedule : List (Action Result)) :
    Runs.Meets (step stages stage) (Undisputed stages stage) (initial record) schedule ↔
      ∀ front, front <+: schedule → ∀ reached,
        Runs.exec (step stages stage) (initial record) front = some reached →
          reached.Ruled stages stage := by
  have start : (initial record).Ruled stages stage := by
    refine (ruled_iff).mpr ⟨?_, ?_⟩
    · intro run owning
      cases owning
    · intro write member
      cases member
  exact Runs.meets_iff_reached (fun _ _ _ ruled stepped =>
    step_iff ruled stepped) (fun _ _ disabled =>
      undisputed_of_disabled disabled) start

def summaries : StageMap where
  declared := [⟨"summary", "status_summary", "error_summary", "result_summary"⟩]
  filled := List.cons_ne_nil _ _
  names_distinct := by decide
  columns_distinct := by decide

def restarted : List (Action Nat) :=
  [.start, .start, .check 0, .finish 0 (.done (some 1))]

theorem superseded_run_writes : ∃ final, Runs.exec (step summaries "summary")
        (initial fun _ => .null) restarted = some final ∧
      (0, 2) ∈ final.writes ∧ final.record "result_summary" = .result 1 ∧
      final.runs = [.ended, .working] :=
  ⟨_, rfl, .head _, rfl, rfl⟩

end TempestSdk.Stages
