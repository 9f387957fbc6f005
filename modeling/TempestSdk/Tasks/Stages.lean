import Mathlib.Data.List.Nodup
import Mathlib.Logic.Function.Basic

/-!
# Stages on a record

`StageMap`: the columns of every stage of a record, and the transitions that
write them.  Columns are read and written by name on the record itself.
-/

namespace TempestSdk.Stages

inductive StageStatusEnum where
  | PENDING
  | RUNNING
  | DONE
  | FAILED
  | CANCELLED
deriving DecidableEq

def StageStatusEnum.value : StageStatusEnum → String
  | .PENDING => "pending"
  | .RUNNING => "running"
  | .DONE => "done"
  | .FAILED => "failed"
  | .CANCELLED => "cancelled"

/-- `StageStatusEnum(raw)`. -/
def StageStatusEnum.parse (raw : String) : Option StageStatusEnum :=
  [.PENDING, .RUNNING, .DONE, .FAILED, .CANCELLED].find? fun status =>
    status.value = raw

def runningStageStatuses : List StageStatusEnum := [.PENDING, .RUNNING]

inductive Cell (Result : Type) where
  | null
  | text (text : String)
  | result (value : Result)
deriving DecidableEq

/-- A record by the names of its attributes; one that is absent reads as
null. -/
abbrev Record (Result : Type) := String → Cell Result

structure StageColumns where
  name : String
  status : String
  error : String
  result : String

inductive StageError where
  | noStages
  | duplicateStages
  | clashingColumns
  | unknownStage (stage : String) (declared : List String)
  | invalidStatus (raw : String)
  | errorWithoutFailed (status : StageStatusEnum)
deriving DecidableEq

def StageColumns.resolved (columns : StageColumns) : List String :=
  [columns.status, columns.error, columns.result]

structure StageMap where
  declared : List StageColumns
  filled : declared ≠ []
  names_distinct : (declared.map StageColumns.name).Nodup
  columns_distinct : (declared.flatMap StageColumns.resolved).Nodup

namespace StageMap

/-- `StageMap(stages)`, where a template gives the column of a stage, with the
prefix. -/
def init (stages : List String)
    (status_template error_template result_template : String → String) :
    Except StageError StageMap :=
  let declared := stages.map fun stage => {
    name := stage
    status := status_template stage
    error := error_template stage
    result := result_template stage }
  if filled : declared = [] then .error .noStages
  else if names : (declared.map StageColumns.name).Nodup then
    if columns : (declared.flatMap StageColumns.resolved).Nodup then
      .ok ⟨declared, filled, names, columns⟩
    else .error .clashingColumns
  else .error .duplicateStages

variable (stages : StageMap) {Result : Type}

def names : List String := stages.declared.map StageColumns.name

def columns (stage : String) : Except StageError StageColumns :=
  match stages.declared.find? fun columns => columns.name = stage with
  | some columns => .ok columns
  | none => .error (.unknownStage stage stages.names)

def status (record : Record Result) (stage : String) :
    Except StageError (Option StageStatusEnum) :=
  match stages.columns stage with
  | .error error => .error error
  | .ok columns =>
    match record columns.status with
    | .text raw =>
      match StageStatusEnum.parse raw with
      | some status => .ok (some status)
      | none => .error (.invalidStatus raw)
    | .null => .ok none
    | .result _ => .error (.invalidStatus "")

def is_running (record : Record Result) (stage : String) : Except StageError Bool :=
  (stages.status record stage).map fun status =>
    status.any fun status => status ∈ runningStageStatuses

def owns (record : Record Result) (stage : String)
    (expected : StageStatusEnum) : Except StageError Bool :=
  (stages.status record stage).map fun status => status = some expected

def mark (record : Record Result) (stage : String) (status : StageStatusEnum)
    (error : Option String) (result : Option Result) :
    Except StageError (Record Result) :=
  if error.isSome ∧ status ≠ .FAILED then .error (.errorWithoutFailed status)
  else
    match stages.columns stage with
    | .error error => .error error
    | .ok columns =>
      let marked := Function.update record columns.status (.text status.value)
      let cleared := Function.update marked columns.error
        (if status = .FAILED then error.elim .null .text else .null)
      .ok (match result with
        | none => cleared
        | some result => Function.update cleared columns.result
            (.result result))

/-- The loop of `cancel`, which leaves the record as far as it came. -/
def cancelEach (record : Record Result) (cancelled ignored : List String) :
    List String → Record Result × Except StageError (List String × List String)
  | [] => (record, .ok (cancelled, ignored))
  | stage :: rest =>
    match stages.is_running record stage with
    | .error error => (record, .error error)
    | .ok false => cancelEach record cancelled (ignored ++ [stage]) rest
    | .ok true =>
      match stages.mark record stage .CANCELLED none none with
      | .error error => (record, .error error)
      | .ok marked => cancelEach marked (cancelled ++ [stage]) ignored rest

def cancel (record : Record Result) (requested : Option (List String)) :
    Record Result × Except StageError (List String × List String) :=
  stages.cancelEach record [] [] (requested.getD stages.names).eraseDups

def snapshot (record : Record Result) :
    List (String × Except StageError (Option StageStatusEnum)) :=
  stages.names.map fun stage => (stage, stages.status record stage)

variable {stages} {record marked : Record Result}

end StageMap

end TempestSdk.Stages
