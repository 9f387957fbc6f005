import Mathlib.Data.Char
import Mathlib.Data.List.Dedup
import Mathlib.Data.List.Lex
import Mathlib.Data.Rat.Defs
import TempestSdk.Agents.Artifacts
import TempestSdk.Library.PyDecimal

/-!
# Agent runs

`Agent.run` of agents that may be tools of each other.  A run is a frame with
the point of its loop; a run that a tool delegates to is a frame above the one
that waits for it.  One step reads the clock at most once.  The backend, the
moderator, the other tools, the clock and the time limits are events.
-/

namespace TempestSdk.Agents

attribute [local instance] lawfulText

open PyJson

/-- What the standard library gives to the texts of a run. -/
structure Texts (floats : FloatTexts) where
  /-- `str_strip_whitespace`. -/
  strip : Text → Text
  /-- `repr` of a text and `str` of a value. -/
  repr : Text → Text
  str : Json floats → Text
  /-- `_mask_secrets`. -/
  mask : Text → Text
  /-- The text of the `ValueError` of `json.loads`. -/
  jsonError : Text → Text

variable {floats : FloatTexts}

inductive StepKindEnum where
  | MODEL
  | TOOL
  | AGENT
deriving DecidableEq

inductive StopReasonEnum where
  | COMPLETED
  | MAX_STEPS
  | TIMEOUT
  | MAX_TOOL_CALLS
  | ERROR
  | BLOCKED
  | EMPTY_RESPONSE
deriving DecidableEq

def StopReasonEnum.value : StopReasonEnum → Text
  | .COMPLETED => "completed".toList
  | .MAX_STEPS => "max_steps".toList
  | .TIMEOUT => "timeout".toList
  | .MAX_TOOL_CALLS => "max_tool_calls".toList
  | .ERROR => "error".toList
  | .BLOCKED => "blocked".toList
  | .EMPTY_RESPONSE => "empty_response".toList

structure AgentBudget where
  max_steps : Nat
  max_seconds : Option ℚ
  max_tool_calls : Option Nat
  steps_positive : 0 < max_steps
  seconds_positive : ∀ seconds ∈ max_seconds, 0 < seconds
  calls_positive : ∀ calls ∈ max_tool_calls, 0 < calls

structure AgentStep (floats : FloatTexts) where
  index : Nat
  kind : StepKindEnum
  name : Text
  arguments : Members floats
  output : Text
  artifacts : List Text
  error : Option Text
  seconds : ℚ
  agent : Option Text
  children : List (AgentStep floats)

structure AgentRun (floats : FloatTexts) where
  owner : Option Text
  goal : Text
  output : Text
  steps : List (AgentStep floats)
  artifacts : List AgentArtifact
  stop_reason : StopReasonEnum
  seconds : ℚ
  agent : Text

structure ToolResult (floats : FloatTexts) where
  text : Text
  artifacts : List AgentArtifact
  run : Option (AgentRun floats)
  final : Bool

structure Raised where
  /-- `type(exc).__name__`. -/
  kind : Text
  text : Text
  /-- It is an `AgentToolError`. -/
  curated : Bool
deriving DecidableEq

/-- One entry of the model's `tool_calls`. -/
structure ToolCall (floats : FloatTexts) where
  /-- The text of a true `id`. -/
  id : Option Text
  name : Text
  arguments : Json floats

inductive Message (floats : FloatTexts) where
  | system (content : Text)
  | user (content : Text)
  | assistant (content : Text) (tool_calls : List (ToolCall floats))
  /-- An answer with the id and the name, when the call had an id. -/
  | tool (content : Text) (call : Option (Text × Text))

inductive Handler where
  | function
  /-- The handler of `agent_tool`. -/
  | agent (agent : Nat) (max_depth : Nat) (share_artifacts : Bool)
deriving DecidableEq

structure AgentTool where
  name : Text
  handler : Handler
deriving DecidableEq

structure Skill where
  name : Text
  tools : List AgentTool

structure Agent where
  name : Text
  system_prompt : Text
  tools : List AgentTool
  skills : List Skill
  budget : AgentBudget
  /-- `moderator is not None`. -/
  moderated : Bool
  expose_tool_errors : Bool

abbrev Team := Nat → Agent

structure AgentContext where
  goal : Text
  artifacts : Artifacts
  depth : Nat
  deadline : Option ℚ
  parent : Option Text
  agent : Option Text
  owner : Option Text
  opened_skills : List Text

def AgentContext.child (context : AgentContext) (goal parent : Text) : AgentContext where
  goal := goal
  artifacts := .empty
  depth := context.depth + 1
  deadline := context.deadline
  parent := some parent
  agent := none
  owner := context.owner
  opened_skills := []

inductive Origin where
  | nobody
  | model
  | tool
  | moderation
  | backend
deriving DecidableEq

structure RunState (floats : FloatTexts) where
  context : AgentContext
  steps : List (AgentStep floats)
  outcome : StopReasonEnum
  output : Text
  origin : Origin
  started : ℚ
  tool_calls : Nat
  deadline : Option ℚ

inductive Verdict where
  | allowed
  | flagged (categories : List Text)
  | raised (kind : Text)
deriving DecidableEq

inductive Answer (floats : FloatTexts) where
  | result (result : ToolResult floats)
  | failure (raised : Raised)
  | timeout

inductive Phase (floats : FloatTexts) where
  | begin
  /-- `await self._blocked(goal)`. -/
  | moderating
  | deciding
  /-- `step_started = time.monotonic()`. -/
  | timing
  /-- `self._remaining(state)` for the model call. -/
  | limiting (step_started : ℚ)
  | asking (step_started : ℚ) (cut : Option ℚ)
  | replied (step_started : ℚ) (content : Text) (calls : List (ToolCall floats))
  | failed (step_started : ℚ) (raised : Option Raised)
  /-- `for call in calls`. -/
  | calling (calls : List (ToolCall floats))
  /-- `started = time.monotonic()` of `_run_tool`. -/
  | running (call : ToolCall floats) (rest : List (ToolCall floats))
  | preparing (call : ToolCall floats) (rest : List (ToolCall floats))
      (started : ℚ)
  /-- `await tool.invoke(arguments, ctx)`, which is cut at a time. -/
  | invoking (call : ToolCall floats) (rest : List (ToolCall floats))
      (started : ℚ) (tool : AgentTool) (cut : Option ℚ)
  | answered (call : ToolCall floats) (rest : List (ToolCall floats))
      (started : ℚ) (answer : Answer floats)
  /-- `_finish` before and while the output is moderated. -/
  | leaving
  | checking
  | recording (outcome : StopReasonEnum) (output : Text) (origin : Origin)

/-- What a run has done, for the statements about it. -/
inductive Happening (floats : FloatTexts) where
  | read (time : ℚ)
  | asked (messages : List (Message floats))
  /-- The loop took up a call; its handler was invoked. -/
  | taken (call : ToolCall floats)
  | invoked (call : ToolCall floats)
  | checked (text : Text) (verdict : Verdict)

structure Frame (floats : FloatTexts) where
  agent : Nat
  goal : Text
  state : RunState floats
  messages : List (Message floats)
  available : List AgentTool
  phase : Phase floats
  history : List (Happening floats)
  stored : List (Text × AgentArtifact)

structure Finished (floats : FloatTexts) where
  frame : Frame floats
  run : AgentRun floats
  origin : Origin

structure World (floats : FloatTexts) where
  now : ℚ
  frames : List (Frame floats)
  finished : List (Finished floats)

/-- `", ".join(parts)`. -/
def commas (parts : List Text) : Text := ", ".toList.intercalate parts

/-- The reason that `_blocked` gives. -/
def Verdict.reason : Verdict → Option Text
  | .allowed => none
  | .flagged categories =>
    let listed := commas categories
    some ("blocked by moderation (".toList ++
      (if listed = [] then "policy".toList else listed) ++ ")".toList)
  | .raised kind => some ("blocked: moderation unavailable (".toList ++ kind ++ ")".toList)

/-- `not text.strip()`. -/
def blank (text : Text) : Bool := text.all PyDecimal.isSpace

/-- `f"{type(exc).__name__}: {exc}"`. -/
def Raised.shown (raised : Raised) : Text :=
  raised.kind ++ ": ".toList ++ raised.text

variable (texts : Texts floats)

def AgentStep.validated (step : AgentStep floats) : AgentStep floats :=
  { step with
    name := texts.strip step.name
    output := texts.strip step.output
    artifacts := step.artifacts.map texts.strip
    error := step.error.map texts.strip
    agent := step.agent.map texts.strip }

def AgentRun.validated (run : AgentRun floats) : AgentRun floats :=
  { run with
    owner := run.owner.map texts.strip
    goal := texts.strip run.goal
    output := texts.strip run.output
    agent := texts.strip run.agent }

def ToolResult.validated (result : ToolResult floats) : ToolResult floats :=
  { result with text := texts.strip result.text }

/-- `type(raw).__name__`. -/
def typeName : Json floats → Text
  | .none => "NoneType".toList
  | .bool _ => "bool".toList
  | .int _ => "int".toList
  | .float _ => "float".toList
  | .str _ => "str".toList
  | .list _ => "list".toList
  | .dict _ => "dict".toList
  | .other _ => "object".toList

def parse_arguments (raw : Json floats) : Members floats × Option Text :=
  match raw with
  | .none | .str [] => (.nil, none)
  | .dict members => (members, none)
  | .str text =>
    match loads floats text with
    | none => (.nil, some ("arguments are not valid JSON: ".toList ++ texts.jsonError text))
    | some (.dict members) => (members, none)
    | some _ => (.nil, some "arguments must be a JSON object".toList)
  | other => (.nil, some ("arguments must be a JSON object, got ".toList ++ typeName other))

/-- `_describe_failure`: what the model reads and what the trace records. -/
def describe_failure (agent : Agent) (raised : Raised) : Text × Text :=
  if raised.curated then (raised.shown, raised.shown)
  else if agent.expose_tool_errors then
    (texts.mask raised.shown, texts.mask raised.shown)
  else ("tool failed: ".toList ++ raised.kind,
    raised.kind ++ ": the tool failed (details withheld)".toList)

def tool_message (call : ToolCall floats) (observation name : Text) : Message floats :=
  .tool observation (call.id.map fun id => (id, name))

end TempestSdk.Agents
