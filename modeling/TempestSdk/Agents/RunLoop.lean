import TempestSdk.Agents.Agent
import TempestSdk.Library.Runs

/-!
# The run loop

The steps of `_iterate`, `_run_tool`, `_finish` and of the handler of
`agent_tool`, and the events that a run waits for.
-/

namespace TempestSdk.Agents

attribute [local instance] lawfulText

open PyJson

variable {floats : FloatTexts} (texts : Texts floats) (team : Team)

inductive Turn (floats : FloatTexts) where
  | stays (frame : Frame floats)
  | delegates (frame child : Frame floats)
  | returns (finished : Finished floats)

namespace Frame

variable (frame : Frame floats) (now : ℚ)

/-- A run that `Agent.run` starts. -/
def fresh (agent : Nat) (goal : Text) (context : AgentContext) : Frame floats where
  agent := agent
  goal := goal
  state := {
    context
    steps := []
    outcome := .COMPLETED
    output := []
    origin := .nobody
    started := 0
    tool_calls := 0
    deadline := none }
  messages := []
  available := []
  phase := .begin
  history := []
  stored := context.artifacts.entries

def note (happening : Happening floats) : Frame floats :=
  { frame with history := happening :: frame.history }

def goto (phase : Phase floats) : Frame floats := { frame with phase }

def leave (outcome : StopReasonEnum) : Frame floats :=
  { frame with state := { frame.state with outcome }, phase := .leaving }

def leaveWith (outcome : StopReasonEnum) (output : Text) (origin : Origin) : Frame floats :=
  { frame with
    state := { frame.state with outcome, output, origin }
    phase := .leaving }

def record (step : AgentStep floats) : Frame floats :=
  { frame with
    state := { frame.state with
      steps := frame.state.steps ++ [step.validated texts] } }

def say (message : Message floats) : Frame floats :=
  { frame with messages := frame.messages ++ [message] }

/-- `min` of the deadlines that are there. -/
def earlier : Option ℚ → Option ℚ → Option ℚ
  | none, inherited => inherited
  | own, none => own
  | some own, some inherited => some (min own inherited)

/-- `_deadline`. -/
def deadlineOf (agent : Agent) (inherited : Option ℚ) : Option ℚ :=
  earlier (agent.budget.max_seconds.map fun seconds => now + seconds) inherited

/-- The ceilings of `_stop_for_budget` that need no clock. -/
def spent (agent : Agent) (state : RunState floats) : Option StopReasonEnum :=
  if agent.budget.max_steps ≤ state.steps.length then some .MAX_STEPS
  else match agent.budget.max_tool_calls with
    | none => none
    | some calls => if calls ≤ state.tool_calls then some .MAX_TOOL_CALLS else none

/-- `_stop_for_budget`, which leaves the loop or goes on. -/
def decide (agent : Agent) (next : Frame floats → Frame floats) : Frame floats :=
  match spent agent frame.state with
  | some reason => frame.leave reason
  | none =>
    match frame.state.deadline with
    | none => next frame
    | some deadline =>
      if deadline ≤ now then (frame.note (.read now)).leave .TIMEOUT
      else next (frame.note (.read now))

/-- `_remaining`, with some grace, as the time of the cut. -/
def limit (grace : ℚ) (next : Option ℚ → Frame floats → Frame floats) : Frame floats :=
  match frame.state.deadline with
  | none => next none frame
  | some deadline =>
    next (some (now + (max (deadline - now) 0 + grace))) (frame.note (.read now))

/-- The head of `_iterate`. -/
def begin : Frame floats :=
  let agent := team frame.agent
  let deadline := deadlineOf now agent frame.state.context.deadline
  let started := { frame with
    state := { frame.state with
      started := now
      deadline
      context := { frame.state.context with
        goal := frame.goal
        agent := some agent.name
        deadline } }
    history := .read now :: frame.history }
  if agent.moderated ∧ frame.goal ≠ [] then started.goto .moderating
  else { started with
    messages := [.system agent.system_prompt, .user frame.goal]
    phase := .deciding }

def moderated (verdict : Verdict) : Frame floats :=
  let checked := frame.note (.checked frame.goal verdict)
  match verdict.reason with
  | some reason => checked.leaveWith .BLOCKED reason .moderation
  | none => { checked with
      messages := [.system (team frame.agent).system_prompt, .user frame.goal]
      phase := .deciding }

/-- `_available`. -/
def tools : List AgentTool :=
  let agent := team frame.agent
  agent.tools ++ (agent.skills.filter fun skill =>
    skill.name ∈ frame.state.context.opened_skills).flatMap Skill.tools

def turn (step_started : ℚ) (content : Text) (calls : List (ToolCall floats)) : Frame floats :=
  let recorded := (frame.note (.read now)).record texts {
    index := frame.state.steps.length
    kind := .MODEL
    name := "chat".toList
    arguments := .nil
    output := content
    artifacts := []
    error := none
    seconds := now - step_started
    agent := none
    children := [] }
  if calls = [] then
    if blank content then recorded.leave .EMPTY_RESPONSE
    else recorded.leaveWith .COMPLETED content .model
  else (recorded.say (.assistant content calls)).goto (.calling calls)

def fail (step_started : ℚ) (raised : Option Raised) : Frame floats :=
  let error := match raised with
    | none => "model call interrupted: the time budget ran out".toList
    | some raised => raised.shown
  let recorded := (frame.note (.read now)).record texts {
    index := frame.state.steps.length
    kind := .MODEL
    name := "chat".toList
    arguments := .nil
    output := []
    artifacts := []
    error := some error
    seconds := now - step_started
    agent := none
    children := [] }
  match raised with
  | none => recorded.leave .TIMEOUT
  | some _ => recorded.leaveWith .ERROR (texts.strip error) .backend

def take (call : ToolCall floats) (rest : List (ToolCall floats)) : Frame floats :=
  { frame with
    state := { frame.state with tool_calls := frame.state.tool_calls + 1 }
    history := .taken call :: frame.history
    phase := .running call rest }

/-- `tool_by_name.get(name)`. -/
def lookup (name : Text) : Option AgentTool :=
  frame.available.reverse.find? fun tool => tool.name = name

/-- `", ".join(sorted(tool_by_name)) or "none"`. -/
def known : Text :=
  let listed := commas ((frame.available.map AgentTool.name).dedup.mergeSort)
  if listed = [] then "none".toList else listed

def problem (call : ToolCall floats) : Option Text :=
  match frame.lookup call.name with
  | none => some ("unknown tool ".toList ++ texts.repr call.name ++
      "; available: ".toList ++ frame.known)
  | some _ => (parse_arguments texts call.arguments).2.map fun problem =>
    "invalid call to ".toList ++ texts.repr call.name ++ ": ".toList ++ problem

/-- `name or "unknown"`. -/
def named (name : Text) : Text := if name = [] then "unknown".toList else name

def failedStep (call : ToolCall floats) (name : Text) (started : ℚ)
    (error : Text) : AgentStep floats where
  index := frame.state.steps.length
  kind := .TOOL
  name := name
  arguments := (parse_arguments texts call.arguments).1
  output := []
  artifacts := []
  error := some error
  seconds := now - started
  agent := none
  children := []

def refuse (call : ToolCall floats) (rest : List (ToolCall floats))
    (started : ℚ) (problem : Text) : Frame floats :=
  let name := named call.name
  (((frame.note (.read now)).record texts
      (frame.failedStep texts now call name started problem)).say
    (tool_message call problem (texts.strip name))).goto (.calling rest)

/-- The handler of `agent_tool` until it runs the agent. -/
def delegate (arguments : Members floats) (agent max_depth : Nat) :
    Answer floats ⊕ Frame floats :=
  let context := frame.state.context
  let goal := PyDecimal.strip (match arguments.find "goal".toList with
    | none => []
    | some value => texts.str value)
  if goal = [] then
    .inl (.failure ⟨"AgentToolError".toList, "'goal' is required".toList, true⟩)
  else if max_depth ≤ context.depth then
    .inl (.failure ⟨"AgentToolError".toList, "delegation refused: already ".toList ++
        Numerals.natural context.depth ++ " levels deep (max ".toList ++
        Numerals.natural max_depth ++
        "). Answer with what you have.".toList, true⟩)
  else
    let parent := match context.agent with
      | none | some [] => "agent".toList
      | some name => name
    .inr (fresh agent goal (context.child goal parent))

/-- `_TOOL_GRACE_SECONDS / (ctx.depth + 1)`. -/
def grace : ℚ := 1 / 4 / (frame.state.context.depth + 1)

def invoke (call : ToolCall floats) (rest : List (ToolCall floats))
    (started : ℚ) (tool : AgentTool) : Turn floats :=
  let invoked := frame.limit now frame.grace fun cut limited =>
    (limited.note (.invoked call)).goto (.invoking call rest started tool cut)
  match tool.handler with
  | .function => .stays invoked
  | .agent agent max_depth _ =>
    match frame.delegate texts (parse_arguments texts call.arguments).1 agent
        max_depth with
    | .inl answer => .stays (invoked.goto (.answered call rest started answer))
    | .inr child => .delegates invoked child

def answeredStep (call : ToolCall floats) (started : ℚ)
    (result : ToolResult floats) (output : Text) (stored : List Text) :
    AgentStep floats where
  index := frame.state.steps.length
  kind := if result.run.isSome then .AGENT else .TOOL
  name := call.name
  arguments := (parse_arguments texts call.arguments).1
  output := output
  artifacts := stored
  error := none
  seconds := now - started
  agent := result.run.map AgentRun.agent
  children := (result.run.map AgentRun.steps).getD []

def conclude (call : ToolCall floats) (rest : List (ToolCall floats))
    (started : ℚ) : Answer floats → Frame floats
  | .timeout =>
    let error := "tool ".toList ++ texts.repr call.name ++
      " interrupted: the time budget ran out".toList
    (((frame.note (.read now)).record texts
        (frame.failedStep texts now call call.name started error)).say
      (tool_message call error (texts.strip call.name))).leave .TIMEOUT
  | .failure raised =>
    let shown := describe_failure texts (team frame.agent) raised
    (((frame.note (.read now)).record texts
        (frame.failedStep texts now call call.name started shown.2)).say
      (tool_message call shown.1 (texts.strip call.name))).goto (.calling rest)
  | .result result =>
    let artifacts := frame.state.context.artifacts
    let (names, notes, all) := artifacts.store result.artifacts
    let observation := if notes = [] then result.text else Artifacts.noted result.text notes
    let recorded := ((frame.note (.read now)).record texts
        (frame.answeredStep texts now call started result observation names)).say
      (tool_message call observation (texts.strip call.name))
    let kept := { recorded with
      state := { recorded.state with
        context := { recorded.state.context with artifacts := all } }
      stored := frame.stored ++ Artifacts.added names result.artifacts }
    if result.final then kept.leaveWith .COMPLETED observation .tool
    else kept.goto (.calling rest)

/-- The output is moderated when the run has completed with one. -/
def close : Frame floats :=
  if frame.state.outcome = .COMPLETED ∧ (team frame.agent).moderated ∧
      frame.state.output ≠ [] then frame.goto .checking
  else frame.goto (.recording frame.state.outcome frame.state.output frame.state.origin)

def judged (verdict : Verdict) : Frame floats :=
  let checked := frame.note (.checked frame.state.output verdict)
  match verdict.reason with
  | some reason => checked.goto (.recording .BLOCKED reason .moderation)
  | none => checked.goto (.recording frame.state.outcome frame.state.output
      frame.state.origin)

def lastSaid (steps : List (AgentStep floats)) : Option Text :=
  (steps.reverse.find? fun step =>
    step.kind = .MODEL ∧ ¬ blank step.output).map AgentStep.output

/-- `_finish` after the moderation. -/
def finish (outcome : StopReasonEnum) (output : Text) (origin : Origin) : Finished floats :=
  let said := if output = [] then lastSaid frame.state.steps else none
  { frame := frame.note (.read now)
    run := AgentRun.validated texts {
      owner := frame.state.context.owner
      goal := frame.goal
      output := said.getD output
      steps := frame.state.steps
      artifacts := frame.state.context.artifacts.entries.map Prod.snd
      stop_reason := outcome
      seconds := now - frame.state.started
      agent := (team frame.agent).name }
    origin := if said.isSome then .model else origin }

def advance : Option (Turn floats) :=
  let agent := team frame.agent
  match frame.phase with
  | .begin => some (.stays (frame.begin team now))
  | .deciding => some (.stays (frame.decide now agent fun going =>
    { going with available := going.tools team, phase := .timing }))
  | .timing => some (.stays ((frame.note (.read now)).goto (.limiting now)))
  | .limiting step_started =>
    some (.stays (frame.limit now 0 fun cut limited =>
      (limited.note (.asked limited.messages)).goto (.asking step_started cut)))
  | .replied step_started content calls =>
    some (.stays (frame.turn texts now step_started content calls))
  | .failed step_started raised => some (.stays (frame.fail texts now step_started raised))
  | .calling [] => some (.stays (frame.goto .deciding))
  | .calling (call :: rest) =>
    some (.stays (frame.decide now agent fun going => going.take call rest))
  | .running call rest =>
    some (.stays ((frame.note (.read now)).goto (.preparing call rest now)))
  | .preparing call rest started =>
    match frame.problem texts call, frame.lookup call.name with
    | some problem, _ => some (.stays (frame.refuse texts now call rest started problem))
    | none, some tool => some (frame.invoke texts now call rest started tool)
    | none, none => none
  | .answered call rest started answer =>
    some (.stays (frame.conclude texts team now call rest started answer))
  | .leaving => some (.stays (frame.close team))
  | .recording outcome output origin =>
    some (.returns (frame.finish texts team now outcome output origin))
  | .moderating | .asking _ _ | .invoking _ _ _ _ _ | .checking => none

end Frame

inductive Event (floats : FloatTexts) where
  | tick (seconds : ℚ)
  | run
  | verdict (verdict : Verdict)
  | reply (content : Text) (calls : List (ToolCall floats))
  | raised (raised : Raised) (opened_skills : List Text)
  | returned (result : ToolResult floats) (opened_skills : List Text)
  | cut (level : Nat)

namespace Frame

variable (frame : Frame floats)

def opened (opened_skills : List Text) : Frame floats :=
  { frame with
    state := { frame.state with
      context := { frame.state.context with opened_skills } } }

def hear : Event floats → Option (Frame floats)
  | .verdict verdict =>
    match frame.phase with
    | .moderating => some (frame.moderated team verdict)
    | .checking => some (frame.judged verdict)
    | _ => none
  | .reply content calls =>
    match frame.phase with
    | .asking step_started _ => some (frame.goto (.replied step_started content calls))
    | _ => none
  | .raised raised opened_skills =>
    match frame.phase with
    | .asking step_started _ => some (frame.goto (.failed step_started (some raised)))
    | .invoking call rest started tool _ =>
      if tool.handler = .function then
        some ((frame.opened opened_skills).goto (.answered call rest started (.failure raised)))
      else none
    | _ => none
  | .returned result opened_skills =>
    match frame.phase with
    | .invoking call rest started tool _ =>
      if tool.handler = .function then
        some ((frame.opened opened_skills).goto (.answered call rest started (.result result)))
      else none
    | _ => none
  | .tick _ | .run | .cut _ => none

/-- `asyncio.timeout` ends what the run waits for. -/
def expire (now : ℚ) : Option (Frame floats) :=
  match frame.phase with
  | .asking step_started (some cut) =>
    if cut ≤ now then some (frame.goto (.failed step_started none)) else none
  | .invoking call rest started _ (some cut) =>
    if cut ≤ now then some (frame.goto (.answered call rest started .timeout))
    else none
  | _ => none

def delegated (agent : Agent) (share_artifacts : Bool)
    (run : AgentRun floats) : ToolResult floats :=
  let artifacts := if share_artifacts then
      run.artifacts.map fun artifact =>
        { artifact with name := agent.name ++ '/' :: artifact.name }
    else []
  let answer := if run.output = [] then
    "(the sub-agent produced no answer)".toList else run.output
  let summary := if run.stop_reason = .COMPLETED then answer
    else "[stopped: ".toList ++ run.stop_reason.value ++ "] ".toList ++ answer
  let text := if artifacts = [] then summary else summary ++ "\n\nProduced: ".toList ++
      commas (artifacts.map AgentArtifact.name)
  ToolResult.validated texts ⟨text, artifacts, some run, false⟩

def resume (run : AgentRun floats) : Frame floats :=
  match frame.phase with
  | .invoking call rest started tool _ =>
    match tool.handler with
    | .agent agent _ share_artifacts =>
      frame.goto (.answered call rest started
        (.result (delegated texts (team agent) share_artifacts run)))
    | .function => frame
  | _ => frame

end Frame

namespace World

variable (world : World floats)

def start (agent : Nat) (goal : Text) (context : AgentContext) (now : ℚ) : World floats where
  now := now
  frames := [.fresh agent goal context]
  finished := []

def finish (finished : Finished floats) (waiting : List (Frame floats)) : World floats :=
  { world with
    finished := finished :: world.finished
    frames := match waiting with
      | [] => []
      | parent :: rest => parent.resume texts team finished.run :: rest }

def step : Event floats → Option (World floats)
  | .tick seconds =>
    if 0 ≤ seconds then some { world with now := world.now + seconds }
    else none
  | .run =>
    match world.frames with
    | [] => none
    | frame :: waiting =>
      match frame.advance texts team world.now with
      | none => none
      | some (.stays frame) => some { world with frames := frame :: waiting }
      | some (.delegates frame child) => some { world with frames := child :: frame :: waiting }
      | some (.returns finished) => some (world.finish texts team finished waiting)
  | .cut level =>
    -- The runs above are cancelled.
    match world.frames.drop level with
    | [] => none
    | frame :: waiting => (frame.expire world.now).map fun frame =>
      { world with frames := frame :: waiting }
  | event =>
    match world.frames with
    | [] => none
    | frame :: waiting => (frame.hear team event).map fun frame =>
      { world with frames := frame :: waiting }

abbrev exec := Runs.exec (step texts team)

end World

end TempestSdk.Agents
