import Mathlib.Data.List.Forall2
import TempestSdk.Agents.RunLoop

/-!
# Bounds of a run

A run keeps its budget, its deadline, its artifacts and the order of its
transcript at every point of its loop, and a delegated run the depth and the
deadline that its parent gives it.
-/

namespace TempestSdk.Agents

attribute [local instance] lawfulText

open PyJson

variable {floats : FloatTexts}

/-! ## Transcripts -/

def Answers (call : ToolCall floats) (message : Message floats) : Prop :=
  ∃ content name, message = .tool content (call.id.map fun id => (id, name))

/-- Every turn with calls is followed by one answer for each call, in order. -/
inductive Complete : List (Message floats) → Prop where
  | head (system user : Text) : Complete [.system system, .user user]
  | turn {messages answers : List (Message floats)} {content : Text}
      {calls : List (ToolCall floats)} :
      Complete messages → List.Forall₂ Answers calls answers →
        Complete (messages ++ .assistant content calls :: answers)

def Pending (messages : List (Message floats)) (rest : List (ToolCall floats)) : Prop :=
  ∃ before content done answers,
    messages = before ++ .assistant content (done ++ rest) :: answers ∧
      Complete before ∧ List.Forall₂ Answers done answers

theorem Pending.complete {messages : List (Message floats)}
    (pending : Pending messages []) : Complete messages := by
  obtain ⟨before, content, done, answers, rfl, complete, answered⟩ := pending
  rw [List.append_nil]
  exact .turn complete answered

theorem Complete.pending {messages : List (Message floats)}
    (complete : Complete messages) (content : Text)
    (calls : List (ToolCall floats)) :
    Pending (messages ++ [.assistant content calls]) calls :=
  ⟨messages, content, [], [], rfl, complete, .nil⟩

theorem Pending.answer {messages : List (Message floats)}
    {call : ToolCall floats} {rest : List (ToolCall floats)}
    (pending : Pending messages (call :: rest)) (observation name : Text) :
    Pending (messages ++ [tool_message call observation name]) rest := by
  obtain ⟨before, content, done, answers, rfl, complete, answered⟩ := pending
  refine ⟨before, content, done ++ [call],
    answers ++ [tool_message call observation name], ?_, complete, ?_⟩
  · simp
  · exact List.rel_append answered (.cons ⟨observation, name, rfl⟩ .nil)

/-! ## Runs at any point -/

def Orderly (deadline : Option ℚ) : List (Happening floats) → Prop
  | [] => True
  | .taken _ :: earlier =>
    (∀ limit ∈ deadline, ∀ time, .read time ∈ earlier → time < limit) ∧ Orderly deadline earlier
  | _ :: earlier => Orderly deadline earlier

def Happening.isTaken : Happening floats → Bool
  | .taken _ => true
  | _ => false

def Happening.isInvoked : Happening floats → Bool
  | .invoked _ => true
  | _ => false

def taken (history : List (Happening floats)) : Nat :=
  (history.filter Happening.isTaken).length

def invoked (history : List (Happening floats)) : Nat :=
  (history.filter Happening.isInvoked).length

structure Frame.Bounded (team : Team) (frame : Frame floats) : Prop where
  steps : frame.state.steps.length ≤ (team frame.agent).budget.max_steps
  calls : ∀ most ∈ (team frame.agent).budget.max_tool_calls, frame.state.tool_calls ≤ most
  counted : taken frame.history = frame.state.tool_calls
  executed : invoked frame.history ≤ frame.state.tool_calls
  indexes : frame.state.steps.map AgentStep.index = List.range frame.state.steps.length
  orderly : Orderly frame.state.deadline frame.history
  asked : ∀ messages, .asked messages ∈ frame.history → Complete messages
  artifacts : frame.state.context.artifacts.entries = frame.stored

def Frame.Clocked (now : ℚ) (frame : Frame floats) : Prop :=
  ∀ time, .read time ∈ frame.history → time ≤ now

def Frame.Fresh (frame : Frame floats) : Prop :=
  invoked frame.history < frame.state.tool_calls

def Frame.Room (team : Team) (frame : Frame floats) : Prop :=
  frame.state.steps.length < (team frame.agent).budget.max_steps

def Frame.Dated (frame : Frame floats) : Prop :=
  frame.state.context.deadline = frame.state.deadline

def Frame.AtPhase (team : Team) (frame : Frame floats) : Prop :=
  match frame.phase with
  | .begin => frame.history = [] ∧ frame.state.steps = []
  | .moderating => frame.Dated
  | .deciding => Complete frame.messages ∧ frame.Dated
  | .timing | .limiting _ | .asking _ _ | .replied _ _ _ | .failed _ _ =>
    Complete frame.messages ∧ frame.Room team ∧ frame.Dated
  | .calling calls => Pending frame.messages calls ∧ frame.Dated
  | .running call rest | .preparing call rest _ =>
    Pending frame.messages (call :: rest) ∧ frame.Room team ∧ frame.Dated ∧ frame.Fresh
  | .invoking call rest _ _ _ | .answered call rest _ _ =>
    Pending frame.messages (call :: rest) ∧ frame.Room team ∧ frame.Dated
  | .leaving | .checking | .recording _ _ _ => True

structure Frame.Lawful (team : Team) (now : ℚ) (frame : Frame floats) :
    Prop where
  bounded : frame.Bounded team
  clocked : frame.Clocked now
  atPhase : frame.AtPhase team

/-- The deadline of a run is not after the limit; a run that has not begun has
it to inherit. -/
def Frame.Within (limit : Option ℚ) (frame : Frame floats) : Prop :=
  ∀ latest ∈ limit, (frame.phase = .begin ∧ frame.state.context.deadline = some latest) ∨
      (frame.phase ≠ .begin ∧ ∃ own, frame.state.deadline = some own ∧ own ≤ latest)

def Frame.Under (child parent : Frame floats) : Prop :=
  ∃ call rest started tool cut agent max_depth share_artifacts,
    parent.phase = .invoking call rest started tool cut ∧
      tool.handler = .agent agent max_depth share_artifacts ∧
      child.agent = agent ∧
      child.state.context.depth = parent.state.context.depth + 1 ∧
      child.state.context.depth ≤ max_depth ∧
      child.Within parent.state.deadline

structure Frame.Follows (next frame : Frame floats) : Prop where
  agent : next.agent = frame.agent
  depth : next.state.context.depth = frame.state.context.depth
  within : ∀ limit, frame.Within limit → next.Within limit

def Phase.begun : Phase floats → Bool
  | .begin => false
  | _ => true

namespace Frame

variable {team : Team} {now : ℚ} {frame next : Frame floats}

theorem ne_begin {here phase : Phase floats} (point : here = phase)
    (begun : phase.begun = true) : here ≠ .begin := by
  rintro rfl
  rw [← point] at begun
  cases begun

theorem Under.follow {parent : Frame floats} (under : frame.Under parent)
    (follows : next.Follows frame) : next.Under parent := by
  obtain ⟨call, rest, started, tool, cut, agent, max_depth, share_artifacts,
    invoking, handler, same, depth, bound, within⟩ := under
  refine ⟨call, rest, started, tool, cut, agent, max_depth, share_artifacts,
    invoking, handler, follows.agent.trans same, follows.depth.trans depth, ?_,
    follows.within _ within⟩
  rw [follows.depth]
  exact bound

theorem follows_begun (agent : next.agent = frame.agent)
    (depth : next.state.context.depth = frame.state.context.depth)
    (deadline : next.state.deadline = frame.state.deadline)
    (begun : frame.phase ≠ .begin) (stays : next.phase ≠ .begin) :
    next.Follows frame := by
  refine ⟨agent, depth, ?_⟩
  intro limit within latest member
  rcases within latest member with ⟨beginning, -⟩ | ⟨-, own, earlier⟩
  · exact absurd beginning begun
  · exact .inr ⟨stays, own, by rw [deadline]; exact earlier⟩

/-! ## Changes of a run -/

theorem Bounded.keeping (bounded : frame.Bounded team) (agent : next.agent = frame.agent)
    (steps : next.state.steps = frame.state.steps)
    (calls : next.state.tool_calls = frame.state.tool_calls)
    (deadline : next.state.deadline = frame.state.deadline)
    (history : next.history = frame.history)
    (artifacts : next.state.context.artifacts.entries = next.stored) :
    next.Bounded team := by
  constructor
  · rw [agent, steps]
    exact bounded.steps
  · rw [agent, calls]
    exact bounded.calls
  · rw [history, calls]
    exact bounded.counted
  · rw [history, calls]
    exact bounded.executed
  · rw [steps]
    exact bounded.indexes
  · rw [deadline, history]
    exact bounded.orderly
  · rw [history]
    exact bounded.asked
  · exact artifacts

theorem Bounded.of_same (bounded : frame.Bounded team) (agent : next.agent = frame.agent)
    (steps : next.state.steps = frame.state.steps)
    (calls : next.state.tool_calls = frame.state.tool_calls)
    (deadline : next.state.deadline = frame.state.deadline)
    (history : next.history = frame.history)
    (artifacts : next.state.context.artifacts = frame.state.context.artifacts)
    (stored : next.stored = frame.stored) : next.Bounded team := by
  refine bounded.keeping agent steps calls deadline history ?_
  rw [artifacts, stored]
  exact bounded.artifacts

/-- A happening that is neither a call to a tool nor one to the backend. -/
def Quiet : Happening floats → Prop
  | .read _ | .checked _ _ => True
  | .asked _ | .taken _ | .invoked _ => False

section

variable (bounded : frame.Bounded team)

include bounded

theorem Bounded.note {happening : Happening floats} (quiet : Quiet happening) :
    (frame.note happening).Bounded team where
  steps := bounded.steps
  calls := bounded.calls
  counted := by
    cases happening with
    | taken call => exact quiet.elim
    | asked messages => exact quiet.elim
    | invoked call => exact quiet.elim
    | read time => exact bounded.counted
    | checked text verdict => exact bounded.counted
  executed := by
    cases happening with
    | taken call => exact quiet.elim
    | asked messages => exact quiet.elim
    | invoked call => exact quiet.elim
    | read time => exact bounded.executed
    | checked text verdict => exact bounded.executed
  indexes := bounded.indexes
  orderly := by
    cases happening with
    | taken call => exact quiet.elim
    | asked messages => exact quiet.elim
    | invoked call => exact quiet.elim
    | read time => exact bounded.orderly
    | checked text verdict => exact bounded.orderly
  asked := by
    intro messages member
    rcases List.mem_cons.mp member with rfl | earlier
    · exact quiet.elim
    · exact bounded.asked messages earlier
  artifacts := bounded.artifacts

theorem Bounded.read (time : ℚ) : (frame.note (.read time)).Bounded team :=
  bounded.note trivial

theorem Bounded.ask {messages : List (Message floats)} (complete : Complete messages) :
    (frame.note (.asked messages)).Bounded team where
  steps := bounded.steps
  calls := bounded.calls
  counted := bounded.counted
  executed := bounded.executed
  indexes := bounded.indexes
  orderly := bounded.orderly
  asked := by
    intro others member
    rcases List.mem_cons.mp member with same | earlier
    · cases same
      exact complete
    · exact bounded.asked others earlier
  artifacts := bounded.artifacts

theorem Bounded.invoke (unspent : frame.Fresh) (call : ToolCall floats) :
    (frame.note (.invoked call)).Bounded team where
  steps := bounded.steps
  calls := bounded.calls
  counted := bounded.counted
  executed := unspent
  indexes := bounded.indexes
  orderly := bounded.orderly
  asked := by
    intro messages member
    rcases List.mem_cons.mp member with same | earlier
    · cases same
    · exact bounded.asked messages earlier
  artifacts := bounded.artifacts

theorem Bounded.record (room : frame.Room team) (texts : Texts floats) {step : AgentStep floats}
    (index : step.index = frame.state.steps.length) :
    (frame.record texts step).Bounded team where
  steps := by
    change (frame.state.steps ++ [step.validated texts]).length ≤ _
    rw [List.length_append]
    exact room
  calls := bounded.calls
  counted := bounded.counted
  executed := bounded.executed
  indexes := by
    change (frame.state.steps ++ [step.validated texts]).map _ =
      List.range (frame.state.steps ++ [step.validated texts]).length
    rw [List.map_append, bounded.indexes, List.length_append,
      List.length_singleton, List.range_succ]
    exact congrArg (fun last => _ ++ [last]) index
  orderly := bounded.orderly
  asked := bounded.asked
  artifacts := bounded.artifacts

end

theorem Clocked.read (clocked : frame.Clocked now) : (frame.note (.read now)).Clocked now := by
  intro time member
  rcases List.mem_cons.mp member with same | earlier
  · cases same
    exact le_rfl
  · exact clocked time earlier

theorem Clocked.other (clocked : frame.Clocked now)
    {happening : Happening floats} (other : ∀ time, happening ≠ .read time) :
    (frame.note happening).Clocked now := by
  intro time member
  rcases List.mem_cons.mp member with same | earlier
  · exact absurd same.symm (other time)
  · exact clocked time earlier

/-! ## The checks of the budget -/

theorem spent_none {agent : Agent} {state : RunState floats} (free : spent agent state = none) :
    state.steps.length < agent.budget.max_steps ∧
      ∀ most ∈ agent.budget.max_tool_calls, state.tool_calls < most := by
  unfold spent at free
  split at free
  next => cases free
  next room =>
    refine ⟨Nat.lt_of_not_le room, ?_⟩
    intro most bound
    rw [Option.mem_def.mp bound] at free
    dsimp only at free
    split at free
    next => cases free
    next fewer => exact Nat.lt_of_not_le fewer

/-- The run before its next step: after a reading before the deadline, or
without a deadline. -/
structure Ready (team : Team) (now : ℚ) (going frame : Frame floats) :
    Prop where
  bounded : going.Bounded team
  clocked : going.Clocked now
  room : going.Room team
  calls : ∀ most ∈ (team going.agent).budget.max_tool_calls, going.state.tool_calls < most
  early : ∀ limit ∈ going.state.deadline, now < limit
  agent : going.agent = frame.agent
  state : going.state = frame.state
  messages : going.messages = frame.messages
  phase : going.phase = frame.phase
  stored : going.stored = frame.stored

theorem decide_cases (bounded : frame.Bounded team) (clocked : frame.Clocked now)
    (going : Frame floats → Frame floats) :
    (∃ (left : Frame floats) (reason : StopReasonEnum),
        frame.decide now (team frame.agent) going = left.leave reason ∧
          left.Bounded team ∧ left.Clocked now ∧ left.agent = frame.agent ∧
          left.state = frame.state) ∨
      ∃ ready, frame.decide now (team frame.agent) going = going ready ∧
        Ready team now ready frame := by
  unfold decide
  split
  next reason _ => exact .inl ⟨frame, reason, rfl, bounded, clocked, rfl, rfl⟩
  next free =>
    obtain ⟨room, calls⟩ := spent_none free
    split
    next none_set =>
      refine .inr ⟨frame, rfl, bounded, clocked, room, calls, ?_, rfl, rfl, rfl, rfl, rfl⟩
      intro limit member
      rw [none_set] at member
      cases member
    next deadline is_set =>
      split
      next =>
        exact .inl ⟨frame.note (.read now), .TIMEOUT, rfl, bounded.note trivial,
          clocked.read, rfl, rfl⟩
      next early =>
        refine .inr ⟨frame.note (.read now), rfl, bounded.note trivial,
          clocked.read, room, calls, ?_, rfl, rfl, rfl, rfl, rfl⟩
        intro limit member
        rw [show (frame.note (.read now)).state.deadline = some deadline from is_set] at member
        cases member
        exact not_le.mp early

theorem Ready.take {going : Frame floats} (ready : Ready team now going frame)
    (call : ToolCall floats) (rest : List (ToolCall floats)) :
    (going.take call rest).Bounded team where
  steps := ready.bounded.steps
  calls := fun most bound => ready.calls most bound
  counted := congrArg Nat.succ ready.bounded.counted
  executed := Nat.le_succ_of_le ready.bounded.executed
  indexes := ready.bounded.indexes
  orderly := by
    refine ⟨?_, ready.bounded.orderly⟩
    intro limit member time read
    exact (ready.clocked time read).trans_lt (ready.early limit member)
  asked := by
    intro messages member
    rcases List.mem_cons.mp member with same | earlier
    · cases same
    · exact ready.bounded.asked messages earlier
  artifacts := ready.bounded.artifacts

theorem limit_cases (bounded : frame.Bounded team) (clocked : frame.Clocked now) (grace : ℚ)
    (going : Option ℚ → Frame floats → Frame floats) :
    ∃ cut limited, frame.limit now grace going = going cut limited ∧
      limited.Bounded team ∧ limited.Clocked now ∧
      limited.agent = frame.agent ∧ limited.state = frame.state ∧
      limited.messages = frame.messages ∧
      invoked limited.history = invoked frame.history := by
  unfold limit
  split
  next => exact ⟨none, frame, rfl, bounded, clocked, rfl, rfl, rfl, rfl⟩
  next deadline _ =>
    exact ⟨_, frame.note (.read now), rfl, bounded.note trivial, clocked.read,
      rfl, rfl, rfl, rfl⟩

/-! ## The steps of a run -/

structure Continues (team : Team) (now : ℚ) (next frame : Frame floats) :
    Prop where
  lawful : next.Lawful team now
  follows : next.Follows frame

theorem continues_left (bounded : next.Bounded team)
    (clocked : next.Clocked now) (left : next.phase = .leaving)
    (begun : frame.phase ≠ .begin) (agent : next.agent = frame.agent)
    (depth : next.state.context.depth = frame.state.context.depth)
    (deadline : next.state.deadline = frame.state.deadline) :
    Continues team now next frame := by
  refine ⟨⟨bounded, clocked, ?_⟩, follows_begun agent depth deadline begun ?_⟩
  · unfold AtPhase
    rw [left]
    trivial
  · rw [left]
    intro absurd
    cases absurd

theorem earlier_le {own : Option ℚ} {inherited : ℚ} :
    ∃ deadline, earlier own (some inherited) = some deadline ∧ deadline ≤ inherited := by
  cases own with
  | none => exact ⟨inherited, rfl, le_rfl⟩
  | some own => exact ⟨min own inherited, rfl, min_le_right own inherited⟩

theorem begin_continues (lawful : frame.Lawful team now) (point : frame.phase = .begin) :
    Continues team now (frame.begin team now) frame := by
  have start := lawful.atPhase
  unfold AtPhase at start
  rw [point] at start
  obtain ⟨silent, unstepped⟩ := start
  have happened : (frame.begin team now).history = [.read now] := by
    unfold begin
    dsimp only
    split
    · exact congrArg (List.cons _) silent
    · exact congrArg (List.cons _) silent
  have same : (frame.begin team now).agent = frame.agent ∧
      (frame.begin team now).state.steps = frame.state.steps ∧
      (frame.begin team now).state.tool_calls = frame.state.tool_calls ∧
      (frame.begin team now).state.context.artifacts = frame.state.context.artifacts ∧
      (frame.begin team now).state.context.depth = frame.state.context.depth ∧
      (frame.begin team now).stored = frame.stored := by
    unfold begin
    dsimp only
    split
    · exact ⟨rfl, rfl, rfl, rfl, rfl, rfl⟩
    · exact ⟨rfl, rfl, rfl, rfl, rfl, rfl⟩
  have dated : (frame.begin team now).Dated ∧ (frame.begin team now).state.deadline =
        deadlineOf now (team frame.agent) frame.state.context.deadline ∧
      (frame.begin team now).phase ≠ .begin := by
    unfold begin
    dsimp only
    split
    · exact ⟨rfl, rfl, (ne_begin rfl rfl)⟩
    · exact ⟨rfl, rfl, (ne_begin rfl rfl)⟩
  obtain ⟨agent, steps, calls, artifacts, depth, stored⟩ := same
  obtain ⟨dated, deadline, begun⟩ := dated
  refine ⟨⟨⟨?_, ?_, ?_, ?_, ?_, ?_, ?_, ?_⟩, ?_, ?_⟩, agent, depth, ?_⟩
  · rw [agent, steps]
    exact lawful.bounded.steps
  · rw [agent, calls]
    exact lawful.bounded.calls
  · rw [happened, calls, ← lawful.bounded.counted, silent]
    rfl
  · rw [happened]
    exact Nat.zero_le _
  · rw [steps]
    exact lawful.bounded.indexes
  · rw [happened]
    trivial
  · intro messages member
    rw [happened] at member
    cases List.mem_singleton.mp member
  · rw [artifacts, stored]
    exact lawful.bounded.artifacts
  · intro time member
    rw [happened] at member
    cases List.mem_singleton.mp member
    exact le_rfl
  · revert dated
    unfold AtPhase begin
    dsimp only
    split
    · exact id
    · exact fun dated => ⟨.head _ _, dated⟩
  · intro limit within latest member
    rcases within latest member with ⟨-, inherits⟩ | ⟨earlier_begun, -⟩
    · refine .inr ⟨begun, ?_⟩
      rw [deadline, deadlineOf, inherits]
      exact earlier_le
    · exact absurd point earlier_begun

theorem moderated_continues (lawful : frame.Lawful team now)
    (point : frame.phase = .moderating) (verdict : Verdict) :
    Continues team now (frame.moderated team verdict) frame := by
  have here := lawful.atPhase
  unfold AtPhase at here
  rw [point] at here
  have begun := ne_begin point rfl
  have bounded : (frame.note (.checked frame.goal verdict)).Bounded team :=
    lawful.bounded.note trivial
  have clocked : (frame.note (.checked frame.goal verdict)).Clocked now := by
    apply lawful.clocked.other
    intro time absurd
    cases absurd
  unfold moderated
  dsimp only
  split
  next reason _ =>
    exact continues_left (bounded.of_same rfl rfl rfl rfl rfl rfl rfl) clocked
      rfl begun rfl rfl rfl
  next =>
    refine ⟨⟨bounded.of_same rfl rfl rfl rfl rfl rfl rfl, clocked, ?_⟩,
      follows_begun rfl rfl rfl begun (ne_begin rfl rfl)⟩
    exact ⟨.head _ _, here⟩

theorem deciding_continues (lawful : frame.Lawful team now) (point : frame.phase = .deciding) :
    Continues team now (frame.decide now (team frame.agent) fun going =>
      { going with available := going.tools team, phase := .timing }) frame := by
  have here := lawful.atPhase
  unfold AtPhase at here
  rw [point] at here
  obtain ⟨complete, dated⟩ := here
  have begun := ne_begin point rfl
  rcases decide_cases lawful.bounded lawful.clocked (fun going =>
      { going with available := going.tools team, phase := .timing }) with
    ⟨left, reason, same, bounded, clocked, agent, state⟩ | ⟨ready, same, going⟩
  · rw [same]
    have depth := congrArg (fun state => state.context.depth) state
    have deadline := congrArg (fun state => state.deadline) state
    exact continues_left (bounded.of_same rfl rfl rfl rfl rfl rfl rfl) clocked
      rfl begun agent depth deadline
  · rw [same]
    have depth := congrArg (fun state => state.context.depth) going.state
    have deadline := congrArg (fun state => state.deadline) going.state
    refine ⟨⟨going.bounded.of_same rfl rfl rfl rfl rfl rfl rfl, going.clocked,
      ?_⟩, follows_begun going.agent depth deadline begun (ne_begin rfl rfl)⟩
    refine ⟨?_, going.room, ?_⟩
    · change Complete ready.messages
      rw [going.messages]
      exact complete
    · change ready.state.context.deadline = ready.state.deadline
      rw [going.state]
      exact dated

variable {rest : List (ToolCall floats)} {call : ToolCall floats}

theorem calling_continues (lawful : frame.Lawful team now)
    (point : frame.phase = .calling (call :: rest)) :
    Continues team now (frame.decide now (team frame.agent) fun going =>
      going.take call rest) frame := by
  have here := lawful.atPhase
  unfold AtPhase at here
  rw [point] at here
  obtain ⟨pending, dated⟩ := here
  have begun := ne_begin point rfl
  rcases decide_cases lawful.bounded lawful.clocked (fun going => going.take call rest) with
    ⟨left, reason, same, bounded, clocked, agent, state⟩ | ⟨ready, same, going⟩
  · rw [same]
    have depth := congrArg (fun state => state.context.depth) state
    have deadline := congrArg (fun state => state.deadline) state
    exact continues_left (bounded.of_same rfl rfl rfl rfl rfl rfl rfl) clocked
      rfl begun agent depth deadline
  · rw [same]
    have depth := congrArg (fun state => state.context.depth) going.state
    have clocked : (ready.take call rest).Clocked now := by
      intro time member
      rcases List.mem_cons.mp member with absurd | earlier
      · cases absurd
      · exact going.clocked time earlier
    have deadline := congrArg (fun state => state.deadline) going.state
    refine ⟨⟨going.take call rest, clocked, ?_⟩,
      follows_begun going.agent depth deadline begun (ne_begin rfl rfl)⟩
    refine ⟨?_, going.room, ?_⟩
    · change Pending ready.messages (call :: rest)
      rw [going.messages]
      exact pending
    · refine ⟨?_, Nat.lt_succ_of_le going.bounded.executed⟩
      change ready.state.context.deadline = ready.state.deadline
      rw [going.state]
      exact dated

theorem read_continues (lawful : frame.Lawful team now)
    (begun : frame.phase ≠ .begin) {phase : Phase floats}
    (stays : phase ≠ .begin)
    (there : ((frame.note (.read now)).goto phase).AtPhase team) :
    Continues team now ((frame.note (.read now)).goto phase) frame :=
  ⟨⟨(lawful.bounded.read now).of_same rfl rfl rfl rfl rfl rfl rfl,
    lawful.clocked.read, there⟩, follows_begun rfl rfl rfl begun stays⟩

variable {started : ℚ}

theorem limiting_continues (lawful : frame.Lawful team now)
    (point : frame.phase = .limiting started) :
    Continues team now (frame.limit now 0 fun cut limited =>
      (limited.note (.asked limited.messages)).goto (.asking started cut))
      frame := by
  have here := lawful.atPhase
  unfold AtPhase at here
  rw [point] at here
  obtain ⟨complete, room, dated⟩ := here
  have begun := ne_begin point rfl
  obtain ⟨cut, limited, same, bounded, clocked, agent, state, messages, -⟩ :=
    limit_cases lawful.bounded lawful.clocked 0 (fun cut limited =>
      (limited.note (.asked limited.messages)).goto (.asking started cut))
  rw [same]
  have told : Complete limited.messages := by
    rw [messages]
    exact complete
  have depth := congrArg (fun state => state.context.depth) state
  have deadline := congrArg (fun state => state.deadline) state
  refine ⟨⟨(bounded.ask told).of_same rfl rfl rfl rfl rfl rfl rfl, ?_, told,
    ?_, ?_⟩, follows_begun agent depth deadline begun (ne_begin rfl rfl)⟩
  · apply clocked.other
    intro time absurd
    cases absurd
  · change limited.state.steps.length < (team limited.agent).budget.max_steps
    rw [state, agent]
    exact room
  · change limited.state.context.deadline = limited.state.deadline
    rw [state]
    exact dated

theorem turn_continues (texts : Texts floats) (lawful : frame.Lawful team now)
    {content : Text} {calls : List (ToolCall floats)}
    (point : frame.phase = .replied started content calls) :
    Continues team now (frame.turn texts now started content calls) frame := by
  have here := lawful.atPhase
  unfold AtPhase at here
  rw [point] at here
  obtain ⟨complete, room, dated⟩ := here
  have begun := ne_begin point rfl
  have read := lawful.bounded.read now
  have clocked := lawful.clocked.read
  unfold turn
  dsimp only
  split
  next =>
    split
    next =>
      exact continues_left ((read.record room texts rfl).of_same rfl rfl rfl rfl rfl rfl rfl)
        clocked rfl begun rfl rfl rfl
    next =>
      exact continues_left ((read.record room texts rfl).of_same rfl rfl rfl rfl rfl rfl rfl)
        clocked rfl begun rfl rfl rfl
  next =>
    refine ⟨⟨(read.record room texts rfl).of_same rfl rfl rfl rfl rfl rfl rfl,
      clocked, complete.pending content calls, dated⟩,
      follows_begun rfl rfl rfl begun (ne_begin rfl rfl)⟩

theorem fail_continues (texts : Texts floats) (lawful : frame.Lawful team now)
    {raised : Option Raised} (point : frame.phase = .failed started raised) :
    Continues team now (frame.fail texts now started raised) frame := by
  have here := lawful.atPhase
  unfold AtPhase at here
  rw [point] at here
  obtain ⟨-, room, -⟩ := here
  have begun := ne_begin point rfl
  have read := lawful.bounded.read now
  cases raised with
  | none =>
    exact continues_left ((read.record room texts rfl).of_same rfl rfl rfl rfl rfl rfl rfl)
      lawful.clocked.read rfl begun rfl rfl rfl
  | some raised =>
    exact continues_left ((read.record room texts rfl).of_same rfl rfl rfl rfl rfl rfl rfl)
      lawful.clocked.read rfl begun rfl rfl rfl

theorem answer_continues (texts : Texts floats)
    (lawful : frame.Lawful team now) (begun : frame.phase ≠ .begin)
    (pending : Pending frame.messages (call :: rest)) (room : frame.Room team)
    (dated : frame.Dated) {step : AgentStep floats}
    (index : step.index = frame.state.steps.length) (observation name : Text) :
    Continues team now ((((frame.note (.read now)).record texts step).say
        (tool_message call observation name)).goto (.calling rest)) frame := by
  have read := lawful.bounded.read now
  refine ⟨⟨(read.record room texts index).of_same rfl rfl rfl rfl rfl rfl rfl,
    lawful.clocked.read, pending.answer observation name, dated⟩,
    follows_begun rfl rfl rfl begun (ne_begin rfl rfl)⟩

theorem conclude_continues (texts : Texts floats)
    (lawful : frame.Lawful team now) {answer : Answer floats}
    (point : frame.phase = .answered call rest started answer) :
    Continues team now (frame.conclude texts team now call rest started answer) frame := by
  have here := lawful.atPhase
  unfold AtPhase at here
  rw [point] at here
  obtain ⟨pending, room, dated⟩ := here
  have begun := ne_begin point rfl
  have read := lawful.bounded.read now
  cases answer with
  | timeout =>
    exact continues_left ((read.record room texts rfl).of_same rfl rfl rfl rfl rfl rfl rfl)
      lawful.clocked.read rfl begun rfl rfl rfl
  | failure raised => exact answer_continues texts lawful begun pending room dated rfl _ _
  | result result =>
    have stored := frame.state.context.artifacts.store_spec result.artifacts
    rcases kept : frame.state.context.artifacts.store result.artifacts with
      ⟨names, notes, all⟩
    rw [kept, lawful.bounded.artifacts] at stored
    unfold conclude
    dsimp only at stored ⊢
    rw [kept]
    dsimp only
    generalize (if notes = [] then result.text
      else Artifacts.noted result.text notes) = observation
    have recorded := (read.record room texts
      (rfl : (frame.answeredStep texts now call started result observation names).index = _))
    split
    next =>
      exact continues_left (recorded.keeping rfl rfl rfl rfl rfl stored)
        lawful.clocked.read rfl begun rfl rfl rfl
    next =>
      exact ⟨⟨recorded.keeping rfl rfl rfl rfl rfl stored,
        lawful.clocked.read, pending.answer observation _, dated⟩,
        follows_begun rfl rfl rfl begun (ne_begin rfl rfl)⟩

theorem goto_continues (lawful : frame.Lawful team now)
    (begun : frame.phase ≠ .begin) {phase : Phase floats}
    (stays : phase ≠ .begin) (there : (frame.goto phase).AtPhase team) :
    Continues team now (frame.goto phase) frame :=
  ⟨⟨lawful.bounded.of_same rfl rfl rfl rfl rfl rfl rfl, lawful.clocked, there⟩,
    follows_begun rfl rfl rfl begun stays⟩

theorem close_continues (lawful : frame.Lawful team now) (point : frame.phase = .leaving) :
    Continues team now (frame.close team) frame := by
  have begun := ne_begin point rfl
  unfold close
  split
  · exact goto_continues lawful begun (ne_begin rfl rfl) trivial
  · exact goto_continues lawful begun (ne_begin rfl rfl) trivial

theorem judged_continues (lawful : frame.Lawful team now)
    (point : frame.phase = .checking) (verdict : Verdict) :
    Continues team now (frame.judged verdict) frame := by
  have begun := ne_begin point rfl
  have bounded : (frame.note (.checked frame.state.output verdict)).Bounded team :=
    lawful.bounded.note trivial
  have clocked : (frame.note (.checked frame.state.output verdict)).Clocked now := by
    apply lawful.clocked.other
    intro time absurd
    cases absurd
  unfold judged
  dsimp only
  split
  · exact ⟨⟨bounded.of_same rfl rfl rfl rfl rfl rfl rfl, clocked, trivial⟩,
      follows_begun rfl rfl rfl begun (ne_begin rfl rfl)⟩
  · exact ⟨⟨bounded.of_same rfl rfl rfl rfl rfl rfl rfl, clocked, trivial⟩,
      follows_begun rfl rfl rfl begun (ne_begin rfl rfl)⟩

/-! ## Delegation -/

theorem fresh_lawful (agent : Nat) (goal : Text) (context : AgentContext) :
    (fresh agent goal context : Frame floats).Lawful team now where
  bounded := {
    steps := Nat.zero_le _
    calls := fun _ _ => Nat.zero_le _
    counted := rfl
    executed := Nat.zero_le _
    indexes := rfl
    orderly := trivial
    asked := fun _ member => absurd member List.not_mem_nil
    artifacts := rfl }
  clocked _ member := absurd member List.not_mem_nil
  atPhase := ⟨rfl, rfl⟩

def Leads (team : Team) (now : ℚ) (frame : Frame floats) : Turn floats → Prop
  | .stays next => Continues team now next frame
  | .delegates next child => Continues team now next frame ∧
      child.Lawful team now ∧ child.Under next
  | .returns finished => finished.frame.Bounded team

theorem delegate_child {texts : Texts floats} {arguments : Members floats}
    {agent max_depth : Nat} {child : Frame floats}
    (delegated : frame.delegate texts arguments agent max_depth = .inr child) :
    frame.state.context.depth < max_depth ∧ ∃ goal parent,
      child = fresh agent goal (frame.state.context.child goal parent) := by
  unfold delegate at delegated
  dsimp only at delegated
  generalize PyDecimal.strip _ = goal at delegated
  split at delegated
  next => cases delegated
  next =>
    split at delegated
    next => cases delegated
    next shallow =>
      cases delegated
      exact ⟨Nat.lt_of_not_le shallow, goal, _, rfl⟩

theorem invoke_leads (texts : Texts floats) (lawful : frame.Lawful team now)
    (point : frame.phase = .preparing call rest started) (tool : AgentTool) :
    Leads team now frame (frame.invoke texts now call rest started tool) := by
  have here := lawful.atPhase
  unfold AtPhase at here
  rw [point] at here
  obtain ⟨pending, room, dated, unspent⟩ := here
  have begun := ne_begin point rfl
  obtain ⟨cut, limited, same, bounded, clocked, agent, state, messages, invocations⟩ :=
    limit_cases lawful.bounded lawful.clocked frame.grace (fun cut limited =>
      (limited.note (.invoked call)).goto (.invoking call rest started tool cut))
  have depth := congrArg (fun state => state.context.depth) state
  have deadline := congrArg (fun state => state.deadline) state
  have still : limited.Fresh := by
    unfold Fresh
    rw [invocations, state]
    exact unspent
  have noted : (limited.note (.invoked call)).Bounded team :=
    bounded.invoke still call
  have quiet : (limited.note (.invoked call)).Clocked now := by
    apply clocked.other
    intro time absurd
    cases absurd
  have told : Pending limited.messages (call :: rest) := by
    rw [messages]
    exact pending
  have roomy : limited.Room team := by
    unfold Room
    rw [state, agent]
    exact room
  have limited_dated : limited.Dated := by
    unfold Dated
    rw [state]
    exact dated
  have moves : ∀ {phase : Phase floats}, phase ≠ .begin →
      ((limited.note (.invoked call)).goto phase).AtPhase team →
        Continues team now ((limited.note (.invoked call)).goto phase) frame :=
    fun stays there =>
      ⟨⟨noted.of_same rfl rfl rfl rfl rfl rfl rfl, quiet, there⟩,
        follows_begun agent depth deadline begun stays⟩
  have waits : Continues team now ((limited.note (.invoked call)).goto
      (.invoking call rest started tool cut)) frame :=
    moves (ne_begin rfl rfl) ⟨told, roomy, limited_dated⟩
  unfold invoke
  rw [same]
  split
  next => exact waits
  next number max_depth share_artifacts handler =>
    split
    next answer _ => exact moves (ne_begin rfl rfl) ⟨told, roomy, limited_dated⟩
    next child delegated =>
      obtain ⟨shallow, goal, parent, rfl⟩ := delegate_child delegated
      refine ⟨waits, fresh_lawful _ _ _, call, rest, started, tool, cut,
        number, max_depth, share_artifacts, rfl, handler, rfl, ?_, shallow, ?_⟩
      · exact congrArg (· + 1) depth.symm
      · intro latest member
        refine .inl ⟨rfl, ?_⟩
        have inherited : limited.state.deadline = some latest := member
        rw [deadline] at inherited
        exact dated.trans inherited

theorem advance_leads (texts : Texts floats) (lawful : frame.Lawful team now)
    {turn : Turn floats} (advanced : frame.advance texts team now = some turn) :
    Leads team now frame turn := by
  unfold advance at advanced
  cases point : frame.phase with
  | begin =>
    rw [point] at advanced
    cases advanced
    exact begin_continues lawful point
  | moderating =>
    rw [point] at advanced
    cases advanced
  | deciding =>
    rw [point] at advanced
    cases advanced
    exact deciding_continues lawful point
  | timing =>
    rw [point] at advanced
    cases advanced
    have here := lawful.atPhase
    unfold AtPhase at here
    rw [point] at here
    exact read_continues lawful (ne_begin point rfl) (ne_begin rfl rfl) here
  | limiting started =>
    rw [point] at advanced
    cases advanced
    exact limiting_continues lawful point
  | asking started cut =>
    rw [point] at advanced
    cases advanced
  | replied started content calls =>
    rw [point] at advanced
    cases advanced
    exact turn_continues texts lawful point
  | failed started raised =>
    rw [point] at advanced
    cases advanced
    exact fail_continues texts lawful point
  | calling calls =>
    rw [point] at advanced
    cases calls with
    | nil =>
      cases advanced
      have here := lawful.atPhase
      unfold AtPhase at here
      rw [point] at here
      exact goto_continues lawful (ne_begin point rfl) (ne_begin rfl rfl)
        ⟨here.1.complete, here.2⟩
    | cons call rest =>
      cases advanced
      exact calling_continues lawful point
  | running call rest =>
    rw [point] at advanced
    cases advanced
    have here := lawful.atPhase
    unfold AtPhase at here
    rw [point] at here
    exact read_continues lawful (ne_begin point rfl) (ne_begin rfl rfl) here
  | preparing call rest started =>
    rw [point] at advanced
    dsimp only at advanced
    split at advanced
    next problem _ _ =>
      cases advanced
      have here := lawful.atPhase
      unfold AtPhase at here
      rw [point] at here
      obtain ⟨pending, room, dated, -⟩ := here
      exact answer_continues texts lawful (ne_begin point rfl) pending room dated rfl _ _
    next tool _ _ =>
      cases advanced
      exact invoke_leads texts lawful point tool
    next => cases advanced
  | invoking call rest started tool cut =>
    rw [point] at advanced
    cases advanced
  | answered call rest started answer =>
    rw [point] at advanced
    cases advanced
    exact conclude_continues texts lawful point
  | leaving =>
    rw [point] at advanced
    cases advanced
    exact close_continues lawful point
  | checking =>
    rw [point] at advanced
    cases advanced
  | recording outcome output origin =>
    rw [point] at advanced
    cases advanced
    exact lawful.bounded.note trivial

/-! ## Events -/

section

variable (lawful : frame.Lawful team now)

include lawful

theorem opened_continues {tool : AgentTool} {cut : Option ℚ}
    (point : frame.phase = .invoking call rest started tool cut)
    (opened_skills : List Text) (answer : Answer floats) :
    Continues team now ((frame.opened opened_skills).goto
      (.answered call rest started answer)) frame := by
  have here := lawful.atPhase
  unfold AtPhase at here
  rw [point] at here
  refine ⟨⟨lawful.bounded.of_same rfl rfl rfl rfl rfl rfl rfl, lawful.clocked,
    here⟩, follows_begun rfl rfl rfl (ne_begin point rfl) (ne_begin rfl rfl)⟩

theorem asking_continues {cut : Option ℚ}
    (point : frame.phase = .asking started cut) {phase : Phase floats}
    (next : (∃ content calls, phase = .replied started content calls) ∨
      ∃ raised, phase = .failed started raised) :
    Continues team now (frame.goto phase) frame := by
  have here := lawful.atPhase
  unfold AtPhase at here
  rw [point] at here
  have begun := ne_begin point rfl
  rcases next with ⟨content, calls, rfl⟩ | ⟨raised, rfl⟩
  · exact goto_continues lawful begun (ne_begin rfl rfl) here
  · exact goto_continues lawful begun (ne_begin rfl rfl) here

theorem hear_continues {event : Event floats} (heard : frame.hear team event = some next) :
    Continues team now next frame := by
  cases event with
  | tick seconds => cases heard
  | run => cases heard
  | cut level => cases heard
  | verdict verdict =>
    unfold hear at heard
    dsimp only at heard
    split at heard
    next point =>
      cases heard
      exact moderated_continues lawful point verdict
    next point =>
      cases heard
      exact judged_continues lawful point verdict
    next => cases heard
  | reply content calls =>
    unfold hear at heard
    dsimp only at heard
    split at heard
    next started cut point =>
      cases heard
      exact asking_continues lawful point (.inl ⟨content, calls, rfl⟩)
    next => cases heard
  | raised raised opened_skills =>
    unfold hear at heard
    dsimp only at heard
    split at heard
    next started cut point =>
      cases heard
      exact asking_continues lawful point (.inr ⟨some raised, rfl⟩)
    next call rest started tool cut point =>
      split at heard
      next =>
        cases heard
        exact opened_continues lawful point opened_skills _
      next => cases heard
    next => cases heard
  | returned result opened_skills =>
    unfold hear at heard
    dsimp only at heard
    split at heard
    next call rest started tool cut point =>
      split at heard
      next =>
        cases heard
        exact opened_continues lawful point opened_skills _
      next => cases heard
    next => cases heard

theorem answered_continues {tool : AgentTool} {cut : Option ℚ}
    (point : frame.phase = .invoking call rest started tool cut)
    (answer : Answer floats) :
    Continues team now (frame.goto (.answered call rest started answer)) frame :=
  opened_continues lawful point frame.state.context.opened_skills answer

theorem expire_continues (expired : frame.expire now = some next) :
    Continues team now next frame := by
  unfold expire at expired
  split at expired
  next started cut point =>
    split at expired
    next =>
      cases expired
      exact asking_continues lawful point (.inr ⟨none, rfl⟩)
    next => cases expired
  next call rest started tool cut point =>
    split at expired
    next =>
      cases expired
      exact answered_continues lawful point .timeout
    next => cases expired
  next => cases expired

end

theorem resume_continues (texts : Texts floats)
    (lawful : frame.Lawful team now) {child : Frame floats}
    (under : child.Under frame) (run : AgentRun floats) :
    Continues team now (frame.resume texts team run) frame := by
  obtain ⟨call, rest, started, tool, cut, agent, max_depth, share_artifacts,
    point, handler, -⟩ := under
  unfold resume
  rw [point]
  dsimp only
  rw [handler]
  exact answered_continues lawful point _

end Frame

/-! ## Whole runs -/

structure World.Lawful (team : Team) (world : World floats) : Prop where
  frames : ∀ frame ∈ world.frames, frame.Lawful team world.now
  stacked : world.frames.IsChain Frame.Under
  finished : ∀ ended ∈ world.finished, ended.frame.Bounded team

namespace World

variable {team : Team} {world next : World floats}

theorem Lawful.continue {frame moved : Frame floats} {waiting : List (Frame floats)} {now : ℚ}
    (frames : ∀ each ∈ frame :: waiting, each.Lawful team now)
    (stacked : (frame :: waiting).IsChain Frame.Under)
    (continues : Frame.Continues team now moved frame) :
    (∀ each ∈ moved :: waiting, each.Lawful team now) ∧
      (moved :: waiting).IsChain Frame.Under := by
  constructor
  · intro each member
    rcases List.mem_cons.mp member with rfl | below
    · exact continues.lawful
    · exact frames each (List.mem_cons_of_mem _ below)
  · cases waiting with
    | nil => exact .singleton _
    | cons parent rest =>
      rw [List.isChain_cons_cons] at stacked ⊢
      exact ⟨stacked.1.follow continues.follows, stacked.2⟩

theorem Lawful.start (agent : Nat) (goal : Text) (context : AgentContext)
    (now : ℚ) : (start agent goal context now : World floats).Lawful team where
  frames frame member := by
    rw [List.mem_singleton.mp member]
    exact Frame.fresh_lawful agent goal context
  stacked := .singleton _
  finished _ member := absurd member List.not_mem_nil

theorem Lawful.tick (lawful : world.Lawful team) {seconds : ℚ} (later : 0 ≤ seconds) :
    ({ world with now := world.now + seconds } : World floats).Lawful team where
  frames frame member := by
    have before := lawful.frames frame member
    refine ⟨before.bounded, ?_, before.atPhase⟩
    intro time read
    exact (before.clocked time read).trans (le_add_of_nonneg_right later)
  stacked := lawful.stacked
  finished := lawful.finished

theorem Lawful.step (texts : Texts floats) (lawful : world.Lawful team)
    {event : Event floats} (stepped : world.step texts team event = some next) :
    next.Lawful team := by
  have moves : ∀ {frame moved waiting}, world.frames = frame :: waiting →
      Frame.Continues team world.now moved frame →
        ({ world with frames := moved :: waiting } : World floats).Lawful team := by
    intro frame moved waiting stack continues
    have frames := lawful.frames
    have stacked := lawful.stacked
    rw [stack] at frames stacked
    obtain ⟨each, chain⟩ := Lawful.continue frames stacked continues
    exact ⟨each, chain, lawful.finished⟩
  have hears : ∀ {other : Event floats},
      (world.frames = [] → world.step texts team other = none) →
      (∀ frame waiting, world.frames = frame :: waiting →
        world.step texts team other = (frame.hear team other).map fun frame =>
          { world with frames := frame :: waiting }) →
      world.step texts team other = some next → next.Lawful team := by
    intro other deaf hearing heard
    cases stack : world.frames with
    | nil =>
      rw [deaf stack] at heard
      cases heard
    | cons frame waiting =>
      rw [hearing frame waiting stack] at heard
      obtain ⟨moved, answered, rfl⟩ := Option.map_eq_some_iff.mp heard
      have here := lawful.frames frame (by rw [stack]; exact .head _)
      exact moves stack (Frame.hear_continues here answered)
  cases event with
  | tick seconds =>
    unfold World.step at stepped
    dsimp only at stepped
    split at stepped
    next later =>
      cases stepped
      exact lawful.tick later
    next => cases stepped
  | verdict verdict =>
    exact hears (fun stack => by simp only [World.step, stack])
      (fun _ _ stack => by simp only [World.step, stack]) stepped
  | reply content calls =>
    exact hears (fun stack => by simp only [World.step, stack])
      (fun _ _ stack => by simp only [World.step, stack]) stepped
  | raised raised opened_skills =>
    exact hears (fun stack => by simp only [World.step, stack])
      (fun _ _ stack => by simp only [World.step, stack]) stepped
  | returned result opened_skills =>
    exact hears (fun stack => by simp only [World.step, stack])
      (fun _ _ stack => by simp only [World.step, stack]) stepped
  | cut level =>
    unfold World.step at stepped
    dsimp only at stepped
    have stacked := lawful.stacked.drop level
    split at stepped
    next => cases stepped
    next frame waiting stack =>
      obtain ⟨moved, expired, rfl⟩ := Option.map_eq_some_iff.mp stepped
      rw [stack] at stacked
      have each : ∀ below ∈ frame :: waiting, below.Lawful team world.now := by
        intro below member
        rw [← stack] at member
        exact lawful.frames below (List.mem_of_mem_drop member)
      have continues := Frame.expire_continues (each frame (.head _)) expired
      obtain ⟨frames, chain⟩ := Lawful.continue each stacked continues
      exact ⟨frames, chain, lawful.finished⟩
  | run =>
    unfold World.step at stepped
    dsimp only at stepped
    split at stepped
    next => cases stepped
    next frame waiting stack =>
      have here := lawful.frames frame (by rw [stack]; exact .head _)
      split at stepped
      next => cases stepped
      next moved advanced =>
        cases stepped
        exact moves stack (Frame.advance_leads texts here advanced)
      next moved child advanced =>
        cases stepped
        obtain ⟨continues, fresh, under⟩ :=
          Frame.advance_leads texts here advanced
        obtain ⟨frames, chain, finished⟩ := moves stack continues
        refine ⟨?_, .cons_cons under chain, finished⟩
        intro each member
        rcases List.mem_cons.mp member with rfl | below
        · exact fresh
        · exact frames each below
      next ended advanced =>
        cases stepped
        have bounded : ended.frame.Bounded team :=
          Frame.advance_leads texts here advanced
        have finished : ∀ other ∈ ended :: world.finished, other.frame.Bounded team := by
          intro other member
          rcases List.mem_cons.mp member with rfl | earlier
          · exact bounded
          · exact lawful.finished other earlier
        have frames := lawful.frames
        have stacked := lawful.stacked
        rw [stack] at frames stacked
        cases waiting with
        | nil => exact ⟨fun _ member => absurd member List.not_mem_nil, .nil, finished⟩
        | cons parent rest =>
          rw [List.isChain_cons_cons] at stacked
          have resumed := Frame.resume_continues texts
            (frames parent (.tail _ (.head _))) stacked.1 ended.run
          obtain ⟨each, chain⟩ := Lawful.continue
            (fun below member => frames below (.tail _ member)) stacked.2
            resumed
          exact ⟨each, chain, finished⟩

def runs (world : World floats) : List (Frame floats) :=
  world.frames ++ world.finished.map Finished.frame

end World

/-- Every run stays within its budget, its transcript is in order, no call is
taken up after a reading at its deadline, its artifacts are the ones it began
with and stored; and delegated runs keep to the depth and the deadline that
they were given. -/
theorem agent_runs_bounded (texts : Texts floats) (team : Team)
    (agent : Nat) (goal : Text) (context : AgentContext) (now : ℚ)
    (events : List (Event floats)) (world : World floats)
    (ran : World.exec texts team (.start agent goal context now) events = some world) :
    (∀ run ∈ world.runs, run.Bounded team ∧ ∀ entry ∈ run.stored,
        run.state.context.artifacts.entries.lookup entry.1 = some entry.2) ∧
      world.frames.IsChain Frame.Under := by
  have lawful : world.Lawful team :=
    Runs.exec_invariant (fun _ _ _ lawful => World.Lawful.step texts lawful)
      (World.Lawful.start agent goal context now) ran
  refine ⟨?_, lawful.stacked⟩
  intro run member
  have bounded : run.Bounded team := by
    rcases List.mem_append.mp member with going | ended
    · exact (lawful.frames run going).bounded
    · obtain ⟨finished, inside, rfl⟩ := List.mem_map.mp ended
      exact lawful.finished finished inside
  refine ⟨bounded, ?_⟩
  intro entry stored
  rw [← bounded.artifacts] at stored
  exact Artifacts.lookup_of_mem stored

/-! ## A call that the check lets through in time -/

def noFloats : FloatTexts := ⟨Empty, Empty.elim, fun _ => none⟩

def plainTexts : Texts noFloats := ⟨id, id, fun _ => [], id, id⟩

def hasty : Agent where
  name := "hasty".toList
  system_prompt := "Answer.".toList
  tools := [⟨"look".toList, .function⟩]
  skills := []
  budget := {
    max_steps := 4
    max_seconds := some 10
    max_tool_calls := some 2
    steps_positive := by decide
    seconds_positive := by decide
    calls_positive := by decide }
  moderated := false
  expose_tool_errors := false

def plainContext : AgentContext where
  goal := []
  artifacts := .empty
  depth := 0
  deadline := none
  parent := none
  agent := none
  owner := none
  opened_skills := []

def lookCall : ToolCall noFloats := ⟨none, "look".toList, .none⟩

/-- The clock is before the deadline when the call is taken up and after it
when the handler is invoked. -/
def lateCall : List (Event noFloats) :=
  [.run, .run, .run, .run, .reply [] [lookCall], .run, .tick 9, .run, .tick 3, .run, .run]

theorem agent_runs_bounded_late : ∃ world, World.exec plainTexts (fun _ => hasty)
        (.start 0 "Look.".toList plainContext 0) lateCall = some world ∧
      (∀ run ∈ world.runs, run.Bounded (fun _ => hasty) ∧ ∀ entry ∈ run.stored,
          run.state.context.artifacts.entries.lookup entry.1 = some entry.2) ∧
      world.frames.IsChain Frame.Under := by
  have enabled : (World.exec plainTexts (fun _ => hasty)
      (.start 0 "Look.".toList plainContext 0) lateCall).isSome = true := by
    with_unfolding_all decide
  obtain ⟨world, ran⟩ := Option.isSome_iff_exists.mp enabled
  exact ⟨world, ran, agent_runs_bounded plainTexts (fun _ => hasty) 0
    "Look.".toList plainContext 0 lateCall world ran⟩

def Happening.readFrom (limit : ℚ) : Happening floats → Bool
  | .read time => decide (limit ≤ time)
  | _ => false

def invokedLate (limit : ℚ) : List (Happening floats) → Bool
  | [] => false
  | .invoked _ :: earlier => earlier.any (Happening.readFrom limit) || invokedLate limit earlier
  | _ :: earlier => invokedLate limit earlier

/-- The handler of a call that was taken up in time is invoked for its grace,
although the readings of the call itself show that the deadline has passed. -/
theorem late_call_invoked : ∃ world, World.exec plainTexts (fun _ => hasty)
        (.start 0 "Look.".toList plainContext 0) lateCall = some world ∧
      ∃ run ∈ world.runs, run.state.deadline.any (fun limit =>
        invokedLate limit run.history) = true := by
  have late : (World.exec plainTexts (fun _ => hasty)
      (.start 0 "Look.".toList plainContext 0) lateCall).any (fun world =>
        world.runs.any fun run => run.state.deadline.any fun limit =>
          invokedLate limit run.history) = true := by
    with_unfolding_all decide
  obtain ⟨world, ran, some_run⟩ := (Option.any_eq_true _ _).mp late
  exact ⟨world, ran, List.any_eq_true.mp some_run⟩

end TempestSdk.Agents
