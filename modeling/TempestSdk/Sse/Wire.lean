import TempestSdk.Sse.ServerSentEvent
import TempestSdk.Sse.StreamDelivery

/-!
# The wire of an event stream

What `stream` writes, event by event and beat by beat, and what a browser hears
of it.  An event here is a frame that a browser reads as it was given.
-/

namespace TempestSdk.Sse

open EventSource

/-- How data become text; `""` is without a letter. -/
structure Payload (Data : Type) where
  render : Data → List Char
  empty : Data
  render_empty : render empty = []

variable {Data : Type} (payload : Payload Data)

structure Readable where
  frame : ServerSentEvent Data
  oneLine : frame.OneLine
  framed : frame.Framed payload.render

/-- `_heartbeat_frame`, when no `heartbeat_event` is configured. -/
def heartbeatFrame : Readable payload where
  frame := ⟨payload.empty, none, none, none, some "keepalive".toList⟩
  oneLine := ⟨nofun, nofun⟩
  framed := by
    refine ⟨?_, nofun, nofun, nofun, ?_, ?_⟩
    · rintro comment ⟨⟩
      unfold ServerSentEvent.Contained
      decide
    · simp [payload.render_empty, TextLines.BreaksOnly]
    · simp [payload.render_empty, TextLines.EndsInside]

/-- A stream, and what its response has written. -/
structure Connection where
  feed : Feed (Readable payload)
  written : List Char

variable {payload}

def encoded (events : List (Readable payload)) : List Char :=
  events.flatMap fun event => event.frame.encode payload.render

/-- What a turn of `stream` yields. -/
def EventStream.yields (stream : EventStream (Readable payload)) :
    Action (Readable payload) → List (Readable payload)
  | .heartbeat => [heartbeatFrame payload]
  | action => stream.takenBy action

def Connection.start (maxQueue : Nat) (overflow : OverflowPolicy) : Connection payload where
  feed := .start maxQueue overflow
  written := []

def Connection.step (connection : Connection payload) (action : Action (Readable payload)) :
    Option (Connection payload) :=
  (connection.feed.step action).map fun feed =>
    ⟨feed, connection.written ++ encoded (connection.feed.stream.yields action)⟩

def hear (heard : List Char × List Message) (event : Readable payload) :
    List Char × List Message :=
  (event.frame.id.getD heard.1, heard.2 ++ event.frame.messages payload.render heard.1)

def heard (events : List (Readable payload)) : List Char × List Message :=
  events.foldl hear ([], [])

theorem hear_heartbeat (heard : List Char × List Message) :
    hear heard (heartbeatFrame payload) = heard := by
  simp [hear, heartbeatFrame, ServerSentEvent.messages, ServerSentEvent.isControlFrame,
    payload.render_empty]

structure Hears (written : List Char) (heard : List Char × List Message) : Prop where
  ended : written = [] ∨ ∃ text, written = text ++ ['\n']
  idle : (interpret .fresh written).Idle
  buffered : (interpret .fresh written).idBuffer = (interpret .fresh written).lastEventId
  same : ((interpret .fresh written).lastEventId, (interpret .fresh written).dispatched) = heard

theorem Hears.event {written : List Char} {heard : List Char × List Message}
    (before : Hears written heard) (event : Readable payload) :
    Hears (written ++ event.frame.encode payload.render) (hear heard event) := by
  have split : interpret .fresh (written ++ event.frame.encode payload.render) =
      interpret (interpret .fresh written) (event.frame.encode payload.render) := by
    rcases before.ended with rfl | ⟨text, rfl⟩
    · rfl
    · rw [List.append_assoc]
      exact interpret_append _ text (ServerSentEvent.withoutMark_encode event.frame)
  have read := ServerSentEvent.roundTrips_of_framed event.oneLine event.framed
  have ids := @ServerSentEvent.interpret_encode _ payload.render _ event.oneLine
    event.framed.comment _ before.idle
  constructor
  · right
    unfold ServerSentEvent.encode
    rw [List.append_cons, ← List.append_assoc, ← List.append_assoc]
    exact ⟨_, rfl⟩
  · rw [split]
    exact read.idle _ before.idle
  · rw [split, ids]
  · rw [split, read.id _ before.idle, read.dispatched _ before.idle, before.buffered,
      ← before.same]
    rfl

theorem Hears.events {written : List Char} {heard : List Char × List Message}
    (before : Hears written heard) (events : List (Readable payload)) :
    Hears (written ++ encoded events) (events.foldl hear heard) := by
  induction events generalizing written heard with
  | nil => simpa [encoded] using before
  | cons event events induction =>
    have later := induction (before.event event)
    rwa [List.append_assoc] at later

theorem Connection.step_hears {connection next : Connection payload}
    {action : Action (Readable payload)}
    (before : Hears connection.written (heard connection.feed.delivered))
    (taken : connection.step action = some next) :
    Hears next.written (heard next.feed.delivered) := by
  obtain ⟨feed, stepped, rfl⟩ := Option.map_eq_some_iff.mp taken
  obtain ⟨stream, moved, rfl⟩ := Option.map_eq_some_iff.mp stepped
  have after := before.events (connection.feed.stream.yields action)
  unfold heard at after ⊢
  rw [List.foldl_append]
  cases action with
  | heartbeat => rwa [EventStream.yields, List.foldl_cons, hear_heartbeat] at after
  | _ => exact after

def plainText : Payload (List Char) := ⟨id, [], rfl⟩

end TempestSdk.Sse
