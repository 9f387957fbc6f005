import Mathlib.Algebra.Order.Ring.Rat
import Mathlib.Tactic.Linarith
import TempestSdk.Library.Runs

/-!
# Heartbeat of a WebSocket

A frame of the peer waits at the socket until the handler takes it; only then
is the peer seen.  The watchdog closes a connection whose peer was not seen for
too long.
-/

namespace TempestSdk.Heartbeat

structure Frame where
  size : Nat
  pong : Bool
  arrived : ℚ

structure Close where
  code : Nat
  moment : ℚ
  /-- When the last frame of the peer had reached the socket. -/
  latest : Option ℚ

structure Limits where
  timeout_seconds : ℚ
  max_message_bytes : Option Nat

structure Connection where
  clock : ℚ
  last_seen : ℚ
  waiting : List Frame
  /-- The handler is inside `receive`. -/
  receiving : Bool
  /-- The application state of the socket is `CONNECTED`. -/
  connected : Bool
  beating : Bool
  latest : Option ℚ
  closed : Option Close

def opened (clock : ℚ) : Connection :=
  ⟨clock, clock, [], false, true, true, none, none⟩

inductive Event where
  | arrive (size : Nat) (pong : Bool)
  /-- The handler calls `receive`. -/
  | receive
  /-- The next frame gets to the handler, or is swallowed. -/
  | take
  /-- The handler calls `touch`. -/
  | touch
  /-- The ping task wakes up; the ping may not get out. -/
  | beat (sent : Bool)
  | leave

def Connection.close (connection : Connection) (code : Nat) (now : ℚ) : Connection :=
  { connection with
    connected := false
    closed := if connection.connected then some ⟨code, now, connection.latest⟩
      else connection.closed }

/-- What `guarded_receive` makes of the next frame. -/
def Connection.take (limits : Limits) (connection : Connection) (now : ℚ)
    (frame : Frame) (waiting : List Frame) : Connection :=
  let taken := { connection with waiting := waiting }
  if limits.max_message_bytes.any fun most => decide (most < frame.size) then
    { taken with receiving := false }.close 1009 now
  else { taken with last_seen := now, receiving := frame.pong }

/-- One turn of `_beat`. -/
def Connection.beat (limits : Limits) (connection : Connection) (now : ℚ)
    (sent : Bool) : Connection :=
  if connection.connected = false then { connection with beating := false }
  else if limits.timeout_seconds < now - connection.last_seen then
    { connection with beating := false }.close 4408 now
  else { connection with beating := sent }

def Connection.handle (limits : Limits) (connection : Connection) (now : ℚ) :
    Event → Option Connection
  | .arrive size pong => some { connection with
      waiting := connection.waiting ++ [⟨size, pong, now⟩], latest := some now }
  | .receive => some { connection with receiving := true }
  | .take =>
    match connection.receiving, connection.waiting with
    | true, frame :: waiting => some (connection.take limits now frame waiting)
    | _, _ => none
  | .touch => some { connection with last_seen := now }
  | .beat sent => if connection.beating then some (connection.beat limits now sent) else none
  | .leave => some { connection with connected := false }

def step (limits : Limits) (connection : Connection) (event : ℚ × Event) : Option Connection :=
  if connection.clock ≤ event.1 then
    { connection with clock := event.1 }.handle limits event.1 event.2
  else none

def Fair (limits : Limits) (connection : Connection) : Prop :=
  ∀ close, connection.closed = some close → close.code = 4408 →
    ∀ arrived, close.latest = some arrived → limits.timeout_seconds < close.moment - arrived

/-- When the watchdog is about to close, no frame that came within the timeout
waits for the handler. -/
def Attended (limits : Limits) (connection : Connection) (event : ℚ × Event) : Prop :=
  (∃ sent, event.2 = .beat sent) → (step limits connection event).isSome →
    connection.connected = true →
    limits.timeout_seconds < event.1 - connection.last_seen →
    ∀ frame ∈ connection.waiting, limits.timeout_seconds < event.1 - frame.arrived

/-- The last frame waits at the socket, or the peer was seen since. -/
structure Sound (connection : Connection) : Prop where
  known : ∀ frame ∈ connection.waiting, ∃ arrived,
    connection.latest = some arrived ∧ frame.arrived ≤ arrived
  past : ∀ arrived, connection.latest = some arrived → arrived ≤ connection.clock
  seen : connection.connected = true → ∀ arrived,
    connection.latest = some arrived → arrived ≤ connection.last_seen ∨
      ∃ frame ∈ connection.waiting, frame.arrived = arrived

variable {limits : Limits} {connection next : Connection} {now : ℚ}

theorem fair_close {code : Nat} (other : code ≠ 4408)
    (fair : Fair limits connection) : Fair limits (connection.close code now) := by
  intro close closed
  unfold Connection.close at closed
  dsimp only at closed
  split at closed
  · intro same
    rw [← Option.some.inj closed] at same
    exact absurd same other
  · exact fair close closed

section

variable (sound : Sound connection)

include sound

theorem Sound.arrive (frame : Frame) (latest : frame.arrived = connection.clock) :
    Sound { connection with
      waiting := connection.waiting ++ [frame], latest := some frame.arrived } := by
  refine ⟨?_, ?_, ?_⟩
  · intro other member
    refine ⟨frame.arrived, rfl, ?_⟩
    rcases List.mem_append.mp member with earlier | last
    · obtain ⟨arrived, known, before⟩ := sound.known other earlier
      exact before.trans (latest ▸ sound.past arrived known)
    · rw [List.mem_singleton.mp last]
  · intro arrived same
    rw [← Option.some.inj same, latest]
  · intro _ arrived same
    right
    exact ⟨frame, by simp, Option.some.inj same⟩

theorem Sound.take {frame : Frame} {waiting : List Frame}
    (queue : connection.waiting = frame :: waiting) :
    Sound (connection.take limits connection.clock frame waiting) := by
  have known : ∀ other ∈ waiting, ∃ arrived,
      connection.latest = some arrived ∧ other.arrived ≤ arrived := by
    intro other member
    exact sound.known other (queue ▸ List.mem_cons_of_mem _ member)
  unfold Connection.take
  dsimp only
  split
  · exact ⟨known, sound.past, nofun⟩
  · exact ⟨known, sound.past, fun _ arrived same => .inl (sound.past arrived same)⟩

theorem closes_fairly_iff (silent : limits.timeout_seconds < now - connection.last_seen)
    (on : connection.connected = true) :
    (∀ frame ∈ connection.waiting, limits.timeout_seconds < now - frame.arrived) ↔
      ∀ arrived, connection.latest = some arrived → limits.timeout_seconds < now - arrived := by
  constructor
  · intro attended arrived latest
    rcases sound.seen on arrived latest with seen | ⟨frame, member, rfl⟩
    · linarith
    · exact attended frame member
  · intro fair frame member
    obtain ⟨arrived, latest, before⟩ := sound.known frame member
    linarith [fair arrived latest]

theorem step_spec (fair : Fair limits connection)
    {event : ℚ × Event} (taken : step limits connection event = some next) :
    (Attended limits connection event ↔ Fair limits next) ∧ Sound next := by
  have enabled : (step limits connection event).isSome := by simp [taken]
  unfold step at taken
  split at taken
  case isFalse => cases taken
  case isTrue after =>
    obtain ⟨now, event⟩ := event
    have later : Sound { connection with clock := now } :=
      ⟨sound.known, fun arrived same => (sound.past arrived same).trans after, sound.seen⟩
    cases event with
    | arrive size pong =>
      cases taken
      exact ⟨iff_of_true nofun fair, later.arrive ⟨size, pong, now⟩ rfl⟩
    | receive =>
      cases taken
      exact ⟨iff_of_true nofun fair, later.known, later.past, later.seen⟩
    | touch =>
      cases taken
      exact ⟨iff_of_true nofun fair, later.known, later.past,
        fun _ arrived same => .inl (later.past arrived same)⟩
    | leave =>
      cases taken
      exact ⟨iff_of_true nofun fair, later.known, later.past, nofun⟩
    | take =>
      unfold Connection.handle at taken
      dsimp only at taken
      split at taken
      case h_2 => cases taken
      case h_1 frame waiting _ queue =>
        cases taken
        refine ⟨iff_of_true nofun ?_, later.take queue⟩
        unfold Connection.take
        dsimp only
        split
        · exact fair_close (by decide) fair
        · exact fair
    | beat sent =>
      unfold Connection.handle Connection.beat at taken
      dsimp only at taken
      split at taken
      case isFalse => cases taken
      case isTrue =>
        cases taken
        split
        case isTrue off =>
          refine ⟨iff_of_true ?_ fair, later.known, later.past, later.seen⟩
          intro _ _ on
          rw [off] at on
          cases on
        case isFalse off =>
          have on : connection.connected = true := by simpa using off
          split
          case isFalse soon =>
            exact ⟨iff_of_true (fun _ _ _ silent => absurd silent soon) fair,
              later.known, later.past, later.seen⟩
          case isTrue silent =>
            have same := closes_fairly_iff sound silent on
            refine ⟨⟨?_, ?_⟩, later.known, later.past, nofun⟩
            · intro attended close closed _
              simp only [Connection.close, on, if_true] at closed
              rw [← Option.some.inj closed]
              exact same.mp (attended ⟨sent, rfl⟩ enabled on silent)
            · intro ends _ _ _ _
              apply same.mpr
              apply ends ⟨4408, now, connection.latest⟩ _ rfl
              simp [Connection.close, on]

end

theorem Sound.opened (clock : ℚ) : Sound (opened clock) where
  known _ member := by cases member
  past _ unknown := by cases unknown
  seen _ _ unknown := by cases unknown

theorem Fair.opened (clock : ℚ) : Fair limits (opened clock) := by
  intro close closed
  cases closed

/-- Over every schedule of the handler, the watchdog and the peer, no live
peer is closed exactly when no frame that came in time waits at a close. -/
theorem live_peers_kept_iff (limits : Limits) (clock : ℚ) (schedule : List (ℚ × Event)) :
    (∀ front, front <+: schedule → ∀ reached,
        Runs.exec (step limits) (opened clock) front = some reached → Fair limits reached) ↔
      Runs.Meets (step limits) (Attended limits) (opened clock) schedule := by
  refine (Runs.meets_iff_well (fun _ _ _ sound fair taken =>
    (step_spec sound fair taken).1) (fun _ _ _ sound fair taken _ =>
    (step_spec sound fair taken).2) ?_ (Sound.opened clock)
    (Fair.opened clock)).symm
  intro connection event disabled _ enabled
  simp [disabled] at enabled

theorem live_peer_closed : ∃ reached, Runs.exec (step ⟨60, none⟩) (opened 0)
        [(10, .arrive 1 false), (11, .receive), (11, .take),
          (20, .arrive 1 false), (70, .arrive 1 false), (72, .beat true)] =
        some reached ∧
      reached.closed.map Close.code = some 4408 ∧
      ¬ Fair ⟨60, none⟩ reached := by
  refine ⟨_, rfl, by with_unfolding_all decide, ?_⟩
  intro fair
  have late := fair ⟨4408, 72, some 70⟩ (by with_unfolding_all rfl) rfl 70 rfl
  norm_num at late

end TempestSdk.Heartbeat
