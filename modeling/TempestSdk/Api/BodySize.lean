import TempestSdk.Library.Runs

/-!
# Body size limit

The middleware counts the body bytes that the app receives, and answers 413 in
the place of the app.  The app may receive and send in any order and as often
as it likes.
-/

namespace TempestSdk.BodySize

inductive Message where
  | request (body : List UInt8) (more_body : Bool)
  | disconnect

def Message.body : Message → List UInt8
  | .request body _ => body
  | .disconnect => []

inductive Reply where
  | start (status : Nat)
  | body (content : String)

def Reply.isStart : Reply → Bool
  | .start _ => true
  | .body _ => false

/-- `_reject`. -/
def rejection (max_bytes : Nat) : List Reply :=
  [.start 413, .body ("\x7b\"detail\":\"Request body too large.\"," ++
    "\"code\":\"REQUEST_BODY_TOO_LARGE\",\"details\":\x7b\"max_bytes\":" ++
    toString max_bytes ++ "\x7d\x7d")]

/-- One call of the app; `receive` comes with what the server has. -/
inductive AppCall where
  | receive (message : Message)
  | send (reply : Reply)

/-- The counts of the middleware, what the app was handed, and what reached
the server. -/
structure Served where
  seen : Nat
  answered : Bool
  response_started : Bool
  handed : List Message
  sent : List Reply
  started : Bool
  /-- The limit was exceeded before the app started its response. -/
  exceeded : Bool

namespace Served

def fresh : Served := ⟨0, false, false, [], [], false, false⟩

def receive (max_bytes : Nat) (served : Served) (message : Message) : Served :=
  match message with
  | .disconnect => { served with handed := served.handed ++ [message] }
  | .request body _ =>
    let seen := served.seen + body.length
    let counted :=
      { served with
        seen := seen
        exceeded := served.exceeded || (decide (max_bytes < seen) && !served.started) }
    if max_bytes < seen ∧ served.answered = false then
      let told := { counted with handed := served.handed ++ [.disconnect] }
      if served.response_started then told
      else
        { told with
          answered := true
          sent := served.sent ++ rejection max_bytes }
    else { counted with handed := served.handed ++ [message] }

def send (served : Served) (reply : Reply) : Served :=
  let asked := { served with started := served.started || reply.isStart }
  if served.answered then asked
  else
    { asked with
      response_started := served.response_started || reply.isStart
      sent := served.sent ++ [reply] }

def step (max_bytes : Nat) (served : Served) : AppCall → Option Served
  | .receive message => some (served.receive max_bytes message)
  | .send reply => some (served.send reply)

def bytes (messages : List Message) : Nat :=
  (messages.map fun message => message.body.length).sum

structure Limited (max_bytes : Nat) (served : Served) : Prop where
  bytes : bytes served.handed ≤ max_bytes
  one_start : served.sent.countP Reply.isStart ≤ 1
  refused : served.exceeded = true → ∃ before,
    served.sent = before ++ rejection max_bytes ∧ before.countP Reply.isStart = 0

/-- After the 413 the app is handed no more than there was room for, and it
does not start its response twice. -/
def Tame (max_bytes : Nat) (served : Served) : AppCall → Prop
  | .receive message => served.answered = true →
      bytes served.handed + message.body.length ≤ max_bytes
  | .send reply => reply.isStart = true → served.response_started = true →
      served.answered = true

/-- What the counts say of what was handed and sent. -/
structure Sound (max_bytes : Nat) (served : Served) : Prop where
  handed : served.answered = false → served.seen ≤ max_bytes → bytes served.handed = served.seen
  started : served.answered = false → served.response_started = served.started
  exceeded : served.exceeded = served.answered
  early : served.answered = false → served.started = false → served.seen ≤ max_bytes
  starts : served.answered = false →
    (served.response_started = true ↔ 0 < served.sent.countP Reply.isStart)

variable {max_bytes : Nat} {served next : Served} {call : AppCall}

theorem bytes_append (handed : List Message) (message : Message) :
    bytes (handed ++ [message]) = bytes handed + message.body.length := by
  simp [bytes]

theorem Sound.receive (sound : served.Sound max_bytes)
    (limited : served.Limited max_bytes) (message : Message) :
    (served.Tame max_bytes (.receive message) ↔
        (served.receive max_bytes message).Limited max_bytes) ∧
      (served.receive max_bytes message).Sound max_bytes := by
  obtain ⟨bytes_le, one_start, refused⟩ := limited
  obtain ⟨handed, started, exceeded, early, starts⟩ := sound
  cases message with
  | disconnect =>
    have same : bytes (served.handed ++ [.disconnect]) = bytes served.handed :=
      bytes_append _ _
    refine ⟨iff_of_true (fun _ => bytes_le) ⟨same ▸ bytes_le, one_start, refused⟩,
      ?_, started, exceeded, early, starts⟩
    exact fun waiting room => same.trans (handed waiting room)
  | request body more =>
    have more_bytes : bytes (served.handed ++ [.request body more]) =
        bytes served.handed + body.length := bytes_append _ _
    have no_bytes : bytes (served.handed ++ [.disconnect]) =
        bytes served.handed := bytes_append _ _
    unfold Served.receive Tame
    dsimp only [Message.body]
    split
    case isFalse passes =>
      refine ⟨⟨fun tame => ⟨?_, one_start, ?_⟩, fun after _ => ?_⟩, ?_⟩
      · cases answered : served.answered with
        | true => exact more_bytes ▸ tame answered
        | false =>
          have room : served.seen + body.length ≤ max_bytes :=
            Nat.not_lt.mp fun beyond => passes ⟨beyond, answered⟩
          have before := handed answered (by omega)
          dsimp only
          omega
      · intro now_exceeded
        apply refused
        cases answered : served.answered with
        | true => exact exceeded.trans answered
        | false =>
          have room : ¬ max_bytes < served.seen + body.length :=
            fun beyond => passes ⟨beyond, answered⟩
          simpa [room] using now_exceeded
      · exact more_bytes ▸ after.bytes
      · have room : served.answered = false → served.seen + body.length ≤ max_bytes :=
          fun answered => Nat.not_lt.mp fun beyond => passes ⟨beyond, answered⟩
        refine ⟨?_, started, ?_, fun answered _ => room answered, starts⟩
        · intro answered _
          have before := handed answered (by have := room answered; omega)
          dsimp only
          omega
        · cases answered : served.answered with
          | true => simp [exceeded, answered]
          | false => simp [exceeded, answered, Nat.not_lt.mpr (room answered)]
    case isTrue beyond =>
      obtain ⟨over_limit, answered⟩ := beyond
      have same := started answered
      split
      case isTrue begun =>
        have app_started : served.started = true := same ▸ begun
        refine ⟨iff_of_true (fun told => ?_) ⟨no_bytes ▸ bytes_le, one_start, ?_⟩,
          ?_, started, ?_, ?_, starts⟩
        · rw [answered] at told
          cases told
        · intro now_exceeded
          exact refused (by simpa [app_started] using now_exceeded)
        · intro _ room
          dsimp only at room
          omega
        · simp [exceeded, app_started]
        · intro _ not_started
          dsimp only at not_started
          rw [app_started] at not_started
          cases not_started
      case isFalse waiting =>
        have none_sent : served.sent.countP Reply.isStart = 0 := by
          have none_yet := mt (starts answered).mpr waiting
          omega
        have one : (served.sent ++ rejection max_bytes).countP Reply.isStart = 1 := by
          rw [List.countP_append, none_sent]
          rfl
        refine ⟨iff_of_true (fun told => ?_)
          ⟨no_bytes ▸ bytes_le, Nat.le_of_eq one, fun _ => ⟨_, rfl, none_sent⟩⟩,
          nofun, nofun, ?_, nofun, nofun⟩
        · rw [answered] at told
          cases told
        · simp [over_limit, ← same, waiting]

theorem Sound.send (sound : served.Sound max_bytes)
    (limited : served.Limited max_bytes) (reply : Reply) :
    (served.Tame max_bytes (.send reply) ↔ (served.send reply).Limited max_bytes) ∧
      (served.send reply).Sound max_bytes := by
  obtain ⟨bytes_le, one_start, refused⟩ := limited
  obtain ⟨handed, started, exceeded, early, starts⟩ := sound
  unfold Served.send Tame
  dsimp only
  split
  case isTrue answered =>
    have never : ¬ served.answered = false := by simp [answered]
    exact ⟨iff_of_true (fun _ _ => answered) ⟨bytes_le, one_start, refused⟩,
      handed, fun waiting => absurd waiting never, exceeded,
      fun waiting => absurd waiting never, starts⟩
  case isFalse waiting =>
    have answered : served.answered = false := by simpa using waiting
    have count : (served.sent ++ [reply]).countP Reply.isStart =
        served.sent.countP Reply.isStart + if reply.isStart then 1 else 0 := by
      simp [List.countP_append, List.countP_cons]
    have sent := starts answered
    have not_exceeded : ¬ served.exceeded = true := by simp [exceeded, answered]
    refine ⟨⟨fun tame => ⟨bytes_le, ?_, fun now => absurd now not_exceeded⟩,
      fun after kind begun => ?_⟩, handed, ?_, exceeded, ?_, ?_⟩
    · dsimp only
      rw [count]
      split
      case isTrue kind =>
        have unsent := mt (fun some_sent => tame kind (sent.mpr some_sent)) waiting
        omega
      case isFalse => omega
    · have one := after.one_start
      dsimp only at one
      rw [count, if_pos kind] at one
      have some_sent := sent.mp begun
      omega
    · intro _
      dsimp only
      rw [started answered]
    · intro _ not_started
      exact early answered (by
        cases begun : served.started with
        | true => simp [begun] at not_started
        | false => rfl)
    · intro _
      dsimp only
      rw [count, Bool.or_eq_true, sent]
      cases reply.isStart <;> simp

theorem step_spec (sound : served.Sound max_bytes) (limited : served.Limited max_bytes)
    (taken : served.step max_bytes call = some next) :
    (served.Tame max_bytes call ↔ next.Limited max_bytes) ∧ next.Sound max_bytes := by
  cases call with
  | receive message =>
    cases taken
    exact sound.receive limited message
  | send reply =>
    cases taken
    exact sound.send limited reply

theorem Sound.fresh : fresh.Sound max_bytes :=
  ⟨fun _ _ => rfl, fun _ => rfl, rfl, fun _ _ => Nat.zero_le _, by decide⟩

theorem Limited.fresh : fresh.Limited max_bytes :=
  ⟨Nat.zero_le _, Nat.zero_le _, nofun⟩

end Served

structure BodySizeLimitMiddleware where
  max_bytes : Int
  exclude_paths : List String

structure Scope where
  type : String
  path : String
  headers : List (String × List UInt8)

/-- `_is_excluded`. -/
def BodySizeLimitMiddleware.excludes (middleware : BodySizeLimitMiddleware)
    (path : String) : Bool :=
  middleware.exclude_paths.any fun start =>
    start.toList.isPrefixOf path.toList

/-- The size in the first `content-length`; `int` is what Python reads in the
bytes of a header. -/
def Scope.declared (int : List UInt8 → Option Int) (scope : Scope) : Int :=
  match scope.headers.find? fun header => header.1 == "content-length" with
  | some (_, value) => (int value).getD 0
  | none => 0

/-- What comes of the calls of the app, and nothing when the middleware does
not watch it. -/
def BodySizeLimitMiddleware.call (middleware : BodySizeLimitMiddleware)
    (int : List UInt8 → Option Int) (scope : Scope) (calls : List AppCall) :
    Option Served :=
  if scope.type ≠ "http" ∨ middleware.max_bytes ≤ 0 then none
  else if middleware.excludes scope.path then none
  else
    let max_bytes := middleware.max_bytes.toNat
    if middleware.max_bytes < scope.declared int then
      some { Served.fresh with
        sent := rejection max_bytes
        exceeded := true }
    else Runs.exec (Served.step max_bytes) .fresh calls

open Served in
/-- The limit holds after every call of the app exactly when the app is
refused by the declared size or tame to the end. -/
theorem body_limited_iff (middleware : BodySizeLimitMiddleware)
    (int : List UInt8 → Option Int) (scope : Scope) (calls : List AppCall) :
    (∀ front, front <+: calls → ∀ served, middleware.call int scope front = some served →
          served.Limited middleware.max_bytes.toNat) ↔
      scope.type ≠ "http" ∨ middleware.max_bytes ≤ 0 ∨
      middleware.excludes scope.path = true ∨
      middleware.max_bytes < scope.declared int ∨
      Runs.Meets (step middleware.max_bytes.toNat)
        (Tame middleware.max_bytes.toNat) .fresh calls := by
  unfold BodySizeLimitMiddleware.call
  by_cases off : scope.type ≠ "http" ∨ middleware.max_bytes ≤ 0
  case pos =>
    simp only [if_pos off]
    exact iff_of_true nofun (off.imp_right .inl)
  case neg =>
  by_cases excluded : middleware.excludes scope.path = true
  case pos =>
    simp only [if_neg off, if_pos excluded]
    exact iff_of_true nofun (.inr (.inr (.inl excluded)))
  case neg =>
  by_cases declared : middleware.max_bytes < scope.declared int
  case pos =>
    simp only [if_neg off, if_neg excluded, if_pos declared]
    refine iff_of_true ?_ (.inr (.inr (.inr (.inl declared))))
    intro _ _ served refused
    rw [← Option.some.inj refused]
    exact ⟨Nat.zero_le _, Nat.le_refl 1, fun _ => ⟨[], rfl, rfl⟩⟩
  case neg =>
    simp only [if_neg off, if_neg excluded, if_neg declared]
    rw [not_or] at off
    have exact := @Runs.meets_iff_well _ _ (step middleware.max_bytes.toNat)
      (Tame middleware.max_bytes.toNat) (Sound middleware.max_bytes.toNat)
      (Limited middleware.max_bytes.toNat) (fun state call next sound limited
        taken => (step_spec sound limited taken).1)
      (fun state call next sound limited taken _ =>
        (step_spec sound limited taken).2) (fun state call none => by
          cases call <;> cases none) fresh calls Sound.fresh Limited.fresh
    rw [← exact]
    simp [off.1, off.2, excluded, declared]

/-- Eight bytes and five more for a limit of ten: the 413 is sent, and the
next body that the app asks for is handed to it.  And an app that starts its
response twice starts it twice at the server. -/
theorem body_handed_after_413 : let middleware : BodySizeLimitMiddleware := ⟨10, []⟩
    let scope : Scope := ⟨"http", "/", []⟩
    (∃ served, middleware.call (fun _ => none) scope [.receive (.request (.replicate 8 0) true),
          .receive (.request (.replicate 5 0) true),
          .receive (.request (.replicate 5 0) false)] = some served ∧
      Served.bytes served.handed = 13 ∧ ¬ served.Limited 10) ∧
    ∃ served, middleware.call (fun _ => none) scope
        [.send (.start 200), .send (.start 200)] = some served ∧
      ¬ served.Limited 10 :=
  ⟨⟨_, rfl, by decide, fun limited => absurd limited.bytes (by decide)⟩,
    _, rfl, fun limited => absurd limited.one_start (by decide)⟩

end TempestSdk.BodySize
