import TempestSdk.Library.Runs

/-!
# Event streams

A queue that feeds one connection, its bound enforced by hand for the policies
that drop events.  The sentinel of `close` travels in the same queue.  A
publish that evicts the oldest entry evicts the sentinel when it is the oldest.
-/

namespace TempestSdk.Sse

inductive OverflowPolicy where
  | dropOldest
  | dropNewest
  | block
deriving DecidableEq

structure EventStream (Event : Type) where
  maxQueue : Nat
  overflow : OverflowPolicy
  /-- The next item first; `none` is the sentinel. -/
  queue : List (Option Event)
  dropped : Nat
  /-- How often `close` was called. -/
  closes : Nat
  /-- Whether `stream` has returned. -/
  ended : Bool
deriving DecidableEq

namespace EventStream

variable {Event : Type}

def init (maxQueue : Nat) (overflow : OverflowPolicy) : EventStream Event where
  maxQueue := maxQueue
  overflow := overflow
  queue := []
  dropped := 0
  closes := 0
  ended := false

/-- `Queue.put`; none while it waits for a place. -/
def enqueue (stream : EventStream Event) (item : Option Event) : Option (EventStream Event) :=
  if stream.overflow = .block ∧ 0 < stream.maxQueue ∧
      stream.maxQueue ≤ stream.queue.length then none
  else some { stream with queue := stream.queue ++ [item] }

def put (stream : EventStream Event) (item : Option Event) : Option (EventStream Event) :=
  if item = none ∨ stream.maxQueue = 0 ∨ stream.overflow = .block then
    stream.enqueue item
  else if stream.queue.length < stream.maxQueue then stream.enqueue item
  else if stream.overflow = .dropNewest then
    some { stream with dropped := stream.dropped + 1 }
  else
    match stream.queue with
    | [] => stream.enqueue item
    | _oldest :: queue =>
      { stream with queue := queue, dropped := stream.dropped + 1 }.enqueue
        item

end EventStream

inductive Action (Event : Type) where
  | publish (event : Event)
  | close
  /-- A turn of the loop of `stream` that takes an item. -/
  | get
  | heartbeat
deriving DecidableEq

def Action.gets {Event : Type} : Action Event → Nat
  | .get => 1
  | _ => 0

namespace EventStream

variable {Event : Type}

/-- One turn of `stream`. -/
def get (stream : EventStream Event) : Option (EventStream Event) :=
  if stream.ended then none
  else
    match stream.queue with
    | [] => none
    | none :: queue => some { stream with queue := queue, ended := true }
    | some _event :: queue => some { stream with queue := queue }

def step (stream : EventStream Event) : Action Event → Option (EventStream Event)
  | .publish event => stream.put (some event)
  | .close => (stream.put none).map fun closing => { closing with closes := closing.closes + 1 }
  | .get => stream.get
  | .heartbeat => if stream.ended then none else some stream

def Full (stream : EventStream Event) : Prop :=
  stream.overflow = .dropOldest ∧ 0 < stream.maxQueue ∧ stream.maxQueue ≤ stream.queue.length

def Spared (stream : EventStream Event) (action : Action Event) : Prop :=
  ∀ event, action = .publish event → stream.Full → stream.ended = false →
    stream.queue.head? ≠ some none

def sentinels (stream : EventStream Event) : Nat :=
  stream.queue.countP Option.isNone

def SentinelKept (stream : EventStream Event) : Prop :=
  stream.ended = false → stream.sentinels = stream.closes

def left (stream : EventStream Event) : Nat :=
  if stream.ended then 0 else stream.queue.findIdx Option.isNone + 1

variable {stream next : EventStream Event} {item : Option Event}

theorem enqueue_cases (queued : stream.enqueue item = some next) :
    next = { stream with queue := stream.queue ++ [item] } := by
  unfold enqueue at queued
  split at queued
  · cases queued
  · exact (Option.some.inj queued).symm

theorem put_cases (queued : stream.put item = some next) : ((item = none ∨ ¬ stream.Full) ∧
      next = { stream with queue := stream.queue ++ [item] }) ∨
    (¬ stream.Full ∧ next = { stream with dropped := stream.dropped + 1 }) ∨
    (stream.Full ∧ ∃ oldest queue, stream.queue = oldest :: queue ∧ next = { stream with
        queue := queue ++ [item], dropped := stream.dropped + 1 }) := by
  unfold put at queued
  split at queued
  case isTrue unbounded =>
    refine .inl ⟨?_, enqueue_cases queued⟩
    rcases unbounded with sentinel | zero | blocks
    · exact .inl sentinel
    · right
      rintro ⟨_, positive, _⟩
      omega
    · right
      rintro ⟨drops, _⟩
      rw [blocks] at drops
      cases drops
  case isFalse bounded =>
    rw [not_or, not_or] at bounded
    split at queued
    case isTrue room =>
      refine .inl ⟨.inr ?_, enqueue_cases queued⟩
      rintro ⟨_, _, full⟩
      omega
    case isFalse full =>
      split at queued
      case isTrue newest =>
        refine .inr (.inl ⟨?_, (Option.some.inj queued).symm⟩)
        rintro ⟨oldest, _⟩
        rw [newest] at oldest
        cases oldest
      case isFalse keeps =>
        have drops : stream.overflow = .dropOldest := by
          cases policy : stream.overflow with
          | dropOldest => rfl
          | dropNewest => exact (keeps policy).elim
          | block => exact (bounded.2.2 policy).elim
        have evicts : stream.Full :=
          ⟨drops, Nat.pos_of_ne_zero bounded.2.1, Nat.le_of_not_lt full⟩
        split at queued
        case h_1 empty =>
          rw [empty, List.length_nil] at full
          exact (full (Nat.pos_of_ne_zero bounded.2.1)).elim
        case h_2 oldest queue entries =>
          exact .inr (.inr ⟨evicts, oldest, queue, entries, enqueue_cases queued⟩)

theorem get_cases (taken : stream.get = some next) :
    stream.ended = false ∧ ∃ queue, (stream.queue = none :: queue ∧
        next = { stream with queue := queue, ended := true }) ∨
      ∃ event, stream.queue = some event :: queue ∧ next = { stream with queue := queue } := by
  unfold get at taken
  split at taken
  case isTrue => cases taken
  case isFalse running =>
    refine ⟨by simpa using running, ?_⟩
    split at taken
    case h_1 => cases taken
    case h_2 queue entries => exact ⟨queue, .inl ⟨entries, (Option.some.inj taken).symm⟩⟩
    case h_3 event queue entries =>
      exact ⟨queue, .inr ⟨event, entries, (Option.some.inj taken).symm⟩⟩

theorem countP_append_event (queue : List (Option Event)) (event : Event) :
    (queue ++ [some event]).countP Option.isNone = queue.countP Option.isNone := by
  simp

theorem spared_publish_iff {event : Event} (kept : stream.SentinelKept)
    (taken : stream.put (some event) = some next) :
    stream.Spared (.publish event) ↔ next.SentinelKept := by
  rcases put_cases taken with ⟨roomy, rfl⟩ | ⟨roomy, rfl⟩ | ⟨full, oldest, queue, entries, rfl⟩
  · apply iff_of_true
    · intro other _same full
      rcases roomy with sentinel | room
      · cases sentinel
      · exact (room full).elim
    · intro running
      exact (countP_append_event stream.queue event).trans (kept running)
  · apply iff_of_true
    · intro other _same full
      exact (roomy full).elim
    · exact kept
  · have counted : stream.sentinels =
        queue.countP Option.isNone + if oldest.isNone then 1 else 0 := by
      unfold sentinels
      rw [entries, List.countP_cons]
    have left : sentinels { stream with
        queue := queue ++ [some event], dropped := stream.dropped + 1 } =
          queue.countP Option.isNone := countP_append_event queue event
    constructor
    · intro spared running
      have before := kept running
      have event_first := spared event rfl full running
      rw [entries] at event_first
      cases oldest with
      | none => exact (event_first rfl).elim
      | some first => exact left.trans (counted.symm.trans before)
    · intro after other _same _full running head
      rw [entries] at head
      cases head
      have before := kept running
      have now := left.symm.trans (after running)
      rw [counted] at before
      change queue.countP Option.isNone + 1 = stream.closes at before
      change queue.countP Option.isNone = stream.closes at now
      omega

theorem close_cases (taken : stream.step .close = some next) : next = { stream with
      queue := stream.queue ++ [none], closes := stream.closes + 1 } := by
  obtain ⟨closing, queued, rfl⟩ := Option.map_eq_some_iff.mp taken
  have through : stream.put none = stream.enqueue none := by
    unfold put
    rw [if_pos (.inl rfl)]
  rw [through] at queued
  rw [enqueue_cases queued]

theorem heartbeat_cases (taken : stream.step .heartbeat = some next) : next = stream := by
  change (if stream.ended then none else some stream) = some next at taken
  split at taken
  · cases taken
  · exact (Option.some.inj taken).symm

variable {action : Action Event}

theorem spared_iff (kept : stream.SentinelKept) (taken : stream.step action = some next) :
    stream.Spared action ↔ next.SentinelKept := by
  cases action with
  | publish event => exact spared_publish_iff kept taken
  | close =>
    refine iff_of_true (fun _ same => by cases same) ?_
    rw [close_cases taken]
    intro running
    have added : (stream.queue ++ [none]).countP Option.isNone = stream.sentinels + 1 := by
      simp [sentinels]
    exact added.trans (congrArg (· + 1) (kept running))
  | get =>
    refine iff_of_true (fun _ same => by cases same) ?_
    obtain ⟨running, queue, ⟨_entries, rfl⟩ | ⟨event, entries, rfl⟩⟩ :=
      get_cases taken
    · intro running
      cases running
    · intro _running
      have before := kept running
      unfold sentinels at before
      rw [entries] at before
      exact before
  | heartbeat =>
    refine iff_of_true (fun _ same => by cases same) ?_
    rw [heartbeat_cases taken]
    exact kept

theorem spared_of_disabled (disabled : stream.step action = none) : stream.Spared action := by
  rintro event rfl ⟨drops, positive, full⟩
  change stream.put (some event) = none at disabled
  unfold put enqueue at disabled
  simp only [drops] at disabled
  split at disabled
  · simp at disabled
  · split at disabled
    · simp at disabled
    · split at disabled
      · simp at disabled
      · split at disabled
        · simp at disabled
        · simp at disabled

theorem SentinelKept.queued (kept : stream.SentinelKept) (closed : 0 < stream.closes) :
    stream.ended = true ∨ none ∈ stream.queue := by
  cases running : stream.ended with
  | true => exact .inl rfl
  | false =>
    right
    have positive : 0 < stream.queue.countP Option.isNone := by
      have same : stream.queue.countP Option.isNone = stream.closes :=
        kept running
      omega
    obtain ⟨item, member, sentinel⟩ := List.countP_pos_iff.mp positive
    rwa [← Option.isNone_iff_eq_none.mp sentinel]

theorem findIdx_append {queue : List (Option Event)} (sentinel : none ∈ queue)
    (items : List (Option Event)) :
    (queue ++ items).findIdx Option.isNone = queue.findIdx Option.isNone := by
  rw [List.findIdx_append, if_pos]
  exact List.findIdx_lt_length_of_exists ⟨none, sentinel, rfl⟩

theorem left_of_running (running : stream.ended = false) :
    stream.left = stream.queue.findIdx Option.isNone + 1 := by
  unfold left
  rw [running]
  rfl

theorem left_of_ended (ended : stream.ended = true) : stream.left = 0 := by
  unfold left
  rw [if_pos ended]

theorem left_append {items : List (Option Event)}
    (sentinel : none ∈ stream.queue) (dropped closes : Nat) :
    left { stream with
      queue := stream.queue ++ items, dropped := dropped, closes := closes } = stream.left := by
  unfold left
  dsimp only
  rw [findIdx_append sentinel]

theorem gets_paid (closed : 0 < stream.closes) (kept : stream.SentinelKept)
    (after : next.SentinelKept) (taken : stream.step action = some next) :
    action.gets + next.left ≤ stream.left := by
  cases running : stream.ended with
  | true =>
    cases action with
    | publish event =>
      have same : next.ended = stream.ended := by
        rcases put_cases taken with ⟨_, rfl⟩ | ⟨_, rfl⟩ | ⟨_, _, _, _, rfl⟩
        · rfl
        · rfl
        · rfl
      rw [left_of_ended (same.trans running)]
      exact Nat.zero_le _
    | close =>
      have same : next.ended = stream.ended := by
        rw [close_cases taken]
      rw [left_of_ended (same.trans running)]
      exact Nat.zero_le _
    | get =>
      rw [(get_cases taken).1] at running
      cases running
    | heartbeat =>
      rw [heartbeat_cases taken, left_of_ended running]
      exact Nat.le_refl _
  | false =>
    have sentinel : none ∈ stream.queue := by
      rcases kept.queued closed with ended | queued
      · rw [running] at ended
        cases ended
      · exact queued
    cases action with
    | publish event =>
      have spared := (spared_iff kept taken).mpr after
      change 0 + next.left ≤ stream.left
      rw [Nat.zero_add]
      rcases put_cases taken with ⟨_, rfl⟩ | ⟨_, rfl⟩ | ⟨full, oldest, queue, entries, rfl⟩
      · exact Nat.le_of_eq (left_append sentinel stream.dropped stream.closes)
      · exact Nat.le_refl _
      · have head := spared event rfl full running
        rw [entries] at head sentinel
        cases oldest with
        | none => exact (head rfl).elim
        | some first =>
          have later : none ∈ queue := by simpa using sentinel
          have before : stream.left = queue.findIdx Option.isNone + 2 := by
            rw [left_of_running running, entries, List.findIdx_cons]
            rfl
          have now : left { stream with
              queue := queue ++ [some event]
              dropped := stream.dropped + 1 } = queue.findIdx Option.isNone + 1 := by
            rw [← findIdx_append later [some event]]
            exact left_of_running running
          rw [before, now]
          exact Nat.le_succ _
    | close =>
      rw [close_cases taken]
      change 0 + _ ≤ _
      rw [Nat.zero_add]
      exact Nat.le_of_eq (left_append sentinel stream.dropped (stream.closes + 1))
    | get =>
      change 1 + next.left ≤ stream.left
      obtain ⟨_, queue, ⟨entries, rfl⟩ | ⟨event, entries, rfl⟩⟩ :=
        get_cases taken
      · rw [left_of_ended rfl, left_of_running running]
        omega
      · have before : stream.left = queue.findIdx Option.isNone + 2 := by
          rw [left_of_running running, entries, List.findIdx_cons]
          rfl
        have now : left { stream with queue := queue } =
            queue.findIdx Option.isNone + 1 := left_of_running running
        rw [before, now]
        omega
    | heartbeat =>
      rw [heartbeat_cases taken]
      change 0 + _ ≤ _
      exact Nat.le_of_eq (Nat.zero_add _)

theorem closes_kept (closed : 0 < stream.closes)
    (taken : stream.step action = some next) : 0 < next.closes := by
  cases action with
  | publish event =>
    rcases put_cases taken with ⟨_, rfl⟩ | ⟨_, rfl⟩ | ⟨_, _, _, _, rfl⟩
    · exact closed
    · exact closed
    · exact closed
  | close =>
    rw [close_cases taken]
    exact Nat.succ_pos _
  | get =>
    obtain ⟨_, queue, ⟨_, rfl⟩ | ⟨_, _, rfl⟩⟩ := get_cases taken
    · exact closed
    · exact closed
  | heartbeat =>
    rw [heartbeat_cases taken]
    exact closed

def gets (schedule : List (Action Event)) : Nat :=
  (schedule.map Action.gets).sum

/-- What is promised of a state that `later` goes on from. -/
structure Ends (stream : EventStream Event) (later : List (Action Event)) :
    Prop where
  kept : stream.SentinelKept
  queued : 0 < stream.closes → stream.ended = true ∨ none ∈ stream.queue
  next : 0 < stream.closes → stream.ended = false → ∃ next, stream.get = some next
  gets : 0 < stream.closes → ∀ some_steps, some_steps <+: later →
    ∀ final, Runs.exec step stream some_steps = some final →
      gets some_steps + final.left ≤ stream.left

theorem SentinelKept.can_get (kept : stream.SentinelKept)
    (closed : 0 < stream.closes) (running : stream.ended = false) :
    ∃ next, stream.get = some next := by
  unfold get
  rw [running, if_neg Bool.false_ne_true]
  rcases kept.queued closed with ended | sentinel
  · rw [running] at ended
    cases ended
  · cases entries : stream.queue with
    | nil =>
      rw [entries] at sentinel
      cases sentinel
    | cons item queue =>
      cases item with
      | none => exact ⟨_, rfl⟩
      | some event => exact ⟨_, rfl⟩

/-- A run keeps every sentinel until the stream ends, which takes no more gets
than there are items up to the sentinel, exactly when no publish evicts one. -/
theorem ends_iff (maxQueue : Nat) (overflow : OverflowPolicy) (schedule : List (Action Event)) :
    Runs.Meets step Spared (init maxQueue overflow) schedule ↔
      ∀ front later, front ++ later = schedule → ∀ reached,
        Runs.exec step (init maxQueue overflow) front = some reached → reached.Ends later := by
  have initial : SentinelKept (init maxQueue overflow : EventStream Event) :=
    fun _running => rfl
  have exact_step : ∀ (stream : EventStream Event) action next,
      stream.SentinelKept → stream.step action = some next →
      (stream.Spared action ↔ next.SentinelKept) :=
    fun _ _ _ kept taken => spared_iff kept taken
  have disabled : ∀ (stream : EventStream Event) action,
      stream.step action = none → stream.Spared action :=
    fun _ _ none_next => spared_of_disabled none_next
  rw [Runs.meets_iff_reached exact_step disabled initial]
  constructor
  · rintro all front later rfl reached run
    have kept := all front (List.prefix_append _ _) reached run
    refine ⟨kept, kept.queued, kept.can_get, ?_⟩
    rintro closed some_steps ⟨rest, rfl⟩ final further
    apply Runs.exec_measure _ _ further
    · exact fun stream => 0 < stream.closes ∧ stream.SentinelKept
    · intro stream action next before after taken
      exact gets_paid before.1 before.2 after.2 taken
    · rintro part ⟨others, rfl⟩ middle part_run
      constructor
      · refine @Runs.exec_invariant _ _ _ (fun stream => 0 < stream.closes)
          ?_ _ _ _ closed part_run
        intro stream action next positive taken
        exact closes_kept positive taken
      · apply all (front ++ part) ⟨others ++ rest, by simp⟩
        exact Runs.exec_append.mpr ⟨reached, run, part_run⟩
  · rintro all front ⟨later, same⟩ reached run
    exact (all front later same reached run).kept

theorem overflow_kept (taken : stream.step action = some next) :
    next.overflow = stream.overflow := by
  cases action with
  | publish event =>
    rcases put_cases taken with ⟨_, rfl⟩ | ⟨_, rfl⟩ | ⟨_, _, _, _, rfl⟩
    · rfl
    · rfl
    · rfl
  | close => rw [close_cases taken]
  | get =>
    obtain ⟨_, queue, ⟨_, rfl⟩ | ⟨_, _, rfl⟩⟩ := get_cases taken
    · rfl
    · rfl
  | heartbeat => rw [heartbeat_cases taken]

theorem spared_of_keeps {maxQueue : Nat} {overflow : OverflowPolicy}
    (keeps : overflow ≠ .dropOldest) (schedule : List (Action Event)) :
    Runs.Meets step Spared (init maxQueue overflow) schedule := by
  have any_step : Runs.Meets step (fun _ _ => True)
      (init maxQueue overflow : EventStream Event) schedule :=
    Runs.Meets.of_forall fun _ _ => trivial
  refine @Runs.Meets.of_invariant _ _ step _ Spared
    (fun stream => stream.overflow = overflow) ?_ ?_ _ _ any_step rfl
  · intro stream action next same _ taken
    exact (overflow_kept taken).trans same
  · intro stream action same _ event _ full
    exact (keeps (same.symm.trans full.1)).elim

theorem sentinel_evicted :
    ∃ closed final, Runs.exec step (init 1 .dropOldest : EventStream Unit)
        [.close, .publish ()] = some closed ∧
      0 < closed.closes ∧ closed.ended = false ∧ none ∉ closed.queue ∧
      closed.step .get = some final ∧ final.ended = false ∧
      final.step .get = none := by
  refine ⟨⟨1, .dropOldest, [some ()], 1, 1, false⟩, ⟨1, .dropOldest, [], 1, 1, false⟩, ?_⟩
  decide

end EventStream

end TempestSdk.Sse
