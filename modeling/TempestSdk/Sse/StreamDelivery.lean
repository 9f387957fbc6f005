import Mathlib.Data.List.Infix
import TempestSdk.Sse.EventStream

/-!
# What a stream delivers

The events of a stream from their publication to their delivery, as long as
the stream is not closed.  A publish that waits for a place has not happened.
-/

namespace TempestSdk.Sse

/-- A stream with what was published on it and delivered from it. -/
structure Feed (Event : Type) where
  stream : EventStream Event
  published : List Event
  delivered : List Event
deriving DecidableEq

variable {Event : Type}

def OverflowPolicy.retain (policy : OverflowPolicy) (maxQueue : Nat)
    (events : List Event) : List Event :=
  match policy with
  | .dropOldest => events.drop (events.length - maxQueue)
  | .dropNewest => events.take maxQueue
  | .block => events

def Action.event : Action Event → Option Event
  | .publish event => some event
  | _ => none

def EventStream.takenBy (stream : EventStream Event) : Action Event → List Event
  | .get => stream.queue.head?.join.toList
  | _ => []

namespace Feed

def start (maxQueue : Nat) (overflow : OverflowPolicy) : Feed Event where
  stream := .init maxQueue overflow
  published := []
  delivered := []

def step (feed : Feed Event) (action : Action Event) : Option (Feed Event) :=
  (feed.stream.step action).map fun stream => {
    stream
    published := feed.published ++ action.event.toList
    delivered := feed.delivered ++ feed.stream.takenBy action }

def queued (feed : Feed Event) : List Event := feed.stream.queue.filterMap id

abbrev exec := Runs.exec (@step Event)

structure Holds (feed : Feed Event) (waiting : List Event) : Prop where
  queue : feed.stream.queue = waiting.map some
  order : (feed.delivered ++ waiting).Sublist feed.published
  bound : waiting.length ≤ feed.stream.maxQueue
  counted : feed.published.length = feed.delivered.length + waiting.length + feed.stream.dropped
  newest : feed.stream.overflow = .dropOldest → waiting <:+ feed.published

end Feed

namespace EventStream

variable {stream next : EventStream Event}

theorem publish_cases {event : Event} (positive : 0 < stream.maxQueue)
    (taken : stream.put (some event) = some next) :
    (stream.queue.length < stream.maxQueue ∧
      next = { stream with queue := stream.queue ++ [some event] }) ∨
    (stream.maxQueue ≤ stream.queue.length ∧ stream.overflow = .dropNewest ∧
      next = { stream with dropped := stream.dropped + 1 }) ∨
    (stream.maxQueue ≤ stream.queue.length ∧ stream.overflow = .dropOldest ∧
      ∃ oldest queue, stream.queue = oldest :: queue ∧ next = { stream with
          queue := queue ++ [some event], dropped := stream.dropped + 1 }) := by
  rcases Nat.lt_or_ge stream.queue.length stream.maxQueue with room | full
  · rcases put_cases taken with ⟨-, same⟩ | ⟨-, same⟩ | ⟨full, -⟩
    · exact .inl ⟨room, same⟩
    · refine .inl ⟨room, ?_⟩
      unfold put at taken
      rw [if_pos room, ite_self] at taken
      exact enqueue_cases taken
    · exact absurd full.2.2 (Nat.not_le.mpr room)
  · unfold put at taken
    split at taken
    next unbounded =>
      rcases unbounded with sentinel | zero | blocks
      · cases sentinel
      · omega
      · unfold enqueue at taken
        rw [if_pos ⟨blocks, positive, full⟩] at taken
        cases taken
    next bounded =>
      rw [not_or, not_or] at bounded
      rw [if_neg (Nat.not_lt.mpr full)] at taken
      split at taken
      next newest => exact .inr (.inl ⟨full, newest, (Option.some.inj taken).symm⟩)
      next other =>
        have oldest : stream.overflow = .dropOldest := by
          cases policy : stream.overflow with
          | dropOldest => rfl
          | dropNewest => exact absurd policy other
          | block => exact absurd policy bounded.2.2
        split at taken
        next empty =>
          rw [empty, List.length_nil] at full
          omega
        next first queue entries =>
          exact .inr (.inr ⟨full, oldest, first, queue, entries, enqueue_cases taken⟩)

end EventStream

namespace OverflowPolicy

theorem retain_of_fits (policy : OverflowPolicy) {maxQueue : Nat}
    {events : List Event} (fits : events.length ≤ maxQueue) :
    policy.retain maxQueue events = events := by
  cases policy with
  | dropOldest =>
    unfold retain
    rw [Nat.sub_eq_zero_of_le fits]
    rfl
  | dropNewest => exact List.take_of_length_le fits
  | block => rfl

theorem retain_append (policy : OverflowPolicy) (maxQueue : Nat) (events later : List Event) :
    policy.retain maxQueue (policy.retain maxQueue events ++ later) =
      policy.retain maxQueue (events ++ later) := by
  cases policy with
  | dropOldest =>
    have parts : events ++ later = events.take (events.length - maxQueue) ++
          (events.drop (events.length - maxQueue) ++ later) := by
      rw [← List.append_assoc, List.take_append_drop]
    have skipped : (events.take (events.length - maxQueue)).length ≤
        (events ++ later).length - maxQueue := by
      rw [List.length_take, List.length_append]
      omega
    have rest : (events ++ later).drop ((events ++ later).length - maxQueue) =
        (events.drop (events.length - maxQueue) ++ later).drop
          ((events ++ later).length - maxQueue -
            (events.take (events.length - maxQueue)).length) := by
      conv_lhs => rw [parts]
      rw [List.drop_append, ← parts, List.drop_eq_nil_of_le skipped]
      rfl
    unfold retain
    dsimp only
    rw [rest, List.length_append, List.length_append, List.length_take, List.length_drop]
    congr 1
    omega
  | dropNewest =>
    unfold retain
    dsimp only
    rw [List.take_append, List.take_append, List.take_take, List.length_take, Nat.min_self]
    congr 2
    omega
  | block => rfl

end OverflowPolicy

namespace Feed

variable {feed next : Feed Event} {waiting : List Event}

theorem Holds.queued (holds : feed.Holds waiting) : feed.queued = waiting := by
  unfold Feed.queued
  rw [holds.queue]
  simp

theorem Holds.append {event : Event} (holds : feed.Holds waiting)
    (room : feed.stream.queue.length < feed.stream.maxQueue) :
    Holds {
      stream := { feed.stream with queue := feed.stream.queue ++ [some event] }
      published := feed.published ++ [event]
      delivered := feed.delivered ++ [] } (waiting ++ [event]) where
  queue := by
    rw [List.map_append, ← holds.queue]
    rfl
  order := by
    rw [List.append_nil, ← List.append_assoc]
    exact holds.order.append (List.Sublist.refl _)
  bound := by
    rw [holds.queue, List.length_map] at room
    rw [List.length_append]
    exact room
  counted := by
    have before := holds.counted
    simp only [List.length_append, List.length_singleton, List.length_nil]
    omega
  newest := by
    intro policy
    obtain ⟨older, same⟩ := holds.newest policy
    exact ⟨older, by rw [← same, List.append_assoc]⟩

theorem Holds.drop {event : Event} (holds : feed.Holds waiting)
    (policy : feed.stream.overflow = .dropNewest) :
    Holds {
      stream := { feed.stream with dropped := feed.stream.dropped + 1 }
      published := feed.published ++ [event]
      delivered := feed.delivered ++ [] } waiting where
  queue := holds.queue
  order := by
    rw [List.append_nil]
    exact holds.order.trans (List.sublist_append_left _ _)
  bound := holds.bound
  counted := by
    have before := holds.counted
    simp only [List.length_append, List.length_singleton, List.length_nil]
    omega
  newest := by
    intro other
    cases policy.symm.trans other

theorem Holds.evict {event oldest : Event} {rest : List Event}
    (holds : feed.Holds (oldest :: rest)) :
    Holds {
      stream := { feed.stream with
        queue := rest.map some ++ [some event]
        dropped := feed.stream.dropped + 1 }
      published := feed.published ++ [event]
      delivered := feed.delivered ++ [] } (rest ++ [event]) where
  queue := by
    rw [List.map_append]
    rfl
  order := by
    rw [List.append_nil, ← List.append_assoc]
    have kept : (feed.delivered ++ rest).Sublist feed.published :=
      ((List.Sublist.refl _).append (List.sublist_cons_self _ _)).trans holds.order
    exact kept.append (List.Sublist.refl _)
  bound := by
    have before := holds.bound
    rw [List.length_cons] at before
    rw [List.length_append]
    exact before
  counted := by
    have before := holds.counted
    rw [List.length_cons] at before
    simp only [List.length_append, List.length_singleton, List.length_nil]
    omega
  newest := by
    intro policy
    obtain ⟨older, same⟩ := holds.newest policy
    exact ⟨older ++ [oldest], by rw [← same]; simp⟩

theorem Holds.deliver {event : Event} {rest : List Event} (holds : feed.Holds (event :: rest)) :
    Holds {
      stream := { feed.stream with queue := rest.map some }
      published := feed.published ++ []
      delivered := feed.delivered ++ [event] } rest where
  queue := rfl
  order := by
    rw [List.append_nil, List.append_assoc]
    exact holds.order
  bound := Nat.le_of_succ_le holds.bound
  counted := by
    have before := holds.counted
    rw [List.length_cons] at before
    simp only [List.length_append, List.length_singleton, List.length_nil]
    omega
  newest := by
    intro policy
    rw [List.append_nil]
    exact (List.suffix_cons event rest).trans (holds.newest policy)

theorem Holds.step {action : Action Event} (holds : feed.Holds waiting)
    (positive : 0 < feed.stream.maxQueue) (unclosed : action ≠ .close)
    (stepped : feed.step action = some next) :
    ∃ left, next.Holds left ∧ next.stream.maxQueue = feed.stream.maxQueue ∧
      next.stream.overflow = feed.stream.overflow ∧
      (action ≠ .get → left = feed.stream.overflow.retain feed.stream.maxQueue
        (waiting ++ action.event.toList)) := by
  obtain ⟨stream, taken, rfl⟩ := Option.map_eq_some_iff.mp stepped
  have count : feed.stream.queue.length = waiting.length := by
    rw [holds.queue, List.length_map]
  have bound := holds.bound
  cases action with
  | publish event =>
    rcases EventStream.publish_cases positive taken with
      ⟨room, rfl⟩ | ⟨full, policy, rfl⟩ | ⟨full, policy, first, queue, entries, rfl⟩
    · refine ⟨waiting ++ [event], holds.append room, rfl, rfl, ?_⟩
      intro _
      have fits : (waiting ++ [event]).length ≤ feed.stream.maxQueue := by
        rw [List.length_append, ← count]
        exact room
      exact (OverflowPolicy.retain_of_fits _ fits).symm
    · refine ⟨waiting, holds.drop policy, rfl, rfl, ?_⟩
      intro _
      rw [policy]
      have whole : waiting.length = feed.stream.maxQueue := by omega
      change waiting = (waiting ++ [event]).take feed.stream.maxQueue
      rw [← whole, List.take_left']
      rfl
    · cases waiting with
      | nil =>
        rw [List.length_nil] at count
        omega
      | cons oldest rest =>
        have queue_rest : queue = rest.map some := by
          have same := entries.symm.trans holds.queue
          rw [List.map_cons] at same
          exact (List.cons.inj same).2
        subst queue_rest
        refine ⟨rest ++ [event], holds.evict, rfl, rfl, ?_⟩
        intro _
        rw [policy]
        have whole : (oldest :: rest).length = feed.stream.maxQueue := by
          omega
        change rest ++ [event] = (oldest :: rest ++ [event]).drop _
        rw [List.length_append, whole, Nat.add_sub_cancel_left]
        rfl
  | close => exact absurd rfl unclosed
  | get =>
    obtain ⟨-, queue, ⟨entries, rfl⟩ | ⟨event, entries, rfl⟩⟩ :=
      EventStream.get_cases taken
    · rw [holds.queue] at entries
      cases waiting with
      | nil => cases entries
      | cons event rest => cases entries
    · cases waiting with
      | nil =>
        rw [holds.queue] at entries
        cases entries
      | cons first rest =>
        have same := entries.symm.trans holds.queue
        rw [List.map_cons] at same
        cases same
        refine ⟨rest, ?_, rfl, rfl, fun absurd => (absurd rfl).elim⟩
        have taken_first : feed.stream.takenBy .get = [event] := by
          unfold EventStream.takenBy
          rw [entries]
          rfl
        rw [taken_first]
        exact holds.deliver
  | heartbeat =>
    have same := EventStream.heartbeat_cases taken
    subst same
    refine ⟨waiting, ?_, rfl, rfl, ?_⟩
    · have idle : ({
          stream := feed.stream
          published := feed.published ++ (Action.heartbeat : Action Event).event.toList
          delivered := feed.delivered ++
            feed.stream.takenBy Action.heartbeat } : Feed Event) = feed := by
        change ({ feed with
          published := feed.published ++ []
          delivered := feed.delivered ++ [] } : Feed Event) = feed
        rw [List.append_nil, List.append_nil]
      rw [idle]
      exact holds
    · intro _
      change waiting = OverflowPolicy.retain _ _ (waiting ++ [])
      rw [List.append_nil]
      exact (OverflowPolicy.retain_of_fits _ bound).symm

theorem unclosed_step {action : Action Event} (stepped : feed.step action = some next)
    (unclosed : next.stream.closes = 0) :
    action ≠ .close ∧ feed.stream.closes = 0 := by
  obtain ⟨stream, taken, rfl⟩ := Option.map_eq_some_iff.mp stepped
  cases action with
  | publish event =>
    refine ⟨(by intro absurd; cases absurd), ?_⟩
    rcases EventStream.put_cases taken with ⟨-, rfl⟩ | ⟨-, rfl⟩ | ⟨-, _, _, _, rfl⟩
    · exact unclosed
    · exact unclosed
    · exact unclosed
  | close =>
    rw [EventStream.close_cases taken] at unclosed
    cases unclosed
  | get =>
    refine ⟨(by intro absurd; cases absurd), ?_⟩
    obtain ⟨-, _, ⟨-, rfl⟩ | ⟨_, -, rfl⟩⟩ := EventStream.get_cases taken
    · exact unclosed
    · exact unclosed
  | heartbeat =>
    refine ⟨(by intro absurd; cases absurd), ?_⟩
    rw [EventStream.heartbeat_cases taken] at unclosed
    exact unclosed

theorem unclosed_run {schedule : List (Action Event)} {final : Feed Event}
    (ran : exec feed schedule = some final)
    (unclosed : final.stream.closes = 0) : feed.stream.closes = 0 := by
  induction schedule generalizing feed with
  | nil =>
    cases ran
    exact unclosed
  | cons action rest induction =>
    obtain ⟨next, stepped, remaining⟩ := Runs.exec_cons.mp ran
    exact (unclosed_step stepped (induction remaining)).2

theorem Holds.run {schedule : List (Action Event)} {final : Feed Event}
    (holds : feed.Holds waiting) (positive : 0 < feed.stream.maxQueue)
    (ran : exec feed schedule = some final)
    (unclosed : final.stream.closes = 0) :
    ∃ left, final.Holds left ∧ final.stream.maxQueue = feed.stream.maxQueue ∧
      final.stream.overflow = feed.stream.overflow ∧
      ((∀ action ∈ schedule, action ≠ .get) →
        left = feed.stream.overflow.retain feed.stream.maxQueue
          (waiting ++ schedule.filterMap Action.event)) := by
  induction schedule generalizing feed waiting with
  | nil =>
    cases ran
    refine ⟨waiting, holds, rfl, rfl, ?_⟩
    intro _
    rw [List.filterMap_nil, List.append_nil]
    exact (OverflowPolicy.retain_of_fits _ holds.bound).symm
  | cons action rest induction =>
    obtain ⟨next, stepped, remaining⟩ := Runs.exec_cons.mp ran
    have open_still := unclosed_step stepped (unclosed_run remaining unclosed)
    obtain ⟨between, held, most, policy, retained⟩ :=
      holds.step positive open_still.1 stepped
    obtain ⟨left, ends, last, same, later⟩ :=
      induction held (most ▸ positive) remaining
    refine ⟨left, ends, last.trans most, same.trans policy, ?_⟩
    intro quiet
    have first := retained (quiet action (.head _))
    have others := later fun other member => quiet other (.tail _ member)
    have events : (action :: rest).filterMap Action.event =
        action.event.toList ++ rest.filterMap Action.event := by
      rw [List.filterMap_cons]
      cases action.event with
      | none => rfl
      | some event => rfl
    rw [others, first, most, policy, events, OverflowPolicy.retain_append, List.append_assoc]

end Feed

/-- Before the close the events of a stream are delivered or wait in the order
of their publication, and every other event was dropped; while the consumer
takes nothing, the policy says which ones wait. -/
theorem stream_conserves (maxQueue : Nat) (positive : 0 < maxQueue)
    (overflow : OverflowPolicy) (front later : List (Action Event))
    (middle final : Feed Event)
    (began : Feed.exec (.start maxQueue overflow) front = some middle)
    (went_on : Feed.exec middle later = some final)
    (unclosed : final.stream.closes = 0) :
    (final.delivered ++ final.queued).Sublist final.published ∧ final.queued.length ≤ maxQueue ∧
      final.published.length =
        final.delivered.length + final.queued.length + final.stream.dropped ∧
      (overflow = .dropOldest → final.queued <:+ final.published) ∧
      ((∀ action ∈ later, action ≠ .get) → final.queued = overflow.retain maxQueue
          (middle.queued ++ later.filterMap Action.event)) := by
  have empty : (Feed.start maxQueue overflow : Feed Event).Holds [] :=
    ⟨rfl, List.Sublist.refl _, Nat.zero_le _, rfl, fun _ => List.suffix_refl _⟩
  obtain ⟨between, held, most, policy, -⟩ := empty.run positive began
    (Feed.unclosed_run went_on unclosed)
  obtain ⟨left, ends, last, same, retained⟩ := held.run (most.symm ▸ positive) went_on unclosed
  rw [ends.queued, held.queued]
  have bound := ends.bound
  rw [last.trans most] at bound
  refine ⟨ends.order, bound, ends.counted, ?_, ?_⟩
  · intro oldest
    exact ends.newest ((same.trans policy).trans oldest)
  · intro quiet
    have waits := retained quiet
    rw [most, policy] at waits
    exact waits

theorem stream_conserves_dropping : ∃ final, Feed.exec (.start 1 .dropOldest)
        [.publish 1, .publish 2, .get, .publish 3] = some final ∧
      (final.delivered ++ final.queued).Sublist final.published ∧
      final.published.length =
        final.delivered.length + final.queued.length + final.stream.dropped := by
  have ran : Feed.exec (.start 1 .dropOldest) [.publish 1, .publish 2, .get, .publish 3] = some
        ⟨⟨1, .dropOldest, [some 3], 1, 0, false⟩, [1, 2, 3], [2]⟩ := by
    decide
  have conserved := stream_conserves 1 (by decide) .dropOldest
    [.publish 1, .publish 2, .get, .publish 3] [] _ _ ran rfl rfl
  exact ⟨_, ran, conserved.1, conserved.2.2.1⟩

theorem later_event_retained : ∃ final, Feed.exec (.start 1 .dropNewest)
        [.publish 1, .publish 2, .get, .publish 3] = some final ∧
      final.stream.closes = 0 ∧
      final.queued ≠ (final.published.diff final.delivered).take final.queued.length :=
  ⟨⟨⟨1, .dropNewest, [some 3], 1, 0, false⟩, [1, 2, 3], [1]⟩, by decide, rfl,
    by decide⟩

end TempestSdk.Sse
