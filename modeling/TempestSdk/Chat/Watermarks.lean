import Mathlib.Data.List.Infix
import TempestSdk.Chat.Service
import TempestSdk.Library.Runs

/-!
# Watermarks of a conversation

Operations one after another under a clock that never goes back.  No row is
deleted and no watermark moves back; the pointer to the message a participant
has read up to follows whatever message `mark_read` is called with.
-/

namespace TempestSdk.Chat

inductive Action where
  | tick (microseconds : Nat)
  | start_conversation (creator_id : Id) (participant_ids : List Id)
      (kind : Option ConversationKindEnum)
  | add_participants (conversation_id actor_id : Id) (user_ids : List Id)
      (share_history : Bool)
  | remove_participant (conversation_id actor_id user_id : Id)
  | leave (conversation_id user_id : Id)
  | post_message (conversation_id sender_id : Id)
      (payload : MessageCreateSchema)
  | mark_read (conversation_id user_id : Id) (message_id : Option Id)
  | mark_delivered (conversation_id user_id : Id)

namespace ChatService

def settled {Answer : Type} (chat : ChatService) :
    Except ChatError (ChatService × Answer) → ChatService
  | .error _ => chat
  | .ok (after, _) => after

def perform (chat : ChatService) : Action → ChatService
  | .tick microseconds => { chat with now := chat.now + microseconds }
  | .start_conversation creator_id participant_ids kind =>
    chat.settled (chat.start_conversation creator_id participant_ids kind)
  | .add_participants conversation_id actor_id user_ids share_history =>
    chat.settled (chat.add_participants conversation_id actor_id user_ids share_history)
  | .remove_participant conversation_id actor_id user_id =>
    chat.settled (chat.remove_participant conversation_id actor_id user_id)
  | .leave conversation_id user_id => chat.settled (chat.leave conversation_id user_id)
  | .post_message conversation_id sender_id payload =>
    chat.settled (chat.post_message conversation_id sender_id payload)
  | .mark_read conversation_id user_id message_id =>
    chat.settled (chat.mark_read conversation_id user_id message_id)
  | .mark_delivered conversation_id user_id =>
    chat.settled (chat.mark_delivered conversation_id user_id)

def step (chat : ChatService) (action : Action) : Option ChatService :=
  some (chat.perform action)

def empty (now : Instant) : ChatService := ⟨now, [], [], []⟩

end ChatService

/-- A time that may be missing is not before another one: a missing time is
before all others. -/
def NotBefore (later earlier : Option Instant) : Prop :=
  ∀ first, earlier = some first → ∃ last, later = some last ∧ first ≤ last

namespace NotBefore

theorem refl (time : Option Instant) : NotBefore time time :=
  fun first present => ⟨first, present, Int.le_refl first⟩

theorem none (time : Option Instant) : NotBefore time none :=
  fun _ absent => nomatch absent

theorem trans {first second third : Option Instant}
    (upper : NotBefore third second) (lower : NotBefore second first) :
    NotBefore third first := by
  intro time present
  obtain ⟨middle, present', before⟩ := lower time present
  obtain ⟨last, found, after⟩ := upper middle present'
  exact ⟨last, found, Int.le_trans before after⟩

theorem of_le {earlier later : Instant} (le : earlier ≤ later) :
    NotBefore (some later) (some earlier) := by
  intro first present
  cases present
  exact ⟨later, rfl, le⟩

end NotBefore

/-- A row after some operations: the same membership, with watermarks that did
not move back. -/
structure Participant.Later (after before : Participant) : Prop where
  conversation_id : after.conversation_id = before.conversation_id
  user_id : after.user_id = before.user_id
  last_read_at : NotBefore after.last_read_at before.last_read_at
  last_delivered_at : NotBefore after.last_delivered_at before.last_delivered_at

/-- What was read was delivered, what was delivered was delivered by now, and
the pointer names a message there is. -/
structure Participant.Sound (chat : ChatService) (row : Participant) :
    Prop where
  read : NotBefore row.last_delivered_at row.last_read_at
  delivered : NotBefore (some chat.now) row.last_delivered_at
  pointer : ∀ message_id, row.last_read_message_id = some message_id →
    message_id < chat.messages.length

namespace ChatService

structure Sound (chat : ChatService) : Prop where
  rows : ∀ row ∈ chat.participants, row.Sound chat
  stamps : ∀ message ∈ chat.messages, message.created_at ≤ chat.now

/-- No message and no membership is lost and no watermark moves back. -/
structure Later (after before : ChatService) : Prop where
  now : before.now ≤ after.now
  messages : before.messages <+: after.messages
  rows : ∀ (place : Nat) (row : Participant),
    before.participants[place]? = some row → ∃ later : Participant,
      after.participants[place]? = some later ∧ later.Later row

/-- When the message `last_read_message_id` names was sent. -/
def read_up_to (chat : ChatService) (row : Participant) : Option Instant :=
  row.last_read_message_id.bind fun message_id =>
    chat.messages[message_id]?.map Message.created_at

def PointersOnward (after before : ChatService) : Prop :=
  ∀ (place : Nat) (row later : Participant), before.participants[place]? = some row →
    after.participants[place]? = some later →
    NotBefore (after.read_up_to later) (before.read_up_to row)

/-- A participant is not told to have read up to a message older than the one
the row names. -/
def Onward (chat : ChatService) : Action → Prop
  | .mark_read conversation_id user_id (some message_id) =>
    ∀ place row message, chat.require_membership conversation_id user_id = .ok (place, row) →
      chat.messages[message_id]? = some message →
      message.conversation_id = conversation_id →
      NotBefore (some message.created_at) (chat.read_up_to row)
  | _ => True

end ChatService

namespace NotBefore

theorem advance {last : Option Instant} {time : Instant} :
    NotBefore (if last.all fun last => last < time then some time else last) last ∧
      NotBefore (if last.all fun last => last < time then some time else last) (some time) := by
  cases last with
  | none => exact ⟨NotBefore.none _, refl _⟩
  | some last =>
    simp only [Option.all_some, decide_eq_true_eq]
    by_cases before : last < time
    · rw [if_pos before]
      exact ⟨of_le (Int.le_of_lt before), refl _⟩
    · rw [if_neg before]
      exact ⟨refl _, of_le (Int.not_lt.mp before)⟩

theorem advance_le {last bound : Option Instant} {time : Instant}
    (above : NotBefore bound last) (reached : NotBefore bound (some time)) :
    NotBefore bound (if last.all fun last => last < time then some time else last) := by
  split
  next => exact reached
  next => exact above

end NotBefore

namespace Participant

theorem Later.refl (row : Participant) : row.Later row :=
  ⟨rfl, rfl, .refl _, .refl _⟩

theorem Later.trans {first second third : Participant}
    (upper : third.Later second) (lower : second.Later first) :
    third.Later first where
  conversation_id := upper.conversation_id.trans lower.conversation_id
  user_id := upper.user_id.trans lower.user_id
  last_read_at := upper.last_read_at.trans lower.last_read_at
  last_delivered_at := upper.last_delivered_at.trans lower.last_delivered_at

theorem Sound.mono {row : Participant} {before after : ChatService}
    (sound : row.Sound before) (now : before.now ≤ after.now)
    (messages : before.messages <+: after.messages) : row.Sound after where
  read := sound.read
  delivered := (NotBefore.of_le now).trans sound.delivered
  pointer := fun message_id named =>
    Nat.lt_of_lt_of_le (sound.pointer message_id named) messages.length_le

end Participant

namespace ChatService

variable {before middle after chat : ChatService} {row : Participant}

theorem Later.refl (chat : ChatService) : chat.Later chat where
  now := Int.le_refl _
  messages := List.prefix_refl _
  rows := fun _ row found => ⟨row, found, .refl row⟩

theorem Later.trans (upper : after.Later middle) (lower : middle.Later before) :
    after.Later before where
  now := Int.le_trans lower.now upper.now
  messages := lower.messages.trans upper.messages
  rows := by
    intro place row found
    obtain ⟨next, found, lower⟩ := lower.rows place row found
    obtain ⟨last, found, upper⟩ := upper.rows place next found
    exact ⟨last, found, upper.trans lower⟩

theorem PointersOnward.trans (upper : after.PointersOnward middle)
    (lower : middle.PointersOnward before) (later : middle.Later before) :
    after.PointersOnward before := by
  intro place row last found reached
  obtain ⟨next, found', -⟩ := later.rows place row found
  exact (upper place next last found' reached).trans (lower place row next found found')

theorem read_up_to_of_prefix (sound : row.Sound before)
    (messages : before.messages <+: after.messages) :
    after.read_up_to row = before.read_up_to row := by
  unfold read_up_to
  cases named : row.last_read_message_id with
  | none => rfl
  | some message_id =>
    have inside := sound.pointer message_id named
    obtain ⟨posted, grown⟩ := messages
    rw [Option.bind_some, Option.bind_some, ← grown, List.getElem?_append_left inside]

/-- What an operation that moves no pointer does to the tables. -/
structure Progress (after before : ChatService) : Prop where
  sound : after.Sound
  later : after.Later before
  onward : after.PointersOnward before

theorem Progress.refl (sound : chat.Sound) : chat.Progress chat where
  sound := sound
  later := .refl chat
  onward := by
    intro place row later found found'
    rw [found] at found'
    cases found'
    exact .refl _

theorem Progress.trans (upper : after.Progress middle)
    (lower : middle.Progress before) : after.Progress before where
  sound := upper.sound
  later := upper.later.trans lower.later
  onward := upper.onward.trans lower.onward lower.later

theorem progress_of_pointers (sound : before.Sound) (after_sound : after.Sound)
    (later : after.Later before)
    (pointers : ∀ (place : Nat) (row later : Participant),
      before.participants[place]? = some row →
      after.participants[place]? = some later →
      later.last_read_message_id = row.last_read_message_id) :
    after.Progress before := by
  refine ⟨after_sound, later, ?_⟩
  intro place row last found reached
  have same : after.read_up_to last = before.read_up_to row := by
    rw [← read_up_to_of_prefix (sound.rows row (List.mem_of_getElem? found)) later.messages]
    unfold read_up_to
    rw [pointers place row last found reached]
  rw [same]
  exact .refl _

theorem progress_tick (sound : chat.Sound) (microseconds : Nat) :
    Progress { chat with now := chat.now + microseconds } chat := by
  have now : chat.now ≤ chat.now + microseconds :=
    Int.le_add_of_nonneg_right (Int.natCast_nonneg microseconds)
  apply progress_of_pointers sound
  · refine ⟨?_, ?_⟩
    · intro row member
      exact (sound.rows row member).mono now (List.prefix_refl _)
    · intro message member
      exact Int.le_trans (sound.stamps message member) now
  · exact ⟨now, List.prefix_refl _, (Later.refl chat).rows⟩
  · intro place row later found found'
    change chat.participants[place]? = some later at found'
    rw [found] at found'
    cases found'
    rfl

theorem progress_post (sound : chat.Sound) {message : Message}
    (sent : message.created_at = chat.now) :
    Progress { chat with messages := chat.messages ++ [message] } chat := by
  have messages : chat.messages <+: chat.messages ++ [message] :=
    List.prefix_append _ _
  apply progress_of_pointers sound
  · refine ⟨?_, ?_⟩
    · intro row member
      exact (sound.rows row member).mono (Int.le_refl _) messages
    · intro other member
      rcases List.mem_append.mp member with earlier | last
      · exact sound.stamps other earlier
      · rw [List.mem_singleton.mp last]
        exact Int.le_of_eq sent
  · exact ⟨Int.le_refl _, messages, (Later.refl chat).rows⟩
  · intro place row later found found'
    change chat.participants[place]? = some later at found'
    rw [found] at found'
    cases found'
    rfl

theorem progress_join (sound : chat.Sound)
    (conversations : List Conversation) {rows : List Participant}
    (fresh : ∀ row ∈ rows, row.Sound chat) :
    Progress { chat with
      conversations, participants := chat.participants ++ rows } chat := by
  apply progress_of_pointers sound
  · refine ⟨?_, sound.stamps⟩
    intro row member
    rcases List.mem_append.mp member with earlier | joined
    · exact ⟨(sound.rows row earlier).read, (sound.rows row earlier).delivered,
        (sound.rows row earlier).pointer⟩
    · exact ⟨(fresh row joined).read, (fresh row joined).delivered, (fresh row joined).pointer⟩
  · refine ⟨Int.le_refl _, List.prefix_refl _, ?_⟩
    intro place row found
    have inside := (List.getElem?_eq_some_iff.mp found).1
    exact ⟨row, (List.getElem?_append_left inside).trans found, .refl row⟩
  · intro place row later found found'
    have inside := (List.getElem?_eq_some_iff.mp found).1
    change (chat.participants ++ rows)[place]? = some later at found'
    rw [List.getElem?_append_left inside, found] at found'
    cases found'
    rfl

variable {place : Nat}

theorem update_sound (sound : chat.Sound) (fit : row.Sound chat) :
    (chat.update place row).Sound := by
  refine ⟨?_, sound.stamps⟩
  intro other member
  rcases List.mem_or_eq_of_mem_set member with earlier | rfl
  · have kept := sound.rows other earlier
    exact ⟨kept.read, kept.delivered, kept.pointer⟩
  · exact ⟨fit.read, fit.delivered, fit.pointer⟩

section Update

variable {place : Nat} {changed : Participant}
  (found : chat.participants[place]? = some row)

include found

theorem update_later (later : changed.Later row) : (chat.update place changed).Later chat := by
  refine ⟨Int.le_refl _, List.prefix_refl _, ?_⟩
  intro other kept other_found
  have inside := (List.getElem?_eq_some_iff.mp found).1
  change ∃ later : Participant, (chat.participants.set place changed)[other]? = some later ∧
      later.Later kept
  rw [List.getElem?_set]
  split
  next same =>
    subst same
    rw [found] at other_found
    cases other_found
    exact ⟨changed, rfl, later⟩
  next => exact ⟨kept, other_found, .refl kept⟩

theorem update_onward : (chat.update place changed).PointersOnward chat ↔
      NotBefore (chat.read_up_to changed) (chat.read_up_to row) := by
  have inside := (List.getElem?_eq_some_iff.mp found).1
  constructor
  · intro onward
    apply onward place row changed found
    exact List.getElem?_set_self inside
  · intro onward other kept last other_found reached
    change (chat.participants.set place changed)[other]? = some last at reached
    rw [List.getElem?_set] at reached
    split at reached
    next same =>
      subst same
      rw [found] at other_found
      cases other_found
      cases reached
      exact onward
    next =>
      rw [other_found] at reached
      cases reached
      exact .refl _

theorem progress_update (sound : chat.Sound) (fit : changed.Sound chat)
    (later : changed.Later row)
    (pointer : changed.last_read_message_id = row.last_read_message_id) :
    (chat.update place changed).Progress chat := by
  refine ⟨update_sound sound fit, update_later found later, (update_onward found).mpr ?_⟩
  unfold read_up_to
  rw [pointer]
  exact .refl _

end Update

theorem membership_spec {conversation_id user_id : Id}
    (found : chat.membership conversation_id user_id = some (place, row)) :
    chat.participants[place]? = some row := by
  unfold membership at found
  split at found
  next => cases found
  next =>
    obtain ⟨other, stored, same⟩ := Option.map_eq_some_iff.mp found
    cases same
    exact stored

theorem require_membership_spec {conversation_id user_id : Id}
    (active : chat.require_membership conversation_id user_id =
      .ok (place, row)) : chat.participants[place]? = some row := by
  unfold require_membership at active
  split at active
  next => cases active
  next other _ found =>
    split at active
    next => cases active
    next =>
      cases active
      exact membership_spec found

theorem newcomer_sound (chat : ChatService) (conversation_id user_id : Id)
    (role : ParticipantRoleEnum) (joined_at : Instant)
    (history_from : Option Instant) :
    (newcomer conversation_id user_id role joined_at history_from).Sound chat where
  read := .none _
  delivered := .none _
  pointer := fun _ absent => nomatch absent

section

variable (sound : chat.Sound)

include sound

theorem progress_system_message
    (conversation_id actor_id : Id) (event : SystemEventEnum) :
    (chat.system_message conversation_id actor_id event).Progress chat :=
  progress_post sound rfl

theorem progress_membership (found : chat.participants[place]? = some row)
    (joined_at left_at history_from : Option Instant) :
    (chat.update place { row with joined_at, left_at, history_from }).Progress chat := by
  have fit := sound.rows row (List.mem_of_getElem? found)
  apply progress_update found sound
  · exact ⟨fit.read, fit.delivered, fit.pointer⟩
  · exact ⟨rfl, rfl, .refl _, .refl _⟩
  · rfl

theorem progress_start (creator_id : Id)
    (participant_ids : List Id) (kind : Option ConversationKindEnum) :
    (chat.settled (chat.start_conversation creator_id participant_ids kind)).Progress chat := by
  unfold start_conversation
  dsimp only
  generalize kind.getD _ = resolved
  split
  next => exact .refl sound
  next =>
    split
    next => exact .refl sound
    next =>
      generalize rows : (creator_id :: participant_ids).dedup.map _ = joining
      have fresh : ∀ row ∈ joining, row.Sound chat := by
        intro row member
        rw [← rows] at member
        obtain ⟨user_id, -, rfl⟩ := List.mem_map.mp member
        exact newcomer_sound ..
      have created := progress_join sound (chat.conversations ++ [⟨resolved, creator_id⟩]) fresh
      unfold settled
      dsimp only
      split
      next => exact (progress_system_message created.sound ..).trans created
      next => exact created

theorem progress_addEach (conversation_id : Id)
    (share_history : Bool) (added user_ids : List Id) :
    (addEach conversation_id share_history added chat user_ids).1.Progress chat := by
  induction user_ids generalizing chat added with
  | nil => exact .refl sound
  | cons user_id rest induction =>
    unfold addEach
    dsimp only
    split
    next place existing found =>
      split
      next => exact induction sound added
      next =>
        have back := progress_membership sound (membership_spec found)
          (some chat.now) none (if share_history then none else some chat.now)
        exact (induction back.sound _).trans back
    next =>
      have joined : (chat.add (newcomer conversation_id user_id .MEMBER
          chat.now (if share_history then none else some chat.now))).Progress chat := by
        apply progress_join sound chat.conversations
        intro row member
        rw [List.mem_singleton.mp member]
        exact newcomer_sound ..
      exact (induction joined.sound _).trans joined

theorem progress_add_participants
    (conversation_id actor_id : Id) (user_ids : List Id)
    (share_history : Bool) :
    (chat.settled (chat.add_participants conversation_id actor_id user_ids
      share_history)).Progress chat := by
  unfold add_participants
  split
  next => exact .refl sound
  next =>
    split
    next => exact .refl sound
    next =>
      split
      next => exact .refl sound
      next =>
        have joined := progress_addEach sound conversation_id share_history [] user_ids
        unfold settled
        dsimp only
        split
        next => exact joined
        next => exact (progress_system_message joined.sound ..).trans joined

theorem progress_departure {conversation_id user_id : Id}
    (active : chat.require_membership conversation_id user_id =
      .ok (place, row)) (actor_id : Id) (event : SystemEventEnum) :
    ((chat.update place { row with left_at := some chat.now }).system_message
      conversation_id actor_id event).Progress chat := by
  have left := progress_membership sound (require_membership_spec active)
    row.joined_at (some chat.now) row.history_from
  exact (progress_system_message left.sound ..).trans left

theorem progress_remove (conversation_id actor_id user_id : Id) :
    (chat.settled (chat.remove_participant conversation_id actor_id user_id)).Progress
        chat := by
  unfold remove_participant
  split
  next => exact .refl sound
  next =>
    split
    next => exact .refl sound
    next place membership active =>
      split
      next => exact .refl sound
      next => exact progress_departure sound active ..

theorem progress_leave (conversation_id user_id : Id) :
    (chat.settled (chat.leave conversation_id user_id)).Progress chat := by
  unfold leave
  split
  next => exact .refl sound
  next place membership active => exact progress_departure sound active ..

theorem progress_message (conversation_id sender_id : Id)
    (payload : MessageCreateSchema) :
    (chat.settled (chat.post_message conversation_id sender_id payload)).Progress chat := by
  unfold post_message
  dsimp only
  split
  next =>
    split
    next => exact .refl sound
    next => exact .refl sound
  next =>
    split
    next => exact .refl sound
    next =>
      split
      next => exact .refl sound
      next => exact progress_post sound rfl

theorem progress_delivered (conversation_id user_id : Id) :
    (chat.settled (chat.mark_delivered conversation_id user_id)).Progress chat := by
  unfold mark_delivered
  split
  next => exact .refl sound
  next place membership active =>
    have found := require_membership_spec active
    have fit := sound.rows membership (List.mem_of_getElem? found)
    apply progress_update found sound
    · exact ⟨fit.delivered.trans fit.read, .refl _, fit.pointer⟩
    · exact ⟨rfl, rfl, .refl _, fit.delivered⟩
    · rfl

end

theorem readUpTo_later (row : Participant) (read_at : Instant)
    (message_id : Option Id) : (readUpTo row read_at message_id).Later row where
  conversation_id := rfl
  user_id := rfl
  last_read_at := NotBefore.advance.1
  last_delivered_at := NotBefore.advance.1

theorem readUpTo_sound (fit : row.Sound chat) {read_at : Instant}
    {message_id : Option Id} (past : read_at ≤ chat.now)
    (stored : ∀ named, message_id = some named → named < chat.messages.length) :
    (readUpTo row read_at message_id).Sound chat where
  read := NotBefore.advance_le (NotBefore.advance.1.trans fit.read) NotBefore.advance.2
  delivered := NotBefore.advance_le fit.delivered (.of_le past)
  pointer := by
    intro named present
    cases message_id with
    | none => exact fit.pointer named present
    | some other =>
      cases present
      exact stored named rfl

theorem mark_read_spec (chat : ChatService) (conversation_id user_id : Id)
    (message_id : Option Id) :
    (chat.settled (chat.mark_read conversation_id user_id message_id) = chat ∧
        chat.Onward (.mark_read conversation_id user_id message_id)) ∨
      ∃ place row, chat.require_membership conversation_id user_id = .ok (place, row) ∧
        ((message_id = none ∧ chat.settled (chat.mark_read conversation_id user_id message_id) =
              chat.update place (readUpTo row chat.now none)) ∨
          ∃ named message, message_id = some named ∧ chat.messages[named]? = some message ∧
            message.conversation_id = conversation_id ∧
            chat.settled (chat.mark_read conversation_id user_id message_id) = chat.update place
                (readUpTo row message.created_at (some named))) := by
  unfold mark_read
  cases active : chat.require_membership conversation_id user_id with
  | error error =>
    refine .inl ⟨rfl, ?_⟩
    cases message_id with
    | none => trivial
    | some named =>
      intro place row message found
      rw [active] at found
      cases found
  | ok found =>
    obtain ⟨place, row⟩ := found
    cases message_id with
    | none => exact .inr ⟨place, row, rfl, .inl ⟨rfl, rfl⟩⟩
    | some named =>
      dsimp only
      cases stored : chat.messages[named]? with
      | none =>
        refine .inl ⟨rfl, ?_⟩
        intro _ _ message _ found
        rw [stored] at found
        cases found
      | some message =>
        dsimp only
        by_cases here : message.conversation_id = conversation_id
        · rw [if_neg (not_not_intro here)]
          exact .inr ⟨place, row, rfl, .inr ⟨named, message, rfl, stored, here, rfl⟩⟩
        · rw [if_pos here]
          refine .inl ⟨rfl, ?_⟩
          intro _ _ other _ found there
          rw [stored] at found
          cases found
          exact absurd there here

theorem mark_read_kept (sound : chat.Sound) (conversation_id user_id : Id)
    (message_id : Option Id) :
    (chat.settled (chat.mark_read conversation_id user_id message_id)).Sound ∧ (chat.settled
        (chat.mark_read conversation_id user_id message_id)).Later chat := by
  rcases mark_read_spec chat conversation_id user_id message_id with
    ⟨refused, -⟩ | ⟨place, row, active, ⟨-, read⟩ | ⟨named, message, -, stored, -, read⟩⟩
  · rw [refused]
    exact ⟨sound, .refl chat⟩
  · have found := require_membership_spec active
    have fit := sound.rows row (List.mem_of_getElem? found)
    rw [read]
    refine ⟨update_sound sound (readUpTo_sound fit (Int.le_refl _) ?_),
      update_later found (readUpTo_later ..)⟩
    intro named absent
    cases absent
  · have found := require_membership_spec active
    have fit := sound.rows row (List.mem_of_getElem? found)
    have past := sound.stamps message (List.mem_of_getElem? stored)
    rw [read]
    refine ⟨update_sound sound (readUpTo_sound fit past ?_),
      update_later found (readUpTo_later ..)⟩
    intro other same
    cases same
    exact (List.getElem?_eq_some_iff.mp stored).1

theorem mark_read_onward_iff (sound : chat.Sound)
    (conversation_id user_id : Id) (message_id : Option Id) :
    chat.Onward (.mark_read conversation_id user_id message_id) ↔ (chat.settled
        (chat.mark_read conversation_id user_id message_id)).PointersOnward chat := by
  rcases mark_read_spec chat conversation_id user_id message_id with
    ⟨refused, onward⟩ | ⟨place, row, active, ⟨rfl, read⟩ |
      ⟨named, message, rfl, stored, here, read⟩⟩
  · rw [refused]
    exact iff_of_true onward (Progress.refl sound).onward
  · rw [read, update_onward (require_membership_spec active)]
    exact iff_of_true trivial (.refl _)
  · have reached : chat.read_up_to (readUpTo row message.created_at (some named)) =
          some message.created_at := by
      change (chat.messages[named]?).map Message.created_at = _
      rw [stored]
      rfl
    rw [read, update_onward (require_membership_spec active), reached]
    constructor
    · intro onward
      exact onward place row message active stored here
    · intro onward other kept sent active' stored' _
      rw [active] at active'
      rw [stored] at stored'
      cases active'
      cases stored'
      exact onward

theorem perform_spec (sound : chat.Sound) (action : Action) :
    (chat.perform action).Sound ∧ (chat.perform action).Later chat ∧
      (chat.Onward action ↔ (chat.perform action).PointersOnward chat) := by
  have quiet : ∀ {after : ChatService}, after.Progress chat →
      after.Sound ∧ after.Later chat ∧ (True ↔ after.PointersOnward chat) :=
    fun progress => ⟨progress.sound, progress.later, iff_of_true trivial progress.onward⟩
  cases action with
  | tick microseconds => exact quiet (progress_tick sound microseconds)
  | start_conversation creator_id participant_ids kind =>
    exact quiet (progress_start sound creator_id participant_ids kind)
  | add_participants conversation_id actor_id user_ids share_history =>
    exact quiet (progress_add_participants sound conversation_id actor_id
      user_ids share_history)
  | remove_participant conversation_id actor_id user_id =>
    exact quiet (progress_remove sound conversation_id actor_id user_id)
  | leave conversation_id user_id => exact quiet (progress_leave sound conversation_id user_id)
  | post_message conversation_id sender_id payload =>
    exact quiet (progress_message sound conversation_id sender_id payload)
  | mark_read conversation_id user_id message_id =>
    obtain ⟨after_sound, later⟩ := mark_read_kept sound conversation_id user_id message_id
    exact ⟨after_sound, later, mark_read_onward_iff sound ..⟩
  | mark_delivered conversation_id user_id =>
    exact quiet (progress_delivered sound conversation_id user_id)

theorem empty_sound (now : Instant) : (empty now).Sound where
  rows := fun _ member => nomatch member
  stamps := fun _ member => nomatch member

theorem exec_sound {schedule : List Action} (sound : before.Sound)
    (run : Runs.exec step before schedule = some after) : after.Sound := by
  apply Runs.exec_invariant _ sound run
  intro chat action next sound taken
  cases taken
  exact (perform_spec sound action).1

theorem exec_later {schedule : List Action} (sound : before.Sound)
    (run : Runs.exec step before schedule = some after) :
    after.Later before := by
  have kept : after.Sound ∧ after.Later before := by
    apply Runs.exec_invariant _ ⟨sound, .refl before⟩ run
    rintro chat action next ⟨sound, later⟩ taken
    cases taken
    obtain ⟨after_sound, moved, -⟩ := perform_spec sound action
    exact ⟨after_sound, moved.trans later⟩
  exact kept.2

theorem exec_onward {schedule : List Action} (sound : before.Sound)
    (meets : Runs.Meets step Onward before schedule)
    (run : Runs.exec step before schedule = some after) :
    after.PointersOnward before := by
  have kept : after.Progress before := by
    apply Runs.exec_invariant_of_meets _ meets (.refl sound) run
    intro chat action next progress onward taken
    cases taken
    obtain ⟨after_sound, moved, exact⟩ := perform_spec progress.sound action
    exact .trans ⟨after_sound, moved, exact.mp onward⟩ progress
  exact kept.onward

theorem countP_le_countP {first second : List Participant}
    {counted recounted : Participant → Bool}
    (kept : ∀ (place : Nat) (row : Participant), first[place]? = some row →
      counted row → ∃ later, second[place]? = some later ∧ recounted later) :
    first.countP counted ≤ second.countP recounted := by
  induction first generalizing second with
  | nil => exact Nat.zero_le _
  | cons row rest induction =>
    cases second with
    | nil =>
      have uncounted : (row :: rest).countP counted = 0 := by
        rw [List.countP_eq_zero]
        intro other member counts
        obtain ⟨place, found⟩ := List.getElem?_of_mem member
        obtain ⟨later, absent, -⟩ := kept place other found counts
        cases absent
      omega
    | cons later others =>
      have remaining := @induction others fun place other found =>
        kept (place + 1) other found
      rw [List.countP_cons, List.countP_cons]
      split
      next counts =>
        obtain ⟨same, found, again⟩ := kept 0 row rfl counts
        cases found
        rw [if_pos again]
        omega
      next => omega

def addressed (message : Message) (row : Participant) : Bool :=
  decide (row.user_id ≠ message.sender_id) &&
    decide (row.conversation_id = message.conversation_id)

def marked (mark : Option Instant) (message : Message) : Bool :=
  mark.any fun last => message.created_at ≤ last

theorem marked_of_notBefore {later earlier : Option Instant}
    {message : Message} (onward : NotBefore later earlier)
    (reached : marked earlier message) : marked later message := by
  obtain ⟨first, present, before⟩ := (Option.any_eq_true _ _).mp reached
  obtain ⟨last, found, le⟩ := onward first present
  exact (Option.any_eq_true _ _).mpr ⟨last, found,
    decide_eq_true (Int.le_trans (of_decide_eq_true before) le)⟩

theorem receipt_counts_eq (chat : ChatService) (message : Message) :
    chat.receipt_counts message =
      { delivered := chat.participants.countP fun row =>
          marked row.last_delivered_at message && addressed message row
        read := chat.participants.countP fun row =>
          marked row.last_read_at message && addressed message row
        total := chat.participants.countP (addressed message) } := by
  unfold receipt_counts compose_receipts
  simp only [List.countP_filter, List.filter_filter, ← List.countP_eq_length_filter]
  rfl

theorem receipts_ordered (sound : chat.Sound) (message : Message) :
    (chat.receipt_counts message).read ≤ (chat.receipt_counts message).delivered ∧
      (chat.receipt_counts message).delivered ≤ (chat.receipt_counts message).total := by
  rw [receipt_counts_eq]
  constructor
  · apply List.countP_mono_left
    intro row member counts
    rw [Bool.and_eq_true] at counts ⊢
    exact ⟨marked_of_notBefore (sound.rows row member).read counts.1, counts.2⟩
  · apply List.countP_mono_left
    intro row _ counts
    exact (Bool.and_eq_true _ _ ▸ counts).2

theorem receipts_grow (later : after.Later before) (message : Message) :
    (before.receipt_counts message).read ≤ (after.receipt_counts message).read ∧
      (before.receipt_counts message).delivered ≤ (after.receipt_counts message).delivered := by
  have same : ∀ {row last : Participant}, last.Later row →
      addressed message row → addressed message last := by
    intro row last moved counts
    unfold addressed
    rw [moved.user_id, moved.conversation_id]
    exact counts
  rw [receipt_counts_eq, receipt_counts_eq]
  constructor
  · apply countP_le_countP
    intro place row found counts
    rw [Bool.and_eq_true] at counts
    obtain ⟨last, found', moved⟩ := later.rows place row found
    exact ⟨last, found', Bool.and_eq_true_iff.mpr
      ⟨marked_of_notBefore moved.last_read_at counts.1, same moved counts.2⟩⟩
  · apply countP_le_countP
    intro place row found counts
    rw [Bool.and_eq_true] at counts
    obtain ⟨last, found', moved⟩ := later.rows place row found
    exact ⟨last, found', Bool.and_eq_true_iff.mpr
      ⟨marked_of_notBefore moved.last_delivered_at counts.1, same moved counts.2⟩⟩

/-- Two states of one run, as far as times and receipts go. -/
structure Forward (after before : ChatService) : Prop where
  later : after.Later before
  sound : after.Sound
  ordered : ∀ message : Message, (after.receipt_counts message).read ≤
        (after.receipt_counts message).delivered ∧
      (after.receipt_counts message).delivered ≤ (after.receipt_counts message).total
  grown : ∀ message : Message, (before.receipt_counts message).read ≤
        (after.receipt_counts message).read ∧
      (before.receipt_counts message).delivered ≤ (after.receipt_counts message).delivered

end ChatService

open ChatService

/-- In every schedule the times and the receipts go forward, and the pointers
do between any two of its states exactly when no participant is told to have
read up to an older message. -/
theorem watermarks_forward_iff (now : Instant) (schedule : List Action) :
    (∀ front middle, front ++ middle <+: schedule → ∀ before after,
        Runs.exec step (empty now) front = some before →
        Runs.exec step before middle = some after → after.Forward before) ∧
      (Runs.Meets step Onward (empty now) schedule ↔
        ∀ front middle, front ++ middle <+: schedule → ∀ before after,
          Runs.exec step (empty now) front = some before →
          Runs.exec step before middle = some after → after.PointersOnward before) := by
  refine ⟨?_, ?_, ?_⟩
  · intro front middle _ before after first second
    have sound := exec_sound (empty_sound now) first
    have later := exec_later sound second
    have after_sound := exec_sound sound second
    exact ⟨later, after_sound, receipts_ordered after_sound, receipts_grow later⟩
  · rintro meets front middle ⟨back, rfl⟩ before after first second
    have sound := exec_sound (empty_sound now) first
    rw [List.append_assoc] at meets
    have remaining := (meets.of_append).2 before first
    exact exec_onward sound (remaining.of_append).1 second
  · intro pointers
    refine Runs.meets_iff_each.mpr ?_
    intro front action inside reached first
    have sound := exec_sound (empty_sound now) first
    apply (perform_spec sound action).2.2.mpr
    exact pointers front [action] inside reached (reached.perform action) first rfl

def twoMessages : List Action :=
  [.start_conversation 0 [1] none,
    .post_message 0 0 ⟨"first", .TEXT, none, none, []⟩, .tick 1000000,
    .post_message 0 0 ⟨"second", .TEXT, none, none, []⟩]

theorem late_read_moves_pointer_back : ∃ before after,
      Runs.exec step (empty 0) (twoMessages ++ [.mark_read 0 1 (some 1)]) = some before ∧
      Runs.exec step before [.mark_read 0 1 (some 0)] = some after ∧
      (before.participants[1]?.bind before.read_up_to) = some 1000000 ∧
      (after.participants[1]?.bind after.read_up_to) = some 0 ∧
      (after.participants[1]?.bind Participant.last_read_at) = some 1000000 :=
  ⟨_, _, rfl, rfl, by decide, by decide, by decide⟩

end TempestSdk.Chat
