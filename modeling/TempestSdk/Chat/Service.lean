import Mathlib.Data.List.Dedup

/-!
# Conversations

`ChatService` without attachments and reactions: conversations, their
participants and their messages.  A row is known by its place in its table.
Every method that raises leaves the tables as they were.
-/

namespace TempestSdk.Chat

abbrev Id := Nat

abbrev Instant := Int

inductive ConversationKindEnum where
  | DIRECT
  | GROUP
deriving DecidableEq

inductive ParticipantRoleEnum where
  | MEMBER
  | ADMIN
  | OWNER
deriving DecidableEq

inductive MessageKindEnum where
  | TEXT
  | IMAGE
  | VIDEO
  | AUDIO
  | VOICE
  | DOCUMENT
  | LOCATION
  | CONTACT
  | SYSTEM
deriving DecidableEq

inductive SystemEventEnum where
  | CONVERSATION_CREATED
  | PARTICIPANTS_ADDED
  | PARTICIPANT_REMOVED
  | PARTICIPANT_LEFT
deriving DecidableEq

def SystemEventEnum.value : SystemEventEnum → String
  | .CONVERSATION_CREATED => "conversation_created"
  | .PARTICIPANTS_ADDED => "participants_added"
  | .PARTICIPANT_REMOVED => "participant_removed"
  | .PARTICIPANT_LEFT => "participant_left"

structure Conversation where
  kind : ConversationKindEnum
  created_by : Id
deriving DecidableEq

structure Participant where
  conversation_id : Id
  user_id : Id
  role : ParticipantRoleEnum
  joined_at : Option Instant
  left_at : Option Instant
  history_from : Option Instant
  last_read_at : Option Instant
  last_read_message_id : Option Id
  last_delivered_at : Option Instant
deriving DecidableEq

structure Message where
  conversation_id : Id
  sender_id : Id
  kind : MessageKindEnum
  body : String
  client_id : Option String
  reply_to_id : Option Id
  created_at : Instant
deriving DecidableEq

structure MessageCreateSchema where
  body : String
  kind : MessageKindEnum
  client_id : Option String
  reply_to_id : Option Id
  attachment_ids : List Id

structure ReceiptCountsSchema where
  delivered : Nat
  read : Nat
  total : Nat
deriving DecidableEq

inductive ChatError where
  | validation (message : String) (field : Option String)
  | forbidden (message : String)
  | notFound (message : String) (field : Option String)
  | conflict
deriving DecidableEq

structure ChatService where
  /-- `utcnow()`. -/
  now : Instant
  conversations : List Conversation
  participants : List Participant
  messages : List Message
deriving DecidableEq

namespace ChatService

variable (chat : ChatService)

/-- `_membership`, with the place of the row. -/
def membership (conversation_id user_id : Id) : Option (Nat × Participant) :=
  match chat.participants.findIdx? fun row =>
      row.conversation_id = conversation_id ∧ row.user_id = user_id with
  | none => none
  | some place => chat.participants[place]?.map fun row => (place, row)

def require_membership (conversation_id user_id : Id) : Except ChatError (Nat × Participant) :=
  match chat.membership conversation_id user_id with
  | none => .error (.forbidden "not a participant of this conversation")
  | some (place, row) =>
    if row.left_at.isSome then
      .error (.forbidden "not a participant of this conversation")
    else .ok (place, row)

def require_admin (conversation_id user_id : Id) : Except ChatError (Nat × Participant) :=
  match chat.require_membership conversation_id user_id with
  | .error error => .error error
  | .ok (place, row) =>
    if row.role = .MEMBER then
      .error (.forbidden "only an admin or the owner can do that")
    else .ok (place, row)

def can_see (membership : Option Participant) (message : Message) : Bool :=
  match membership with
  | none => false
  | some row =>
    row.left_at.isNone && row.history_from.all fun history_from =>
        history_from ≤ message.created_at

def update (place : Nat) (row : Participant) : ChatService :=
  { chat with participants := chat.participants.set place row }

def add (row : Participant) : ChatService :=
  { chat with participants := chat.participants ++ [row] }

def system_message (conversation_id actor_id : Id) (event : SystemEventEnum) : ChatService :=
  { chat with
    messages := chat.messages ++ [{
      conversation_id
      sender_id := actor_id
      kind := .SYSTEM
      body := event.value
      client_id := none
      reply_to_id := none
      created_at := chat.now }] }

/-- A row that `participants.model` makes. -/
def newcomer (conversation_id user_id : Id) (role : ParticipantRoleEnum)
    (joined_at : Instant) (history_from : Option Instant) : Participant where
  conversation_id := conversation_id
  user_id := user_id
  role := role
  joined_at := some joined_at
  left_at := none
  history_from := history_from
  last_read_at := none
  last_read_message_id := none
  last_delivered_at := none

/-- `_find_direct`: whether there is the conversation already. -/
def find_direct (member_ids : List Id) : Option Id :=
  (List.range chat.conversations.length).find? fun conversation_id =>
    (chat.conversations[conversation_id]?.any fun conversation =>
      conversation.kind = .DIRECT) &&
    member_ids.all fun user_id =>
      (chat.membership conversation_id user_id).isSome

/-- `start_conversation`, which gives the conversation. -/
def start_conversation (creator_id : Id) (participant_ids : List Id)
    (kind : Option ConversationKindEnum) :
    Except ChatError (ChatService × Id) :=
  let member_ids := (creator_id :: participant_ids).dedup
  let resolved := kind.getD (if member_ids.length ≤ 2 then .DIRECT else .GROUP)
  if resolved = .DIRECT ∧ kind.isSome ∧ member_ids.length ≠ 2 then
    .error (.validation "a direct conversation needs exactly two people"
      (some "participant_ids"))
  else
    match if resolved = .DIRECT then chat.find_direct member_ids else none with
    | some existing => .ok (chat, existing)
    | none =>
      let conversation_id := chat.conversations.length
      let created := { chat with
        conversations := chat.conversations ++ [⟨resolved, creator_id⟩]
        participants := chat.participants ++ member_ids.map fun user_id =>
          newcomer conversation_id user_id
            (if user_id = creator_id ∧ resolved = .GROUP then .OWNER
              else .MEMBER) chat.now none }
      .ok (if resolved = .GROUP then
          created.system_message conversation_id creator_id .CONVERSATION_CREATED
        else created, conversation_id)

/-- The loop of `add_participants`, with the users that were added. -/
def addEach (conversation_id : Id) (share_history : Bool) (added : List Id) :
    ChatService → List Id → ChatService × List Id
  | chat, [] => (chat, added)
  | chat, user_id :: rest =>
    let history_from := if share_history then none else some chat.now
    match chat.membership conversation_id user_id with
    | some (place, existing) =>
      if existing.left_at.isNone then
        addEach conversation_id share_history added chat rest
      else
        addEach conversation_id share_history (added ++ [user_id])
          (chat.update place { existing with
            left_at := none, joined_at := some chat.now, history_from })
          rest
    | none =>
      addEach conversation_id share_history (added ++ [user_id])
        (chat.add (newcomer conversation_id user_id .MEMBER chat.now history_from)) rest

def add_participants (conversation_id actor_id : Id) (user_ids : List Id)
    (share_history : Bool) : Except ChatError (ChatService × List Id) :=
  match chat.conversations[conversation_id]? with
  | none => .error (.notFound "conversation not found" none)
  | some conversation =>
    if conversation.kind = .DIRECT then
      .error (.validation "a direct conversation cannot take more participants" none)
    else
      match chat.require_admin conversation_id actor_id with
      | .error error => .error error
      | .ok _ =>
        let (joined, added) :=
          addEach conversation_id share_history [] chat user_ids
        .ok (if added = [] then joined else joined.system_message conversation_id actor_id
            .PARTICIPANTS_ADDED, added)

def remove_participant (conversation_id actor_id user_id : Id) :
    Except ChatError (ChatService × Participant) :=
  match chat.require_admin conversation_id actor_id with
  | .error error => .error error
  | .ok _ =>
    match chat.require_membership conversation_id user_id with
    | .error error => .error error
    | .ok (place, membership) =>
      if membership.role = .OWNER then
        .error (.forbidden "the owner cannot be removed")
      else
        let left := { membership with left_at := some chat.now }
        .ok ((chat.update place left).system_message conversation_id
          actor_id .PARTICIPANT_REMOVED, left)

def leave (conversation_id user_id : Id) : Except ChatError (ChatService × Participant) :=
  match chat.require_membership conversation_id user_id with
  | .error error => .error error
  | .ok (place, membership) =>
    let left := { membership with left_at := some chat.now }
    .ok ((chat.update place left).system_message conversation_id user_id
      .PARTICIPANT_LEFT, left)

def find_client (sender_id : Id) (client_id : String) : Option Id :=
  chat.messages.findIdx? fun message =>
    message.sender_id = sender_id ∧ message.client_id = some client_id

def refusal (conversation_id sender_id : Id) (payload : MessageCreateSchema) :
    Option ChatError :=
  if payload.body = "" ∧ payload.attachment_ids = [] ∧ payload.kind = .TEXT then
    some (.validation "a text message needs a body" (some "body"))
  else if payload.attachment_ids ≠ [] then
    some (.validation ("this chat service was built without an attachment " ++
      "repository, so it cannot accept attachment_ids")
      (some "attachment_ids"))
  else
    match payload.reply_to_id with
    | none => none
    | some reply_to_id =>
      let membership := (chat.membership conversation_id sender_id).map Prod.snd
      let found := chat.messages[reply_to_id]?.any fun parent =>
        decide (parent.conversation_id = conversation_id) &&
          (membership.isNone || can_see membership parent)
      if found then none
      else some (.notFound "the message being replied to is not in this conversation"
        (some "reply_to_id"))

/-- `post_message`, which gives the message. -/
def post_message (conversation_id sender_id : Id)
    (payload : MessageCreateSchema) : Except ChatError (ChatService × Id) :=
  let existing := match payload.client_id with
    | none => none
    | some client_id => if client_id = "" then none else chat.find_client sender_id client_id
  match existing with
  | some message_id =>
    if chat.messages[message_id]?.any fun message =>
        message.conversation_id = conversation_id then
      .ok (chat, message_id)
    else
      .error (.validation ("this client_id was already used for a message " ++
        "in another conversation") (some "client_id"))
  | none =>
    match chat.refusal conversation_id sender_id payload with
    | some error => .error error
    | none =>
      if payload.client_id.any fun client_id =>
          (chat.find_client sender_id client_id).isSome then
        .error .conflict
      else
        .ok ({ chat with
          messages := chat.messages ++ [{
            conversation_id
            sender_id
            kind := payload.kind
            body := payload.body
            client_id := payload.client_id
            reply_to_id := payload.reply_to_id
            created_at := chat.now }] }, chat.messages.length)

/-- What `mark_read` makes of a row, given the message and its time. -/
def readUpTo (membership : Participant) (read_at : Instant)
    (message_id : Option Id) : Participant :=
  { membership with
    last_read_message_id := message_id <|> membership.last_read_message_id
    last_read_at :=
      if membership.last_read_at.all fun last => last < read_at then
        some read_at
      else membership.last_read_at
    last_delivered_at :=
      if membership.last_delivered_at.all fun last => last < read_at then
        some read_at
      else membership.last_delivered_at }

def mark_read (conversation_id user_id : Id) (message_id : Option Id) :
    Except ChatError (ChatService × Participant) :=
  match chat.require_membership conversation_id user_id with
  | .error error => .error error
  | .ok (place, membership) =>
    match message_id with
    | none =>
      let read := readUpTo membership chat.now none
      .ok (chat.update place read, read)
    | some message_id =>
      match chat.messages[message_id]? with
      | none =>
        .error (.notFound "that message is not in this conversation" (some "message_id"))
      | some message =>
        if message.conversation_id ≠ conversation_id then
          .error (.notFound "that message is not in this conversation" (some "message_id"))
        else
          let read := readUpTo membership message.created_at (some message_id)
          .ok (chat.update place read, read)

def mark_delivered (conversation_id user_id : Id) :
    Except ChatError (ChatService × Participant) :=
  match chat.require_membership conversation_id user_id with
  | .error error => .error error
  | .ok (place, membership) =>
    let delivered := { membership with last_delivered_at := some chat.now }
    .ok (chat.update place delivered, delivered)

def compose_receipts (message : Message) (members : List Participant) : ReceiptCountsSchema :=
  let rows := members.filter fun row => row.user_id ≠ message.sender_id
  { delivered := rows.countP fun row =>
      row.last_delivered_at.any fun last => message.created_at ≤ last
    read := rows.countP fun row =>
      row.last_read_at.any fun last => message.created_at ≤ last
    total := rows.length }

def receipt_counts (message : Message) : ReceiptCountsSchema :=
  compose_receipts message (chat.participants.filter fun row =>
    row.conversation_id = message.conversation_id)

end ChatService

end TempestSdk.Chat
