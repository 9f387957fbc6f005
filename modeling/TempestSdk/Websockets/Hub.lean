import TempestSdk.Library.Runs
import Mathlib.Data.Finset.Image

/-!
# The indexes of the WebSocket hub

The operations change the indexes under the lock of the hub and await nothing
there, so each is one step.  A fan-out goes through a snapshot of connections,
and other tasks run while it waits for a socket.
-/

namespace TempestSdk.Websockets

open Runs

abbrev ConnectionId := Nat

abbrev UserId := Nat

abbrev Topic := String

structure WebSocketConnection where
  connection_id : ConnectionId
  user_id : UserId
  topics : Finset Topic

structure WebSocketHub where
  connections : List WebSocketConnection
  by_user : UserId → Option (List ConnectionId)
  by_topic : Topic → Option (Finset ConnectionId)
  max_per_user : Nat

namespace WebSocketHub

/-- `WebSocketHub(max_per_user=max_per_user)`. -/
def init (max_per_user : Nat) : WebSocketHub where
  connections := []
  by_user := fun _ => none
  by_topic := fun _ => none
  max_per_user := max_per_user

variable (hub : WebSocketHub)

def get (connection_id : ConnectionId) : Option WebSocketConnection :=
  hub.connections.find? fun connection => decide (connection.connection_id = connection_id)

def userList (user_id : UserId) : List ConnectionId :=
  (hub.by_user user_id).getD []

def discard (connection_id : ConnectionId) (topic : Topic) : Option (Finset ConnectionId) :=
  let rest := ((hub.by_topic topic).getD ∅).erase connection_id
  if rest = ∅ then none else some rest

/-- `_remove_locked`. -/
def removeLocked (connection_id : ConnectionId) : WebSocketHub :=
  match hub.get connection_id with
  | none => hub
  | some connection =>
    let user_list := hub.userList connection.user_id
    let rest := user_list.erase connection_id
    { hub with
      connections := hub.connections.filter fun other => other.connection_id != connection_id
      by_user :=
        if connection_id ∈ user_list then
          Function.update hub.by_user connection.user_id (if rest = [] then none else some rest)
        else hub.by_user
      by_topic := fun topic =>
        if topic ∈ connection.topics then hub.discard connection_id topic
        else hub.by_topic topic }

def add (user_id : UserId) (connection_id : ConnectionId) : WebSocketHub :=
  { hub with
    connections := hub.connections ++ [⟨connection_id, user_id, ∅⟩]
    by_user := Function.update hub.by_user user_id
      (some (hub.userList user_id ++ [connection_id])) }

/-- `register`; the oldest connection is looked up at `existing[0]`. -/
def register (user_id : UserId) (connection_id : ConnectionId) : Option WebSocketHub :=
  if hub.max_per_user ≤ (hub.userList user_id).length then
    (hub.userList user_id).head?.map fun oldest =>
      (hub.removeLocked oldest).add user_id connection_id
  else some (hub.add user_id connection_id)

def setTopics (connection_id : ConnectionId) (change : Finset Topic → Finset Topic) :
    List WebSocketConnection :=
  hub.connections.map fun connection =>
    if connection.connection_id = connection_id then
      { connection with topics := change connection.topics }
    else connection

def subscribe (connection_id : ConnectionId) (topic : Topic) : WebSocketHub :=
  match hub.get connection_id with
  | none => hub
  | some _ =>
    { hub with
      connections := hub.setTopics connection_id (insert topic)
      by_topic := Function.update hub.by_topic topic
        (some (insert connection_id ((hub.by_topic topic).getD ∅))) }

def unsubscribe (connection_id : ConnectionId) (topic : Topic) : WebSocketHub :=
  match hub.get connection_id with
  | none => hub
  | some _ =>
    { hub with
      connections := hub.setTopics connection_id (·.erase topic)
      by_topic := Function.update hub.by_topic topic (hub.discard connection_id topic) }

end WebSocketHub

/-- A task in `_fan_out`. -/
inductive Stage where
  | ready
  | sending (connection_id : ConnectionId)
  /-- The send raised, and `unregister` waits for the lock. -/
  | evicting (connection_id : ConnectionId)

structure FanOut where
  connection_ids : List ConnectionId
  stage : Stage
  delivered : Nat

/-- The hub, the ids `uuid4` gave it, and the fan-outs under way. -/
structure HubRun where
  hub : WebSocketHub
  issued : List ConnectionId
  fanOuts : List FanOut

inductive HubAction where
  | register (user_id : UserId) (connection_id : ConnectionId)
  | unregister (connection_id : ConnectionId)
  | subscribe (connection_id : ConnectionId) (topic : Topic)
  | unsubscribe (connection_id : ConnectionId) (topic : Topic)
  | sendTo (user_id : UserId)
  | sendMany (user_ids : List UserId)
  | broadcast
  /-- `broadcast(topic=topic)`, in some order of the set. -/
  | publish (topic : Topic) (connection_ids : List ConnectionId)
  | send (task : Nat)
  | sent (task : Nat) (fails : Bool)
  | evict (task : Nat)
  | cancel (task : Nat)

namespace HubRun

variable (run : HubRun)

def fanOut (targets : List (List ConnectionId)) : HubRun :=
  { run with fanOuts := run.fanOuts ++ targets.map fun connection_ids =>
      ⟨connection_ids, .ready, 0⟩ }

def goto (task : Nat) (fanOut : FanOut) : HubRun :=
  { run with fanOuts := run.fanOuts.set task fanOut }

def step : HubAction → Option HubRun
  | .register user_id connection_id =>
    if connection_id ∈ run.issued then none
    else (run.hub.register user_id connection_id).map fun hub =>
      { run with hub := hub, issued := run.issued ++ [connection_id] }
  | .unregister connection_id => some { run with hub := run.hub.removeLocked connection_id }
  | .subscribe connection_id topic =>
    some { run with hub := run.hub.subscribe connection_id topic }
  | .unsubscribe connection_id topic =>
    some { run with hub := run.hub.unsubscribe connection_id topic }
  | .sendTo user_id => some (run.fanOut [run.hub.userList user_id])
  | .sendMany user_ids =>
    some (run.fanOut ((user_ids.map run.hub.userList).filter fun targets => !targets.isEmpty))
  | .broadcast => some (run.fanOut [run.hub.connections.map (·.connection_id)])
  | .publish topic connection_ids =>
    if connection_ids.Nodup ∧ connection_ids.toFinset = (run.hub.by_topic topic).getD ∅ then
      some (run.fanOut [connection_ids])
    else none
  | .send task =>
    match run.fanOuts[task]? with
    | some ⟨connection_id :: rest, .ready, delivered⟩ =>
      match run.hub.get connection_id with
      | none => some (run.goto task ⟨rest, .ready, delivered⟩)
      | some _ => some (run.goto task ⟨rest, .sending connection_id, delivered⟩)
    | _ => none
  | .sent task fails =>
    match run.fanOuts[task]? with
    | some ⟨rest, .sending connection_id, delivered⟩ =>
      if fails then some (run.goto task ⟨rest, .evicting connection_id, delivered⟩)
      else some (run.goto task ⟨rest, .ready, delivered + 1⟩)
    | _ => none
  | .evict task =>
    match run.fanOuts[task]? with
    | some ⟨rest, .evicting connection_id, delivered⟩ =>
      some { run.goto task ⟨rest, .ready, delivered⟩ with
        hub := run.hub.removeLocked connection_id }
    | _ => none
  | .cancel task => some { run with fanOuts := run.fanOuts.eraseIdx task }

end HubRun

namespace WebSocketHub

def owned (connections : List WebSocketConnection) : List (ConnectionId × UserId) :=
  connections.map fun connection => (connection.connection_id, connection.user_id)

def connectionsOf (connections : List WebSocketConnection) (user_id : UserId) :
    List ConnectionId :=
  ((owned connections).filter fun entry => decide (entry.2 = user_id)).map Prod.fst

def subscribers (connections : List WebSocketConnection) (topic : Topic) :
    Finset ConnectionId :=
  ((connections.filter fun connection => decide (topic ∈ connection.topics)).map
    (·.connection_id)).toFinset

/-- The indexes list what is registered, and hold nothing empty. -/
structure Agrees (hub : WebSocketHub) (issued : List ConnectionId) : Prop where
  registered : ((owned hub.connections).map Prod.fst).Sublist issued
  distinct : issued.Nodup
  by_user : ∀ user_id, hub.by_user user_id =
    if connectionsOf hub.connections user_id = [] then none
    else some (connectionsOf hub.connections user_id)
  by_topic : ∀ topic, hub.by_topic topic =
    if subscribers hub.connections topic = ∅ then none else some (subscribers hub.connections topic)
  capped : ∀ user_id, (connectionsOf hub.connections user_id).length ≤ hub.max_per_user

variable {hub : WebSocketHub} {issued : List ConnectionId} {connection_id : ConnectionId}
variable {user_id : UserId} {topic : Topic} {connection : WebSocketConnection}

theorem mem_subscribers {connections : List WebSocketConnection} :
    connection_id ∈ subscribers connections topic ↔
      ∃ connection ∈ connections, topic ∈ connection.topics ∧
        connection.connection_id = connection_id := by
  simp only [subscribers, List.mem_toFinset, List.mem_map, List.mem_filter,
    decide_eq_true_eq, and_assoc]

theorem get_eq (found : hub.get connection_id = some connection) :
    connection ∈ hub.connections ∧ connection.connection_id = connection_id := by
  have named := List.find?_some found
  exact ⟨List.mem_of_find?_eq_some found, by simpa using named⟩

theorem connectionsOf_add (user other : UserId) :
    connectionsOf (hub.add user connection_id).connections other =
      if other = user then connectionsOf hub.connections other ++ [connection_id]
      else connectionsOf hub.connections other := by
  unfold connectionsOf owned add
  rw [List.map_append, List.filter_append, List.map_append]
  by_cases same : other = user
  · simp [same]
  · simp [same, Ne.symm same]

theorem owned_setTopics (change : Finset Topic → Finset Topic) :
    owned (hub.setTopics connection_id change) = owned hub.connections := by
  unfold owned setTopics
  rw [List.map_map]
  apply List.map_congr_left
  intro connection member
  simp only [Function.comp_apply]
  split <;> rfl

theorem owned_removeLocked (found : hub.get connection_id = some connection) :
    owned (hub.removeLocked connection_id).connections =
      (owned hub.connections).filter fun entry => entry.1 != connection_id := by
  unfold removeLocked owned
  rw [found, List.filter_map]
  rfl

theorem subscribers_removeLocked (found : hub.get connection_id = some connection) :
    subscribers (hub.removeLocked connection_id).connections topic =
      (subscribers hub.connections topic).erase connection_id := by
  ext other
  rw [Finset.mem_erase, mem_subscribers, mem_subscribers]
  unfold removeLocked
  simp only [found, List.mem_filter, bne_iff_ne, ne_eq]
  constructor
  · rintro ⟨connection, ⟨present, differs⟩, subscribed, rfl⟩
    exact ⟨differs, connection, present, subscribed, rfl⟩
  · rintro ⟨differs, connection, present, subscribed, rfl⟩
    exact ⟨connection, ⟨present, differs⟩, subscribed, rfl⟩

namespace Agrees

variable (agrees : hub.Agrees issued)

include agrees

theorem same_id {first second : WebSocketConnection}
    (one : first ∈ hub.connections) (two : second ∈ hub.connections)
    (same : first.connection_id = second.connection_id) : first = second := by
  have distinct := agrees.registered.nodup agrees.distinct
  unfold owned at distinct
  rw [List.map_map] at distinct
  exact List.inj_on_of_nodup_map distinct one two same

theorem userList_eq (user_id : UserId) :
    hub.userList user_id = connectionsOf hub.connections user_id := by
  unfold userList
  rw [agrees.by_user]
  split
  case isTrue empty => exact empty.symm
  case isFalse => rfl

theorem topicSet_eq (topic : Topic) :
    (hub.by_topic topic).getD ∅ = subscribers hub.connections topic := by
  rw [agrees.by_topic]
  split
  case isTrue empty => exact empty.symm
  case isFalse => rfl

theorem mem_connectionsOf (found : hub.get connection_id = some connection) :
    connection_id ∈ connectionsOf hub.connections user_id ↔ connection.user_id = user_id := by
  obtain ⟨member, named⟩ := get_eq found
  simp only [connectionsOf, owned, List.mem_map, List.mem_filter, decide_eq_true_eq]
  constructor
  · rintro ⟨entry, ⟨⟨other, present, rfl⟩, owned⟩, same⟩
    rwa [agrees.same_id present member (same.trans named.symm)] at owned
  · exact fun owned => ⟨_, ⟨⟨connection, member, rfl⟩, owned⟩, named⟩

theorem mem_subscribers_of_get (found : hub.get connection_id = some connection) :
    connection_id ∈ subscribers hub.connections topic ↔ topic ∈ connection.topics := by
  obtain ⟨member, named⟩ := get_eq found
  rw [mem_subscribers]
  constructor
  · rintro ⟨other, present, subscribed, same⟩
    rwa [agrees.same_id present member (same.trans named.symm)] at subscribed
  · exact fun subscribed => ⟨connection, member, subscribed, named⟩

theorem connectionsOf_removeLocked (user : UserId)
    (found : hub.get connection_id = some connection) :
    connectionsOf (hub.removeLocked connection_id).connections user =
      (connectionsOf hub.connections user).erase connection_id := by
  have distinct : (connectionsOf hub.connections user).Nodup :=
    (agrees.registered.nodup agrees.distinct).sublist (List.filter_sublist.map _)
  rw [distinct.erase_eq_filter]
  unfold connectionsOf
  rw [owned_removeLocked found, List.filter_comm, List.filter_map]
  rfl

theorem removeLocked (connection_id : ConnectionId) :
    (hub.removeLocked connection_id).Agrees issued := by
  cases found : hub.get connection_id with
  | none =>
    unfold WebSocketHub.removeLocked
    rw [found]
    exact agrees
  | some connection =>
    have users (user : UserId) := agrees.connectionsOf_removeLocked user found
    refine ⟨?_, agrees.distinct, ?_, ?_, ?_⟩
    · rw [owned_removeLocked found]
      exact (List.filter_sublist.map _).trans agrees.registered
    · intro user
      rw [users]
      unfold WebSocketHub.removeLocked
      simp only [found, agrees.userList_eq, if_pos ((agrees.mem_connectionsOf found).mpr rfl)]
      by_cases own : user = connection.user_id
      · subst own
        exact Function.update_self ..
      · have outside : connection_id ∉ connectionsOf hub.connections user :=
          fun member => own ((agrees.mem_connectionsOf found).mp member).symm
        rw [Function.update_of_ne own, List.erase_of_not_mem outside, agrees.by_user]
    · intro topic
      rw [subscribers_removeLocked found]
      unfold WebSocketHub.removeLocked discard
      simp only [found, agrees.topicSet_eq]
      split
      case isTrue => rfl
      case isFalse other =>
        have outside := mt (agrees.mem_subscribers_of_get found).mp other
        rw [Finset.erase_eq_of_notMem outside, agrees.by_topic]
    · intro user
      rw [users]
      unfold WebSocketHub.removeLocked
      simp only [found]
      exact (List.erase_sublist.length_le).trans (agrees.capped user)

theorem add (fresh : connection_id ∉ issued)
    (room : (connectionsOf hub.connections user_id).length < hub.max_per_user) :
    (hub.add user_id connection_id).Agrees (issued ++ [connection_id]) where
  registered := by
    unfold owned WebSocketHub.add
    rw [List.map_append, List.map_append]
    exact agrees.registered.append (List.Sublist.refl _)
  distinct := List.nodup_append.mpr ⟨agrees.distinct, List.pairwise_singleton .., by
    intro id member other single same
    exact fresh (List.mem_singleton.mp single ▸ same ▸ member)⟩
  by_user := by
    intro user
    rw [connectionsOf_add]
    unfold WebSocketHub.add
    by_cases own : user = user_id
    · subst own
      simp [agrees.userList_eq]
    · simp only [Function.update_of_ne own, if_neg own, agrees.by_user]
  by_topic := by
    intro topic
    have same : subscribers (hub.add user_id connection_id).connections topic =
        subscribers hub.connections topic := by
      unfold subscribers WebSocketHub.add
      simp
    rw [same]
    exact agrees.by_topic topic
  capped := by
    intro user
    rw [connectionsOf_add]
    split
    case isTrue own =>
      subst own
      rw [List.length_append]
      exact room
    case isFalse => exact agrees.capped user

theorem register {next : WebSocketHub} (fresh : connection_id ∉ issued)
    (registered : hub.register user_id connection_id = some next) :
    next.Agrees (issued ++ [connection_id]) := by
  unfold WebSocketHub.register at registered
  rw [agrees.userList_eq] at registered
  split at registered
  case isTrue full =>
    obtain ⟨oldest, first, rfl⟩ := Option.map_eq_some_iff.mp registered
    refine (agrees.removeLocked oldest).add fresh ?_
    have member := List.mem_of_head? first
    have limit := agrees.capped user_id
    have some_one := List.length_pos_of_mem member
    cases found : hub.get oldest with
    | none =>
      simp only [connectionsOf, owned, List.mem_map, List.mem_filter] at member
      obtain ⟨entry, ⟨⟨connection, present, rfl⟩, _⟩, same⟩ := member
      exact absurd (decide_eq_true same) (List.find?_eq_none.mp found connection present)
    | some connection =>
      rw [agrees.connectionsOf_removeLocked user_id found, List.length_erase_of_mem member]
      have same : (hub.removeLocked oldest).max_per_user = hub.max_per_user := by
        unfold WebSocketHub.removeLocked
        rw [found]
      omega
  case isFalse room =>
    cases registered
    exact agrees.add fresh (Nat.lt_of_not_le room)

theorem mem_subscribers_setTopics (found : hub.get connection_id = some connection)
    (change : Finset Topic → Finset Topic) (topic : Topic) (id : ConnectionId) :
    id ∈ subscribers (hub.setTopics connection_id change) topic ↔
      if id = connection_id then topic ∈ change connection.topics
      else id ∈ subscribers hub.connections topic := by
  obtain ⟨member, named⟩ := get_eq found
  rw [mem_subscribers, mem_subscribers]
  unfold WebSocketHub.setTopics
  simp only [List.mem_map, exists_exists_and_eq_and]
  split
  case isTrue same =>
    subst same
    constructor
    · rintro ⟨other, present, inside, same⟩
      by_cases own : other.connection_id = id
      · rw [if_pos own] at inside
        rwa [← agrees.same_id present member (own.trans named.symm)]
      · rw [if_neg own] at same
        exact absurd same own
    · intro inside
      exact ⟨connection, member, by rwa [if_pos named], by rwa [if_pos named]⟩
  case isFalse other_id =>
    apply exists_congr
    intro other
    by_cases own : other.connection_id = connection_id
    · simp only [if_pos own]
      exact ⟨fun held => absurd (held.2.2.symm.trans own) other_id,
        fun held => absurd (held.2.2.symm.trans own) other_id⟩
    · simp only [if_neg own]

/-- A change of one topic of a connection, and of the index with it. -/
theorem setTopics (found : hub.get connection_id = some connection)
    (topic : Topic) (change : Finset Topic → Finset Topic) (members : Finset ConnectionId)
    (stays : ∀ other, other ≠ topic →
      (other ∈ change connection.topics ↔ other ∈ connection.topics))
    (members_iff : ∀ id, id ∈ members ↔
      if id = connection_id then topic ∈ change connection.topics
      else id ∈ subscribers hub.connections topic) :
    Agrees { hub with
      connections := hub.setTopics connection_id change
      by_topic := Function.update hub.by_topic topic
        (if members = ∅ then none else some members) } issued where
  registered := by
    rw [owned_setTopics]
    exact agrees.registered
  distinct := agrees.distinct
  by_user := by
    intro user
    unfold connectionsOf
    rw [owned_setTopics]
    exact agrees.by_user user
  by_topic := by
    intro other
    by_cases same : other = topic
    · subst same
      have listed := Finset.ext fun id => (members_iff id).trans
        (agrees.mem_subscribers_setTopics found change other id).symm
      rw [← listed]
      exact Function.update_self ..
    · have listed : subscribers (hub.setTopics connection_id change) other =
          subscribers hub.connections other := by
        ext id
        rw [agrees.mem_subscribers_setTopics found]
        split
        case isTrue own => rw [own, stays other same, agrees.mem_subscribers_of_get found]
        case isFalse => rfl
      rw [listed, ← agrees.by_topic]
      exact Function.update_of_ne same ..
  capped := by
    intro user
    unfold connectionsOf
    rw [owned_setTopics]
    exact agrees.capped user

theorem subscribe (topic : Topic) : (hub.subscribe connection_id topic).Agrees issued := by
  unfold WebSocketHub.subscribe
  cases found : hub.get connection_id with
  | none => exact agrees
  | some connection =>
    have listed := agrees.setTopics found topic (insert topic)
      (insert connection_id (subscribers hub.connections topic))
      (fun other differs => by simp [differs]) (fun id => by
        by_cases own : id = connection_id <;> simp [own])
    rwa [if_neg (Finset.insert_nonempty ..).ne_empty, ← agrees.topicSet_eq] at listed

theorem unsubscribe (topic : Topic) : (hub.unsubscribe connection_id topic).Agrees issued := by
  unfold WebSocketHub.unsubscribe discard
  cases found : hub.get connection_id with
  | none => exact agrees
  | some connection =>
    rw [agrees.topicSet_eq]
    exact agrees.setTopics found _ _ _ (fun other differs => by simp [differs]) (fun id => by
      by_cases own : id = connection_id <;> simp [own])

end Agrees

theorem init_agrees (max_per_user : Nat) : (init max_per_user).Agrees [] where
  registered := List.Sublist.refl _
  distinct := List.nodup_nil
  by_user := fun _ => rfl
  by_topic := fun _ => rfl
  capped := fun _ => Nat.zero_le _

end WebSocketHub

theorem HubRun.step_agrees {run next : HubRun} {action : HubAction}
    (agrees : run.hub.Agrees run.issued) (taken : run.step action = some next) :
    next.hub.Agrees next.issued := by
  cases action with
  | register user_id connection_id =>
    simp only [HubRun.step] at taken
    split at taken
    case isTrue => cases taken
    case isFalse fresh =>
      obtain ⟨hub, registered, rfl⟩ := Option.map_eq_some_iff.mp taken
      exact agrees.register fresh registered
  | unregister connection_id =>
    cases taken
    exact agrees.removeLocked connection_id
  | subscribe connection_id topic =>
    cases taken
    exact agrees.subscribe topic
  | unsubscribe connection_id topic =>
    cases taken
    exact agrees.unsubscribe topic
  | sendTo | sendMany | broadcast | cancel =>
    cases taken
    exact agrees
  | publish topic connection_ids =>
    simp only [HubRun.step, Option.ite_none_right_eq_some] at taken
    cases taken.2
    exact agrees
  | send task | sent task fails =>
    simp only [HubRun.step] at taken
    split at taken
    · split at taken <;> cases taken <;> exact agrees
    · cases taken
  | evict task =>
    simp only [HubRun.step] at taken
    split at taken
    · cases taken
      exact agrees.removeLocked _
    · cases taken

def HubRun.start (max_per_user : Nat) : HubRun where
  hub := .init max_per_user
  issued := []
  fanOuts := []

/-- Whatever is registered, dropped, subscribed and sent, and in whatever order. -/
theorem indexes_agree {max_per_user : Nat} {schedule : List HubAction} {run : HubRun}
    (ran : exec HubRun.step (.start max_per_user) schedule = some run) :
    run.hub.Agrees run.issued :=
  exec_invariant (fun _ _ _ => HubRun.step_agrees) (WebSocketHub.init_agrees max_per_user) ran

/-- A second socket of a user takes the place of the first, which a fan-out fails on. -/
def replaced : List HubAction :=
  [.register 7 0, .subscribe 0 "news", .publish "news" [0], .send 0, .register 7 1,
    .sent 0 true, .evict 0]

theorem indexes_agree_replaced :
    ∃ run, exec HubRun.step (.start 1) replaced = some run ∧ run.hub.Agrees run.issued := by
  have taken : (exec HubRun.step (.start 1) replaced).isSome = true := rfl
  obtain ⟨run, ran⟩ := Option.isSome_iff_exists.mp taken
  exact ⟨run, ran, indexes_agree ran⟩

namespace WebSocketHub
variable {hub : WebSocketHub} {id : ConnectionId}

theorem get_eq_none : hub.get id = none ↔ ∀ entry ∈ owned hub.connections, entry.1 ≠ id := by
  simp [get, owned]

theorem gone_removeLocked (gone : hub.get id = none) (other : ConnectionId) :
    (hub.removeLocked other).get id = none := by
  rw [get_eq_none] at gone ⊢
  cases found : hub.get other with
  | none =>
    unfold removeLocked
    rwa [found]
  | some connection =>
    rw [owned_removeLocked found]
    exact fun entry member => gone entry (List.mem_filter.mp member).1

theorem gone_add (gone : hub.get id = none) {other : ConnectionId} (differs : other ≠ id)
    (user_id : UserId) : (hub.add user_id other).get id = none := by
  rw [get_eq_none] at gone ⊢
  intro entry member
  unfold owned add at member
  rw [List.map_append] at member
  rcases List.mem_append.mp member with old | new
  · exact gone entry old
  · rw [List.mem_singleton.mp new]
    exact differs

theorem gone_register (gone : hub.get id = none) {other : ConnectionId} (differs : other ≠ id)
    {user_id : UserId} {next : WebSocketHub}
    (registered : hub.register user_id other = some next) : next.get id = none := by
  unfold register at registered
  split at registered
  · obtain ⟨oldest, _, rfl⟩ := Option.map_eq_some_iff.mp registered
    exact gone_add (gone_removeLocked gone oldest) differs user_id
  · cases registered
    exact gone_add gone differs user_id

theorem gone_topics (gone : hub.get id = none) (other : ConnectionId) (topic : Topic) :
    (hub.subscribe other topic).get id = none ∧ (hub.unsubscribe other topic).get id = none := by
  rw [get_eq_none] at gone
  unfold subscribe unsubscribe
  cases found : hub.get other with
  | none => exact ⟨get_eq_none.mpr gone, get_eq_none.mpr gone⟩
  | some connection =>
    rw [get_eq_none, get_eq_none, owned_setTopics, owned_setTopics]
    exact ⟨gone, gone⟩

end WebSocketHub

/-- A connection that was registered and is not any more. -/
def HubRun.Gone (run : HubRun) (id : ConnectionId) : Prop :=
  id ∈ run.issued ∧ run.hub.get id = none

theorem HubRun.step_gone {run next : HubRun} {action : HubAction} {id : ConnectionId}
    (gone : run.Gone id) (taken : run.step action = some next) : next.Gone id := by
  cases action with
  | register user_id connection_id =>
    simp only [HubRun.step] at taken
    split at taken
    case isTrue => cases taken
    case isFalse fresh =>
      obtain ⟨hub, registered, rfl⟩ := Option.map_eq_some_iff.mp taken
      have differs : connection_id ≠ id := fun same => fresh (same ▸ gone.1)
      exact ⟨List.mem_append_left _ gone.1,
        WebSocketHub.gone_register gone.2 differs registered⟩
  | unregister connection_id =>
    cases taken
    exact ⟨gone.1, WebSocketHub.gone_removeLocked gone.2 connection_id⟩
  | subscribe connection_id topic =>
    cases taken
    exact ⟨gone.1, (WebSocketHub.gone_topics gone.2 connection_id topic).1⟩
  | unsubscribe connection_id topic =>
    cases taken
    exact ⟨gone.1, (WebSocketHub.gone_topics gone.2 connection_id topic).2⟩
  | sendTo | sendMany | broadcast | cancel =>
    cases taken
    exact gone
  | publish topic connection_ids =>
    simp only [HubRun.step, Option.ite_none_right_eq_some] at taken
    cases taken.2
    exact gone
  | send task | sent task fails =>
    simp only [HubRun.step] at taken
    split at taken
    · split at taken <;> cases taken <;> exact gone
    · cases taken
  | evict task =>
    simp only [HubRun.step] at taken
    split at taken
    · cases taken
      exact ⟨gone.1, WebSocketHub.gone_removeLocked gone.2 _⟩
    · cases taken

/-- A dropped connection never comes back: whatever runs after, no fan-out
finds it and no user and no topic lists it. -/
theorem gone_for_good {max_per_user : Nat} {before after : List HubAction}
    {run final : HubRun} {id : ConnectionId}
    (ran : exec HubRun.step (.start max_per_user) before = some run) (gone : run.Gone id)
    (went_on : exec HubRun.step run after = some final) :
    final.hub.get id = none ∧ (∀ user_id, id ∉ final.hub.userList user_id) ∧
      ∀ topic, id ∉ (final.hub.by_topic topic).getD ∅ := by
  have ends : final.Gone id :=
    exec_invariant (fun _ _ _ => HubRun.step_gone) gone went_on
  have agrees : final.hub.Agrees final.issued :=
    exec_invariant (fun _ _ _ => HubRun.step_agrees) (WebSocketHub.init_agrees max_per_user)
      (exec_append.mpr ⟨run, ran, went_on⟩)
  have absent := WebSocketHub.get_eq_none.mp ends.2
  refine ⟨ends.2, ?_, ?_⟩
  · intro user_id listed
    rw [agrees.userList_eq] at listed
    obtain ⟨entry, member, same⟩ := List.mem_map.mp listed
    exact absent entry (List.mem_filter.mp member).1 same
  · intro topic listed
    rw [agrees.topicSet_eq, WebSocketHub.mem_subscribers] at listed
    obtain ⟨connection, member, _, same⟩ := listed
    exact absent _ (List.mem_map_of_mem member) same

theorem gone_for_good_replaced : ∃ run final,
    exec HubRun.step (.start 1) replaced = some run ∧ run.Gone 0 ∧
      exec HubRun.step run [.register 7 2] = some final ∧ final.hub.get 0 = none := by
  have gone : ∃ run, exec HubRun.step (.start 1) replaced = some run ∧ run.Gone 0 ∧
      (exec HubRun.step run [.register 7 2]).isSome = true :=
    ⟨_, rfl, ⟨.head _, rfl⟩, rfl⟩
  obtain ⟨run, ran, gone, goes_on⟩ := gone
  obtain ⟨final, went_on⟩ := Option.isSome_iff_exists.mp goes_on
  exact ⟨run, final, ran, gone, went_on, (gone_for_good ran gone went_on).1⟩
end TempestSdk.Websockets
