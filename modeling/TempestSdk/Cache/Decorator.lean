import TempestSdk.Library.Expiring

/-!
# The cache decorator and the invalidator

Calls of functions under `@cached` and purges of `CacheInvalidator`, one Redis
command at a time; the pipeline of `_register_labels` is one.  What is past its
deadline is gone from the server.  A call that skips the cache, or whose key
cannot be encoded, sends no command and is left out.
-/

namespace TempestSdk.Cache

variable {Payload : Type}

def namespaceRegistryKey (keyPrefix label : String) : String :=
  keyPrefix ++ "__ns__:" ++ label

def tagRegistryKey (keyPrefix tag : String) : String :=
  keyPrefix ++ "__tag__:" ++ tag

/-- What the decorator and the arguments of a call say. -/
structure Cached where
  keyPrefix : String
  fragment : String
  ttl : Int
  namespaceLabel : Option String
  tags : List String
deriving DecidableEq

namespace Cached

def key (cached : Cached) : String :=
  cached.keyPrefix ++ cached.fragment

def registries (cached : Cached) : List String :=
  (cached.namespaceLabel.map (namespaceRegistryKey cached.keyPrefix)).toList ++
    cached.tags.map (tagRegistryKey cached.keyPrefix)

def lifetime (cached : Cached) : Nat :=
  1000 * cached.ttl.toNat

/-- `SET` has an `EX` when the `ttl` is positive. -/
def deadline (cached : Cached) (clock : Nat) : Option Nat :=
  if 0 < cached.ttl then some (clock + cached.lifetime) else none

end Cached

structure Entry (Payload : Type) where
  payload : Payload
  deadline : Option Nat
  labels : List String
  seen : Nat
  writer : Nat
deriving DecidableEq

def Entry.lasts (entry : Entry Payload) (moment : Nat) : Bool :=
  match entry.deadline with
  | some deadline => decide (moment ≤ deadline)
  | none => true

inductive Stage (Payload : Type) where
  | started
  /-- `GET` had nothing to serve. -/
  | missed
  | computed (payload : Payload) (seen : Nat)
  /-- `SET` is done, the labels are not registered. -/
  | stored (payload : Payload)
  | returned (payload : Payload)
  | served (entry : Entry Payload)
  | raised
deriving DecidableEq

structure Call (Payload : Type) where
  cached : Cached
  stage : Stage Payload
deriving DecidableEq

/-- The methods of the invalidator that purge registries. -/
inductive Invalidation where
  | ofNamespace (keyPrefix label : String)
  | ofTag (keyPrefix tag : String)
  | ofTags (keyPrefix : String) (tags : List String)

def Invalidation.registries : Invalidation → List String
  | .ofNamespace keyPrefix label => [namespaceRegistryKey keyPrefix label]
  | .ofTag keyPrefix tag => [tagRegistryKey keyPrefix tag]
  | .ofTags keyPrefix tags => tags.map (tagRegistryKey keyPrefix)

inductive Progress where
  | issued
  /-- `SUNION` found members. -/
  | listed (members : List String)
  | deleted (members : List String)
  | completed (count : Nat)
deriving DecidableEq

structure Purge where
  registries : List String
  mutations : Nat
  progress : Progress
deriving DecidableEq

structure World (Payload : Type) where
  entries : String → Option (Entry Payload)
  /-- The clock and the registries; the entries are kept above. -/
  sets : Expiring.Keyspace String Empty String String
  mutations : Nat
  calls : List (Call Payload)
  purges : List Purge

inductive Action (Payload : Type) where
  | elapse (duration : Nat)
  | mutate
  | call (cached : Cached)
  | get (number : Nat) (decodes : Bool)
  | run (number : Nat) (payload : Payload)
  | fail (number : Nat)
  | refuse (number : Nat)
  | set (number : Nat)
  | register (number : Nat)
  | invalidate (invalidation : Invalidation)
  | invalidateKeys (keys : List String)
  | sunion (number : Nat)
  | deleteMembers (number : Nat)
  | deleteRegistries (number : Nat)

namespace World

def initial : World Payload where
  entries := fun _ => none
  sets := .empty 0
  mutations := 0
  calls := []
  purges := []

def clock (world : World Payload) : Nat :=
  world.sets.clock

def withStage (world : World Payload) (number : Nat) (cached : Cached)
    (stage : Stage Payload) : World Payload :=
  { world with calls := world.calls.set number ⟨cached, stage⟩ }

def withProgress (world : World Payload) (number : Nat) (purge : Purge)
    (progress : Progress) : World Payload :=
  { world with
    purges := world.purges.set number { purge with progress := progress } }

def elapse (world : World Payload) (duration : Nat) : World Payload :=
  { world with
    entries := fun key => (world.entries key).filter fun entry =>
      entry.lasts (world.clock + duration)
    sets := world.sets.elapse duration }

/-- `DEL` of entries. -/
def discard (world : World Payload) (keys : List String) : World Payload :=
  { world with
    entries := fun key => if key ∈ keys then none else world.entries key }

def put (world : World Payload) (number : Nat) (cached : Cached)
    (payload : Payload) (seen : Nat) : World Payload :=
  { world with
    entries := Function.update world.entries cached.key
      (some ⟨payload, cached.deadline world.clock, cached.registries, seen, number⟩) }

/-- `SADD` and, when the `ttl` is positive, `EXPIRE`. -/
def enroll (cached : Cached)
    (sets : Expiring.Keyspace String Empty String String) (registry : String) :
    Expiring.Keyspace String Empty String String :=
  let added := sets.insert registry cached.key
  if 0 < cached.ttl then added.prolong registry cached.lifetime else added

/-- `_register_labels`: the pipeline, executed at once. -/
def registerLabels (cached : Cached) (sets : Expiring.Keyspace String Empty String String) :
    Expiring.Keyspace String Empty String String :=
  cached.registries.foldl (enroll cached) sets

/-- `SUNION`. -/
def union (world : World Payload) (registries : List String) : List String :=
  (registries.flatMap fun registry =>
    (Expiring.Keyspace.perform (.smembers registry) world.sets).1).dedup

end World

open World

def step (world : World Payload) : Action Payload → Option (World Payload)
  | .elapse duration => some (world.elapse duration)
  | .mutate => some { world with mutations := world.mutations + 1 }
  | .call cached => some { world with calls := world.calls ++ [⟨cached, .started⟩] }
  | .get number decodes =>
    match world.calls[number]? with
    | some ⟨cached, .started⟩ =>
      match world.entries cached.key, decodes with
      | some entry, true => some (world.withStage number cached (.served entry))
      | _, _ => some (world.withStage number cached .missed)
    | _ => none
  | .run number payload =>
    match world.calls[number]? with
    | some ⟨cached, .missed⟩ =>
      some (world.withStage number cached (.computed payload world.mutations))
    | _ => none
  | .fail number =>
    match world.calls[number]? with
    | some ⟨cached, .missed⟩ => some (world.withStage number cached .raised)
    | _ => none
  | .refuse number =>
    match world.calls[number]? with
    | some ⟨cached, .computed payload _⟩ =>
      some (world.withStage number cached (.returned payload))
    | _ => none
  | .set number =>
    match world.calls[number]? with
    | some ⟨cached, .computed payload seen⟩ =>
      some ((world.put number cached payload seen).withStage number cached
        (if cached.registries = [] then .returned payload else .stored payload))
    | _ => none
  | .register number =>
    match world.calls[number]? with
    | some ⟨cached, .stored payload⟩ =>
      some ({ world with
        sets := registerLabels cached world.sets }.withStage number cached (.returned payload))
    | _ => none
  | .invalidate invalidation =>
    let registries := invalidation.registries
    some { world with
      purges := world.purges ++ [⟨registries, world.mutations,
        if registries = [] then .completed 0 else .issued⟩] }
  | .invalidateKeys keys => some (world.discard keys)
  | .sunion number =>
    match world.purges[number]? with
    | some ⟨registries, mutations, .issued⟩ =>
      let members := world.union registries
      some (world.withProgress number ⟨registries, mutations, .issued⟩
        (if members = [] then .deleted members else .listed members))
    | _ => none
  | .deleteMembers number =>
    match world.purges[number]? with
    | some ⟨registries, mutations, .listed members⟩ =>
      some ((world.discard members).withProgress number
        ⟨registries, mutations, .listed members⟩ (.deleted members))
    | _ => none
  | .deleteRegistries number =>
    match world.purges[number]? with
    | some ⟨registries, mutations, .deleted members⟩ =>
      some ({ world with
        sets := world.sets.discardSets registries }.withProgress number
          ⟨registries, mutations, .deleted members⟩
          (.completed members.length))
    | _ => none

end TempestSdk.Cache
