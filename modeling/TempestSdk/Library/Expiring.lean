import Mathlib.Data.List.Basic
import Mathlib.Logic.Function.Basic

/-!
# A keyspace whose keys expire

Values are stored under keys with a deadline, members are collected in sets,
and a set has a deadline once it was given one.  What is past its deadline is
gone.  The commands are those of a Redis server and keep its names: `SET` with
`EX`, `SET` with `XX`, `EXPIRE` that does nothing to a missing key, `SREM` that
drops a set with its last member, `SADD` that makes a set without a deadline.
-/

set_option linter.unusedSectionVars false

namespace Expiring

structure Index (Member : Type) where
  members : List Member
  deadline : Option Nat
deriving DecidableEq

structure Keyspace (Key Value Owner Member : Type) where
  clock : Nat
  strings : Key → Option (Value × Nat)
  sets : Owner → Option (Index Member)

inductive Command (Key Value Owner Member : Type) where
  | time
  | get (key : Key)
  | set (key : Key) (value : Value) (lifetime : Nat)
  | setXX (key : Key) (value : Value) (lifetime : Nat)
  | del (keys : List Key)
  | sadd (owner : Owner) (member : Member)
  | srem (owner : Owner) (member : Member)
  | smembers (owner : Owner)
  | expire (owner : Owner) (lifetime : Nat)
  | delSet (owner : Owner)

section

variable {Key Value Owner Member : Type}

@[reducible] def Answer : Command Key Value Owner Member → Type
  | .time => Nat
  | .get _ => Option Value
  | .setXX _ _ _ => Bool
  | .smembers _ => List Member
  | _ => Unit

def Index.lasts (index : Index Member) (clock : Nat) : Bool :=
  match index.deadline with
  | some deadline => decide (clock ≤ deadline)
  | none => true

namespace Keyspace

def empty (clock : Nat) : Keyspace Key Value Owner Member where
  clock := clock
  strings := fun _ => none
  sets := fun _ => none

def Lists (keyspace : Keyspace Key Value Owner Member) (owner : Owner)
    (member : Member) : Prop :=
  ∃ index, keyspace.sets owner = some index ∧ member ∈ index.members

/-- The owner's set is there at least until `deadline`. -/
def Outlasts (keyspace : Keyspace Key Value Owner Member) (owner : Owner)
    (deadline : Nat) : Prop :=
  ∃ index, keyspace.sets owner = some index ∧ index.lasts deadline = true

def elapse (duration : Nat) (keyspace : Keyspace Key Value Owner Member) :
    Keyspace Key Value Owner Member where
  clock := keyspace.clock + duration
  strings := fun key =>
    (keyspace.strings key).filter fun stored =>
      decide (keyspace.clock + duration ≤ stored.2)
  sets := fun owner =>
    (keyspace.sets owner).filter fun index =>
      index.lasts (keyspace.clock + duration)

variable [DecidableEq Key] [DecidableEq Owner] [DecidableEq Member]

def put (keyspace : Keyspace Key Value Owner Member) (key : Key)
    (value : Value) (lifetime : Nat) : Keyspace Key Value Owner Member :=
  { keyspace with
    strings := Function.update keyspace.strings key (some (value, keyspace.clock + lifetime)) }

def discard (keyspace : Keyspace Key Value Owner Member) (keys : List Key) :
    Keyspace Key Value Owner Member :=
  { keyspace with
    strings := fun key => if key ∈ keys then none else keyspace.strings key }

def setOf (keyspace : Keyspace Key Value Owner Member) (owner : Owner)
    (index : Option (Index Member)) : Keyspace Key Value Owner Member :=
  { keyspace with sets := Function.update keyspace.sets owner index }

/-- `DEL` of sets. -/
def discardSets (keyspace : Keyspace Key Value Owner Member)
    (owners : List Owner) : Keyspace Key Value Owner Member :=
  { keyspace with
    sets := fun owner => if owner ∈ owners then none else keyspace.sets owner }

def insert (keyspace : Keyspace Key Value Owner Member) (owner : Owner)
    (member : Member) : Keyspace Key Value Owner Member :=
  match keyspace.sets owner with
  | some index =>
    keyspace.setOf owner (some { index with members := index.members.insert member })
  | none => keyspace.setOf owner (some ⟨[member], none⟩)

def remove (keyspace : Keyspace Key Value Owner Member) (owner : Owner)
    (member : Member) : Keyspace Key Value Owner Member :=
  match keyspace.sets owner with
  | some index =>
    let left := index.members.filter fun other => decide (other ≠ member)
    keyspace.setOf owner (if left = [] then none else some { index with members := left })
  | none => keyspace

def prolong (keyspace : Keyspace Key Value Owner Member) (owner : Owner)
    (lifetime : Nat) : Keyspace Key Value Owner Member :=
  match keyspace.sets owner with
  | some index =>
    keyspace.setOf owner (some { index with deadline := some (keyspace.clock + lifetime) })
  | none => keyspace

def perform : (command : Command Key Value Owner Member) →
    Keyspace Key Value Owner Member → Answer command × Keyspace Key Value Owner Member
  | .time, keyspace => (keyspace.clock, keyspace)
  | .get key, keyspace => ((keyspace.strings key).map Prod.fst, keyspace)
  | .set key value lifetime, keyspace => ((), keyspace.put key value lifetime)
  | .setXX key value lifetime, keyspace =>
    if (keyspace.strings key).isSome then
      (true, keyspace.put key value lifetime)
    else (false, keyspace)
  | .del keys, keyspace => ((), keyspace.discard keys)
  | .sadd owner member, keyspace => ((), keyspace.insert owner member)
  | .srem owner member, keyspace => ((), keyspace.remove owner member)
  | .smembers owner, keyspace =>
    (match keyspace.sets owner with
      | some index => index.members
      | none => [], keyspace)
  | .expire owner lifetime, keyspace => ((), keyspace.prolong owner lifetime)
  | .delSet owner, keyspace => ((), keyspace.setOf owner none)

variable {keyspace : Keyspace Key Value Owner Member}

@[simp] theorem put_strings (key : Key) (value : Value) (lifetime : Nat) :
    (keyspace.put key value lifetime).strings = Function.update keyspace.strings key
        (some (value, keyspace.clock + lifetime)) := rfl

@[simp] theorem put_clock (key : Key) (value : Value) (lifetime : Nat) :
    (keyspace.put key value lifetime).clock = keyspace.clock := rfl

section

variable (owner : Owner)

include owner

@[simp] theorem setOf_strings (index : Option (Index Member)) :
    (keyspace.setOf owner index).strings = keyspace.strings := rfl

@[simp] theorem insert_strings (member : Member) :
    (keyspace.insert owner member).strings = keyspace.strings := by
  unfold insert
  split <;> rfl

@[simp] theorem remove_strings (member : Member) :
    (keyspace.remove owner member).strings = keyspace.strings := by
  unfold remove
  split <;> rfl

@[simp] theorem prolong_strings (lifetime : Nat) :
    (keyspace.prolong owner lifetime).strings = keyspace.strings := by
  unfold prolong
  split <;> rfl

@[simp] theorem insert_clock (member : Member) :
    (keyspace.insert owner member).clock = keyspace.clock := by
  unfold insert
  split <;> rfl

@[simp] theorem remove_clock (member : Member) :
    (keyspace.remove owner member).clock = keyspace.clock := by
  unfold remove
  split <;> rfl

@[simp] theorem prolong_clock (lifetime : Nat) :
    (keyspace.prolong owner lifetime).clock = keyspace.clock := by
  unfold prolong
  split <;> rfl

end

theorem discard_of_mem {keys : List Key} {key : Key} (member : key ∈ keys) :
    (keyspace.discard keys).strings key = none := by
  simp [discard, member]

theorem discard_eq_some {keys : List Key} {key : Key} {stored : Value × Nat} :
    (keyspace.discard keys).strings key = some stored ↔
      key ∉ keys ∧ keyspace.strings key = some stored := by
  simp [discard]

variable {duration : Nat}

theorem elapse_strings {key : Key} {stored : Value × Nat} :
    (keyspace.elapse duration).strings key = some stored ↔
      keyspace.strings key = some stored ∧ keyspace.clock + duration ≤ stored.2 := by
  simp [elapse, Option.filter_eq_some_iff]

variable {owner : Owner}

theorem elapse_sets {index : Index Member} :
    (keyspace.elapse duration).sets owner = some index ↔ keyspace.sets owner = some index ∧
        index.lasts (keyspace.clock + duration) = true := by
  simp [elapse, Option.filter_eq_some_iff]

theorem Index.lasts_mono {index : Index Member} {sooner later : Nat}
    (order : sooner ≤ later) (lasts : index.lasts later = true) :
    index.lasts sooner = true := by
  unfold Index.lasts at lasts ⊢
  cases deadline : index.deadline with
  | none => rfl
  | some moment =>
    simp only [deadline, decide_eq_true_eq] at lasts ⊢
    omega

variable {owner other : Owner}

theorem lists_insert {member new : Member} : (keyspace.insert owner new).Lists other member ↔
      (other = owner ∧ member = new) ∨ keyspace.Lists other member := by
  unfold insert Lists
  by_cases same : other = owner
  · subst same
    cases found : keyspace.sets other with
    | none => simp [setOf]
    | some index => simp [setOf]
  · cases found : keyspace.sets owner with
    | none => simp [setOf, same]
    | some index => simp [setOf, same]

theorem lists_remove {member old : Member} : (keyspace.remove owner old).Lists other member ↔
      keyspace.Lists other member ∧ ¬ (other = owner ∧ member = old) := by
  unfold remove Lists
  cases found : keyspace.sets owner with
  | none =>
    by_cases same : other = owner
    · subst same
      simp [found]
    · simp [same]
  | some index =>
    by_cases same : other = owner
    · subst same
      by_cases none_left : (index.members.filter fun other => decide (other ≠ old)) = []
      · have only : ∀ kept ∈ index.members, kept = old := by
          simpa [List.filter_eq_nil_iff] using none_left
        simp only [none_left, if_true, setOf, Function.update_self, found]
        constructor
        · rintro ⟨_, absent, _⟩
          cases absent
        · rintro ⟨⟨_, same, listed⟩, different⟩
          cases same
          exact (different ⟨trivial, only member listed⟩).elim
      · simp only [none_left, if_false, setOf, Function.update_self, found]
        simp [List.mem_filter]
    · simp [setOf, same]

variable {member : Member}

theorem lists_prolong {lifetime : Nat} : (keyspace.prolong owner lifetime).Lists other member ↔
      keyspace.Lists other member := by
  unfold prolong Lists
  cases found : keyspace.sets owner with
  | none => exact Iff.rfl
  | some index =>
    by_cases same : other = owner
    · subst same
      simp [setOf, found]
    · simp [setOf, same]

theorem lists_delSet : (keyspace.setOf owner none).Lists other member ↔
      other ≠ owner ∧ keyspace.Lists other member := by
  unfold Lists
  by_cases same : other = owner
  · subst same
    simp [setOf]
  · simp [setOf, same]

theorem lists_discardSets {owners : List Owner} :
    (keyspace.discardSets owners).Lists owner member ↔
      owner ∉ owners ∧ keyspace.Lists owner member := by
  unfold Lists discardSets
  by_cases deleted : owner ∈ owners
  · simp [deleted]
  · simp [deleted]

theorem lists_elapse : (keyspace.elapse duration).Lists owner member ↔
      keyspace.Lists owner member ∧ keyspace.Outlasts owner (keyspace.clock + duration) := by
  constructor
  · rintro ⟨index, found, listed⟩
    obtain ⟨before, lasts⟩ := (elapse_sets).mp found
    exact ⟨⟨index, before, listed⟩, index, before, lasts⟩
  · rintro ⟨⟨index, found, listed⟩, same, found_again, lasts⟩
    rw [found] at found_again
    cases found_again
    exact ⟨index, (elapse_sets).mpr ⟨found, lasts⟩, listed⟩

theorem mem_smembers : (member ∈ (perform (.smembers owner) keyspace).1) ↔
      keyspace.Lists owner member := by
  simp only [perform, Lists]
  cases found : keyspace.sets owner with
  | none => simp
  | some index => simp

variable {deadline : Nat}

theorem Outlasts.insert {new : Member} (outlasts : keyspace.Outlasts other deadline) :
    (keyspace.insert owner new).Outlasts other deadline := by
  obtain ⟨index, found, lasts⟩ := outlasts
  unfold Keyspace.insert
  by_cases same : other = owner
  · subst same
    rw [found]
    exact ⟨{ index with members := index.members.insert new }, by simp [setOf], lasts⟩
  · cases set : keyspace.sets owner with
    | none => exact ⟨index, by simpa [setOf, same] using found, lasts⟩
    | some _ => exact ⟨index, by simpa [setOf, same] using found, lasts⟩

theorem Outlasts.remove {old member : Member} (outlasts : keyspace.Outlasts other deadline)
    (listed : (keyspace.remove owner old).Lists other member) :
    (keyspace.remove owner old).Outlasts other deadline := by
  obtain ⟨index, found, lasts⟩ := outlasts
  unfold Lists Keyspace.remove at listed
  unfold Keyspace.remove
  cases set : keyspace.sets owner with
  | none => exact ⟨index, found, lasts⟩
  | some old_index =>
    by_cases same : other = owner
    · subst same
      rw [found] at set
      cases set
      rw [found] at listed
      obtain ⟨left, kept, _member⟩ := listed
      refine ⟨left, kept, ?_⟩
      simp only [setOf, Function.update_self] at kept
      split at kept
      · cases kept
      · cases kept
        exact lasts
    · exact ⟨index, by simpa [setOf, same] using found, lasts⟩

theorem Outlasts.prolong_of_ne {lifetime deadline : Nat}
    (different : other ≠ owner) (outlasts : keyspace.Outlasts other deadline) :
    (keyspace.prolong owner lifetime).Outlasts other deadline := by
  obtain ⟨index, found, lasts⟩ := outlasts
  unfold Keyspace.prolong
  cases set : keyspace.sets owner with
  | none => exact ⟨index, found, lasts⟩
  | some _ => exact ⟨index, by simpa [setOf, different] using found, lasts⟩

theorem outlasts_prolong {lifetime deadline : Nat} (listed : keyspace.Lists owner member)
    (order : deadline ≤ keyspace.clock + lifetime) :
    (keyspace.prolong owner lifetime).Outlasts owner deadline := by
  obtain ⟨index, found, _member⟩ := listed
  unfold Keyspace.prolong
  rw [found]
  exact ⟨_, by simp [setOf]; rfl, by simpa [Index.lasts] using order⟩

theorem Outlasts.delSet (different : other ≠ owner)
    (outlasts : keyspace.Outlasts other deadline) :
    (keyspace.setOf owner none).Outlasts other deadline := by
  obtain ⟨index, found, lasts⟩ := outlasts
  exact ⟨index, by simpa [setOf, different] using found, lasts⟩

theorem Outlasts.discardSets {owners : List Owner} (kept : owner ∉ owners)
    (outlasts : keyspace.Outlasts owner deadline) :
    (keyspace.discardSets owners).Outlasts owner deadline := by
  obtain ⟨index, found, lasts⟩ := outlasts
  exact ⟨index, by simpa [Keyspace.discardSets, kept] using found, lasts⟩

theorem insert_persists {new : Member}
    (persists : ∀ index ∈ keyspace.sets owner, index.deadline = none) :
    ∀ index ∈ (keyspace.insert owner new).sets owner, index.deadline = none := by
  intro index found
  unfold insert at found
  cases before : keyspace.sets owner with
  | none =>
    rw [before] at found
    have made : index = ⟨[new], none⟩ := by simpa [setOf, eq_comm] using found
    rw [made]
  | some old =>
    rw [before] at found
    have added : index = { old with members := old.members.insert new } := by
      simpa [setOf, eq_comm] using found
    rw [added]
    exact persists old before

theorem outlasts_of_persists (listed : keyspace.Lists owner member)
    (persists : ∀ index ∈ keyspace.sets owner, index.deadline = none)
    (moment : Nat) : keyspace.Outlasts owner moment := by
  obtain ⟨index, found, _member⟩ := listed
  refine ⟨index, found, ?_⟩
  unfold Index.lasts
  rw [persists index found]

theorem Outlasts.elapse (outlasts : keyspace.Outlasts owner deadline)
    (ahead : keyspace.clock + duration ≤ deadline) :
    (keyspace.elapse duration).Outlasts owner deadline := by
  obtain ⟨index, found, lasts⟩ := outlasts
  have still : index.lasts (keyspace.clock + duration) = true :=
    Index.lasts_mono ahead lasts
  exact ⟨index, (elapse_sets).mpr ⟨found, still⟩, lasts⟩

theorem Outlasts.sooner {sooner later : Nat} (order : sooner ≤ later)
    (outlasts : keyspace.Outlasts owner later) :
    keyspace.Outlasts owner sooner := by
  obtain ⟨index, found, lasts⟩ := outlasts
  exact ⟨index, found, Index.lasts_mono order lasts⟩

theorem insert_stays :
    ((((keyspace.elapse duration).insert owner member).elapse 0).sets owner).isSome = true := by
  apply Option.isSome_iff_exists.mpr
  unfold Keyspace.insert
  cases found : (keyspace.elapse duration).sets owner with
  | none => exact ⟨⟨[member], none⟩, (elapse_sets).mpr ⟨by simp [setOf], rfl⟩⟩
  | some index =>
    have lasts := ((elapse_sets).mp found).2
    exact ⟨{ index with members := index.members.insert member },
      (elapse_sets).mpr ⟨by simp [setOf], lasts⟩⟩

end Keyspace

end

end Expiring
