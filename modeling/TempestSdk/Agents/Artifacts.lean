import Mathlib.Data.List.Nodup
import TempestSdk.Library.Numerals
import TempestSdk.Library.PosixPaths
import TempestSdk.Library.PyDict

/-!
# Artifacts of a run

`_store_artifacts` with `unique_artifact_name`.  A name that is taken gets the
first counter that makes it free, so no artifact is overwritten.
-/

namespace TempestSdk.Agents

abbrev Text := List Char

theorem lawfulText : LawfulBEq Text := inferInstance

attribute [local instance] lawfulText

structure AgentArtifact where
  name : Text
  media_type : Text
  data : List UInt8
  description : Option Text
deriving DecidableEq

structure Artifacts where
  entries : List (Text × AgentArtifact)
  distinct : (entries.map Prod.fst).Nodup

namespace Artifacts

def empty : Artifacts := ⟨[], List.nodup_nil⟩

def names (artifacts : Artifacts) : List Text :=
  artifacts.entries.map Prod.fst

/-- `artifacts[name] = artifact`. -/
def set (artifacts : Artifacts) (name : Text) (artifact : AgentArtifact) : Artifacts :=
  ⟨PyDict.set artifacts.entries name artifact, PyDict.nodup_set artifacts.distinct⟩

/-- `PurePosixPath(name).suffix`. -/
def pathSuffix (name : Text) : Text :=
  PosixPaths.suffix (PosixPaths.Path.parse name).name

/-- `f"{stem}-{counter}{suffix}"`. -/
def numbered (name : Text) (counter : Nat) : Text :=
  name.take (name.length - (pathSuffix name).length) ++
    '-' :: (Numerals.natural counter ++ pathSuffix name)

/-- The loop of `unique_artifact_name`, which ends after as many turns as there
are artifacts. -/
def firstFree (artifacts : Artifacts) (name : Text) : Nat → Nat → Text
  | 0, counter => numbered name counter
  | turns + 1, counter =>
    if numbered name counter ∈ artifacts.names then
      firstFree artifacts name turns (counter + 1)
    else numbered name counter

def unique_artifact_name (artifacts : Artifacts) (name : Text) : Text :=
  if name ∈ artifacts.names then
    firstFree artifacts name artifacts.entries.length 1
  else name

def note (before after : Text) : Text :=
  "Note: '".toList ++ before ++
    "' already existed, so this result was saved as '".toList ++ after ++ "'.".toList

/-- What one artifact of a result adds: its stored name, its note and the
artifacts with it. -/
def storeOne (artifacts : Artifacts) (artifact : AgentArtifact) :
    Text × Option Text × Artifacts :=
  if artifact.name ∈ artifacts.names then
    let name := artifacts.unique_artifact_name artifact.name
    (name, some (note artifact.name name), artifacts.set name { artifact with name })
  else (artifact.name, none, artifacts.set artifact.name artifact)

/-- The loop of `_store_artifacts`. -/
def store : Artifacts → List AgentArtifact → List Text × List Text × Artifacts
  | artifacts, [] => ([], [], artifacts)
  | artifacts, artifact :: rest =>
    let (name, note, more) := artifacts.storeOne artifact
    let (stored, notes, all) := more.store rest
    (name :: stored, note.toList ++ notes, all)

/-- `"\n".join([text, *notes])`. -/
def noted (text : Text) (notes : List Text) : Text :=
  ['\n'].intercalate (text :: notes)

theorem numbered_injective (name : Text) {first second : Nat}
    (same : numbered name first = numbered name second) : first = second := by
  unfold numbered at same
  have tails := List.append_cancel_left same
  have numerals := List.append_cancel_right (List.cons_injective tails)
  have read := congrArg (Numerals.read 10) numerals
  rw [Numerals.read_natural, Numerals.read_natural] at read
  exact Option.some_injective _ read

theorem firstFree_taken {artifacts : Artifacts} {name : Text} {turns counter : Nat}
    (taken : firstFree artifacts name turns counter ∈ artifacts.names) :
    ∀ step ≤ turns, numbered name (counter + step) ∈ artifacts.names := by
  induction turns generalizing counter with
  | zero =>
    intro step none
    rw [Nat.le_zero.mp none]
    exact taken
  | succ turns induction =>
    unfold firstFree at taken
    split at taken
    next here =>
      intro step small
      cases step with
      | zero => exact here
      | succ step =>
        have later := induction taken step (Nat.le_of_succ_le_succ small)
        rwa [Nat.add_assoc, Nat.add_comm 1] at later
    next free => exact absurd taken free

theorem unique_artifact_name_free (artifacts : Artifacts) (name : Text) :
    artifacts.unique_artifact_name name ∉ artifacts.names := by
  unfold unique_artifact_name
  split
  next =>
    intro taken
    have all := firstFree_taken taken
    -- More different names than artifacts cannot all be taken.
    have distinct : ((List.range (artifacts.entries.length + 1)).map
        fun step => numbered name (1 + step)).Nodup := by
      refine List.Nodup.map ?_ List.nodup_range
      intro first second same
      exact Nat.add_left_cancel (numbered_injective name same)
    have inside : ((List.range (artifacts.entries.length + 1)).map
        fun step => numbered name (1 + step)) ⊆ artifacts.names := by
      intro taken_name member
      obtain ⟨step, small, rfl⟩ := List.mem_map.mp member
      exact all step (Nat.lt_succ_iff.mp (List.mem_range.mp small))
    have few := (distinct.subperm inside).length_le
    rw [List.length_map, List.length_range, names, List.length_map] at few
    omega
  next free => exact free

def added (names : List Text) (artifacts : List AgentArtifact) : List (Text × AgentArtifact) :=
  List.zipWith (fun name artifact => (name, { artifact with name })) names artifacts

theorem storeOne_spec (artifacts : Artifacts) (artifact : AgentArtifact) :
    (artifacts.storeOne artifact).2.2.entries = artifacts.entries ++
      [((artifacts.storeOne artifact).1,
        { artifact with name := (artifacts.storeOne artifact).1 })] := by
  unfold storeOne
  split
  next => exact if_neg (unique_artifact_name_free artifacts artifact.name)
  next free => exact if_neg free

theorem store_spec (artifacts : Artifacts) (results : List AgentArtifact) :
    (artifacts.store results).2.2.entries =
      artifacts.entries ++ added (artifacts.store results).1 results := by
  induction results generalizing artifacts with
  | nil => exact (List.append_nil _).symm
  | cons artifact rest induction =>
    have later := induction (artifacts.storeOne artifact).2.2
    rw [storeOne_spec, List.append_assoc] at later
    exact later

theorem lookup_of_mem {artifacts : Artifacts} {entry : Text × AgentArtifact}
    (member : entry ∈ artifacts.entries) :
    artifacts.entries.lookup entry.1 = some entry.2 := by
  obtain ⟨entries, distinct⟩ := artifacts
  induction entries with
  | nil => cases member
  | cons first rest induction =>
    rw [List.map_cons, List.nodup_cons] at distinct
    rcases List.mem_cons.mp member with rfl | later
    · rw [List.lookup_cons, beq_self_eq_true]
    · have apart : entry.1 ≠ first.1 := by
        intro same
        exact distinct.1 (same ▸ List.mem_map_of_mem later)
      rw [List.lookup_cons, beq_false_of_ne apart]
      exact induction distinct.2 later

end Artifacts

end TempestSdk.Agents
