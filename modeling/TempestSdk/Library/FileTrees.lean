import Mathlib.Data.List.Infix
import Mathlib.Logic.Function.Basic

/-!
# Trees of directories and files

Every file stands in a directory that exists: a tree carries the proof, so no
operation can leave a file behind without its directory.  An operation that the
system refuses is `none` and leaves the tree alone.
-/

namespace FileTrees

inductive Node (Content : Type) where
  | directory
  | file (content : Content)

structure Tree (Name Content : Type) where
  nodes : List Name → Option (Node Content)
  paths : List (List Name)
  covered : ∀ path, nodes path ≠ none → path ∈ paths
  rooted : ∀ path, nodes path ≠ none → nodes path.dropLast = some .directory

namespace Tree

variable {Name Content : Type}

@[grind =] def content (tree : Tree Name Content) (path : List Name) : Option Content :=
  match tree.nodes path with
  | some (.file content) => some content
  | _ => none

def isDirectory (tree : Tree Name Content) (path : List Name) : Bool :=
  match tree.nodes path with
  | some .directory => true
  | _ => false

def isClear (tree : Tree Name Content) (path : List Name) : Bool :=
  path.inits.all fun above => (tree.content above).isNone

variable {tree after : Tree Name Content} {path : List Name} {written : Content}

theorem content_eq_some : tree.content path = some written ↔
    tree.nodes path = some (.file written) := by
  unfold content
  split
  case h_1 found => simp [found]
  case h_2 other =>
    refine iff_of_false (by simp) ?_
    intro found
    exact other written found

theorem isDirectory_iff : tree.isDirectory path = true ↔ tree.nodes path = some .directory := by
  unfold isDirectory
  split
  case h_1 found => simp [found]
  case h_2 other => exact iff_of_false (by simp) other

theorem isClear_iff : tree.isClear path = true ↔
    ∀ above, above <+: path → tree.content above = none := by
  unfold isClear
  rw [List.all_eq_true]
  constructor
  · intro clear above front
    have free := clear above ((List.mem_inits above path).mpr front)
    exact Option.isNone_iff_eq_none.mp free
  · intro clear above member
    rw [clear above ((List.mem_inits above path).mp member)]
    rfl

theorem directory_of_prefix {above : List Name} (front : above <+: path)
    (directory : tree.nodes path = some .directory) :
    tree.nodes above = some .directory := by
  induction path using List.reverseRecOn with
  | nil =>
    rw [List.prefix_nil.mp front]
    exact directory
  | append_singleton rest name induction =>
    rcases List.prefix_concat_iff.mp front with rfl | inside
    · exact directory
    · apply induction inside
      have rooted := tree.rooted (rest ++ [name]) (by rw [directory]; simp)
      rw [List.dropLast_concat] at rooted
      exact rooted

variable [DecidableEq Name]

/-- The node at a path is changed: a new one stands in a directory, and
nothing stands in what is no directory. -/
def set (tree : Tree Name Content) (path : List Name) (node : Option (Node Content))
    (above : node ≠ none → tree.nodes path.dropLast = some .directory)
    (below : ∀ place, place.dropLast = path → tree.nodes place ≠ none →
      node = some .directory) : Tree Name Content where
  nodes := Function.update tree.nodes path node
  paths := path :: tree.paths
  covered := by
    intro place taken
    rcases eq_or_ne place path with rfl | differs
    · exact List.mem_cons_self
    · rw [Function.update_of_ne differs] at taken
      exact List.mem_cons_of_mem _ (tree.covered place taken)
  rooted := by
    intro place taken
    have before : tree.nodes place.dropLast = some .directory ∧
        (place.dropLast = path → node = some .directory) := by
      rcases eq_or_ne place path with rfl | differs
      · rw [Function.update_self] at taken
        have directory := above taken
        refine ⟨directory, ?_⟩
        intro root
        exact below place root (by rw [← root, directory]; simp)
      · rw [Function.update_of_ne differs] at taken
        exact ⟨tree.rooted place taken, fun child => below place child taken⟩
    rcases eq_or_ne place.dropLast path with child | apart
    · rw [child, Function.update_self]
      exact before.2 child
    · rw [Function.update_of_ne apart]
      exact before.1

def root : Tree Name Content where
  nodes := fun path => if path = [] then some .directory else none
  paths := [[]]
  covered := by
    intro path taken
    split at taken
    case isTrue top => exact List.mem_singleton.mpr top
    case isFalse => exact absurd rfl taken
  rooted := by
    intro path taken
    split at taken
    case isTrue top => rw [top]; rfl
    case isFalse => exact absurd rfl taken

/-- `mkdir(parents=True, exist_ok=True)`. -/
def mkdirs (tree : Tree Name Content) (path : List Name) : Option (Tree Name Content) :=
  if tree.isClear path then
    some {
      nodes := fun place =>
        if place <+: path then some .directory else tree.nodes place
      paths := path.inits ++ tree.paths
      covered := by
        intro place taken
        split at taken
        case isTrue above =>
          exact List.mem_append_left _ ((List.mem_inits place path).mpr above)
        case isFalse => exact List.mem_append_right _ (tree.covered place taken)
      rooted := by
        intro place taken
        split
        case isTrue => rfl
        case isFalse apart =>
          split at taken
          case isTrue inside => exact absurd ((List.dropLast_prefix place).trans inside) apart
          case isFalse => exact tree.rooted place taken }
  else none

def put (tree : Tree Name Content) (path : List Name) (content : Content) :
    Option (Tree Name Content) :=
  if allowed : tree.isDirectory path.dropLast = true ∧ tree.isDirectory path = false then
    some (tree.set path (some (.file content)) (fun _new => (isDirectory_iff).mp allowed.1)
      (fun place child taken => by
        have directory := (isDirectory_iff).mpr (child ▸ tree.rooted place taken)
        rw [allowed.2] at directory
        cases directory))
  else none

/-- `unlink` of a file that is there. -/
def unlink (tree : Tree Name Content) (path : List Name) : Option (Tree Name Content) :=
  if present : (tree.content path).isSome then
    some (tree.set path none (fun absent => absurd rfl absent) (fun place child taken => by
        have directory := child ▸ tree.rooted place taken
        simp [content, directory] at present))
  else none

/-- `rmdir`, refused while something is in the directory. -/
def rmdir (tree : Tree Name Content) (path : List Name) : Option (Tree Name Content) :=
  if empty : tree.isDirectory path = true ∧ ∀ place ∈ tree.paths,
      place.dropLast = path → (tree.nodes place).isNone then
    some (tree.set path none (fun absent => absurd rfl absent) (fun place child taken => by
        have free := empty.2 place (tree.covered place taken) child
        exact absurd (Option.isNone_iff_eq_none.mp free) taken))
  else none

/-- `unlink(missing_ok=True)`. -/
def unlinkMissingOk (tree : Tree Name Content) (path : List Name) :
    Option (Tree Name Content) :=
  if (tree.content path).isSome then tree.unlink path
  else if tree.isDirectory path = false ∧ tree.isClear path then some tree
  else none

variable {place : List Name}

theorem nodes_set {node : Option (Node Content)}
    {above : node ≠ none → tree.nodes path.dropLast = some .directory}
    {below : ∀ place, place.dropLast = path → tree.nodes place ≠ none →
      node = some .directory} (differs : place ≠ path) :
    (tree.set path node above below).nodes place = tree.nodes place := by
  unfold set
  exact Function.update_of_ne differs node tree.nodes

theorem content_set {node : Option (Node Content)}
    {above : node ≠ none → tree.nodes path.dropLast = some .directory}
    {below : ∀ place, place.dropLast = path → tree.nodes place ≠ none →
      node = some .directory} (differs : place ≠ path) :
    (tree.set path node above below).content place = tree.content place := by
  unfold content
  rw [nodes_set differs]

theorem content_mkdirs (made : tree.mkdirs path = some after)
    (place : List Name) : after.content place = tree.content place := by
  unfold mkdirs at made
  split at made
  case isTrue clear =>
    cases made
    by_cases front : place <+: path
    · rw [(isClear_iff).mp clear place front]
      simp [content, front]
    · simp [content, front]
  case isFalse => cases made

theorem isDirectory_mkdirs (made : tree.mkdirs path = some after)
    (place : List Name) : after.isDirectory place = true ↔
      place <+: path ∨ tree.isDirectory place = true := by
  unfold mkdirs at made
  split at made
  case isTrue =>
    cases made
    rw [isDirectory_iff, isDirectory_iff]
    by_cases front : place <+: path
    · simp [front]
    · simp [front]
  case isFalse => cases made

section

variable (done : tree.put path written = some after)

include done

theorem put_self : after.content path = some written := by
  unfold put at done
  split at done
  case isTrue =>
    cases done
    exact (content_eq_some).mpr (Function.update_self path _ tree.nodes)
  case isFalse => cases done

theorem put_of_ne (differs : place ≠ path) : after.content place = tree.content place := by
  unfold put at done
  split at done
  case isTrue =>
    cases done
    exact content_set differs
  case isFalse => cases done

theorem isDirectory_put (differs : place ≠ path) :
    after.isDirectory place = tree.isDirectory place := by
  unfold put at done
  split at done
  case isTrue =>
    cases done
    unfold isDirectory
    rw [nodes_set differs]
  case isFalse => cases done

theorem put_allowed :
    tree.isDirectory path.dropLast = true ∧ tree.isDirectory path = false := by
  unfold put at done
  split at done
  case isTrue allowed => exact allowed
  case isFalse => cases done

theorem put_again (content : Content) : ∃ final, after.put path content = some final := by
  obtain ⟨above, file⟩ := put_allowed done
  have apart : path.dropLast ≠ path := by
    intro same
    rw [same, file] at above
    cases above
  have still : after.isDirectory path.dropLast = true := by
    rw [isDirectory_put done apart]
    exact above
  have still_file : after.isDirectory path = false := by
    have held := (content_eq_some).mp (put_self done)
    unfold isDirectory
    rw [held]
  exact ⟨_, dif_pos ⟨still, still_file⟩⟩

end

theorem unlink_self (done : tree.unlink path = some after) : after.content path = none := by
  unfold unlink at done
  split at done
  case isTrue =>
    cases done
    simp [content, set]
  case isFalse => cases done

theorem unlink_of_ne (done : tree.unlink path = some after)
    (differs : place ≠ path) : after.content place = tree.content place := by
  unfold unlink at done
  split at done
  case isTrue =>
    cases done
    exact content_set differs
  case isFalse => cases done

theorem put_of_content (held : tree.content path = some written)
    (content : Content) : ∃ after, tree.put path content = some after := by
  have file := (content_eq_some).mp held
  have above : tree.isDirectory path.dropLast = true := by
    apply (isDirectory_iff).mpr
    apply tree.rooted path
    rw [file]
    simp
  have no_directory : tree.isDirectory path = false := by
    unfold isDirectory
    rw [file]
  exact ⟨_, dif_pos ⟨above, no_directory⟩⟩

theorem mkdirs_of_content (held : tree.content path = some written) :
    ∃ after, tree.mkdirs path.dropLast = some after := by
  have above : tree.nodes path.dropLast = some .directory := by
    apply tree.rooted path
    rw [(content_eq_some).mp held]
    simp
  refine ⟨_, if_pos ?_⟩
  apply (isClear_iff).mpr
  intro place front
  have directory := directory_of_prefix front above
  unfold Tree.content
  rw [directory]

theorem content_of_put_none (refused : tree.put path written = none) :
    tree.content path = none := by
  by_contra held
  obtain ⟨content, held⟩ := Option.ne_none_iff_exists'.mp held
  obtain ⟨after, done⟩ := put_of_content held written
  rw [refused] at done
  cases done

theorem content_rmdir (done : tree.rmdir path = some after)
    (place : List Name) : after.content place = tree.content place := by
  unfold rmdir at done
  split at done
  case isTrue empty =>
    cases done
    rcases eq_or_ne place path with rfl | differs
    · have directory := (isDirectory_iff).mp empty.1
      simp [content, set, directory]
    · exact content_set differs
  case isFalse => cases done

theorem unlink_of_content (held : tree.content path = some written) :
    ∃ final, tree.unlink path = some final :=
  ⟨_, dif_pos (by rw [held]; rfl)⟩

theorem unlinkMissingOk_of_content (held : tree.content path = some written) :
    tree.unlinkMissingOk path = tree.unlink path :=
  if_pos (by rw [held]; rfl)

theorem unlinkMissingOk_of_none (absent : tree.content path = none) :
    (tree.unlinkMissingOk path).getD tree = tree := by
  unfold unlinkMissingOk
  rw [absent, if_neg (by simp)]
  split
  case isTrue => rfl
  case isFalse => rfl

theorem unlinkMissingOk_self (done : tree.unlinkMissingOk path = some after) :
    after.content path = none := by
  cases held : tree.content path with
  | some content =>
    rw [unlinkMissingOk_of_content held] at done
    exact unlink_self done
  | none =>
    have same := unlinkMissingOk_of_none held
    rw [done] at same
    rw [Option.getD_some] at same
    rw [same]
    exact held

theorem unlinkMissingOk_of_ne (done : tree.unlinkMissingOk path = some after)
    (differs : place ≠ path) : after.content place = tree.content place := by
  cases held : tree.content path with
  | some content =>
    rw [unlinkMissingOk_of_content held] at done
    exact unlink_of_ne done differs
  | none =>
    have same := unlinkMissingOk_of_none held
    rw [done, Option.getD_some] at same
    rw [same]

theorem content_of_unlinkMissingOk_none (refused : tree.unlinkMissingOk path = none) :
    tree.content path = none := by
  by_contra held
  obtain ⟨content, held⟩ := Option.ne_none_iff_exists'.mp held
  obtain ⟨final, gone⟩ := unlink_of_content held
  rw [unlinkMissingOk_of_content held, gone] at refused
  cases refused

end Tree

end FileTrees
