import TempestSdk.Library.Runs
import TempestSdk.Storage.LocalClientPairs

/-!
# The two files of an object over whole runs

An object and its metadata come from one write as long as the writes of a key
keep out of the way of the other calls on it.
-/

namespace TempestSdk.LocalStorage

open FileTrees PosixPaths

variable {files next : Files} {calls after : List Call} {old : Call}
  {new : Option Call}

/-- After the outcome of a call the files are paired, and what it tells is
whole. -/
def Outcome.Sound (calls : List Call) (index : Nat) (outcome : Outcome) : Prop :=
  Kept outcome.files (Entries.change calls index outcome.call) ∧
    ∀ seen ∈ outcome.seen, seen.Whole

section

variable {index : Nat} {call : Call}

theorem sound_changeObjects {changed : Option (Tree Text Object)}
    (done : ∀ objects, changed = some objects →
      Kept { files with objects := objects } (Entries.change calls index new))
    (raises : changed = none → Kept files (Entries.change calls index none)) :
    (files.changeObjects changed new).Sound calls index := by
  unfold Files.changeObjects
  split
  case h_1 objects =>
    refine ⟨done objects rfl, ?_⟩
    intro seen told
    cases told
  case h_2 =>
    refine ⟨raises rfl, ?_⟩
    intro seen told
    cases told

theorem sound_changeMetas {changed : Option (Tree Text ObjectMeta)}
    (done : ∀ metas, changed = some metas →
      Kept { files with metas := metas } (Entries.change calls index new))
    (raises : changed = none → Kept files (Entries.change calls index none)) :
    (files.changeMetas changed new).Sound calls index := by
  unfold Files.changeMetas
  split
  case h_1 metas =>
    refine ⟨done metas rfl, ?_⟩
    intro seen told
    cases told
  case h_2 =>
    refine ⟨raises rfl, ?_⟩
    intro seen told
    cases told

def Call.isQuiet (call : Call) : Prop :=
  ∀ key, call.writes key = false ∧ call.removes key = false

theorem Kept.ends_quietly (kept : Kept files calls)
    (replaced : Entries.Replaced calls old none after)
    (quiet : old.isQuiet) : Kept files after := by
  apply kept.ends replaced
  rintro key (writes | removes)
  · rw [(quiet key).1] at writes
    cases writes
  · rw [(quiet key).2] at removes
    cases removes

theorem Kept.goesOn (kept : Kept files calls)
    (replaced : Entries.Replaced calls old (some call) after)
    (same : ∀ key, next.objectAt key = files.objectAt key ∧ next.metaAt key = files.metaAt key)
    (quiet : old.isQuiet) (still : call.isQuiet)
    (relies : call.Kept next after) : Kept next after := by
  apply kept.frame replaced same
  · intro key
    refine ⟨(quiet key).1, (quiet key).2, ?_⟩
    intro other fresh
    cases fresh
    exact (still key).1
  · intro other fresh
    cases fresh
    exact relies

variable {key : Key} {object : Object} {stored : ObjectMeta}

section

variable (kept : Kept files calls)

include kept

theorem sound_begin (found : calls[index]? = some (.begin key object stored)) :
    (files.advance (.begin key object stored)).Sound calls index := by
  have replaced := fun new => Entries.replaced_change found new
  have minted := kept.each _ (List.mem_of_getElem? found)
  apply sound_changeObjects
  · intro objects done
    apply kept.goesOn (replaced _) _ (fun _key => ⟨rfl, rfl⟩) (fun _key => ⟨rfl, rfl⟩) minted
    intro key
    exact ⟨Tree.content_mkdirs done _, rfl⟩
  · intro _refused
    exact kept.ends_quietly (replaced none) fun _key => ⟨rfl, rfl⟩

theorem sound_makeMeta (found : calls[index]? = some (.makeMeta key object stored)) :
    (files.advance (.makeMeta key object stored)).Sound calls index := by
  have replaced := fun new => Entries.replaced_change found new
  have minted := kept.each _ (List.mem_of_getElem? found)
  apply sound_changeMetas
  · intro metas done
    apply kept.goesOn (replaced _) _ (fun _key => ⟨rfl, rfl⟩) (fun _key => ⟨rfl, rfl⟩) minted
    intro key
    exact ⟨rfl, Tree.content_mkdirs done _⟩
  · intro _refused
    exact kept.ends_quietly (replaced none) fun _key => ⟨rfl, rfl⟩

theorem sound_replaceObject (found : calls[index]? = some (.replaceObject key object stored))
    (free : ∀ call ∈ calls, call.writes key = false ∧ call.reads key = false) :
    (files.advance (.replaceObject key object stored)).Sound calls index := by
  have replaced := fun new => Entries.replaced_change found new
  apply sound_changeObjects
  · intro objects done
    exact kept.replaceObject (replaced _) done free
  · intro _refused
    exact kept.ends_quietly (replaced none) fun _key => ⟨rfl, rfl⟩

theorem sound_replaceMeta (found : calls[index]? = some (.replaceMeta key object stored)) :
    (files.advance (.replaceMeta key object stored)).Sound calls index := by
  have replaced := fun new => Entries.replaced_change found new
  apply sound_changeMetas
  · intro metas done
    exact kept.replaceMeta (replaced _) done
  · intro refused
    apply kept.ends (replaced none)
    rintro other (writes | removes)
    · cases of_decide_eq_true writes
      exact Tree.content_of_put_none refused
    · cases removes

theorem sound_unlinkObject (found : calls[index]? = some (.unlinkObject key))
    (free : ∀ call ∈ calls, call.writes key = false) :
    (files.advance (.unlinkObject key)).Sound calls index := by
  have replaced := fun new => Entries.replaced_change found new
  apply sound_changeObjects
  · intro objects done
    exact kept.unlinkObject (replaced _) done free
  · intro _refused
    exact kept.ends_quietly (replaced none) fun _key => ⟨rfl, rfl⟩

theorem sound_unlinkMeta (found : calls[index]? = some (.unlinkMeta key)) :
    (files.advance (.unlinkMeta key)).Sound calls index := by
  have replaced := fun new => Entries.replaced_change found new
  apply sound_changeMetas
  · intro metas done
    exact kept.unlinkMeta (replaced _) done
  · intro refused
    apply kept.ends (replaced none)
    rintro other (writes | removes)
    · cases writes
    · cases of_decide_eq_true removes
      exact Tree.content_of_unlinkMissingOk_none refused

theorem sound_prune {paths places : List (List Text)}
    (found : calls[index]? = some (.prune paths places)) :
    (files.advance (.prune paths places)).Sound calls index := by
  have replaced := fun new => Entries.replaced_change found new
  cases paths with
  | cons path rest =>
    rw [Files.advance]
    split
    case h_1 objects done =>
      refine ⟨?_, fun seen told => by cases told⟩
      apply kept.goesOn (replaced (some (.prune rest places))) _
        (fun _key => ⟨rfl, rfl⟩) (fun _key => ⟨rfl, rfl⟩) trivial
      intro key
      exact ⟨Tree.content_rmdir done _, rfl⟩
    case h_2 =>
      refine ⟨?_, fun seen told => by cases told⟩
      exact kept.goesOn (replaced (some (.prune [] places)))
        (fun _key => ⟨rfl, rfl⟩) (fun _key => ⟨rfl, rfl⟩)
        (fun _key => ⟨rfl, rfl⟩) trivial
  | nil =>
    cases places with
    | cons path rest =>
      apply sound_changeMetas
      · intro metas done
        apply kept.goesOn (replaced (some (.prune [] rest))) _
          (fun _key => ⟨rfl, rfl⟩) (fun _key => ⟨rfl, rfl⟩) trivial
        intro key
        exact ⟨rfl, Tree.content_rmdir done _⟩
      · intro _refused
        exact kept.ends_quietly (replaced none) fun _key => ⟨rfl, rfl⟩
    | nil =>
      refine ⟨?_, fun seen told => by cases told⟩
      exact kept.ends_quietly (replaced none) fun _key => ⟨rfl, rfl⟩

theorem sound_check {download : Bool} (found : calls[index]? = some (.check key download)) :
    (files.advance (.check key download)).Sound calls index := by
  have replaced := fun new => Entries.replaced_change found new
  rw [Files.advance]
  split
  case isTrue =>
    refine ⟨?_, fun seen told => by cases told⟩
    exact kept.goesOn (replaced (some (.info key download)))
      (fun _key => ⟨rfl, rfl⟩) (fun _key => ⟨rfl, rfl⟩)
      (fun _key => ⟨rfl, rfl⟩) trivial
  case isFalse =>
    refine ⟨?_, fun seen told => by cases told⟩
    exact kept.ends_quietly (replaced none) fun _key => ⟨rfl, rfl⟩

theorem sound_info {download : Bool} (found : calls[index]? = some (.info key download))
    (free : ∀ call ∈ calls, call.writes key = false) :
    (files.advance (.info key download)).Sound calls index := by
  have replaced := fun new => Entries.replaced_change found new
  rw [Files.advance]
  split
  case h_1 object there =>
    refine ⟨?_, fun seen told => by cases told⟩
    apply kept.goesOn (replaced _) (fun _key => ⟨rfl, rfl⟩)
      (fun _key => ⟨rfl, rfl⟩) (fun _key => ⟨rfl, rfl⟩)
    refine ⟨?_, ?_, ?_⟩
    · intro call member
      rcases (replaced _).come call member with before | fresh
      · exact free call before
      · cases fresh
        rfl
    · intro stored found_meta
      rcases kept.paired key stored found_meta free with whole | leaving
      · obtain ⟨other, found_object, same⟩ := whole
        rw [there] at found_object
        cases found_object
        exact same.symm
      · rw [there] at leaving
        cases leaving.1
    · intro other found_object
      rw [there] at found_object
      cases found_object
      rfl
  case h_2 =>
    refine ⟨?_, fun seen told => by cases told⟩
    exact kept.ends_quietly (replaced none) fun _key => ⟨rfl, rfl⟩

theorem sound_readMeta {download : Bool}
    (found : calls[index]? = some (.readMeta key download object)) :
    (files.advance (.readMeta key download object)).Sound calls index := by
  have replaced := fun new => Entries.replaced_change found new
  obtain ⟨free, metas, objects⟩ := kept.each _ (List.mem_of_getElem? found)
  have whole : ∀ stored ∈ (files.metaAt key).map LocalStorage.readMeta,
      stored.write = object.write := by
    intro stored read
    obtain ⟨raw, found_meta, rfl⟩ := Option.map_eq_some_iff.mp read
    exact metas raw found_meta
  refine ⟨?_, ?_⟩
  · rw [Files.advance]
    cases download with
    | false => exact kept.ends_quietly (replaced none) fun _key => ⟨rfl, rfl⟩
    | true =>
      apply kept.goesOn (replaced _) (fun _key => ⟨rfl, rfl⟩)
        (fun _key => ⟨rfl, rfl⟩) (fun _key => ⟨rfl, rfl⟩)
      refine ⟨?_, ?_⟩
      · intro call member
        rcases (replaced _).come call member with before | fresh
        · exact free call before
        · cases fresh
          rfl
      · intro there found_object stored read
        exact (whole stored read).trans (objects there found_object).symm
  · intro seen told
    cases told
    exact whole

theorem sound_openObject {read : Option ObjectMeta}
    (found : calls[index]? = some (.openObject key read)) :
    (files.advance (.openObject key read)).Sound calls index := by
  have replaced := fun new => Entries.replaced_change found new
  obtain ⟨_free, objects⟩ := kept.each _ (List.mem_of_getElem? found)
  rw [Files.advance]
  split
  case h_1 object there =>
    refine ⟨?_, ?_⟩
    · exact kept.ends_quietly (replaced none) fun _key => ⟨rfl, rfl⟩
    · intro seen told
      cases told
      exact objects object there
  case h_2 =>
    refine ⟨?_, fun seen told => by cases told⟩
    exact kept.ends_quietly (replaced none) fun _key => ⟨rfl, rfl⟩

end

end

theorem Kept.advance {store : Store} {index : Nat} {call : Call}
    (kept : Kept store.files store.calls)
    (found : store.calls[index]? = some call)
    (careful : Careful store (.advance index)) :
    (store.files.advance call).Sound store.calls index := by
  have careful : call.Careful store.calls := careful call found
  cases call with
  | begin => exact sound_begin kept found
  | makeMeta => exact sound_makeMeta kept found
  | replaceObject => exact sound_replaceObject kept found careful
  | replaceMeta => exact sound_replaceMeta kept found
  | unlinkObject => exact sound_unlinkObject kept found careful
  | unlinkMeta => exact sound_unlinkMeta kept found
  | prune => exact sound_prune kept found
  | check => exact sound_check kept found
  | info => exact sound_info kept found careful
  | readMeta => exact sound_readMeta kept found
  | openObject => exact sound_openObject kept found

theorem Kept.add {call : Call} (kept : Kept files calls) (quiet : call.isQuiet)
    (relies : call.Kept files (calls ++ [call])) :
    Kept files (calls ++ [call]) := by
  constructor
  · intro key stored found free
    have before : ∀ call ∈ calls, call.writes key = false :=
      fun call member => free call (List.mem_append_left _ member)
    rcases kept.paired key stored found before with whole | leaving
    · exact .inl whole
    · obtain ⟨gone, other, member, removes⟩ := leaving
      exact .inr ⟨gone, other, List.mem_append_left _ member, removes⟩
  · intro other member
    rcases List.mem_append.mp member with before | fresh
    · apply (kept.each other before).of_same
      · intro key _writes
        rfl
      · intro key _reads
        refine ⟨?_, fun _ found => found, fun _ found => found⟩
        intro present inside
        rcases List.mem_append.mp inside with earlier | new
        · exact .inl earlier
        · rw [List.mem_singleton.mp new]
          exact .inr (quiet key).1
    · rw [List.mem_singleton.mp fresh]
      exact relies

/-- What holds in every store that is reached carefully. -/
structure Store.Sound (store : Store) : Prop where
  kept : Kept store.files store.calls
  whole : ∀ seen ∈ store.seen, seen.Whole

theorem Store.Sound.empty : Store.empty.Sound := by
  refine ⟨⟨?_, ?_⟩, ?_⟩
  · intro key stored found
    have nothing : Store.empty.files.metaAt key = none := by
      simp [Store.empty, Files.metaAt, Tree.content, Tree.root, Key.metaPath]
    rw [nothing] at found
    cases found
  · intro call member
    cases member
  · intro seen member
    cases member

theorem Store.Sound.fail {store next : Store} {md5 : List UInt8 → Text}
    {index : Nat} (sound : store.Sound)
    (taken : step md5 store (.fail index) = some next) : next.Sound := by
  have ended : ∀ call, store.calls[index]? = some call → call.isQuiet →
      Store.Sound { store with calls := store.calls.eraseIdx index } := by
    intro call found quiet
    refine ⟨?_, sound.whole⟩
    exact sound.kept.ends_quietly (Entries.replaced_change found none) quiet
  simp only [step] at taken
  split at taken
  case h_1 found =>
    cases taken
    exact ended _ found fun _key => ⟨rfl, rfl⟩
  case h_2 found =>
    cases taken
    exact ended _ found fun _key => ⟨rfl, rfl⟩
  case h_3 found =>
    cases taken
    exact ended _ found fun _key => ⟨rfl, rfl⟩
  case h_4 => cases taken

theorem Store.Sound.step {store next : Store} {md5 : List UInt8 → Text}
    {action : Action} (sound : store.Sound) (careful : Careful store action)
    (taken : step md5 store action = some next) : next.Sound := by
  cases action with
  | put key bytes content_type metadata =>
    cases taken
    exact ⟨sound.kept.add (fun _key => ⟨rfl, rfl⟩) rfl, sound.whole⟩
  | remove key =>
    cases taken
    refine ⟨sound.kept.add (fun _key => ⟨rfl, rfl⟩) ?_, sound.whole⟩
    trivial
  | stat key =>
    cases taken
    refine ⟨sound.kept.add (fun _key => ⟨rfl, rfl⟩) ?_, sound.whole⟩
    trivial
  | download key =>
    cases taken
    refine ⟨sound.kept.add (fun _key => ⟨rfl, rfl⟩) ?_, sound.whole⟩
    trivial
  | advance index =>
    simp only [LocalStorage.step] at taken
    split at taken
    case h_1 call found =>
      cases taken
      obtain ⟨kept, told⟩ := sound.kept.advance found careful
      refine ⟨kept, ?_⟩
      intro seen member
      rcases List.mem_append.mp member with before | fresh
      · exact sound.whole seen before
      · exact told seen (Option.mem_toList.mp fresh)
    case h_2 => cases taken
  | fail index => exact sound.fail taken

/-- In a run that is careful, what is told of an object is of one write, and
when no call is in flight the metadata stands beside the object that was written
with it. -/
theorem files_together (md5 : List UInt8 → Text) {schedule : List Action} {reached : Store}
    (careful : Runs.Meets (step md5) Careful .empty schedule)
    (run : Runs.exec (step md5) .empty schedule = some reached) :
    (∀ seen ∈ reached.seen, seen.Whole) ∧ (reached.calls = [] → ∀ key stored,
        reached.files.metaAt key = some stored →
        ∃ object, reached.files.objectAt key = some object ∧ object.write = stored.write) := by
  have sound : reached.Sound := by
    apply Runs.exec_invariant_of_meets _ careful Store.Sound.empty run
    intro store action next sound careful taken
    exact sound.step careful taken
  refine ⟨sound.whole, ?_⟩
  intro idle key stored found
  have free : ∀ call ∈ reached.calls, call.writes key = false := by
    intro call member
    rw [idle] at member
    cases member
  rcases sound.kept.paired key stored found free with whole | leaving
  · exact whole
  · obtain ⟨_gone, call, member, _removes⟩ := leaving
    rw [idle] at member
    cases member

def report : Key where
  bucket := ['u']
  key := ['r']
  bucket_ok := rfl
  key_ok := rfl

def noDigest : List UInt8 → Text := fun _bytes => []

def putReport (byte : UInt8) : Action := .put report [byte] [] []

def inTurn : List Action :=
  [putReport 1, .advance 0, .advance 0, .advance 0, .advance 0,
    .stat report, .advance 0, .advance 0, .advance 0]

theorem files_together_in_turn : ∃ reached,
    Runs.exec (step noDigest) .empty inTurn = some reached ∧
    reached.seen.length = 1 ∧
    (∀ seen ∈ reached.seen, seen.Whole) ∧ (reached.calls = [] → ∀ key stored,
        reached.files.metaAt key = some stored →
        ∃ object, reached.files.objectAt key = some object ∧ object.write = stored.write) := by
  have careful : Runs.Meets (step noDigest) Careful .empty inTurn := by
    decide
  refine ⟨_, rfl, rfl, ?_⟩
  exact files_together noDigest careful rfl

/-- A stat between the two renames of a second write tells of the new object
with the metadata of the old one.  A removal between the two renames of a write
leaves metadata without its object. -/
theorem files_apart : ((Runs.exec (step noDigest) .empty
      [putReport 1, .advance 0, .advance 0, .advance 0, .advance 0,
        putReport 2, .advance 0, .advance 0, .advance 0, .stat report,
        .advance 1, .advance 1, .advance 1]).map fun reached =>
          reached.seen.map fun seen =>
            (seen.object.write, seen.stored.map ObjectMeta.write)) =
      some [(1, some 0)] ∧
    ((Runs.exec (step noDigest) .empty
      [putReport 1, .advance 0, .advance 0, .advance 0, .remove report,
        .advance 1, .advance 1, .advance 1, .advance 0]).map fun reached =>
          (reached.calls.length, reached.files.objectAt report,
            (reached.files.metaAt report).map ObjectMeta.write)) =
      some (0, none, some 0) := by
  refine ⟨?_, ?_⟩
  · decide
  · decide

end TempestSdk.LocalStorage
