import TempestSdk.Storage.LocalClient

/-!
# The two files of an object

What pairs an object with its metadata while calls are in flight, and what each
rename and each unlink leaves of it.
-/

namespace TempestSdk.LocalStorage

open FileTrees PosixPaths

theorem isPart_of_segmentOk {segment : Text} (free : '/' ∉ segment)
    (valid : segmentOk segment = true) :
    IsPart segment ∧ segment ≠ ['.', '.'] := by
  obtain ⟨valid, _suffix⟩ := Bool.and_eq_true_iff.mp valid
  obtain ⟨filled, dot, dots, _others⟩ := of_decide_eq_true valid
  exact ⟨⟨filled, dot, free⟩, dots⟩

namespace Key

theorem objectPath_eq (key : Key) : key.objectPath = key.bucket :: key.key.splitOn '/' := by
  obtain ⟨bucket_free, bucket_ok⟩ := Bool.and_eq_true_iff.mp key.bucket_ok
  obtain ⟨no_slash, _hidden⟩ := of_decide_eq_true bucket_free
  obtain ⟨_filled, segments⟩ := Bool.and_eq_true_iff.mp key.key_ok
  have bucket := isPart_of_segmentOk no_slash bucket_ok
  have parts : ∀ part ∈ key.key.splitOn '/', IsPart part ∧ part ≠ ['.', '.'] := by
    intro part member
    exact isPart_of_segmentOk (not_mem_of_mem_splitOn member)
      (List.all_eq_true.mp segments part member)
  apply resolve_append bucket.1
  · intro part member
    exact (parts part member).1
  · intro member
    rcases List.mem_cons.mp member with same | later
    · exact bucket.2 same.symm
    · exact (parts _ later).2 rfl

theorem ext {key other : Key} (buckets : key.bucket = other.bucket)
    (texts : key.key = other.key) : key = other := by
  cases key
  cases other
  cases buckets
  cases texts
  rfl

theorem objectPath_injective {key other : Key}
    (same : key.objectPath = other.objectPath) : key = other := by
  rw [objectPath_eq, objectPath_eq] at same
  obtain ⟨buckets, parts⟩ := List.cons.inj same
  exact ext buckets (splitOn_injective parts)

theorem metaPath_injective {key other : Key}
    (same : key.metaPath = other.metaPath) : key = other := by
  obtain ⟨buckets, parts⟩ := List.cons.inj same
  apply ext buckets
  exact List.append_cancel_right (splitOn_injective parts)

end Key

namespace Call

def writes (key : Key) : Call → Bool
  | .replaceMeta other _ _ => decide (other = key)
  | _ => false

def removes (key : Key) : Call → Bool
  | .unlinkMeta other => decide (other = key)
  | _ => false

/-- A stat that has looked at the object, or a download that has not opened it
yet. -/
def reads (key : Key) : Call → Bool
  | .readMeta other _ _ => decide (other = key)
  | .openObject other _ => decide (other = key)
  | _ => false

end Call

/-- While a write is between its two renames, no other write of the key moves
its object into place, no removal unlinks it and no stat looks at it; and no
write moves its object into place while a stat of the key, or the download
after it, is not over. -/
def Call.Careful (calls : List Call) : Call → Prop
  | .replaceObject key _ _ => ∀ call ∈ calls, call.writes key = false ∧ call.reads key = false
  | .unlinkObject key | .info key _ => ∀ call ∈ calls, call.writes key = false
  | _ => True

def Careful (store : Store) : Action → Prop
  | .advance index => ∀ call ∈ store.calls[index]?, call.Careful store.calls
  | _ => True

instance (calls : List Call) : DecidablePred (Call.Careful calls)
  | .replaceObject key _ _ => inferInstanceAs
      (Decidable (∀ call ∈ calls, call.writes key = false ∧ call.reads key = false))
  | .unlinkObject key | .info key _ => inferInstanceAs
      (Decidable (∀ call ∈ calls, call.writes key = false))
  | .begin .. | .makeMeta .. | .replaceMeta .. | .unlinkMeta .. | .prune ..
  | .check .. | .readMeta .. | .openObject .. => .isTrue trivial

instance (store : Store) : DecidablePred (Careful store)
  | .advance index => inferInstanceAs
      (Decidable (∀ call ∈ store.calls[index]?, call.Careful store.calls))
  | .put .. | .remove .. | .stat .. | .download .. | .fail .. => .isTrue trivial

def Seen.Whole (seen : Seen) : Prop :=
  ∀ stored ∈ seen.stored, stored.write = seen.object.write

def Paired (files : Files) (calls : List Call) (key : Key) : Prop :=
  ∀ stored, files.metaAt key = some stored → (∀ call ∈ calls, call.writes key = false) →
    (∃ object, files.objectAt key = some object ∧ object.write = stored.write) ∨
      files.objectAt key = none ∧ ∃ call ∈ calls, call.removes key = true

def Call.Kept (files : Files) (calls : List Call) : Call → Prop
  | .begin _ object stored | .makeMeta _ object stored
  | .replaceObject _ object stored => object.write = stored.write
  | .replaceMeta key object stored =>
    object.write = stored.write ∧ files.objectAt key = some object
  | .readMeta key _ object =>
    (∀ call ∈ calls, call.writes key = false) ∧
    (∀ stored, files.metaAt key = some stored → stored.write = object.write) ∧
    ∀ there, files.objectAt key = some there → there.write = object.write
  | .openObject key stored =>
    (∀ call ∈ calls, call.writes key = false) ∧
    ∀ there, files.objectAt key = some there → ∀ found ∈ stored, found.write = there.write
  | _ => True

structure Kept (files : Files) (calls : List Call) : Prop where
  paired : ∀ key, Paired files calls key
  each : ∀ call ∈ calls, call.Kept files calls

variable {files next : Files} {calls after : List Call} {old : Call}
  {new : Option Call}

theorem Call.Kept.of_same {call : Call} (kept : call.Kept files calls)
    (writing : ∀ key, call.writes key = true → next.objectAt key = files.objectAt key)
    (reading : ∀ key, call.reads key = true →
      (∀ other ∈ after, other ∈ calls ∨ other.writes key = false) ∧
      (∀ object, next.objectAt key = some object → files.objectAt key = some object) ∧
      ∀ stored, next.metaAt key = some stored →
        files.metaAt key = some stored) : call.Kept next after := by
  have unwritten : ∀ key, call.reads key = true → (∀ other ∈ calls, other.writes key = false) →
      ∀ other ∈ after, other.writes key = false := by
    intro key reads free other member
    rcases (reading key reads).1 other member with before | quiet
    · exact free other before
    · exact quiet
  cases call with
  | replaceMeta key object stored =>
    refine ⟨kept.1, ?_⟩
    rw [writing key (decide_eq_true rfl)]
    exact kept.2
  | readMeta key download object =>
    obtain ⟨free, metas, objects⟩ := kept
    have reads : Call.reads key (.readMeta key download object) = true :=
      decide_eq_true rfl
    refine ⟨unwritten key reads free, ?_, ?_⟩
    · intro stored found
      exact metas stored ((reading key reads).2.2 stored found)
    · intro there found
      exact objects there ((reading key reads).2.1 there found)
  | openObject key stored =>
    obtain ⟨free, objects⟩ := kept
    have reads : Call.reads key (.openObject key stored) = true :=
      decide_eq_true rfl
    refine ⟨unwritten key reads free, ?_⟩
    intro there found
    exact objects there ((reading key reads).2.1 there found)
  | begin | makeMeta | replaceObject => exact kept
  | unlinkObject | unlinkMeta | prune | check | info => trivial

theorem Kept.move {touches : Key → Prop} (kept : Kept files calls)
    (replaced : Entries.Replaced calls old new after)
    (same : ∀ key, ¬ touches key → next.objectAt key = files.objectAt key ∧
        next.metaAt key = files.metaAt key)
    (quiet : ∀ key, ¬ touches key → old.writes key = false ∧ old.removes key = false ∧
        ∀ call ∈ new, call.writes key = false)
    (paired : ∀ key, touches key → Paired next after key)
    (writing : ∀ key, touches key → ∀ call ∈ calls, call.writes key = true →
      next.objectAt key = files.objectAt key)
    (reading : ∀ key, touches key → ∀ call ∈ calls, call.reads key = true →
      (∀ call ∈ new, call.writes key = false) ∧
      (∀ object, next.objectAt key = some object → files.objectAt key = some object) ∧
      ∀ stored, next.metaAt key = some stored → files.metaAt key = some stored)
    (added : ∀ call ∈ new, call.Kept next after) : Kept next after := by
  constructor
  · intro key
    by_cases touched : touches key
    · exact paired key touched
    · intro stored found free
      obtain ⟨objects, metas⟩ := same key touched
      obtain ⟨no_write, no_removal, _new⟩ := quiet key touched
      rw [metas] at found
      rw [objects]
      have free_before : ∀ call ∈ calls, call.writes key = false := by
        intro call member
        by_cases moved : call = old
        · rw [moved]
          exact no_write
        · exact free call (replaced.stay call member moved)
      rcases kept.paired key stored found free_before with whole | leaving
      · exact .inl whole
      · obtain ⟨gone, call, member, removes⟩ := leaving
        refine .inr ⟨gone, call, replaced.stay call member ?_, removes⟩
        rintro rfl
        rw [no_removal] at removes
        cases removes
  · intro call member
    rcases replaced.come call member with before | fresh
    · apply (kept.each call before).of_same
      · intro key writes
        by_cases touched : touches key
        · exact writing key touched call before writes
        · exact (same key touched).1
      · intro key reads
        have news : (∀ call ∈ new, call.writes key = false) ∧
            (∀ object, next.objectAt key = some object → files.objectAt key = some object) ∧
            ∀ stored, next.metaAt key = some stored → files.metaAt key = some stored := by
          by_cases touched : touches key
          · exact reading key touched call before reads
          · obtain ⟨objects, metas⟩ := same key touched
            exact ⟨(quiet key touched).2.2, fun _ found => objects ▸ found,
              fun _ found => metas ▸ found⟩
        refine ⟨?_, news.2⟩
        intro other inside
        rcases replaced.come other inside with earlier | fresh
        · exact .inl earlier
        · exact .inr (news.1 other fresh)
    · exact added call fresh

theorem Kept.frame (kept : Kept files calls) (replaced : Entries.Replaced calls old new after)
    (same : ∀ key, next.objectAt key = files.objectAt key ∧ next.metaAt key = files.metaAt key)
    (quiet : ∀ key, old.writes key = false ∧ old.removes key = false ∧
      ∀ call ∈ new, call.writes key = false)
    (added : ∀ call ∈ new, call.Kept next after) : Kept next after := by
  apply @Kept.move files next calls after old new (fun _key => False) kept
    replaced (fun key _apart => same key) (fun key _apart => quiet key)
    _ _ _ added
  · intro key impossible
    exact impossible.elim
  · intro key impossible
    exact impossible.elim
  · intro key impossible
    exact impossible.elim

section

variable {key other : Key} {object : Object} {stored : ObjectMeta}
  {objects : Tree Text Object} {metas : Tree Text ObjectMeta}

theorem objectAt_of_ne (others : ∀ path, path ≠ key.objectPath →
      objects.content path = files.objects.content path)
    (differs : other ≠ key) :
    ({ files with objects := objects } : Files).objectAt other = files.objectAt other := by
  apply others
  intro same
  exact differs (Key.objectPath_injective same)

theorem metaAt_of_ne (others : ∀ path, path ≠ key.metaPath →
      metas.content path = files.metas.content path)
    (differs : other ≠ key) :
    ({ files with metas := metas } : Files).metaAt other = files.metaAt other := by
  apply others
  intro same
  exact differs (Key.metaPath_injective same)

theorem writes_self (key : Key) (object : Object) (stored : ObjectMeta) :
    Call.writes key (.replaceMeta key object stored) = true :=
  decide_eq_true rfl

theorem writes_of_ne (differs : other ≠ key) :
    Call.writes other (.replaceMeta key object stored) = false :=
  decide_eq_false differs.symm

section

variable (kept : Kept files calls)

include kept

theorem Kept.replaceObject (replaced : Entries.Replaced calls (.replaceObject key object stored)
      (some (.replaceMeta key object stored)) after)
    (done : files.objects.put key.objectPath object = some objects)
    (free : ∀ call ∈ calls, call.writes key = false ∧ call.reads key = false) :
    Kept { files with objects := objects } after := by
  have minted : object.write = stored.write :=
    kept.each _ replaced.there
  apply @Kept.move _ _ _ _ _ _ (fun other => other = key) kept replaced
  · intro other differs
    refine ⟨objectAt_of_ne ?_ differs, rfl⟩
    intro path apart
    exact Tree.put_of_ne done apart
  · intro other differs
    refine ⟨rfl, rfl, ?_⟩
    intro call fresh
    cases fresh
    exact writes_of_ne differs
  · rintro other rfl found_meta _found free_after
    have written := free_after _ (replaced.added _ rfl)
    rw [writes_self] at written
    cases written
  · rintro other rfl call member writes
    rw [(free call member).1] at writes
    cases writes
  · rintro other rfl call member reads
    rw [(free call member).2] at reads
    cases reads
  · intro call fresh
    cases fresh
    exact ⟨minted, Tree.put_self done⟩

theorem Kept.replaceMeta
    (replaced : Entries.Replaced calls (.replaceMeta key object stored) none after)
    (done : files.metas.put key.metaPath stored = some metas) :
    Kept { files with metas := metas } after := by
  obtain ⟨minted, there⟩ := kept.each _ replaced.there
  have busy : ∀ call ∈ calls, call.reads key = true → False := by
    intro call member reads
    have relies := kept.each call member
    have free : ∀ other ∈ calls, other.writes key = false := by
      cases call with
      | readMeta other download seen =>
        cases of_decide_eq_true reads
        exact relies.1
      | openObject other seen =>
        cases of_decide_eq_true reads
        exact relies.1
      | begin | makeMeta | replaceObject | replaceMeta | unlinkObject
      | unlinkMeta | prune | check | info => cases reads
    have quiet := free _ replaced.there
    rw [writes_self] at quiet
    cases quiet
  apply @Kept.move _ _ _ _ _ _ (fun other => other = key) kept replaced
  · intro other differs
    refine ⟨rfl, metaAt_of_ne ?_ differs⟩
    intro path apart
    exact Tree.put_of_ne done apart
  · intro other differs
    refine ⟨writes_of_ne differs, rfl, ?_⟩
    intro call fresh
    cases fresh
  · rintro other rfl found_meta found _free
    have same : some stored = some found_meta :=
      (Tree.put_self done).symm.trans found
    cases same
    exact .inl ⟨object, there, minted⟩
  · rintro other rfl call _member _writes
    rfl
  · rintro other rfl call member reads
    exact (busy call member reads).elim
  · intro call fresh
    cases fresh

theorem Kept.unlinkObject
    (replaced : Entries.Replaced calls (.unlinkObject key) (some (.unlinkMeta key)) after)
    (done : files.objects.unlinkMissingOk key.objectPath = some objects)
    (free : ∀ call ∈ calls, call.writes key = false) :
    Kept { files with objects := objects } after := by
  have gone : ({ files with objects := objects } : Files).objectAt key =
      none := Tree.unlinkMissingOk_self done
  apply @Kept.move _ _ _ _ _ _ (fun other => other = key) kept replaced
  · intro other differs
    refine ⟨objectAt_of_ne ?_ differs, rfl⟩
    intro path apart
    exact Tree.unlinkMissingOk_of_ne done apart
  · intro other differs
    refine ⟨rfl, rfl, ?_⟩
    intro call fresh
    cases fresh
    rfl
  · rintro other rfl found_meta _found _free
    refine .inr ⟨gone, _, replaced.added _ rfl, ?_⟩
    exact decide_eq_true rfl
  · rintro other rfl call member writes
    rw [free call member] at writes
    cases writes
  · rintro other rfl call _member _reads
    refine ⟨?_, ?_, fun _ found => found⟩
    · intro call fresh
      cases fresh
      rfl
    · intro there found
      rw [gone] at found
      cases found
  · intro call fresh
    cases fresh
    trivial

theorem Kept.unlinkMeta {paths places : List (List Text)}
    (replaced : Entries.Replaced calls (.unlinkMeta key) (some (.prune paths places)) after)
    (done : files.metas.unlinkMissingOk key.metaPath = some metas) :
    Kept { files with metas := metas } after := by
  have gone : ({ files with metas := metas } : Files).metaAt key = none :=
    Tree.unlinkMissingOk_self done
  apply @Kept.move _ _ _ _ _ _ (fun other => other = key) kept replaced
  · intro other differs
    refine ⟨rfl, metaAt_of_ne ?_ differs⟩
    intro path apart
    exact Tree.unlinkMissingOk_of_ne done apart
  · intro other differs
    refine ⟨rfl, decide_eq_false (fun equal => differs equal.symm), ?_⟩
    intro call fresh
    cases fresh
    rfl
  · rintro other rfl found_meta found _free
    rw [gone] at found
    cases found
  · rintro other rfl call _member _writes
    rfl
  · rintro other rfl call _member _reads
    refine ⟨?_, fun _ found => found, ?_⟩
    · intro call fresh
      cases fresh
      rfl
    · intro found_meta found
      rw [gone] at found
      cases found
  · intro call fresh
    cases fresh
    trivial

theorem Kept.ends (replaced : Entries.Replaced calls old none after)
    (blank : ∀ key, old.writes key = true ∨ old.removes key = true →
      files.metaAt key = none) : Kept files after := by
  apply @Kept.move _ _ _ _ _ _
    (fun key => old.writes key = true ∨ old.removes key = true) kept replaced
  · intro key _apart
    exact ⟨rfl, rfl⟩
  · intro key apart
    obtain ⟨no_write, no_removal⟩ := not_or.mp apart
    refine ⟨Bool.not_eq_true _ |>.mp no_write, Bool.not_eq_true _ |>.mp no_removal, ?_⟩
    intro call fresh
    cases fresh
  · intro key touched found_meta found _free
    rw [blank key touched] at found
    cases found
  · intro key _touched call _member _writes
    rfl
  · intro key _touched call _member _reads
    refine ⟨?_, fun _ found => found, fun _ found => found⟩
    intro call fresh
    cases fresh
  · intro call fresh
    cases fresh

end

end

end TempestSdk.LocalStorage
