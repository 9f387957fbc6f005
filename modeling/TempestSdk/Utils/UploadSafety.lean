import TempestSdk.Library.Runs
import TempestSdk.Utils.UploadStream

/-!
# What uploads leave of the files that are stored

When a `save` or a `replace` that raises leaves every file as it was, and when
a `replace` that returns leaves the new object and not the old one.
-/

namespace TempestSdk.Uploads

open FileTrees PosixPaths

namespace UploadUtils

variable {utils : UploadUtils} {call : Save} {disk after : Disk}
  {key : Text} {target : List Text}

def Preserves (before after : Disk) : Prop :=
  ∀ place stored, before.content place = some stored → after.content place = some stored

def place (utils : UploadUtils) (key : Text) : List Text :=
  resolve utils.base_dir (Path.parse key)

def SaveHarmless (utils : UploadUtils) (call : Save) (disk : Disk) : Prop :=
  ∀ error, (utils.save call disk).1 = .error error → Preserves disk (utils.save call disk).2

/-- Nothing is stored where the upload goes, or the upload is taken as a
whole, or it is cancelled with just what is stored written. -/
def SaveCareful (utils : UploadUtils) (call : Save) (disk : Disk) : Prop :=
  ∀ key target stored, utils.destination call = .ok (key, target) →
    disk.content target = some stored →
    call.opens = true ∧ (utils.Accepts call ∨ utils.Interrupts call ∧ call.body = stored)

def ReplaceHarmless (utils : UploadUtils) (old_key : Option OldKey)
    (call : Save) (disk : Disk) : Prop :=
  (∀ error, (utils.replace old_key call disk).1 = .error error →
    Preserves disk (utils.replace old_key call disk).2) ∧
  ∀ key, (utils.replace old_key call disk).1 = .ok key →
    (utils.replace old_key call disk).2.content (utils.place key.str) = some call.body ∧
      ∀ old ∈ old_key, (utils.replace old_key call disk).2.content (utils.place old.str) =
          none ∨ utils.place old.str = utils.place key.str

/-- The old key is one that `delete` refuses: it leads out of the directory,
or to a directory. -/
def Undeletable (utils : UploadUtils) (disk : Disk) (target : List Text)
    (old : OldKey) : Prop :=
  ¬ utils.base_dir <+: utils.place old.str ∨ utils.place old.str <+: target.dropLast ∨
      disk.isDirectory (utils.place old.str) = true

/-- A new object that is written is not what an old key of another text stands
for, and it takes the place of nothing when the old key cannot be deleted. -/
def ReplaceCareful (utils : UploadUtils) (old_key : Option OldKey)
    (call : Save) (disk : Disk) : Prop :=
  utils.SaveCareful call disk ∧
  ∀ key target, utils.destination call = .ok (key, target) →
    Takes disk target → call.opens = true → utils.Accepts call →
    ∀ old ∈ old_key, old.str ≠ (Path.parse key).str → utils.place old.str ≠ target ∧
      (utils.Undeletable disk target old →
        ∀ stored, disk.content target = some stored → stored = call.body)

theorem Preserves.refl (disk : Disk) : Preserves disk disk :=
  fun _place _stored held => held

theorem resolveKey_of_inside (inside : utils.base_dir <+: utils.place key) :
    utils.resolveKey key = .ok (utils.place key) := if_pos inside

theorem resolveKey_of_outside (outside : ¬ utils.base_dir <+: utils.place key) :
    utils.resolveKey key = .error (.escapesBaseDir key) := if_neg outside

theorem resolveKey_ok (resolved : utils.resolveKey key = .ok target) :
    utils.place key = target ∧ utils.base_dir <+: target := by
  by_cases inside : utils.base_dir <+: utils.place key
  · rw [resolveKey_of_inside inside] at resolved
    cases resolved
    exact ⟨rfl, inside⟩
  · rw [resolveKey_of_outside inside] at resolved
    cases resolved

theorem destination_ok (found : utils.destination call = .ok (key, target)) :
    utils.place key = target ∧ utils.base_dir <+: target := by
  unfold destination at found
  cases valid : utils.validate call.file with
  | error error =>
    rw [valid] at found
    cases found
  | ok =>
    cases named : resolveFilename call with
    | error error =>
      rw [valid, named] at found
      cases found
    | ok name =>
      cases resolved : utils.resolveKey (storageKey call name) with
      | error error =>
        rw [valid, named] at found
        simp [bind, Except.bind, resolved] at found
      | ok place =>
        rw [valid, named] at found
        simp [bind, Except.bind, resolved, pure, Except.pure] at found
        obtain ⟨rfl, rfl⟩ := found
        exact resolveKey_ok resolved

theorem save_of_error {error : UploadError} (failed : utils.destination call = .error error) :
    utils.save call disk = (.error error, disk) := by
  unfold save
  rw [failed]
  rfl

theorem save_of_ok (found : utils.destination call = .ok (key, target)) : utils.save call disk =
      ((utils.writeStream call target disk).1.map fun _ => Path.parse key,
        (utils.writeStream call target disk).2) := by
  unfold save
  rw [found]
  dsimp only
  cases utils.writeStream call target disk with
  | mk result after =>
    cases result with
    | error error => rfl
    | ok => rfl

theorem writeStream_preserves_iff :
    (∀ error, (utils.writeStream call target disk).1 = .error error →
      Preserves disk (utils.writeStream call target disk).2) ↔
    ∀ stored, disk.content target = some stored → call.opens = true ∧
      (utils.Accepts call ∨ utils.Interrupts call ∧ call.body = stored) := by
  have written := writeStream_written utils call target disk
  constructor
  · intro harmless stored held
    cases raised : (utils.writeStream call target disk).1 with
    | ok =>
      obtain ⟨_takes, opens, accepts⟩ := written.ok_iff.mp raised
      exact ⟨opens, .inl accepts⟩
    | error error =>
      have kept := harmless error raised target stored held
      obtain ⟨opens, interrupts, same⟩ :=
        (written.kept_iff raised held).mp kept
      exact ⟨opens, .inr ⟨interrupts, same⟩⟩
  · intro careful error raised place stored held
    rcases eq_or_ne place target with rfl | differs
    · obtain ⟨opens, accepts | ⟨interrupts, same⟩⟩ := careful stored held
      · have returns := written.ok_iff.mpr ⟨takes_of_content held, opens, accepts⟩
        rw [raised] at returns
        cases returns
      · exact (written.kept_iff raised held).mpr ⟨opens, interrupts, same⟩
    · rw [written.others differs]
      exact held

theorem save_harmless_iff : utils.SaveHarmless call disk ↔ utils.SaveCareful call disk := by
  cases found : utils.destination call with
  | error error =>
    apply iff_of_true
    · intro _error _raised
      rw [save_of_error found]
      exact Preserves.refl disk
    · intro key target stored other
      rw [found] at other
      cases other
  | ok destination =>
    obtain ⟨key, target⟩ := destination
    have exact := @writeStream_preserves_iff utils call disk target
    constructor
    · intro harmless other place stored same
      rw [found] at same
      cases same
      apply exact.mp _ stored
      intro error raised
      unfold SaveHarmless at harmless
      rw [save_of_ok found, raised] at harmless
      exact harmless error rfl
    · intro careful error raised
      rw [save_of_ok found] at raised ⊢
      cases written : (utils.writeStream call target disk).1 with
      | ok =>
        rw [written] at raised
        cases raised
      | error other =>
        apply exact.mpr _ other written
        intro stored
        exact careful key target stored found

/-- What `delete` does: it refuses, or the object is gone. -/
inductive Deleted (utils : UploadUtils) (key : Text) (disk : Disk) :
    Except UploadError Bool × Disk → Prop where
  | refused (error : UploadError) :
      ¬ utils.base_dir <+: utils.place key ∨ disk.isDirectory (utils.place key) = true →
      Deleted utils key disk (.error error, disk)
  | gone {final : Disk} (existed : Bool) :
      utils.base_dir <+: utils.place key →
      disk.isDirectory (utils.place key) = false →
      final.content (utils.place key) = none →
      (∀ other, other ≠ utils.place key → final.content other = disk.content other) →
      Deleted utils key disk (.ok existed, final)

theorem delete_deleted (utils : UploadUtils) (key : Text) (disk : Disk) :
    Deleted utils key disk (utils.delete key disk) := by
  unfold delete
  by_cases inside : utils.base_dir <+: utils.place key
  · rw [resolveKey_of_inside inside]
    dsimp only
    cases node : disk.nodes (utils.place key) with
    | none =>
      apply Deleted.gone false inside
      · simp [Tree.isDirectory, node]
      · simp [Tree.content, node]
      · intro other _differs
        rfl
    | some found =>
      rw [Option.isNone_some, if_neg Bool.false_ne_true]
      cases found with
      | directory =>
        have refused : disk.unlink (utils.place key) = none :=
          dif_neg (by simp [Tree.content, node])
        rw [refused]
        apply Deleted.refused
        exact .inr (Tree.isDirectory_iff.mpr node)
      | file stored =>
        have held : disk.content (utils.place key) = some stored :=
          Tree.content_eq_some.mpr node
        obtain ⟨final, gone⟩ := Tree.unlink_of_content held
        rw [gone]
        apply Deleted.gone true inside
        · simp [Tree.isDirectory, node]
        · exact Tree.unlink_self gone
        · intro other differs
          exact Tree.unlink_of_ne gone differs
  · rw [resolveKey_of_outside inside]
    apply Deleted.refused
    exact .inl inside

theorem replace_of_error {error : UploadError} (old_key : Option OldKey)
    (failed : (utils.save call disk).1 = .error error) :
    utils.replace old_key call disk = (.error error, (utils.save call disk).2) := by
  unfold replace
  cases saved : utils.save call disk with
  | mk result after =>
    rw [saved] at failed
    cases failed
    rfl

theorem place_str (path : Path) : utils.place path.str = resolve utils.base_dir path := by
  rw [place, Path.parse_str]

theorem replace_of_old {old : OldKey} {new_key : Path}
    (saved : utils.save call disk = (.ok new_key, after)) :
    utils.replace (some old) call disk = if old.str ≠ new_key.str then
        ((utils.delete old.str after).1.map fun _ => new_key, (utils.delete old.str after).2)
      else (.ok new_key, after) := by
  unfold replace
  rw [saved]
  dsimp only
  split
  case isTrue =>
    cases utils.delete old.str after with
    | mk result final =>
      cases result with
      | error error => rfl
      | ok existed => rfl
  case isFalse => rfl

theorem replaced_iff {old : OldKey} (found : utils.destination call = .ok (key, target))
    (returns : (utils.writeStream call target disk).1 = .ok ()) :
    utils.ReplaceHarmless (some old) call disk ↔
      (old.str ≠ (Path.parse key).str → utils.place old.str ≠ target ∧
        (utils.Undeletable disk target old → ∀ stored, disk.content target = some stored →
            stored = call.body)) := by
  have written := writeStream_written utils call target disk
  obtain ⟨body, directories⟩ := written.stored returns
  obtain ⟨leads, inside⟩ := destination_ok found
  have saved := @save_of_ok utils call disk key target found
  rw [returns] at saved
  have returned : utils.place (Path.parse key).str = target := by
    rw [place_str]
    exact leads
  unfold ReplaceHarmless
  rw [replace_of_old saved]
  rcases eq_or_ne old.str (Path.parse key).str with same | differs
  · rw [if_neg (not_not.mpr same)]
    apply iff_of_true
    · constructor
      · intro error raised
        cases raised
      intro new_key new
      cases new
      rw [returned]
      refine ⟨body, ?_⟩
      intro _old found_old
      cases found_old
      right
      rw [same]
      exact returned
    · intro differs
      exact absurd same differs
  · rw [if_pos differs]
    have deleted :=
      delete_deleted utils old.str (utils.writeStream call target disk).2
    generalize utils.delete old.str (utils.writeStream call target disk).2 = result at *
    cases deleted with
    | refused error why =>
      have apart : utils.place old.str ≠ target := by
        intro same
        rcases why with outside | directory
        · exact outside (same ▸ inside)
        · rw [same, Tree.isDirectory_iff] at directory
          rw [Tree.content_eq_some, directory] at body
          cases body
      have undeletable : utils.Undeletable disk target old := by
        rcases why with outside | directory
        · exact .inl outside
        · exact .inr ((directories _ apart).mp directory)
      constructor
      · intro harmless _differs
        refine ⟨apart, ?_⟩
        intro _undeletable stored held
        have kept := harmless.1 error rfl target stored held
        rw [body] at kept
        exact (Option.some.inj kept).symm
      · intro careful
        constructor
        · intro _error _raised place stored held
          rcases eq_or_ne place target with rfl | other
          · rw [(careful differs).2 undeletable stored held]
            exact body
          · rw [written.others other]
            exact held
        · intro new_key new
          cases new
    | @gone final existed under file absent others =>
      constructor
      · intro harmless _differs
        have apart : utils.place old.str ≠ target := by
          intro same
          have stays := (harmless.2 (Path.parse key) rfl).1
          rw [returned, ← same, absent] at stays
          cases stays
        refine ⟨apart, ?_⟩
        rintro (outside | directory)
        · exact absurd under outside
        · rw [(directories _ apart).mpr directory] at file
          cases file
      · intro careful
        constructor
        · intro error raised
          cases raised
        · intro new_key new
          cases new
          rw [returned, others target (careful differs).1.symm]
          refine ⟨body, ?_⟩
          intro _old found_old
          cases found_old
          exact .inl absent

theorem replace_harmless_of_error {old_key : Option OldKey}
    {error : UploadError} (failed : (utils.save call disk).1 = .error error) :
    utils.ReplaceHarmless old_key call disk ↔ utils.SaveHarmless call disk := by
  unfold ReplaceHarmless SaveHarmless
  rw [replace_of_error old_key failed, failed]
  constructor
  · intro harmless other same
    exact harmless.1 other same
  · intro harmless
    refine ⟨harmless, ?_⟩
    intro key impossible
    cases impossible

theorem saveCareful_of_returns (found : utils.destination call = .ok (key, target))
    (returns : (utils.writeStream call target disk).1 = .ok ()) :
    utils.SaveCareful call disk := by
  intro other place stored same _held
  rw [found] at same
  cases same
  have written := writeStream_written utils call target disk
  obtain ⟨_takes, opens, accepts⟩ := written.ok_iff.mp returns
  exact ⟨opens, .inl accepts⟩

theorem replace_harmless_iff {old_key : Option OldKey} :
    utils.ReplaceHarmless old_key call disk ↔ utils.ReplaceCareful old_key call disk := by
  cases found : utils.destination call with
  | error error =>
    have failed : (utils.save call disk).1 = .error error := by
      rw [save_of_error found]
    rw [replace_harmless_of_error failed, save_harmless_iff]
    unfold ReplaceCareful
    rw [and_iff_left]
    intro key target other
    rw [found] at other
    cases other
  | ok destination =>
    obtain ⟨key, target⟩ := destination
    have written := writeStream_written utils call target disk
    cases returns : (utils.writeStream call target disk).1 with
    | error error =>
      have failed : (utils.save call disk).1 = .error error := by
        rw [save_of_ok found, returns]
        rfl
      rw [replace_harmless_of_error failed, save_harmless_iff]
      unfold ReplaceCareful
      rw [and_iff_left]
      intro other place same takes opens accepts
      rw [found] at same
      cases same
      have done := written.ok_iff.mpr ⟨takes, opens, accepts⟩
      rw [returns] at done
      cases done
    | ok =>
      have careful := saveCareful_of_returns found returns
      have met := written.ok_iff.mp returns
      cases old_key with
      | none =>
        apply iff_of_true
        · have saved := @save_of_ok utils call disk key target found
          rw [returns] at saved
          unfold ReplaceHarmless replace
          rw [saved]
          constructor
          · intro error raised
            cases raised
          · intro new_key new
            cases new
            rw [place_str]
            have leads := (destination_ok found).1
            rw [place] at leads
            rw [leads]
            refine ⟨(written.stored returns).1, ?_⟩
            intro old none_given
            cases none_given
        · refine ⟨careful, ?_⟩
          intro other place same takes opens accepts old none_given
          cases none_given
      | some old =>
        rw [replaced_iff found returns]
        constructor
        · intro apart
          refine ⟨careful, ?_⟩
          intro other place same _takes _opens _accepts _old given
          rw [found] at same
          cases same
          cases given
          exact apart
        · rintro ⟨_careful, apart⟩
          exact apart key target found met.1 met.2.1 met.2.2 old rfl

end UploadUtils

inductive Call where
  | save (call : Save)
  | replace (old_key : Option UploadUtils.OldKey) (call : Save)
  | delete (key : Text)

namespace UploadUtils

def step (utils : UploadUtils) (disk : Disk) : Call → Option Disk
  | .save call => some (utils.save call disk).2
  | .replace old_key call => some (utils.replace old_key call disk).2
  | .delete key => some (utils.delete key disk).2

def Harmless (utils : UploadUtils) (disk : Disk) : Call → Prop
  | .save call => utils.SaveHarmless call disk
  | .replace old_key call => utils.ReplaceHarmless old_key call disk
  | .delete _ => True

def Careful (utils : UploadUtils) (disk : Disk) : Call → Prop
  | .save call => utils.SaveCareful call disk
  | .replace old_key call => utils.ReplaceCareful old_key call disk
  | .delete _ => True

theorem harmless_iff {utils : UploadUtils} {disk : Disk} (call : Call) :
    utils.Careful disk call ↔ utils.Harmless disk call := by
  cases call with
  | save call => exact (save_harmless_iff).symm
  | replace old_key call => exact (replace_harmless_iff).symm
  | delete key => exact Iff.rfl

/-- Of every sequence of uploads: none of them damages what is stored just
when each of them is careful where it is made. -/
theorem uploads_harmless_iff (utils : UploadUtils) (disk : Disk) (calls : List Call) :
    Runs.Meets utils.step utils.Careful disk calls ↔
      Runs.Meets utils.step utils.Harmless disk calls := by
  constructor
  · apply Runs.Meets.mono
    intro disk call careful
    exact (harmless_iff call).mp careful
  · apply Runs.Meets.mono
    intro disk call harmless
    exact (harmless_iff call).mpr harmless

def unchecked : UploadUtils where
  base_dir := ["data".toList]
  max_size_bytes := none
  allowed_extensions := none
  allowed_mimetypes := none
  verify_magic_bytes := false
  require_known_signature := true
  lower := id

/-- An upload under the name `a`. -/
def named (reads : List Read) : Save where
  file := ⟨none, none, reads⟩
  subdir := []
  filename := some ['a']
  keep_original_name := false
  content_validator := none
  fresh := []
  opens := true

def uploaded : Disk := (unchecked.save (named [.chunk [1] true]) .root).2

/-- A stream that raises costs the object that is stored under the name, and
an old key that writes the name in another way costs the new object. -/
theorem object_lost : uploaded.content ["data".toList, ['a']] = some [1] ∧
    ¬ unchecked.SaveHarmless (named [.error]) uploaded ∧
    ¬ unchecked.ReplaceHarmless (some (.text ['.', '/', 'a'] (List.cons_ne_nil _ _)))
      (named [.chunk [2] true]) uploaded := by
  have held : uploaded.content ["data".toList, ['a']] = some [1] := by
    decide
  refine ⟨held, ?_, ?_⟩
  · intro harmless
    have kept := harmless .stream rfl _ _ held
    revert kept
    decide
  · intro harmless
    have kept := (harmless.2 (.parse ['a']) rfl).1
    revert kept
    decide

end UploadUtils

end TempestSdk.Uploads
