import TempestSdk.Utils.Upload

/-!
# How the stream of an upload ends

The chunks that come before the end of a stream, whether the checks let them
through, and what `write_stream` does to the disk in each case.
-/

namespace TempestSdk.Uploads

open FileTrees PosixPaths

def Read.isTaken : Read → Bool
  | .chunk data taken => decide (data ≠ []) && taken
  | _ => false

def Read.data : Read → Bytes
  | .chunk data _ => data
  | _ => []

def chunks (reads : List Read) : List Bytes :=
  (reads.takeWhile Read.isTaken).map Read.data

def tail (reads : List Read) : Option Read :=
  (reads.dropWhile Read.isTaken).head?

def Ends (reads : List Read) : Prop :=
  tail reads = none ∨ ∃ taken, tail reads = some (.chunk [] taken)

theorem chunks_taken {data : Bytes} (filled : data ≠ []) (rest : List Read) :
    chunks (.chunk data true :: rest) = data :: chunks rest := by
  simp [chunks, Read.isTaken, Read.data, filled]

theorem tail_taken {data : Bytes} (filled : data ≠ []) (rest : List Read) :
    tail (.chunk data true :: rest) = tail rest := by
  simp [tail, Read.isTaken, filled]

theorem chunks_of_not_taken {read : Read} (stops : read.isTaken = false)
    (rest : List Read) : chunks (read :: rest) = [] := by
  simp [chunks, stops]

theorem tail_of_not_taken {read : Read} (stops : read.isTaken = false)
    (rest : List Read) : tail (read :: rest) = some read := by
  simp [tail, stops]

def Save.body (call : Save) : Bytes := (chunks call.file.reads).flatten

namespace UploadUtils

variable {utils : UploadUtils} {call : Save} {disk : Disk} {target : List Text}

/-- The checks let the chunks through: the first one is what it is declared to
be, and all of them are not too large. -/
def Passes (utils : UploadUtils) (call : Save) (first : Bool) (size : Nat)
    (chunks : List Bytes) : Prop :=
  (first = true → ∀ data ∈ chunks.head?, utils.verifyContent data call = .ok ()) ∧
  (chunks ≠ [] → utils.tooLarge (size + chunks.flatten.length) = none)

def Accepts (utils : UploadUtils) (call : Save) : Prop :=
  utils.Passes call true 0 (chunks call.file.reads) ∧ Ends call.file.reads

def Interrupts (utils : UploadUtils) (call : Save) : Prop :=
  utils.Passes call true 0 (chunks call.file.reads) ∧ tail call.file.reads = some .cancelled

theorem tooLarge_mono {size total : Nat} (larger : size ≤ total)
    (small : utils.tooLarge total = none) : utils.tooLarge size = none := by
  unfold tooLarge at *
  rw [Option.filter_eq_none_iff] at *
  intro most limited
  have bound := small most limited
  simp only [decide_eq_true_eq] at *
  omega

def Tells (passes : Prop) (reads : List Read) (all : Bytes) : Ending → Prop
  | .complete written => passes ∧ Ends reads ∧ written = all
  | .cancelled written => passes ∧ tail reads = some .cancelled ∧ written = all
  | .failed _ => ¬ (passes ∧ (Ends reads ∨ tail reads = some .cancelled))

theorem passes_cons {first : Bool} {size : Nat} {data : Bytes} {others : List Bytes} :
    utils.Passes call first size (data :: others) ↔
      (first = true → utils.verifyContent data call = .ok ()) ∧
      utils.tooLarge (size + data.length) = none ∧
      utils.Passes call false (size + data.length) others := by
  constructor
  · rintro ⟨verified, small⟩
    have whole := small (List.cons_ne_nil data others)
    rw [List.flatten_cons, List.length_append] at whole
    refine ⟨fun leading => verified leading data rfl, ?_, ?_, ?_⟩
    · exact tooLarge_mono (by omega) whole
    · intro impossible
      cases impossible
    · intro _more
      rw [Nat.add_assoc]
      exact whole
  · rintro ⟨verified, small, _first, rest⟩
    refine ⟨?_, ?_⟩
    · intro leading found same
      cases same
      exact verified leading
    · intro _filled
      rw [List.flatten_cons, List.length_append, ← Nat.add_assoc]
      rcases eq_or_ne others [] with rfl | more
      · exact small
      · exact rest more

theorem passes_nil (first : Bool) (size : Nat) : utils.Passes call first size [] := by
  refine ⟨?_, ?_⟩
  · intro _first data found
    cases found
  · intro filled
    exact absurd rfl filled

theorem tells_failed {read : Read} (stops : read.isTaken = false)
    (fails : read ≠ .cancelled) (filled : ∀ taken, read ≠ .chunk [] taken)
    (rest : List Read) (passes : Prop) (all : Bytes) (error : UploadError) :
    Tells passes (read :: rest) all (.failed error) := by
  rintro ⟨_passes, ends | interrupted⟩
  · rw [Ends, tail_of_not_taken stops] at ends
    rcases ends with ends | ⟨taken, ends⟩
    · cases ends
    · exact filled taken (Option.some.inj ends)
  · rw [tail_of_not_taken stops] at interrupted
    exact fails (Option.some.inj interrupted)

theorem tells_taken {data : Bytes} (filled : data ≠ []) {rest : List Read}
    {later passes : Prop} (same : passes ↔ later) {all : Bytes}
    {ending : Ending} (tells : Tells later rest all ending) :
    Tells passes (.chunk data true :: rest) all ending := by
  cases ending with
  | complete written =>
    obtain ⟨passed, ends, whole⟩ := tells
    refine ⟨same.mpr passed, ?_, whole⟩
    rw [Ends, tail_taken filled]
    exact ends
  | cancelled written =>
    obtain ⟨passed, interrupted, whole⟩ := tells
    refine ⟨same.mpr passed, ?_, whole⟩
    rw [tail_taken filled]
    exact interrupted
  | failed error =>
    rintro ⟨passed, stopped⟩
    rw [Ends, tail_taken filled] at stopped
    exact tells ⟨same.mp passed, stopped⟩

theorem writeChunks_tells (reads : List Read) (first : Bool) (written : Bytes) :
    Tells (utils.Passes call first written.length (chunks reads)) reads
      (written ++ (chunks reads).flatten)
      (utils.writeChunks call first written reads) := by
  induction reads generalizing first written with
  | nil => exact ⟨passes_nil first _, .inl rfl, (List.append_nil written).symm⟩
  | cons read rest induction =>
    cases read with
    | error =>
      apply tells_failed rfl _ _ rest
      · intro same
        cases same
      · intro taken same
        cases same
    | cancelled =>
      rw [chunks_of_not_taken rfl]
      exact ⟨passes_nil first _, tail_of_not_taken rfl rest, (List.append_nil written).symm⟩
    | chunk data taken =>
      unfold writeChunks
      split
      case isTrue empty =>
        subst empty
        rw [chunks_of_not_taken rfl]
        exact ⟨passes_nil first _, .inr ⟨taken, tail_of_not_taken rfl rest⟩,
          (List.append_nil written).symm⟩
      case isFalse filled =>
        cases taken with
        | false =>
          have refused : ∀ error, Tells (utils.Passes call first
              written.length (chunks (.chunk data false :: rest)))
              (.chunk data false :: rest) (written ++
                (chunks (.chunk data false :: rest)).flatten)
              (.failed error) := by
            apply tells_failed (by simp [Read.isTaken]) _ _ rest
            · intro same
              cases same
            · intro taken same
              cases same
              exact filled rfl
          split
          case h_1 error _rejected => exact refused error
          case h_2 =>
            split
            case h_1 most _large => exact refused (.fileTooLarge most)
            case h_2 => exact refused .osError
        | true =>
          rw [chunks_taken filled]
          split
          case h_1 error rejected =>
            rintro ⟨passed, _stopped⟩
            have verified := ((passes_cons).mp passed).1
            cases first with
            | false => cases rejected
            | true =>
              rw [if_pos rfl, verified rfl] at rejected
              cases rejected
          case h_2 _unit verified =>
            have checked : first = true → utils.verifyContent data call = .ok () := by
              rintro rfl
              exact verified
            split
            case h_1 most large =>
              rintro ⟨passed, _stopped⟩
              rw [((passes_cons).mp passed).2.1] at large
              cases large
            case h_2 small =>
              have rest_tells := induction false (written ++ data)
              rw [List.length_append, List.append_assoc, ← List.flatten_cons] at rest_tells
              apply tells_taken filled _ rest_tells
              rw [passes_cons]
              constructor
              · rintro ⟨_verified, _small, others⟩
                exact others
              · intro others
                exact ⟨checked, small, others⟩

theorem writeChunks_spec (utils : UploadUtils) (call : Save) :
    match utils.writeChunks call true [] call.file.reads with
    | .complete written => utils.Accepts call ∧ written = call.body
    | .cancelled written => utils.Interrupts call ∧ written = call.body
    | .failed _ => ¬ utils.Accepts call ∧ ¬ utils.Interrupts call := by
  have tells := @writeChunks_tells utils call call.file.reads true []
  split
  case h_1 written ending =>
    rw [ending] at tells
    exact ⟨⟨tells.1, tells.2.1⟩, tells.2.2⟩
  case h_2 written ending =>
    rw [ending] at tells
    exact ⟨⟨tells.1, tells.2.1⟩, tells.2.2⟩
  case h_3 error ending =>
    rw [ending] at tells
    refine ⟨?_, ?_⟩
    · intro accepts
      exact tells ⟨accepts.1, .inl accepts.2⟩
    · intro interrupts
      exact tells ⟨interrupts.1, .inr interrupts.2⟩

/-- What `write_stream` does: it finds a file in the way of a directory, it
cannot open the file, or it has opened it. -/
inductive Written (utils : UploadUtils) (call : Save) (target : List Text)
    (disk : Disk) : Except UploadError Unit × Disk → Prop where
  | blocked : disk.mkdirs target.dropLast = none →
      Written utils call target disk (throw .osError, disk)
  | closed {made : Disk} : disk.mkdirs target.dropLast = some made →
      (call.opens = true → made.put target [] = none) →
      Written utils call target disk (throw .osError, (made.unlinkMissingOk target).getD made)
  | complete {made opened final : Disk} :
      disk.mkdirs target.dropLast = some made → call.opens = true →
      made.put target [] = some opened → utils.Accepts call →
      opened.put target call.body = some final →
      Written utils call target disk (pure (), final)
  | cancelled {made opened final : Disk} :
      disk.mkdirs target.dropLast = some made → call.opens = true →
      made.put target [] = some opened → utils.Interrupts call →
      opened.put target call.body = some final →
      Written utils call target disk (throw .cancelled, final)
  | failed {made opened final : Disk} (error : UploadError) :
      disk.mkdirs target.dropLast = some made → call.opens = true →
      made.put target [] = some opened → ¬ utils.Accepts call →
      ¬ utils.Interrupts call → opened.unlink target = some final →
      Written utils call target disk (throw error, final)

theorem writeStream_written (utils : UploadUtils) (call : Save)
    (target : List Text) (disk : Disk) :
    Written utils call target disk (utils.writeStream call target disk) := by
  unfold writeStream
  split
  case h_1 blocked => exact .blocked blocked
  case h_2 made directories =>
    split
    case h_1 refused =>
      apply Written.closed directories
      intro opens
      rw [if_pos opens] at refused
      exact refused
    case h_2 opened taken =>
      have opens : call.opens = true := by
        by_contra closed
        rw [if_neg closed] at taken
        cases taken
      rw [if_pos opens] at taken
      have spec := writeChunks_spec utils call
      have empty : opened.content target = some [] := Tree.put_self taken
      split
      case h_1 written ending =>
        rw [ending] at spec
        obtain ⟨accepts, rfl⟩ := spec
        obtain ⟨final, put⟩ := Tree.put_again taken call.body
        rw [put]
        exact .complete directories opens taken accepts put
      case h_2 error ending =>
        rw [ending] at spec
        obtain ⟨final, gone⟩ := Tree.unlink_of_content empty
        rw [Tree.unlinkMissingOk_of_content empty, gone]
        exact .failed error directories opens taken spec.1 spec.2 gone
      case h_3 written ending =>
        rw [ending] at spec
        obtain ⟨interrupts, rfl⟩ := spec
        obtain ⟨final, put⟩ := Tree.put_again taken call.body
        rw [put]
        exact .cancelled directories opens taken interrupts put

def Takes (disk : Disk) (target : List Text) : Prop :=
  ∃ made, disk.mkdirs target.dropLast = some made ∧ ∃ opened, made.put target [] = some opened

theorem takes_of_content {stored : Bytes}
    (held : disk.content target = some stored) : Takes disk target := by
  obtain ⟨made, directories⟩ := Tree.mkdirs_of_content held
  rw [← Tree.content_mkdirs directories] at held
  exact ⟨made, directories, Tree.put_of_content held []⟩

theorem content_opened {made opened : Disk}
    (directories : disk.mkdirs target.dropLast = some made)
    (taken : made.put target [] = some opened) {place : List Text}
    (differs : place ≠ target) : opened.content place = disk.content place :=
  (Tree.put_of_ne taken differs).trans (Tree.content_mkdirs directories place)

theorem not_interrupts (accepts : utils.Accepts call) : ¬ utils.Interrupts call := by
  rintro ⟨_passes, interrupted⟩
  rcases accepts.2 with ends | ⟨taken, ends⟩
  · rw [interrupted] at ends
    cases ends
  · rw [interrupted] at ends
    cases ends

section

variable {result : Except UploadError Unit × Disk}

section

variable (written : Written utils call target disk result)

include written

theorem Written.others {place : List Text} (differs : place ≠ target) :
    result.2.content place = disk.content place := by
  cases written with
  | blocked => rfl
  | @closed made directories refused =>
    have same := Tree.content_mkdirs directories place
    cases held : made.content target with
    | none =>
      rw [Tree.unlinkMissingOk_of_none held]
      exact same
    | some stored =>
      obtain ⟨final, gone⟩ := Tree.unlink_of_content held
      rw [Tree.unlinkMissingOk_of_content held, gone]
      exact (Tree.unlink_of_ne gone differs).trans same
  | complete directories opens taken accepts put =>
    have same := content_opened directories taken differs
    exact (Tree.put_of_ne put differs).trans same
  | cancelled directories opens taken interrupts put =>
    have same := content_opened directories taken differs
    exact (Tree.put_of_ne put differs).trans same
  | failed error directories opens taken rejects goes gone =>
    have same := content_opened directories taken differs
    exact (Tree.unlink_of_ne gone differs).trans same

theorem Written.ok_iff :
    result.1 = .ok () ↔ Takes disk target ∧ call.opens = true ∧ utils.Accepts call := by
  cases written with
  | blocked blocked =>
    apply iff_of_false (fun impossible => by cases impossible)
    rintro ⟨⟨made, directories, _taken⟩, _opens, _accepts⟩
    rw [blocked] at directories
    cases directories
  | closed directories refused =>
    apply iff_of_false (fun impossible => by cases impossible)
    rintro ⟨⟨made, again, opened, taken⟩, opens, _accepts⟩
    rw [directories] at again
    cases again
    rw [refused opens] at taken
    cases taken
  | complete directories opens taken accepts put =>
    exact iff_of_true rfl ⟨⟨_, directories, _, taken⟩, opens, accepts⟩
  | cancelled directories opens taken interrupts put =>
    apply iff_of_false (fun impossible => by cases impossible)
    rintro ⟨_takes, _opens, accepts⟩
    exact not_interrupts accepts interrupts
  | failed error directories opens taken rejects goes gone =>
    apply iff_of_false (fun impossible => by cases impossible)
    rintro ⟨_takes, _opens, accepts⟩
    exact rejects accepts

theorem Written.stored (returns : result.1 = .ok ()) :
    result.2.content target = some call.body ∧
      ∀ place, place ≠ target → (result.2.isDirectory place = true ↔
        place <+: target.dropLast ∨ disk.isDirectory place = true) := by
  cases written with
  | complete directories opens taken accepts put =>
    refine ⟨Tree.put_self put, ?_⟩
    intro place differs
    rw [Tree.isDirectory_put put differs, Tree.isDirectory_put taken differs]
    exact Tree.isDirectory_mkdirs directories place
  | blocked | closed | cancelled | failed => cases returns

theorem Written.kept_iff
    {error : UploadError} (raises : result.1 = .error error) {stored : Bytes}
    (held : disk.content target = some stored) :
    result.2.content target = some stored ↔
      call.opens = true ∧ utils.Interrupts call ∧ call.body = stored := by
  obtain ⟨made, directories, opened, taken⟩ := takes_of_content held
  cases written with
  | blocked blocked =>
    rw [blocked] at directories
    cases directories
  | @closed other again refused =>
    rw [directories] at again
    cases again
    rw [← Tree.content_mkdirs directories] at held
    obtain ⟨final, gone⟩ := Tree.unlink_of_content held
    rw [Tree.unlinkMissingOk_of_content held, gone]
    apply iff_of_false
    · intro same
      rw [Option.getD_some, Tree.unlink_self gone] at same
      cases same
    · rintro ⟨opens, _interrupts, _same⟩
      rw [refused opens] at taken
      cases taken
  | complete => cases raises
  | cancelled _directories opens _taken interrupts put =>
    rw [Tree.put_self put, Option.some.injEq]
    constructor
    · intro same
      exact ⟨opens, interrupts, same⟩
    · rintro ⟨_opens, _interrupts, same⟩
      exact same
  | failed _error _directories opens _taken rejects goes gone =>
    apply iff_of_false
    · intro same
      rw [Tree.unlink_self gone] at same
      cases same
    · rintro ⟨_opens, interrupts, _same⟩
      exact goes interrupts

end

end

end UploadUtils

end TempestSdk.Uploads
