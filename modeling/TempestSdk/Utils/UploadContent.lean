import TempestSdk.Utils.UploadSafety

/-!
# What an accepted upload holds

What is stored when `UploadUtils.save` returns, on a disk or in a bucket, beside
what was read, what was limited, what was sniffed and what was hashed.
-/

namespace TempestSdk.Uploads

open FileTrees PosixPaths

def content : List Read → Option Bytes
  | [] => some []
  | .error :: _ => none
  | .cancelled :: _ => none
  | .chunk data _taken :: rest =>
    if data = [] then some [] else (content rest).map fun more => data ++ more

/-- A `hashlib` object, by what it was fed: to feed it twice is to feed it
once with both. -/
structure Hasher where
  fed : Bytes

def Hasher.new : Hasher := ⟨[]⟩

def Hasher.update (hasher : Hasher) (data : Bytes) : Hasher :=
  ⟨hasher.fed ++ data⟩

def Hasher.hexdigest {Digest : Type} (digest : Bytes → Digest) (hasher : Hasher) : Digest :=
  digest hasher.fed

abbrev Bucket := Text → Option Bytes

structure Client where
  /-- `put_object` returns. -/
  puts : Bool
  lands : Bool
  /-- `presigned_get_url` returns. -/
  signs : Bool

inductive BucketError where
  | upload (error : UploadError)
  | client

def Read.buffered : Read → Read
  | .chunk data _taken => .chunk data true
  | read => read

namespace UploadUtils

variable (utils : UploadUtils)

/-- What `_chunks` feeds the hasher, in the loop of `write_stream`. -/
def feedChunks (call : Save) (first : Bool) (written : Bytes)
    (hasher : Hasher) : List Read → Hasher
  | [] => hasher
  | .error :: _ => hasher
  | .cancelled :: _ => hasher
  | .chunk data taken :: rest =>
    if data = [] then hasher
    else
      match if first then utils.verifyContent data call else pure () with
      | .error _ => hasher
      | .ok () =>
        match utils.tooLarge (written.length + data.length) with
        | some _ => hasher.update data
        | none =>
          if taken then
            feedChunks call false (written ++ data) (hasher.update data) rest
          else hasher.update data

/-- The hasher given to `save`, after it. -/
def hashed (call : Save) (hasher : Hasher) (disk : Disk) : Hasher :=
  match utils.destination call with
  | .error _ => hasher
  | .ok (_key, target) =>
    match disk.mkdirs target.dropLast with
    | none => hasher
    | some made =>
      match if call.opens then made.put target [] else none with
      | none => hasher
      | some _ => utils.feedChunks call true [] hasher call.file.reads

def objectKey (call : Save) : Except UploadError Text := do
  utils.validate call.file
  let name ← resolveFilename call
  pure (storageKey call name)

/-- `save` over `MinIOUploadStorage`: the stream is buffered, then put. -/
def saveObject (call : Save) (client : Client) (bucket : Bucket) :
    Except BucketError Path × Bucket :=
  match utils.objectKey call with
  | .error error => (throw (.upload error), bucket)
  | .ok key =>
    match utils.writeChunks call true []
        (call.file.reads.map Read.buffered) with
    | .failed error => (throw (.upload error), bucket)
    | .cancelled _ => (throw (.upload .cancelled), bucket)
    | .complete buffer =>
      let stored := Function.update bucket key (some buffer)
      if client.puts then
        if client.signs then (pure (Path.parse key), stored)
        else (throw .client, stored)
      else (throw .client, if client.lands then stored else bucket)

/-- The hasher given to `save` over `MinIOUploadStorage`, after it. -/
def hashedObject (call : Save) (hasher : Hasher) : Hasher :=
  match utils.objectKey call with
  | .error _ => hasher
  | .ok _ => utils.feedChunks call true [] hasher (call.file.reads.map Read.buffered)

def declared (call : Save) : Text :=
  canonicalMime (utils.lower (orElse call.file.content_type []))

end UploadUtils

/-- Whether the bytes start with a signature of the type. -/
inductive Signed (content : Bytes) : Text → Prop where
  | magic {signature : Bytes} {mime : Text} :
      (signature, mime) ∈ magicSignatures → signature <+: content →
      Signed content mime
  | webp {size : Bytes} :
      size.length = 4 → ascii "RIFF" ++ size ++ ascii "WEBP" <+: content →
      Signed content "image/webp".toList
  | heic {size major : Bytes} :
      size.length = 4 → major ∈ heicBrands →
      size ++ ascii "ftyp" ++ major <+: content →
      Signed content "image/heic".toList
  /-- A compatible brand within the box says which codec is inside. -/
  | heif {size major version others brand : Bytes} :
      size.length = 4 → major ∈ heifStructuralBrands → version.length = 4 →
      4 ∣ others.length → brand ∈ heicBrands →
      20 + others.length ≤ fromBytes size →
      size ++ ascii "ftyp" ++ major ++ version ++ others ++ brand <+: content →
      Signed content "image/heic".toList

theorem Signed.mono {leading content : Bytes} {mime : Text}
    (signed : Signed leading mime) (starts : leading <+: content) :
    Signed content mime := by
  cases signed with
  | magic listed begins => exact .magic listed (begins.trans starts)
  | webp sized begins => exact .webp sized (begins.trans starts)
  | heic sized known begins => exact .heic sized known (begins.trans starts)
  | heif sized structural versioned whole known inside begins =>
    exact .heif sized structural versioned whole known inside (begins.trans starts)

theorem length_heicBrand {brand : Bytes} (known : brand ∈ heicBrands) : brand.length = 4 := by
  have every : ∀ brand ∈ heicBrands, brand.length = 4 := by decide
  exact every brand known

theorem length_heifStructuralBrand {brand : Bytes}
    (structural : brand ∈ heifStructuralBrands) : brand.length = 4 := by
  have every : ∀ brand ∈ heifStructuralBrands, brand.length = 4 := by decide
  exact every brand structural

theorem Signed.magic_of_short {content : Bytes} {mime : Text}
    (signed : Signed content mime) (short : content.length < 12) :
    ∃ signature, (signature, mime) ∈ magicSignatures ∧ signature <+: content := by
  cases signed with
  | magic listed begins => exact ⟨_, listed, begins⟩
  | webp sized begins =>
    have fits := begins.length_le
    simp [ascii, sized] at fits
    omega
  | heic sized known begins =>
    have fits := begins.length_le
    simp [ascii, sized, length_heicBrand known] at fits
    omega
  | heif sized structural versioned _whole _known _inside begins =>
    have fits := begins.length_le
    simp [ascii, sized, versioned, length_heifStructuralBrand structural] at fits
    omega

section

variable {leading : Bytes}

theorem length_slice (leading : Bytes) (start stop : Nat) :
    (slice leading start stop).length = min stop leading.length - start := by
  simp [slice]

theorem take_append_slice {start stop : Nat} (ordered : start ≤ stop) :
    leading.take start ++ slice leading start stop = leading.take stop := by
  have again := List.take_append_drop start (leading.take stop)
  rwa [List.take_take, min_eq_left ordered] at again

theorem isHeicFtyp_signed (marked : slice leading 4 8 = ascii "ftyp")
    (heic : isHeicFtyp leading = true) :
    Signed leading "image/heic".toList := by
  have boxed : leading.take 8 = leading.take 4 ++ ascii "ftyp" := by
    rw [← marked, take_append_slice (by omega)]
  have branded : leading.take 12 = leading.take 4 ++ ascii "ftyp" ++ slice leading 8 12 := by
    rw [← boxed, take_append_slice (by omega)]
  have sized : (leading.take 4).length = 4 := by
    have marks := congrArg List.length marked
    rw [length_slice] at marks
    simp [ascii] at marks
    simp
    omega
  unfold isHeicFtyp at heic
  dsimp only at heic
  split at heic
  case isTrue known =>
    apply Signed.heic sized known
    rw [← branded]
    exact List.take_prefix 12 leading
  case isFalse _other =>
    split at heic
    case isTrue _other => cases heic
    case isFalse structural =>
      rw [not_not] at structural
      rw [List.any_eq_true] at heic
      obtain ⟨offset, within, found⟩ := heic
      obtain ⟨index, counted, rfl⟩ := List.mem_range'.mp within
      have known := of_decide_eq_true found
      have long := length_heicBrand known
      rw [length_slice] at long
      have versioned : leading.take 16 = leading.take 12 ++ slice leading 12 16 :=
        (take_append_slice (by omega)).symm
      have compatible : leading.take (16 + 4 * index) =
          leading.take 16 ++ slice leading 16 (16 + 4 * index) :=
        (take_append_slice (by omega)).symm
      have ended : leading.take (16 + 4 * index + 4) = leading.take (16 + 4 * index) ++
            slice leading (16 + 4 * index) (16 + 4 * index + 4) :=
        (take_append_slice (by omega)).symm
      have others : (slice leading 16 (16 + 4 * index)).length = 4 * index := by
        rw [length_slice]
        omega
      apply Signed.heif sized structural _ _ known _ _
      · exact slice leading 12 16
      · exact slice leading 16 (16 + 4 * index)
      · rw [length_slice]
        omega
      · exact ⟨index, others⟩
      · rw [others]
        omega
      · rw [← branded, ← versioned, ← compatible, ← ended]
        exact List.take_prefix _ leading

theorem sniffMime_signed {mime : Text} (sniffed : sniffMime leading = some mime) :
    Signed leading mime := by
  unfold sniffMime at sniffed
  split at sniffed
  case h_1 signature found =>
    cases sniffed
    apply Signed.magic (List.mem_of_find?_eq_some found)
    have begins := List.find?_some found
    exact List.isPrefixOf_iff_prefix.mp begins
  case h_2 =>
    split at sniffed
    case isTrue marked =>
      cases sniffed
      have long := congrArg List.length marked.2
      rw [length_slice] at long
      simp [ascii] at long
      have sized : (slice leading 4 8).length = 4 := by
        rw [length_slice]
        omega
      apply Signed.webp sized
      rw [← marked.1, take_append_slice (by omega), ← marked.2,
        take_append_slice (by omega)]
      exact List.take_prefix 12 leading
    case isFalse =>
      split at sniffed
      case isTrue marked =>
        cases sniffed
        exact isHeicFtyp_signed marked.1 marked.2
      case isFalse => cases sniffed

end

namespace UploadUtils

variable {utils : UploadUtils} {call : Save} {disk : Disk} {target : List Text}

/-- What `verify_magic_bytes` says of content that is not empty. -/
inductive Verified (utils : UploadUtils) (call : Save) (content : Bytes) :
    Prop where
  /-- The signature is of a type on the list of those allowed or, without
  one, of the declared type, when one is declared. -/
  | signed {detected : Text} :
      Signed content detected →
      (∀ allowed ∈ utils.allowed_mimetypes, detected ∈ allowed) →
      (utils.allowed_mimetypes = none →
        utils.declared call = [] ∨ detected = utils.declared call) →
      Verified utils call content
  /-- The first read shows no signature, none was asked for, and none is known
  of the declared type. -/
  | unsigned {leading : Bytes} {taken : Bool} {rest : List Read} :
      call.file.reads = .chunk leading taken :: rest →
      sniffMime leading = none → utils.require_known_signature = false →
      utils.declared call ∉ sniffableMimetypes → Verified utils call content

structure Checked (utils : UploadUtils) (call : Save) (stored : Bytes) :
    Prop where
  whole : content call.file.reads = some stored
  limited : ∀ most ∈ utils.max_size_bytes, (stored.length : Int) ≤ most ∨ stored = []
  verified : utils.verify_magic_bytes = true → stored ≠ [] → utils.Verified call stored

theorem verifyContent_verified {leading content : Bytes} {taken : Bool}
    {rest : List Read} (read : call.file.reads = .chunk leading taken :: rest)
    (passed : utils.verifyContent leading call = .ok ())
    (verifies : utils.verify_magic_bytes = true) (starts : leading <+: content) :
    utils.Verified call content := by
  unfold verifyContent at passed
  dsimp only at passed
  split at passed
  case isTrue => cases passed
  case isFalse =>
    rw [if_neg (by rw [verifies]; decide)] at passed
    split at passed
    case h_1 unknown =>
      split at passed
      case isTrue => cases passed
      case isFalse lenient =>
        rw [not_or] at lenient
        exact .unsigned read unknown (eq_false_of_ne_true lenient.1) lenient.2
    case h_2 detected sniffed =>
      have signed := (sniffMime_signed sniffed).mono starts
      split at passed
      case h_1 allowed listed =>
        split at passed
        case isTrue => cases passed
        case isFalse among =>
          apply Verified.signed signed
          · intro other same
            rw [listed] at same
            cases same
            exact not_not.mp among
          · intro unlisted
            rw [listed] at unlisted
            cases unlisted
      case h_2 unlisted =>
        split at passed
        case isTrue => cases passed
        case isFalse consistent =>
          apply Verified.signed signed
          · intro other same
            rw [unlisted] at same
            cases same
          · intro _unlisted
            rw [not_and_or, not_not, not_not] at consistent
            exact consistent

variable {reads : List Read}

theorem content_of_ends (ends : Ends reads) : content reads = some (chunks reads).flatten := by
  induction reads with
  | nil => rfl
  | cons read rest induction =>
    by_cases taken : read.isTaken = true
    · cases read with
      | error => cases taken
      | cancelled => cases taken
      | chunk data goes =>
        simp only [Read.isTaken, Bool.and_eq_true, decide_eq_true_eq] at taken
        obtain ⟨filled, rfl⟩ := taken
        rw [Ends, tail_taken filled] at ends
        rw [content, if_neg filled, induction ends, chunks_taken filled]
        rfl
    · have stops := eq_false_of_ne_true taken
      rw [Ends, tail_of_not_taken stops] at ends
      rw [chunks_of_not_taken stops]
      rcases ends with impossible | ⟨goes, same⟩
      · cases impossible
      · cases same
        rfl

theorem content_buffered (reads : List Read) :
    content (reads.map Read.buffered) = content reads := by
  induction reads with
  | nil => rfl
  | cons read rest induction =>
    cases read with
    | chunk data taken => rw [List.map_cons, Read.buffered, content, content, induction]
    | error => rfl
    | cancelled => rfl

theorem fed_of_complete {first : Bool} {written all : Bytes} (hasher : Hasher)
    (completed : utils.writeChunks call first written reads = .complete all) :
    ∃ more, all = written ++ more ∧
      utils.feedChunks call first written hasher reads = hasher.update more := by
  induction reads generalizing first written hasher with
  | nil =>
    cases completed
    exact ⟨[], (List.append_nil all).symm, by simp [feedChunks, Hasher.update]⟩
  | cons read rest induction =>
    cases read with
    | error => cases completed
    | cancelled => cases completed
    | chunk data taken =>
      unfold writeChunks at completed
      unfold feedChunks
      by_cases empty : data = []
      · rw [if_pos empty] at completed ⊢
        cases completed
        exact ⟨[], (List.append_nil all).symm, by simp [Hasher.update]⟩
      · rw [if_neg empty] at completed ⊢
        split at completed
        case h_1 => cases completed
        case h_2 _unit verified =>
          split at completed
          case h_1 => cases completed
          case h_2 small =>
            cases taken with
            | false => cases completed
            | true =>
              obtain ⟨more, whole, fed⟩ :=
                induction (hasher.update data) completed
              refine ⟨data ++ more, ?_, ?_⟩
              · rw [whole, List.append_assoc]
              · simp only [verified, small, if_true]
                exact fed.trans (congrArg Hasher.mk (List.append_assoc _ _ _))

theorem length_of_tooLarge {size : Nat} (small : utils.tooLarge size = none)
    {most : Int} (limited : most ∈ utils.max_size_bytes) : size ≤ most := by
  unfold tooLarge at small
  rw [Option.filter_eq_none_iff] at small
  have within := small most limited
  rw [decide_eq_true_eq] at within
  omega

theorem first_of_chunks {reads others : List Read} {leading : Bytes}
    {chunked : List Bytes} (first : chunks reads = leading :: chunked)
    (same : reads.map Read.buffered = others.map Read.buffered) :
    ∃ taken rest, others = .chunk leading taken :: rest := by
  cases reads with
  | nil => cases first
  | cons read more =>
    cases others with
    | nil => cases same
    | cons other rest =>
      rw [List.map_cons, List.map_cons, List.cons.injEq] at same
      by_cases taken : read.isTaken = true
      · cases read with
        | error => cases taken
        | cancelled => cases taken
        | chunk data goes =>
          have begins : data = leading := by
            rw [chunks, List.takeWhile_cons_of_pos taken] at first
            exact (List.cons.inj first).1
          cases other with
          | error => cases same.1
          | cancelled => cases same.1
          | chunk bytes stays =>
            have equal := (Read.chunk.inj same.1).1
            exact ⟨stays, rest, by rw [← equal, begins]⟩
      · rw [chunks_of_not_taken (eq_false_of_ne_true taken)] at first
        cases first

theorem checked_of_complete {written : Bytes}
    (completed : utils.writeChunks call true [] reads = .complete written)
    (same : reads.map Read.buffered = call.file.reads.map Read.buffered) :
    utils.Checked call written := by
  have tells := @writeChunks_tells utils call reads true []
  rw [completed] at tells
  obtain ⟨passes, ends, whole⟩ := tells
  have held := content_of_ends ends
  rw [List.nil_append] at whole
  rw [← whole, ← content_buffered, same, content_buffered] at held
  refine ⟨held, ?_, ?_⟩
  · intro most limited
    rcases eq_or_ne (chunks reads) [] with empty | filled
    · rw [empty] at whole
      exact .inr whole
    · have small := passes.2 filled
      rw [List.length_nil, Nat.zero_add, ← whole] at small
      exact .inl (length_of_tooLarge small limited)
  · intro verifies filled
    cases first : chunks reads with
    | nil =>
      rw [first] at whole
      exact absurd whole filled
    | cons leading others =>
      obtain ⟨taken, rest, read⟩ := first_of_chunks first same
      rw [first] at passes whole
      have passed := passes.1 rfl leading rfl
      apply verifyContent_verified read passed verifies
      rw [whole, List.flatten_cons]
      exact List.prefix_append leading others.flatten

theorem fed_new {written : Bytes}
    (completed : utils.writeChunks call true [] reads = .complete written) :
    utils.feedChunks call true [] .new reads = ⟨written⟩ := by
  obtain ⟨more, whole, fed⟩ := fed_of_complete .new completed
  rw [fed, whole]
  rfl

theorem save_complete {path : Path} (returns : (utils.save call disk).1 = .ok path) :
    ∃ written, utils.writeChunks call true [] call.file.reads = .complete written ∧
      (utils.save call disk).2.content (utils.place path.str) = some written ∧
      ∀ hasher, utils.hashed call hasher disk =
        utils.feedChunks call true [] hasher call.file.reads := by
  cases found : utils.destination call with
  | error error =>
    rw [save_of_error found] at returns
    cases returns
  | ok destination =>
    obtain ⟨key, target⟩ := destination
    have saved := @save_of_ok utils call disk key target found
    rw [saved] at returns ⊢
    have written := writeStream_written utils call target disk
    have done : (utils.writeStream call target disk).1 = .ok () ∧ Path.parse key = path := by
      cases result : (utils.writeStream call target disk).1 with
      | error error =>
        rw [result] at returns
        cases returns
      | ok =>
        rw [result] at returns
        cases returns
        exact ⟨rfl, rfl⟩
    obtain ⟨goes, rfl⟩ := done
    obtain ⟨made, directories, opened, taken⟩ := (written.ok_iff.mp goes).1
    obtain ⟨_takes, opens, accepts⟩ := written.ok_iff.mp goes
    have stored := (written.stored goes).1
    have spec := writeChunks_spec utils call
    have leads : utils.place (Path.parse key).str = target := by
      rw [place_str]
      exact (destination_ok found).1
    cases completed : utils.writeChunks call true [] call.file.reads with
    | complete written =>
      rw [completed] at spec
      refine ⟨written, rfl, ?_, ?_⟩
      · rw [leads, stored, spec.2]
      · intro hasher
        unfold hashed
        rw [found]
        dsimp only
        rw [directories]
        dsimp only
        rw [if_pos opens, taken]
    | failed error =>
      rw [completed] at spec
      exact absurd accepts spec.1
    | cancelled written =>
      rw [completed] at spec
      exact absurd spec.1 (not_interrupts accepts)

theorem saveObject_complete {client : Client} {bucket : Bucket} {path : Path}
    (returns : (utils.saveObject call client bucket).1 = .ok path) :
    ∃ key written, Path.parse key = path ∧
      utils.writeChunks call true [] (call.file.reads.map Read.buffered) = .complete written ∧
      (utils.saveObject call client bucket).2 key = some written ∧
      ∀ hasher, utils.hashedObject call hasher = utils.feedChunks call true [] hasher
          (call.file.reads.map Read.buffered) := by
  unfold saveObject at returns ⊢
  unfold hashedObject
  cases found : utils.objectKey call with
  | error error =>
    rw [found] at returns
    cases returns
  | ok key =>
    rw [found] at returns
    dsimp only at returns ⊢
    cases completed : utils.writeChunks call true [] (call.file.reads.map Read.buffered) with
    | failed error =>
      rw [completed] at returns
      cases returns
    | cancelled written =>
      rw [completed] at returns
      cases returns
    | complete written =>
      rw [completed] at returns
      dsimp only at returns ⊢
      split at returns
      case isFalse => cases returns
      case isTrue puts =>
        split at returns
        case isFalse => cases returns
        case isTrue signs =>
          cases returns
          refine ⟨key, written, rfl, rfl, ?_, fun _hasher => rfl⟩
          rw [if_pos puts, if_pos signs]
          exact Function.update_self key (some written) bucket

/-- Of every upload, however its stream is cut: what is stored, on the disk or
in the bucket, when `save` returns is the stream as a whole, within the limit,
with the signature that was verified, and it is what the hasher digests. -/
theorem accepted_uploads_checked {Digest : Type} (utils : UploadUtils)
    (call : Save) (digest : Bytes → Digest) :
    (∀ disk path, (utils.save call disk).1 = .ok path → ∃ stored,
        (utils.save call disk).2.content (utils.place path.str) = some stored ∧
        utils.Checked call stored ∧
        (utils.hashed call .new disk).hexdigest digest = digest stored) ∧
    ∀ client bucket path, (utils.saveObject call client bucket).1 = .ok path →
      ∃ key stored, Path.parse key = path ∧
        (utils.saveObject call client bucket).2 key = some stored ∧
        utils.Checked call stored ∧
        (utils.hashedObject call .new).hexdigest digest = digest stored := by
  constructor
  · intro disk path returns
    obtain ⟨stored, completed, held, feeds⟩ := save_complete returns
    refine ⟨stored, held, checked_of_complete completed rfl, ?_⟩
    rw [feeds, fed_new completed]
    rfl
  · intro client bucket path returns
    obtain ⟨key, stored, same, completed, held, feeds⟩ :=
      saveObject_complete returns
    have buffered : (call.file.reads.map Read.buffered).map Read.buffered =
        call.file.reads.map Read.buffered := by
      rw [List.map_map]
      apply List.map_congr_left
      intro read _listed
      cases read with
      | chunk | error | cancelled => rfl
    refine ⟨key, stored, same, held, checked_of_complete completed buffered, ?_⟩
    rw [feeds, fed_new completed]
    rfl

/-- A JPEG image that is declared as one, read in two parts. -/
def photograph : Save where
  file := ⟨none, some "image/jpeg".toList, [.chunk [0xff, 0xd8, 0xff] true, .chunk [0] true]⟩
  subdir := []
  filename := some ['a']
  keep_original_name := false
  content_validator := none
  fresh := []
  opens := true

def sniffing : UploadUtils where
  base_dir := ["data".toList]
  max_size_bytes := some 4
  allowed_extensions := none
  allowed_mimetypes := none
  verify_magic_bytes := true
  require_known_signature := true
  lower := id

theorem accepted_uploads_checked_photograph : (∃ stored,
      (sniffing.save photograph .root).2.content
        (sniffing.place (Path.parse ['a']).str) = some stored ∧
      sniffing.Checked photograph stored ∧
      (sniffing.hashed photograph .new .root).hexdigest id = stored) ∧
    ∃ key stored, Path.parse key = Path.parse ['a'] ∧
      (sniffing.saveObject photograph ⟨true, true, true⟩ fun _ => none).2 key = some stored ∧
      sniffing.Checked photograph stored ∧
      (sniffing.hashedObject photograph .new).hexdigest id = stored := by
  obtain ⟨onDisk, inBucket⟩ := accepted_uploads_checked sniffing photograph id
  refine ⟨onDisk .root (Path.parse ['a']) ?_,
    inBucket ⟨true, true, true⟩ (fun _ => none) (Path.parse ['a']) ?_⟩
  · rfl
  · rfl

/-- Text that is sent as it is declared, and no signature asked for. -/
def note : Save :=
  { photograph with
    file := ⟨none, some "text/plain".toList, [.chunk (ascii "hi") true]⟩ }

def lenient : UploadUtils :=
  { sniffing with require_known_signature := false }

/-- An image of one type on the list that is declared to be of another. -/
def disguised : Save :=
  { photograph with
    file := ⟨none, some "image/png".toList, [.chunk [0xff, 0xd8, 0xff] true]⟩ }

def listing : UploadUtils :=
  { sniffing with
    allowed_mimetypes := some ["image/png".toList, "image/jpeg".toList] }

theorem stored_without_declared_signature :
    ((lenient.save note .root).1 = .ok (Path.parse ['a']) ∧
      (lenient.save note .root).2.content ["data".toList, ['a']] = some (ascii "hi") ∧
      ∀ mime, ¬ Signed (ascii "hi") mime) ∧
    (listing.save disguised .root).1 = .ok (Path.parse ['a']) ∧
      (listing.save disguised .root).2.content ["data".toList, ['a']] =
        some [0xff, 0xd8, 0xff] ∧
      listing.declared disguised = "image/png".toList ∧
      ¬ Signed [0xff, 0xd8, 0xff] "image/png".toList := by
  refine ⟨⟨rfl, by decide, ?_⟩, rfl, by decide, rfl, ?_⟩
  · intro mime signed
    obtain ⟨signature, listed, begins⟩ := signed.magic_of_short (by decide)
    have unsigned : ∀ known ∈ magicSignatures, ¬ known.1 <+: ascii "hi" := by
      decide
    exact unsigned _ listed begins
  · intro signed
    obtain ⟨signature, listed, begins⟩ := signed.magic_of_short (by decide)
    have otherwise : ∀ known ∈ magicSignatures,
        known.1 <+: [0xff, 0xd8, 0xff] → known.2 ≠ "image/png".toList := by
      decide
    exact otherwise _ listed begins rfl

end UploadUtils

end TempestSdk.Uploads
