import TempestSdk.Library.FileTrees
import TempestSdk.Library.PosixPaths

/-!
# Uploads to a local directory

`UploadUtils` over `LocalUploadStorage`, one call at a time.  What the client
sends is a list of reads; a read may fail, a call may be cancelled in it, and
the disk may refuse what was read.
-/

namespace TempestSdk.Uploads

open FileTrees PosixPaths

abbrev Bytes := List UInt8

abbrev Disk := Tree Text Bytes

def ascii (text : String) : Bytes :=
  text.toList.map fun char => UInt8.ofNat char.toNat

def magicSignatures : List (Bytes × Text) := [ ([0xff, 0xd8, 0xff], "image/jpeg".toList),
  ([0x89] ++ ascii "PNG\r\n" ++ [0x1a] ++ ascii "\n", "image/png".toList),
  (ascii "GIF87a", "image/gif".toList),
  (ascii "GIF89a", "image/gif".toList),
  (ascii "BM", "image/bmp".toList),
  (ascii "%PDF-", "application/pdf".toList)]

def heicBrands : List Bytes :=
  ["heic", "heix", "heim", "heis", "hevc", "hevx", "hevm", "hevs"].map ascii

def heifStructuralBrands : List Bytes := ["mif1", "msf1"].map ascii

def sniffableMimetypes : List Text :=
  magicSignatures.map Prod.snd ++ ["image/webp".toList, "image/heic".toList]

def canonicalMime (mime : Text) : Text :=
  if mime = "image/jpg".toList then "image/jpeg".toList
  else if mime = "image/pjpeg".toList then "image/jpeg".toList
  else if mime = "image/x-png".toList then "image/png".toList
  else mime

/-- `bytes[start:stop]`. -/
def slice (bytes : Bytes) (start stop : Nat) : Bytes :=
  (bytes.take stop).drop start

/-- `int.from_bytes(bytes, "big")`. -/
def fromBytes (bytes : Bytes) : Nat :=
  bytes.foldl (fun number byte => 256 * number + byte.toNat) 0

def isHeicFtyp (leading : Bytes) : Bool :=
  let major := slice leading 8 12
  if major ∈ heicBrands then true
  else if major ∉ heifStructuralBrands then false
  else
    let box_end := min (fromBytes (leading.take 4)) leading.length
    (List.range' 16 ((box_end - 3 - 16 + 3) / 4) 4).any fun offset =>
      decide (slice leading offset (offset + 4) ∈ heicBrands)

def sniffMime (leading : Bytes) : Option Text :=
  match magicSignatures.find? fun signature =>
      signature.1.isPrefixOf leading with
  | some signature => some signature.2
  | none =>
    if leading.take 4 = ascii "RIFF" ∧ slice leading 8 12 = ascii "WEBP" then
      some "image/webp".toList
    else if slice leading 4 8 = ascii "ftyp" ∧ isHeicFtyp leading then
      some "image/heic".toList
    else none

inductive UploadError where
  | extension (extension : Text) (allowed : List Text)
  | mimetype (mimetype : Text) (allowed : List Text)
  | contentValidator
  | unrecognizedSignature (declared : Text)
  | contentNotAllowed (detected declared : Text) (allowed : List Text)
  | contentNotDeclared (detected declared : Text)
  | invalidName (filename : Text)
  | escapesBaseDir (key : Text)
  | fileTooLarge (max_size_bytes : Int)
  | stream
  | osError
  | cancelled
deriving DecidableEq

structure UploadUtils where
  base_dir : List Text
  max_size_bytes : Option Int
  allowed_extensions : Option (List Text)
  allowed_mimetypes : Option (List Text)
  verify_magic_bytes : Bool
  require_known_signature : Bool
  /-- `str.lower`. -/
  lower : Text → Text

inductive Read where
  /-- It gives bytes, and the disk takes them or does not. -/
  | chunk (data : Bytes) (taken : Bool)
  | error
  | cancelled
deriving DecidableEq

structure UploadFile where
  filename : Option Text
  content_type : Option Text
  reads : List Read

/-- The arguments of `save`, and what it meets on the way. -/
structure Save where
  file : UploadFile
  subdir : Text
  filename : Option Text
  keep_original_name : Bool
  content_validator : Option (Bytes → Bool)
  /-- `uuid4().hex`. -/
  fresh : Text
  opens : Bool

namespace UploadUtils

variable (utils : UploadUtils)

/-- `value or default` of an optional text. -/
def orElse (value : Option Text) (default : Text) : Text :=
  match value with
  | some text => if text = [] then default else text
  | none => default

def validate (file : UploadFile) : Except UploadError Unit := do
  let name := (Path.parse (orElse file.filename [])).name
  let ext := (utils.lower (suffix name)).dropWhile fun char => char = '.'
  let mime := utils.lower (orElse file.content_type [])
  match utils.allowed_extensions with
  | some allowed => if ext ∉ allowed then throw (.extension ext allowed)
  | none => pure ()
  match utils.allowed_mimetypes with
  | some allowed => if mime ∉ allowed then throw (.mimetype mime allowed)
  | none => pure ()

def verifyContent (leading : Bytes) (call : Save) : Except UploadError Unit :=
  let declared :=
    canonicalMime (utils.lower (orElse call.file.content_type []))
  if (call.content_validator.elim true fun validator => validator leading) = false then
    throw .contentValidator
  else if utils.verify_magic_bytes = false then pure ()
  else
    match sniffMime leading with
    | none =>
      if utils.require_known_signature ∨ declared ∈ sniffableMimetypes then
        throw (.unrecognizedSignature declared)
      else pure ()
    | some detected =>
      match utils.allowed_mimetypes with
      | some allowed =>
        if detected ∉ allowed then
          throw (.contentNotAllowed detected declared allowed)
        else pure ()
      | none =>
        if declared ≠ [] ∧ detected ≠ declared then
          throw (.contentNotDeclared detected declared)
        else pure ()

/-- `not safe or safe in {".", ".."}`. -/
def badName (name : Text) : Bool :=
  decide (name = [] ∨ name = ['.'] ∨ name = ['.', '.'])

def resolveFilename (call : Save) : Except UploadError Text :=
  let original := (Path.parse (orElse call.file.filename "upload".toList)).name
  match call.filename with
  | some filename =>
    let safe := (Path.parse filename).name
    if badName safe then throw (.invalidName filename) else pure safe
  | none =>
    let safe := (Path.parse original).name
    if call.keep_original_name ∧ badName safe = false then pure safe
    else pure (call.fresh ++ suffix original)

/-- `text.strip("/")`. -/
def stripSlashes (text : Text) : Text :=
  let front := text.dropWhile fun char => char = '/'
  (front.reverse.dropWhile fun char => char = '/').reverse

def storageKey (call : Save) (name : Text) : Text :=
  if call.subdir = [] then name else stripSlashes call.subdir ++ '/' :: name

/-- `_resolve` of `LocalUploadStorage`. -/
def resolveKey (key : Text) : Except UploadError (List Text) :=
  let candidate := resolve utils.base_dir (Path.parse key)
  if utils.base_dir <+: candidate then pure candidate
  else throw (.escapesBaseDir key)

/-- How the writing of a stream ends, and what was written. -/
inductive Ending where
  | complete (written : Bytes)
  | failed (error : UploadError)
  | cancelled (written : Bytes)

def tooLarge (total : Nat) : Option Int :=
  utils.max_size_bytes.filter fun most => most < total

/-- The loop of `write_stream` over the chunks of `_save_via_storage`. -/
def writeChunks (call : Save) (first : Bool) (written : Bytes) : List Read → Ending
  | [] => .complete written
  | .error :: _ => .failed .stream
  | .cancelled :: _ => .cancelled written
  | .chunk data taken :: rest =>
    if data = [] then .complete written
    else
      match if first then utils.verifyContent data call else pure () with
      | .error error => .failed error
      | .ok () =>
        match utils.tooLarge (written.length + data.length) with
        | some most => .failed (.fileTooLarge most)
        | none =>
          if taken then
            writeChunks call false (written ++ data) rest
          else .failed .osError

/-- `write_stream` of `LocalUploadStorage`: the file is opened for writing,
which empties it, and is unlinked when the writing raises. -/
def writeStream (call : Save) (target : List Text) (disk : Disk) :
    Except UploadError Unit × Disk :=
  match disk.mkdirs target.dropLast with
  | none => (throw .osError, disk)
  | some made =>
    match if call.opens then made.put target [] else none with
    | none => (throw .osError, (made.unlinkMissingOk target).getD made)
    | some opened =>
      match utils.writeChunks call true [] call.file.reads with
      | .complete written => (pure (), (opened.put target written).getD opened)
      | .failed error => (throw error, (opened.unlinkMissingOk target).getD opened)
      | .cancelled written => (throw .cancelled, (opened.put target written).getD opened)

/-- Where `save` is going to write: the key and the place it resolves to. -/
def destination (call : Save) : Except UploadError (Text × List Text) := do
  utils.validate call.file
  let name ← resolveFilename call
  let key := storageKey call name
  let target ← utils.resolveKey key
  pure (key, target)

def save (call : Save) (disk : Disk) : Except UploadError Path × Disk :=
  match utils.destination call with
  | .error error => (throw error, disk)
  | .ok (key, target) =>
    match utils.writeStream call target disk with
    | (.error error, after) => (throw error, after)
    | (.ok (), after) => (pure (Path.parse key), after)

def delete (key : Text) (disk : Disk) : Except UploadError Bool × Disk :=
  match utils.resolveKey key with
  | .error error => (throw error, disk)
  | .ok target =>
    if (disk.nodes target).isNone then (pure false, disk)
    else
      match disk.unlink target with
      | none => (throw .osError, disk)
      | some after => (pure true, after)

/-- `Path | str | None`, without the empty text: what `old_key` tests. -/
inductive OldKey where
  | path (parsed : Path)
  | text (raw : Text) (filled : raw ≠ [])

def OldKey.str : OldKey → Text
  | .path parsed => parsed.str
  | .text raw _filled => raw

def replace (old_key : Option OldKey) (call : Save) (disk : Disk) :
    Except UploadError Path × Disk :=
  match utils.save call disk with
  | (.error error, after) => (throw error, after)
  | (.ok new_key, after) =>
    match old_key with
    | none => (pure new_key, after)
    | some old =>
      if old.str ≠ new_key.str then
        match utils.delete old.str after with
        | (.error error, final) => (throw error, final)
        | (.ok _, final) => (pure new_key, final)
      else (pure new_key, after)

end UploadUtils

end TempestSdk.Uploads
