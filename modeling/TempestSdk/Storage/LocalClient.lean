import TempestSdk.Library.Entries
import TempestSdk.Library.FileTrees
import TempestSdk.Library.PosixPaths

/-!
# Object storage on the local filesystem

The calls of `LocalObjectStorageClient`, each one file operation at a time.  An
object is two files in two trees: its bytes, and its metadata.  A write is
taken up where its temporary file is complete and `_commit` begins; every write
has a number, which both of its files bear.
-/

namespace TempestSdk.LocalStorage

open FileTrees PosixPaths

def metaSuffix : Text := ".meta.json".toList

def segmentOk (segment : Text) : Bool :=
  decide (segment ≠ [] ∧ segment ≠ ['.'] ∧ segment ≠ ['.', '.'] ∧
    '\\' ∉ segment ∧ '\x00' ∉ segment) && !metaSuffix.isSuffixOf segment

def checkBucket (bucket : Text) : Bool :=
  decide ('/' ∉ bucket ∧ bucket.head? ≠ some '.') && segmentOk bucket

def checkKey (key : Text) : Bool :=
  decide (key ≠ [] ∧ key.head? ≠ some '/') && (key.splitOn '/').all segmentOk

/-- A bucket and a key that the checks let through. -/
structure Key where
  bucket : Text
  key : Text
  bucket_ok : checkBucket bucket = true
  key_ok : checkKey key = true
deriving DecidableEq

structure Object where
  write : Nat
  bytes : List UInt8
deriving DecidableEq

structure ObjectMeta where
  write : Nat
  content_type : Text
  metadata : List (Text × Text)
  etag : Text
deriving DecidableEq

structure ObjectStat where
  key : Key
  size : Nat
  etag : Option Text
  content_type : Option Text
  metadata : List (Text × Text)

/-- What a call has told of an object: its bytes and, unless it has found none,
the metadata that goes with them. -/
structure Seen where
  object : Object
  stored : Option ObjectMeta
deriving DecidableEq

namespace Key

/-- `object_path`, below the tree of the objects. -/
def objectPath (key : Key) : List Text :=
  resolve [] (Path.parse (key.bucket ++ '/' :: key.key))

/-- `_meta_path`, below the tree of the metadata. -/
def metaPath (key : Key) : List Text :=
  key.bucket :: (key.key ++ metaSuffix).splitOn '/'

end Key

/-- `_read_meta`, once the file is read. -/
def readMeta (stored : ObjectMeta) : ObjectMeta :=
  { stored with content_type :=
      if stored.content_type = [] then "application/octet-stream".toList
      else stored.content_type }

/-- What `_stat_sync` returns. -/
def Seen.stat (key : Key) (seen : Seen) : ObjectStat where
  key := key
  size := seen.object.bytes.length
  etag := seen.stored.bind fun stored =>
    if stored.etag = [] then none else some stored.etag
  content_type := seen.stored.map ObjectMeta.content_type
  metadata := (seen.stored.map ObjectMeta.metadata).getD []

inductive Call where
  /-- `_commit`, before it makes the directory of the object. -/
  | begin (key : Key) (object : Object) (stored : ObjectMeta)
  | makeMeta (key : Key) (object : Object) (stored : ObjectMeta)
  | replaceObject (key : Key) (object : Object) (stored : ObjectMeta)
  | replaceMeta (key : Key) (object : Object) (stored : ObjectMeta)
  /-- `_remove_sync`. -/
  | unlinkObject (key : Key)
  | unlinkMeta (key : Key)
  | prune (objects metas : List (List Text))
  /-- `_stat_sync`, and the opening of the object when it is a download. -/
  | check (key : Key) (download : Bool)
  | info (key : Key) (download : Bool)
  | readMeta (key : Key) (download : Bool) (object : Object)
  | openObject (key : Key) (stored : Option ObjectMeta)
deriving DecidableEq

structure Files where
  objects : Tree Text Object
  metas : Tree Text ObjectMeta

def parents (path : List Text) : List (List Text) :=
  (path.dropLast.inits.drop 2).reverse

/-- What one operation of a call leaves: the files, the call unless it is over,
and what it has told. -/
structure Outcome where
  files : Files
  call : Option Call
  seen : Option Seen

namespace Files

variable (files : Files)

def objectAt (key : Key) : Option Object := files.objects.content key.objectPath

def metaAt (key : Key) : Option ObjectMeta := files.metas.content key.metaPath

def ended : Outcome := ⟨files, none, none⟩

def goesOn (call : Call) : Outcome := ⟨files, some call, none⟩

def changeObjects (changed : Option (Tree Text Object)) (call : Option Call) : Outcome :=
  match changed with
  | some objects => ⟨{ files with objects := objects }, call, none⟩
  | none => files.ended

def changeMetas (changed : Option (Tree Text ObjectMeta)) (call : Option Call) : Outcome :=
  match changed with
  | some metas => ⟨{ files with metas := metas }, call, none⟩
  | none => files.ended

@[grind =] def advance : Call → Outcome
  | .begin key object stored =>
    files.changeObjects (files.objects.mkdirs key.objectPath.dropLast)
      (some (.makeMeta key object stored))
  | .makeMeta key object stored =>
    files.changeMetas (files.metas.mkdirs key.metaPath.dropLast)
      (some (.replaceObject key object stored))
  | .replaceObject key object stored =>
    files.changeObjects (files.objects.put key.objectPath object)
      (some (.replaceMeta key object stored))
  | .replaceMeta key _ stored => files.changeMetas (files.metas.put key.metaPath stored) none
  | .unlinkObject key =>
    files.changeObjects (files.objects.unlinkMissingOk key.objectPath) (some (.unlinkMeta key))
  | .unlinkMeta key =>
    files.changeMetas (files.metas.unlinkMissingOk key.metaPath)
      (some (.prune (parents key.objectPath) (parents key.metaPath)))
  | .prune (path :: rest) metas =>
    match files.objects.rmdir path with
    | some objects => ⟨{ files with objects := objects },
        some (.prune rest metas), none⟩
    | none => files.goesOn (.prune [] metas)
  | .prune [] (path :: rest) =>
    files.changeMetas (files.metas.rmdir path) (some (.prune [] rest))
  | .prune [] [] => files.ended
  | .check key download =>
    if (files.objectAt key).isSome then files.goesOn (.info key download)
    else files.ended
  | .info key download =>
    -- A directory that has come in its place is of no write.
    match files.objectAt key with
    | some object => files.goesOn (.readMeta key download object)
    | none => files.ended
  | .readMeta key download object =>
    let stored := (files.metaAt key).map LocalStorage.readMeta
    ⟨files, if download then some (.openObject key stored) else none, some ⟨object, stored⟩⟩
  | .openObject key stored =>
    match files.objectAt key with
    | some object => ⟨files, none, some ⟨object, stored⟩⟩
    | none => files.ended

end Files

structure Store where
  files : Files
  calls : List Call
  writes : Nat
  seen : List Seen

inductive Action where
  | put (key : Key) (bytes : List UInt8) (content_type : Text)
      (metadata : List (Text × Text))
  | remove (key : Key)
  | stat (key : Key)
  | download (key : Key)
  | advance (index : Nat)
  /-- A write raises before it has moved its object into place. -/
  | fail (index : Nat)

def Store.empty : Store := ⟨⟨.root, .root⟩, [], 0, []⟩

def Store.add (store : Store) (call : Call) : Store :=
  { store with calls := store.calls ++ [call] }

/-- One step, where `md5` is the hex digest. -/
@[grind =] def step (md5 : List UInt8 → Text) (store : Store) : Action → Option Store
  | .put key bytes content_type metadata =>
    some { store.add (.begin key ⟨store.writes, bytes⟩
        ⟨store.writes, content_type, metadata, md5 bytes⟩) with
      writes := store.writes + 1 }
  | .remove key => some (store.add (.unlinkObject key))
  | .stat key => some (store.add (.check key false))
  | .download key => some (store.add (.check key true))
  | .advance index =>
    match store.calls[index]? with
    | some call =>
      let outcome := store.files.advance call
      some { store with
        files := outcome.files
        calls := Entries.change store.calls index outcome.call
        seen := store.seen ++ outcome.seen.toList }
    | none => none
  | .fail index =>
    match store.calls[index]? with
    | some (.begin ..) | some (.makeMeta ..) | some (.replaceObject ..) =>
      some { store with calls := store.calls.eraseIdx index }
    | _ => none

end TempestSdk.LocalStorage
