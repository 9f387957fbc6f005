import TempestSdk.Db.Session

/-!
# The write methods of the repositories

Every write method of `BaseRepository`, and the two that
`TenantScopedRepository` replaces, as programs on the session.  What a method
sends to the database is a parameter, and so is what the signal handlers, the
checks and the audit models around it change and raise.
-/

namespace TempestSdk

namespace UnitOfWork

open Effects

variable {Store : Type}

/-- What the handlers or a check do at one point: what they change on loaded
instances, and what they raise then, with whether that is an
`AppException`. -/
structure Hook (Store : Type) where
  changes : List (Statement Store) := []
  raises : Option (Bool × String) := none

def emit (hook : Hook Store) : Write Store Unit := do
  hook.changes.forM stage
  match hook.raises with
  | none => pure ()
  | some (app, message) => throw (.raised app message)

structure Hooks (Store : Type) where
  preSave : Hook Store := {}
  refreshed : Hook Store := {}
  postSave : Hook Store := {}

def refresh (hook : Hook Store) : Write Store Unit := do
  select
  emit hook

structure Repository where
  autocommit : Bool
  /-- It is a `TenantScopedRepository`. -/
  tenantScoped : Bool

namespace Repository

/-- `_commit`. -/
def commitWrite (repo : Repository) : Write Store Unit := do
  let session ← get
  if repo.autocommit && !Block.inTransaction session.blocks then sessionCommit
  else flush

def rollbackAfterFailure : Write Store Unit := do
  let session ← get
  if Block.inTransaction session.blocks then pure () else sessionRollback

def guarded {α : Type} (conflict : Option ConflictException)
    (body : Write Store α) : Write Store α :=
  tryCatch body fun error => do
    rollbackAfterFailure
    match conflict, error with
    | some exception, .integrity => throw (.conflict exception)
    | _, error => throw error

def commit : Write Store Unit := do
  let session ← get
  if Block.inTransaction session.blocks then flush else sessionCommit

def rollback : Write Store Unit := do
  let session ← get
  if Block.inTransaction session.blocks then
    throw (.runtimeError ("rollback() inside an open transaction() block would discard " ++
        "the entire block, not just this repository's work. Let the " ++
        "exception propagate to abort the block, or use savepoint() " ++
        "for a step you intend to recover from."))
  else sessionRollback

variable (repo : Repository)

def add (insert : Statement Store) (hooks : Hooks Store) : Write Store Unit :=
  guarded (some .create) do
    emit hooks.preSave
    stage insert
    repo.commitWrite
    refresh hooks.refreshed
    emit hooks.postSave

def addAll (inserts : List (Statement Store × Hooks Store)) : Write Store Unit :=
  guarded (some .bulkCreate) do
    inserts.forM fun model => emit model.2.preSave
    inserts.forM fun model => stage model.1
    repo.commitWrite
    inserts.forM fun model => do
      refresh model.2.refreshed
      emit model.2.postSave

def saveWithOutbox (insert event : Statement Store) (refreshed : Hook Store) :
    Write Store Unit :=
  guarded (some .create) do
    stage insert
    stage event
    repo.commitWrite
    refresh refreshed

def addAudited (insert entry : Statement Store) (audit refreshed : Hook Store) :
    Write Store Unit :=
  guarded (some .create) do
    stage insert
    flush
    emit audit
    stage entry
    repo.commitWrite
    refresh refreshed

def updateAudited (entry : Statement Store)
    (check audit refreshed : Hook Store) : Write Store Unit :=
  guarded (some .update) do
    emit check
    emit audit
    stage entry
    repo.commitWrite
    refresh refreshed

def deleteAudited (deletion entry : Statement Store)
    (check audit : Hook Store) : Write Store Unit :=
  guarded none do
    emit check
    emit audit
    stage deletion
    stage entry
    repo.commitWrite

/-- `record_event`, whose entry is built before the guarded part. -/
def recordEvent (entry : Statement Store) (audit : Hook Store) : Write Store Unit := do
  emit audit
  guarded none do
    stage entry
    repo.commitWrite

def update (check : Hook Store) (hooks : Hooks Store) : Write Store Unit :=
  guarded (some .update) do
    emit check
    emit hooks.preSave
    repo.commitWrite
    refresh hooks.refreshed
    emit hooks.postSave

def updateMany (models : List (Hook Store × Hooks Store)) : Write Store Unit :=
  guarded (some .bulkUpdate) do
    models.forM fun model => emit model.1
    models.forM fun model => emit model.2.preSave
    repo.commitWrite
    models.forM fun model => emit model.2.postSave

/-- `_execute_update`, with what the scope of a tenant refuses. -/
def executeUpdate (refused : Hook Store) (statement : Statement Store) : Write Store Nat := do
  emit refused
  guarded (some .bulkUpdate) do
    let affected ← execute statement
    repo.commitWrite
    pure affected

def bulkUpdate (filtered : Bool) (refused : Hook Store)
    (statement : Statement Store) : Write Store Nat :=
  if filtered then repo.executeUpdate refused statement
  else
    throw (.valueError ("bulk_update requires non-empty filters; " ++
        "pass an explicit truthy condition to update every row."))

def updateReturning (returning filtered : Bool) (refused : Hook Store)
    (statement : Statement Store) : Write Store Nat :=
  if !returning then
    throw (.valueError "update_returning requires at least one column")
  else if !filtered then
    throw (.valueError ("update_returning requires non-empty filters or a where clause; " ++
        "pass an explicit truthy condition to update every row."))
  else repo.executeUpdate refused statement

/-- `bulk_create_values`; no statement when there are no rows. -/
def bulkCreateValues : Option (Statement Store) → Write Store Nat
  | none => throw (.valueError "bulk_create_values requires at least one row.")
  | some statement =>
    guarded (some .bulkCreate) do
      let inserted ← execute statement
      repo.commitWrite
      pure inserted

/-- `bulk_upsert`, with what is refused before the statement is built. -/
def bulkUpsert (refused : Hook Store) (statement : Statement Store) : Write Store Nat := do
  emit refused
  guarded (some .bulkCreate) do
    let touched ← execute statement
    repo.commitWrite
    pure touched

/-- The signals of a delete: whether the row that is loaded for them is there,
and what the handlers raise. -/
structure DeleteSignals (Store : Type) where
  found : Bool
  preDelete : Hook Store
  postDelete : Hook Store

/-- The error path of the deletes by id: an `AppException` passes. -/
def unlessApp (rollback : Write Store Unit) (body : Write Store Unit) : Write Store Unit :=
  tryCatch body fun error => do
    if !error.isApp then rollback
    throw error

def delete (statement : Statement Store)
    (signals : Option (DeleteSignals Store)) : Write Store Unit :=
  unlessApp rollbackAfterFailure do
    signals.forM fun signals => do
      select
      if !signals.found then throw .notFound
      emit signals.preDelete
    let deleted ← execute statement
    if deleted = 0 then throw .notFound
    repo.commitWrite
    signals.forM fun signals => emit signals.postDelete

def deleteMany (statement : Statement Store) : Write Store Nat :=
  guarded none do
    let deleted ← execute statement
    repo.commitWrite
    pure deleted

def deleteBatch (statement : Statement Store) : Write Store Nat :=
  repo.deleteMany statement

/-- `soft_delete` and `restore`: the row is loaded, changed and updated. -/
def setActive (found : Bool) (change : Statement Store) (check : Hook Store)
    (hooks : Hooks Store) : Write Store Unit := do
  select
  if !found then throw .notFound
  stage change
  repo.update check hooks

/-- `TenantScopedRepository.delete`. -/
def tenantDelete (statement : Statement Store) : Write Store Unit :=
  unlessApp sessionRollback do
    let deleted ← execute statement
    if deleted = 0 then throw .notFound
    sessionCommit

/-- `TenantScopedRepository.delete_batch`. -/
def tenantDeleteBatch (statement : Statement Store) : Write Store Nat :=
  tryCatch (do
      let deleted ← execute statement
      sessionCommit
      pure deleted)
    fun error => do
      sessionRollback
      throw error

end Repository

inductive WriteCall (Store : Type) where
  | add (insert : Statement Store) (hooks : Hooks Store)
  | addAll (inserts : List (Statement Store × Hooks Store))
  | saveWithOutbox (insert event : Statement Store) (refreshed : Hook Store)
  | addAudited (insert entry : Statement Store) (audit refreshed : Hook Store)
  | updateAudited (entry : Statement Store) (check audit refreshed : Hook Store)
  | deleteAudited (deletion entry : Statement Store) (check audit : Hook Store)
  | recordEvent (entry : Statement Store) (audit : Hook Store)
  | update (check : Hook Store) (hooks : Hooks Store)
  | updateMany (models : List (Hook Store × Hooks Store))
  | bulkUpdate (filtered : Bool) (refused : Hook Store)
      (statement : Statement Store)
  | updateReturning (returning filtered : Bool) (refused : Hook Store)
      (statement : Statement Store)
  | bulkCreateValues (statement : Option (Statement Store))
  | bulkUpsert (refused : Hook Store) (statement : Statement Store)
  | delete (statement : Statement Store)
      (signals : Option (Repository.DeleteSignals Store))
  | deleteMany (statement : Statement Store)
  | deleteBatch (statement : Statement Store)
  | softDelete (found : Bool) (change : Statement Store) (check : Hook Store)
      (hooks : Hooks Store)
  | restore (found : Bool) (change : Statement Store) (check : Hook Store)
      (hooks : Hooks Store)
  | commit
  | flush
  | rollback

def WriteCall.run (repo : Repository) : WriteCall Store → Write Store Unit
  | .add insert hooks => repo.add insert hooks
  | .addAll inserts => repo.addAll inserts
  | .saveWithOutbox insert event refreshed => repo.saveWithOutbox insert event refreshed
  | .addAudited insert entry audit refreshed => repo.addAudited insert entry audit refreshed
  | .updateAudited entry check audit refreshed => repo.updateAudited entry check audit refreshed
  | .deleteAudited deletion entry check audit => repo.deleteAudited deletion entry check audit
  | .recordEvent entry audit => repo.recordEvent entry audit
  | .update check hooks => repo.update check hooks
  | .updateMany models => repo.updateMany models
  | .bulkUpdate filtered refused statement =>
    discard (repo.bulkUpdate filtered refused statement)
  | .updateReturning returning filtered refused statement =>
    discard (repo.updateReturning returning filtered refused statement)
  | .bulkCreateValues statement => discard (repo.bulkCreateValues statement)
  | .bulkUpsert refused statement => discard (repo.bulkUpsert refused statement)
  | .delete statement signals =>
    if repo.tenantScoped then Repository.tenantDelete statement
    else repo.delete statement signals
  | .deleteMany statement => discard (repo.deleteMany statement)
  | .deleteBatch statement =>
    if repo.tenantScoped then discard (Repository.tenantDeleteBatch statement)
    else discard (repo.deleteBatch statement)
  | .softDelete found change check hooks => repo.setActive found change check hooks
  | .restore found change check hooks => repo.setActive found change check hooks
  | .commit => Repository.commit
  | .flush => UnitOfWork.flush
  | .rollback => Repository.rollback

end UnitOfWork

end TempestSdk
