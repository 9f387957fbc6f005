import TempestSdk.Db.Transaction
import TempestSdk.Library.Effects

/-!
# A database session and its blocks

What a session has staged, what its open transaction sees, and what is
durable.  The rows are of any type: a statement says what it makes of them.
The session logs every COMMIT and ROLLBACK of the whole transaction it is told
to issue, with the depth of the open blocks at that moment.
-/

namespace TempestSdk

namespace UnitOfWork

open Effects

variable {Store : Type}

/-- A statement on the rows, and how many it touched; `none` when the database
refuses it. -/
abbrev Statement (Store : Type) := Store → Option (Store × Nat)

inductive Health where
  | usable
  /-- The database refuses every statement until the transaction ends. -/
  | aborted
  /-- A flush failed: the session refuses everything but a rollback. -/
  | inactive
  deriving DecidableEq

inductive Issued where
  | commit
  | rollback
  deriving DecidableEq

inductive ConflictException where
  | create
  | update
  | bulkCreate
  | bulkUpdate
  deriving DecidableEq

inductive WriteError where
  /-- `IntegrityError`. -/
  | integrity
  | conflict (exception : ConflictException)
  | notFound
  | unusable
  /-- A signal handler, a check or an audit model raises. -/
  | raised (app : Bool) (message : String)
  | valueError (message : String)
  | runtimeError (message : String)
  deriving DecidableEq

/-- `AppException`. -/
def WriteError.isApp : WriteError → Bool
  | .conflict _ => true
  | .notFound => true
  | .raised app _ => app
  | _ => false

structure Session (Store : Type) where
  durable : Store
  working : Store
  /-- New, changed and deleted instances that are not flushed yet. -/
  staged : List (Statement Store)
  blocks : List (Block Store)
  health : Health
  /-- The database aborts a transaction when it refuses a statement. -/
  aborts : Bool
  log : List (Issued × Nat)

def Session.open_ (store : Store) (aborts : Bool) : Session Store where
  durable := store
  working := store
  staged := []
  blocks := []
  health := .usable
  aborts := aborts
  log := []

abbrev Write (Store α : Type) := Program (Session Store) WriteError α

/-- Where a failed flush goes back to: the innermost savepoint, or the start
of the transaction. -/
def Session.boundary (session : Session Store) : Store :=
  (session.blocks.findSome? fun block =>
    match block with
    | .savepoint saved => some saved
    | .transaction => none).getD session.durable

def runAll : List (Statement Store) → Store → Option Store
  | [], store => some store
  | statement :: rest, store => (statement store).bind fun (next, _) => runAll rest next

/-- `session.add`, `session.delete`, or a change of a loaded instance. -/
def stage (statement : Statement Store) : Write Store Unit :=
  modify fun session =>
    { session with staged := session.staged ++ [statement] }

def Session.unflushed (session : Session Store) : Session Store :=
  { session with
    working := session.boundary, staged := [], health := .inactive }

def flush : Write Store Unit := fun session =>
  match session.staged, session.health with
  | [], _ => (.ok (), session)
  | staged, .usable =>
    match runAll staged session.working with
    | some working => (.ok (), { session with working, staged := [] })
    | none => (.error .integrity, session.unflushed)
  | _, _ => (.error .unusable, session.unflushed)

def send (statement : Statement Store) : Write Store Nat := fun session =>
  match session.health with
  | .usable =>
    match statement session.working with
    | some (working, touched) => (.ok touched, { session with working })
    | none =>
      (.error .integrity, { session with
          health := if session.aborts then .aborted else .usable })
  | _ => (.error .unusable, session)

def execute (statement : Statement Store) : Write Store Nat := do
  flush
  send statement

/-- A `SELECT`; its rows are what the caller of the method makes of them. -/
def select : Write Store Unit :=
  discard (execute fun store => some (store, 0))

def Session.ended (session : Session Store) (issued : Issued)
    (durable : Store) : Session Store :=
  { session with
    durable, working := durable, staged := [], health := .usable
    blocks := session.blocks.map fun block =>
      match block with
      | .savepoint _ => .savepoint durable
      | .transaction => .transaction
    log := session.log ++ [(issued, Block.transactionDepth session.blocks)] }

/-- COMMIT, once the session is flushed.  The database answers the COMMIT of an
aborted transaction with a rollback. -/
def sendCommit : Write Store Unit := fun session =>
  match session.health with
  | .usable => (.ok (), session.ended .commit session.working)
  | .aborted => (.ok (), session.ended .commit session.durable)
  | .inactive => (.error .unusable, session)

/-- `session.commit`. -/
def sessionCommit : Write Store Unit := do
  flush
  sendCommit

/-- `session.rollback`. -/
def sessionRollback : Write Store Unit :=
  modify fun session => session.ended .rollback session.durable

/-- `transaction(session)` is entered. -/
def enterTransaction : Write Store Unit :=
  modify fun session =>
    { session with blocks := .transaction :: session.blocks }

/-- `SAVEPOINT`. -/
def sendSavepoint : Write Store Unit := fun session =>
  match session.health with
  | .usable =>
    (.ok (), { session with
      blocks := .savepoint session.working :: session.blocks })
  | _ => (.error .unusable, session)

/-- `savepoint(session)` is entered: `begin_nested` flushes first. -/
def enterSavepoint : Write Store Unit := do
  flush
  sendSavepoint

/-- The end of the innermost block.  The depth is restored before the
transaction ends. -/
def leaveBlock (raised : Bool) : Write Store Unit := fun session =>
  let failed := decide (session.health ≠ .usable)
  match Block.leave raised failed session.blocks with
  | none => (.ok (), session)
  | some (.joined, outer) => (.ok (), { session with blocks := outer })
  | some (.rollbackTo saved, outer) =>
    (.ok (), { session with
      blocks := outer, working := saved, staged := [], health := .usable })
  | some (_, outer) =>
    let session := { session with blocks := outer }
    if raised then sessionRollback session else sessionCommit session

/-- The innermost block is left; a savepoint that is released flushes first,
and is reverted to when that fails. -/
def leave (raised : Bool) : Write Store Unit := do
  let session ← get
  match raised, session.blocks with
  | false, .savepoint _ :: _ =>
    tryCatch flush fun _ => pure ()
    leaveBlock false
  | _, _ => leaveBlock raised

end UnitOfWork

end TempestSdk
