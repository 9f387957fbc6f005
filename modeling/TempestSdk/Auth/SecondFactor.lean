import TempestSdk.Library.Runs
import TempestSdk.Library.RowVersions
import TempestSdk.Db.Transaction

/-!
# Second factors

The TOTP columns of the users and the recovery codes under READ COMMITTED,
and the calls that check, stage or remove a second factor.  A call works on a
user instance its session may have loaded long ago, or on one loaded in
another session, which `_attach` merges.  A merged instance carries the
columns it was loaded with, and the next flush writes those that differ from
the row.

A TOTP step is spent by one conditional `UPDATE`.  A recovery code is read
first and stamped by an unconditional `UPDATE`.
-/

namespace TempestSdk

namespace SecondFactor

open Runs ReadCommitted

/-- What the service is configured with, and what `pyotp` and SHA-256
compute. -/
structure MfaSettings where
  /-- `AUTH_MFA_ENABLED`. -/
  mfaEnabled : Bool
  /-- `AUTH_MFA_VERIFY_WINDOW`. -/
  verifyWindow : Nat
  /-- `pyotp.TOTP(secret).generate_otp(step)`. -/
  generateOtp : String → Int → String
  hashOpaqueToken : String → String

structure UserColumns where
  totpSecret : Option String
  totpLastStep : Option Int
  totpEnabledAt : Option Int
  deriving DecidableEq

def UserColumns.plain : UserColumns := ⟨none, none, none⟩

/-- A recovery-code row.  Its key is `code_hash`, which is unique. -/
structure RecoveryCode where
  userId : UserId
  usedAt : Option Int
  deriving DecidableEq

/-- What `str.strip` and `str.isspace` take for white space. -/
def pySpace (char : Char) : Bool :=
  let code := char.toNat
  decide (9 ≤ code ∧ code ≤ 13) || decide (28 ≤ code ∧ code ≤ 32) ||
    decide (8192 ≤ code ∧ code ≤ 8202) ||
    [133, 160, 5760, 8232, 8233, 8239, 8287, 12288].contains code

def strip (text : String) : String :=
  String.ofList ((text.toList.dropWhile pySpace).reverse.dropWhile pySpace).reverse

/-- `code.strip().replace(" ", "").replace("-", "")`. -/
def cleaned (code : String) : String :=
  String.ofList ((strip code).toList.filter fun char =>
    char ≠ ' ' && char ≠ '-')

/-- Six digits.  Digits outside ASCII make `compare_digest` raise instead. -/
def wellFormed (code : String) : Bool :=
  code.toList.all (fun char => decide ('0' ≤ char ∧ char ≤ '9')) &&
    decide (code.toList.length = 6)

/-- `TOTPHelper.matching_step`: the oldest step in the window that renders
the code. -/
def matchingStep (settings : MfaSettings) (secret code : String) (time : Int) : Option Int :=
  if wellFormed (cleaned code) then
    let current := time / 30
    ((List.range (2 * settings.verifyWindow + 1)).map fun offset =>
      current - settings.verifyWindow + offset).find? fun step =>
        decide (cleaned code = settings.generateOtp secret step)
  else none

/-- A user instance: the columns it holds, the columns its session loaded,
and whether it belongs to the session of the call. -/
structure UserInstance where
  userId : UserId
  columns : UserColumns
  loaded : UserColumns
  attached : Bool
  deriving DecidableEq

namespace UserInstance

def dirty (user : UserInstance) : Bool :=
  user.attached && decide (user.columns ≠ user.loaded)

/-- What a flush makes of the row: the columns that differ from the loaded
ones are written. -/
def flushInto (user : UserInstance) (row : UserColumns) : UserColumns where
  totpSecret :=
    if user.columns.totpSecret = user.loaded.totpSecret then row.totpSecret
    else user.columns.totpSecret
  totpLastStep :=
    if user.columns.totpLastStep = user.loaded.totpLastStep then
      row.totpLastStep
    else user.columns.totpLastStep
  totpEnabledAt :=
    if user.columns.totpEnabledAt = user.loaded.totpEnabledAt then
      row.totpEnabledAt
    else user.columns.totpEnabledAt

/-- `_attach`, which reads the row when it has to merge. -/
def attach (user : UserInstance) (row : UserColumns) : UserInstance :=
  if user.attached then user
  else { user with loaded := row, attached := true }

def isMfaEnrolled (user : UserInstance) (settings : MfaSettings) : Bool :=
  settings.mfaEnabled && user.columns.totpEnabledAt.isSome

/-- `user.totp_secret and user.totp_enabled_at`. -/
def mfaActive (user : UserInstance) : Bool :=
  user.columns.totpSecret.any (· ≠ "") && user.columns.totpEnabledAt.isSome

end UserInstance

/-- The `WHERE` of the claiming `UPDATE`. -/
def stepUnspent (step : Int) (row : UserColumns) : Bool :=
  row.totpLastStep.all fun last => decide (last < step)

def UserColumns.spend (step : Int) (row : UserColumns) : UserColumns :=
  { row with totpLastStep := some step }

/-- The session synchronizes an attached instance with the `UPDATE` it
issued, as far as the loaded columns match the `WHERE`. -/
def UserInstance.synchronize (user : UserInstance) (step : Int) : UserInstance :=
  if user.attached && stepUnspent step user.columns then
    { user with
      columns := user.columns.spend step
      loaded := user.loaded.spend step }
  else user

inductive Check where
  /-- `mfa_verify`. -/
  | login
  /-- `reauthenticate` and `change_password_with_mfa`. -/
  | stepUp
  /-- `mfa_disable`. -/
  | disable
  /-- `mfa_confirm`, which takes TOTP codes only. -/
  | confirm
  deriving DecidableEq

inductive Purpose where
  /-- A check; `recovery` says that recovery codes are accepted too. -/
  | check (check : Check) (code : String) (recovery : Bool)
  /-- `mfa_enroll`, with its new secret and the hashes of its new codes. -/
  | enroll (secret : String) (hashes : List String)
  /-- `mfa_reset`, alone or at the end of `mfa_disable`. -/
  | reset
  /-- A method that checks no second factor, such as `change_password`. -/
  | other
  deriving DecidableEq

inductive MfaPhase where
  | idle
  /-- Before `_attach`. -/
  | attaching (purpose : Purpose)
  /-- Before the `UPDATE` of `_claim_totp_step`. -/
  | claiming (check : Check) (code : String) (recovery : Bool)
  /-- Before the `SELECT` of the recovery code. -/
  | selecting (check : Check) (code : String)
  | spending (check : Check) (hash : String)
  | enabling
  | staging (secret : String) (hashes : List String)
  | clearing
  /-- Before the `DELETE` of the recovery codes. -/
  | wiping (purpose : Purpose)
  deriving DecidableEq

/-- A second factor a committed transaction accepted. -/
inductive Factor where
  | totp (secret : String) (step : Int)
  | recovery (hash : String)
  deriving DecidableEq

structure MfaDb where
  users : Rows TxId UserId UserColumns
  codes : Rows TxId String RecoveryCode
  clock : Int
  held : TxId → Option UserInstance
  phase : TxId → MfaPhase
  earned : TxId → List Factor
  accepted : List Factor
  /-- Every secret `generate_secret` drew, and for whom. -/
  issued : List (String × UserId)

inductive MfaAction where
  | tick (elapsed : Nat)
  | load (tx : TxId) (userId : UserId) (attached : Bool)
  | call (tx : TxId) (purpose : Purpose)
  | attach (tx : TxId)
  | flush (tx : TxId)
  | claim (tx : TxId)
  | select (tx : TxId)
  | spend (tx : TxId)
  | wipe (tx : TxId)
  | commit (tx : TxId)
  | rollback (tx : TxId)
  deriving DecidableEq

namespace MfaDb

def start (users : Nat) : MfaDb where
  users := .settled (List.range users)
    (fun userId => if userId < users then some .plain else none) (by simp)
  codes := .empty
  clock := 0
  held := fun _ => none
  phase := fun _ => .idle
  earned := fun _ => []
  accepted := []
  issued := []

def goto (db : MfaDb) (tx : TxId) (phase : MfaPhase) : MfaDb :=
  { db with phase := Function.update db.phase tx phase }

def hold (db : MfaDb) (tx : TxId) (user : UserInstance) : MfaDb :=
  { db with held := Function.update db.held tx (some user) }

def earn (db : MfaDb) (tx : TxId) (factor : Factor) : MfaDb :=
  { db with earned := Function.update db.earned tx (factor :: db.earned tx) }

def rollback (db : MfaDb) (tx : TxId) : MfaDb :=
  { db with
    users := db.users.rollback tx
    codes := db.codes.rollback tx
    held := Function.update db.held tx ((db.held tx).filter fun user => !user.attached)
    phase := Function.update db.phase tx .idle
    earned := Function.update db.earned tx [] }

def admits (settings : MfaSettings) (user : UserInstance) : Purpose → Bool
  | .check .login _ recovery => user.attached && recovery &&
      user.isMfaEnrolled settings
  | .check .stepUp _ _ => true
  | .check .disable _ recovery => recovery && user.mfaActive
  | .check .confirm _ recovery => !recovery &&
      user.columns.totpSecret.any (· ≠ "")
  | .enroll _ _ => user.columns.totpEnabledAt.isNone
  | .reset => user.mfaActive
  | .other => true

def entry : Purpose → MfaPhase
  | .check .login code recovery => .claiming .login code recovery
  | .check .disable code recovery => .claiming .disable code recovery
  | .enroll secret hashes => .wiping (.enroll secret hashes)
  | purpose => .attaching purpose

/-- Go on with the instance `_attach` returned. -/
def attached (db : MfaDb) (settings : MfaSettings) (tx : TxId)
    (user : UserInstance) : Purpose → MfaDb
  | .check check code recovery =>
    let enrolled := check ≠ .stepUp || user.isMfaEnrolled settings
    (db.hold tx user).goto tx (if enrolled then .claiming check code recovery else .idle)
  | .enroll secret hashes =>
    (db.hold tx { user with
        columns :=
          { user.columns with
            totpSecret := some secret, totpLastStep := none } }).goto tx
      (.staging secret hashes)
  | .reset => (db.hold tx { user with columns := .plain }).goto tx .clearing
  | .other => (db.hold tx user).goto tx .idle

def accept (db : MfaDb) (tx : TxId) (user : UserInstance) : Check → MfaDb
  | .login | .stepUp => (db.hold tx user).goto tx .idle
  | .disable => (db.hold tx user).goto tx (.attaching .reset)
  | .confirm =>
    (db.hold tx { user with
        columns := { user.columns with totpEnabledAt := some db.clock } })
      |>.goto tx .enabling

def tryRecovery (db : MfaDb) (tx : TxId) (check : Check) (code : String)
    (recovery : Bool) : MfaDb :=
  db.goto tx (if recovery then .selecting check code else .idle)

/-- The `INSERT`s of the recovery codes. -/
def insertCodes (codes : Rows TxId String RecoveryCode) (tx : TxId)
    (userId : UserId) : List String → Rows TxId String RecoveryCode
  | [] => codes
  | hash :: rest =>
    insertCodes (codes.write tx hash (some { userId, usedAt := none })) tx userId rest

/-- Flush what differs, and let `next` say where the method goes on.  A row
that is gone fails the flush. -/
def flushUser (db : MfaDb) (tx : TxId) (user : UserInstance)
    (next : MfaDb → MfaDb) : Option MfaDb :=
  if user.dirty then
    (db.users.update tx user.userId (fun _ => true) user.flushInto).map fun (matched, users) =>
        if matched then
          next ({ db with users }.hold tx { user with loaded := user.columns })
        else db.rollback tx
  else some (next db)

def step (settings : MfaSettings) (db : MfaDb) : MfaAction → Option MfaDb
  | .tick elapsed => some { db with clock := db.clock + elapsed }
  | .load tx userId attached =>
    if db.phase tx = .idle then
      (if attached then db.users.visible tx userId
        else db.users.committed userId).map fun columns =>
          db.hold tx { userId, columns, loaded := columns, attached }
    else none
  | .call tx purpose =>
    match db.phase tx, db.held tx with
    | .idle, some user =>
      if admits settings user purpose then
        some (db.goto tx (entry purpose))
      else none
    | _, _ => none
  | .attach tx =>
    match db.phase tx, db.held tx with
    | .attaching purpose, some user =>
      match db.users.visible tx user.userId with
      | some row => some (db.attached settings tx (user.attach row) purpose)
      | none => none
    | _, _ => none
  | .flush tx =>
    match db.held tx with
    | none => none
    | some user =>
      match db.phase tx with
      | .clearing => db.flushUser tx user fun db => db.goto tx (.wiping .reset)
      | .enabling => db.flushUser tx user fun db => db.goto tx .idle
      | .staging secret hashes =>
        if (∀ pair ∈ db.issued, pair.1 ≠ secret) ∧ hashes.Nodup ∧
            ∀ hash ∈ hashes, hash ∉ db.codes.keys then
          db.flushUser tx user fun db =>
            { db with
              codes := insertCodes db.codes tx user.userId hashes
              issued := (secret, user.userId) :: db.issued }.goto tx .idle
        else none
      | _ => if user.dirty then db.flushUser tx user id else none
  | .claim tx =>
    match db.phase tx, db.held tx with
    | .claiming check code recovery, some user =>
      if user.dirty then none
      else
        match user.columns.totpSecret with
        | none => some (db.tryRecovery tx check code recovery)
        | some secret =>
          if secret = "" then
            some (db.tryRecovery tx check code recovery)
          else
            match matchingStep settings secret code db.clock with
            | none => some (db.tryRecovery tx check code recovery)
            | some step =>
              (db.users.update tx user.userId (stepUnspent step) (UserColumns.spend step)).map
                fun (matched, users) =>
                  let db := { db with users }
                  if matched then
                    (db.earn tx (.totp secret step)).accept tx (user.synchronize step) check
                  else
                    (db.hold tx (user.synchronize step)).tryRecovery tx check code recovery
    | _, _ => none
  | .select tx =>
    match db.phase tx, db.held tx with
    | .selecting check code, some user =>
      let hash := settings.hashOpaqueToken (strip code)
      if user.dirty then none
      else if (db.codes.visible tx hash).any fun row =>
          row.userId = user.userId && row.usedAt.isNone then
        some (db.goto tx (.spending check hash))
      else some (db.goto tx .idle)
    | _, _ => none
  | .spend tx =>
    match db.phase tx, db.held tx with
    | .spending check hash, some user =>
      (db.codes.update tx hash (fun _ => true)
          (fun row => { row with usedAt := some db.clock })).map
        fun (matched, codes) =>
          if matched then
            ({ db with codes }.earn tx (.recovery hash)).accept tx user check
          else db.rollback tx
    | _, _ => none
  | .wipe tx =>
    match db.phase tx, db.held tx with
    | .wiping purpose, some user =>
      if user.dirty then none
      else
        (db.codes.delete tx fun row =>
          decide (row.userId = user.userId)).map fun codes =>
            { db with codes }.goto tx
              (match purpose with
                | .enroll _ _ => .attaching purpose
                | _ => .idle)
    | _, _ => none
  | .commit tx =>
    if db.phase tx = .idle ∧ ∀ user, db.held tx = some user → user.dirty = false then
      some { db with
          users := db.users.commit tx
          codes := db.codes.commit tx
          earned := Function.update db.earned tx []
          accepted := db.earned tx ++ db.accepted }
    else none
  | .rollback tx => some (db.rollback tx)

end MfaDb

/-- Nothing changed under the request: a merge writes back what the row still
says, a TOTP code is checked against the secret the row still has, and a
selected recovery code is still there and unused. -/
def undisputed (db : MfaDb) : MfaAction → Bool
  | .attach tx =>
    match db.phase tx, db.held tx with
    | .attaching purpose, some user =>
      user.attached || (db.users.visible tx user.userId).all fun row =>
          match purpose with
          | .enroll _ _ => true
          | .reset => row.totpSecret.isSome
          | _ =>
            decide (user.columns.totpSecret = row.totpSecret ∧
              user.columns.totpLastStep = row.totpLastStep)
    | _, _ => true
  | .claim tx =>
    match db.phase tx, db.held tx with
    | .claiming _ _ _, some user =>
      (db.users.visible tx user.userId).all fun row =>
        decide (user.columns.totpSecret = row.totpSecret)
    | _, _ => true
  | .spend tx =>
    match db.phase tx with
    | .spending _ hash => (db.codes.visible tx hash).any fun row => row.usedAt.isNone
    | _ => true
  | _ => true

end SecondFactor

end TempestSdk
