import Mathlib.Algebra.Order.BigOperators.Group.List
import Mathlib.Algebra.Order.Ring.Int
import Mathlib.Logic.Function.Basic
import TempestSdk.Db.Transaction

/-!
# The wallet ledger

The balance column of every wallet and the ledger table, and the three moves
of `WalletLedger` on one session.  A move is one conditional `UPDATE` of the
balance followed by the insert of its ledger line, both inside
`entries.transaction()`.

The body of a call runs on a session and keeps what it already did when an
exception leaves it; undoing that is the business of the blocks around it.

Instants are microseconds since the start of year 1, as `datetime` counts
them, and holds are microseconds too.
-/

namespace TempestSdk

namespace Wallet

/-- `datetime.max`. -/
def maxInstant : Int := 315537897599999999

/-- `timedelta.max`, the longest hold a caller can pass. -/
def maxHold : Int := 86399999999999999999

structure Entry where
  userId : UserId
  kind : String
  amountCents : Int
  balanceAfterCents : Int
  availableAt : Int
  description : String
  referenceType : Option String
  referenceId : Option String
  deriving DecidableEq

/-- The columns of a line that a caller chooses and the ledger only stores. -/
structure Details where
  kind : String
  description : String := ""
  referenceType : Option String := none
  referenceId : Option String := none
  deriving DecidableEq

/-- The balance column by wallet owner, and the ledger in write order. -/
structure LedgerDb where
  wallets : UserId → Option Int
  entries : List Entry

/-- `WalletEntryKindEnum.REVERSAL`. -/
def reversalKind : String := "REVERSAL"

/-- A credit `_held_cents_query` counts: of this user, positive, and not yet
released. -/
def Entry.held (userId : UserId) (now : Int) (entry : Entry) : Bool :=
  decide (entry.userId = userId) && decide (0 < entry.amountCents) &&
    decide (now < entry.availableAt)

/-- `_held_cents_query`: the cents of `userId` on hold at `now`. -/
def heldCents (entries : List Entry) (userId : UserId) (now : Int) : Int :=
  ((entries.filter (Entry.held userId now)).map Entry.amountCents).sum

/-- The `WHERE` of a balance move: the new balance stays at or above the
floor, when there is one. -/
def floorAllows (floor : Option Int) (newBalance : Int) : Bool :=
  match floor with
  | none => true
  | some floor => decide (floor ≤ newBalance)

namespace LedgerDb

def setBalance (db : LedgerDb) (userId : UserId) (balance : Int) : LedgerDb :=
  { db with wallets := Function.update db.wallets userId (some balance) }

/-- `_apply`: one `UPDATE ... RETURNING` that moves a balance.  `none` means
that no row matched. -/
def apply (db : LedgerDb) (userId : UserId) (deltaCents : Int)
    (floor : Option Int) : Option (Int × LedgerDb) :=
  match db.wallets userId with
  | none => none
  | some balance =>
    if floorAllows floor (balance + deltaCents) then
      some (balance + deltaCents, db.setBalance userId (balance + deltaCents))
    else none

/-- `_write_entry`, once the insert went through. -/
def insert (db : LedgerDb) (entry : Entry) : LedgerDb :=
  { db with entries := db.entries ++ [entry] }

def entriesOf (db : LedgerDb) (userId : UserId) : List Entry :=
  db.entries.filter fun entry => decide (entry.userId = userId)

end LedgerDb

/-- What a ledger call, or the caller around it, raises. -/
inductive LedgerError where
  | valueError (message : String)
  | lookupError (userId : UserId)
  | insufficientBalance
  /-- `now + hold` lies past `datetime.max`. -/
  | overflowError
  | database
  /-- Python code around the insert: the constructor, a `PRE_SAVE` or
  `POST_SAVE` handler, the refresh. -/
  | aroundInsert
  | caller
  deriving DecidableEq

/-- An exception raised when the balance `UPDATE` of the call already ran,
without the database refusing anything. -/
def LedgerError.late : LedgerError → Bool
  | .overflowError => true
  | .aroundInsert => true
  | _ => false

inductive Fault where
  | none
  /-- The balance `UPDATE` is refused; on some databases that aborts the
  transaction. -/
  | update (aborts : Bool)
  | beforeInsert
  | insert
  | afterInsert
  deriving DecidableEq

/-- The session both repositories share: what is durable, what its open
transaction sees, its open blocks, and whether the database refuses
everything until a rollback. -/
structure LedgerSession where
  durable : LedgerDb
  working : LedgerDb
  blocks : List (Block LedgerDb)
  failed : Bool

namespace LedgerSession

def idle (db : LedgerDb) : LedgerSession := ⟨db, db, [], false⟩

def settle (session : LedgerSession) (outer : List (Block LedgerDb)) :
    Ending LedgerDb → LedgerSession
  | .commit => { session with durable := session.working, blocks := outer }
  | .rollback =>
    { session with
      working := session.durable, blocks := outer, failed := false }
  | .rollbackTo saved => { session with working := saved, blocks := outer, failed := false }
  | .joined => { session with blocks := outer }

def leave (session : LedgerSession) (raised : Bool) : LedgerSession :=
  match Block.leave raised session.failed session.blocks with
  | none => session
  | some (ending, outer) => session.settle outer ending

/-- `async with self.entries.transaction()` around `body`. -/
def transaction {Result : Type}
    (body : LedgerSession → LedgerSession × Except LedgerError Result)
    (session : LedgerSession) : LedgerSession × Except LedgerError Result :=
  let ran := body { session with blocks := .transaction :: session.blocks }
  (ran.1.leave (!ran.2.isOk), ran.2)

/-- The balance `UPDATE` as the session issues it. -/
def apply (session : LedgerSession) (fault : Fault) (userId : UserId)
    (deltaCents : Int) (floor : Option Int) :
    LedgerSession × Except LedgerError (Option Int) :=
  if session.failed then (session, .error .database)
  else
    match fault with
    | .update aborts => ({ session with failed := aborts }, .error .database)
    | _ =>
      match session.working.apply userId deltaCents floor with
      | none => (session, .ok none)
      | some (balanceAfter, db) => ({ session with working := db }, .ok (some balanceAfter))

/-- `_write_entry` as the session issues it.  A refused flush leaves the
session unusable until a rollback; a Python exception does not. -/
def writeEntry (session : LedgerSession) (fault : Fault) (entry : Entry) :
    LedgerSession × Except LedgerError (Option Entry) :=
  match fault with
  | .beforeInsert => (session, .error .aroundInsert)
  | .insert => ({ session with failed := true }, .error .database)
  | .afterInsert =>
    ({ session with working := session.working.insert entry }, .error .aroundInsert)
  | _ => ({ session with working := session.working.insert entry }, .ok (some entry))

def line (userId : UserId) (details : Details) (amountCents balanceAfter : Int)
    (availableAt : Int) : Entry :=
  { userId, kind := details.kind, amountCents,
    balanceAfterCents := balanceAfter, availableAt,
    description := details.description,
    referenceType := details.referenceType,
    referenceId := details.referenceId }

/-- The body the three moves share: the conditional `UPDATE`, what to answer
when no row matched, and otherwise the ledger line. -/
def moveBody (session : LedgerSession) (fault : Fault) (userId : UserId)
    (deltaCents : Int) (floor : Option Int)
    (unmatched : Except LedgerError (Option Entry))
    (lineFor : Int → Except LedgerError Entry) :
    LedgerSession × Except LedgerError (Option Entry) :=
  match session.apply fault userId deltaCents floor with
  | (session, .error error) => (session, .error error)
  | (session, .ok none) => (session, unmatched)
  | (session, .ok (some balanceAfter)) =>
    match lineFor balanceAfter with
    | .error error => (session, .error error)
    | .ok entry => session.writeEntry fault entry

/-- `WalletLedger.credit`.  The release time is computed after the balance
moved, so a hold that overflows `datetime` raises with the move in place. -/
def credit (session : LedgerSession) (fault : Fault) (now : Int)
    (userId : UserId) (amountCents : Int) (details : Details) (hold : Int) :
    LedgerSession × Except LedgerError (Option Entry) :=
  if amountCents ≤ 0 then
    (session, .error (.valueError "amount_cents must be positive"))
  else if hold < 0 then
    (session, .error (.valueError "hold must not be negative"))
  else
    session.transaction fun session =>
      session.moveBody fault userId amountCents none (.error (.lookupError userId))
        fun balanceAfter =>
          if maxInstant < now + hold then .error .overflowError
          else .ok (line userId details amountCents balanceAfter (now + hold))

/-- `WalletLedger.debit_available`.  The hold is the floor of the `UPDATE`. -/
def debitAvailable (session : LedgerSession) (fault : Fault) (now : Int)
    (userId : UserId) (amountCents : Int) (details : Details) :
    LedgerSession × Except LedgerError (Option Entry) :=
  if amountCents ≤ 0 then
    (session, .error (.valueError "amount_cents must be positive"))
  else
    session.transaction fun session =>
      session.moveBody fault userId (-amountCents)
        (some (heldCents session.working.entries userId now))
        (.error .insufficientBalance)
        fun balanceAfter =>
          .ok (line userId details (-amountCents) balanceAfter now)

/-- `WalletLedger.reverse`.  `none` says that the balance no longer covers
the amount. -/
def reverse (session : LedgerSession) (fault : Fault) (now : Int)
    (userId : UserId) (amountCents : Int) (details : Details) :
    LedgerSession × Except LedgerError (Option Entry) :=
  if amountCents ≤ 0 then
    (session, .error (.valueError "amount_cents must be positive"))
  else
    session.transaction fun session =>
      session.moveBody fault userId (-amountCents) (some 0) (.ok none) fun balanceAfter =>
          .ok (line userId { details with kind := reversalKind }
            (-amountCents) balanceAfter now)

end LedgerSession

/-- `WalletLedger.balance`: total, held and available.  `none` is the
`LookupError` of an unknown wallet. -/
structure Balance where
  totalCents : Int
  heldCents : Int
  availableCents : Int
  nextReleaseAt : Option Int
  deriving DecidableEq

def releases (entries : List Entry) (userId : UserId) (now : Int) : List Int :=
  (entries.filter (Entry.held userId now)).map Entry.availableAt

def LedgerDb.balance (db : LedgerDb) (userId : UserId) (now : Int) : Option Balance :=
  (db.wallets userId).map fun total =>
    let held := min (heldCents db.entries userId now) total
    { totalCents := total
      heldCents := held
      availableCents := total - held
      nextReleaseAt := (releases db.entries userId now).min? }

/-- One call of a ledger move, with its arguments. -/
inductive Call where
  | credit (userId : UserId) (amountCents : Int) (details : Details)
      (hold : Int)
  | debitAvailable (userId : UserId) (amountCents : Int) (details : Details)
  | reverse (userId : UserId) (amountCents : Int) (details : Details)
  deriving DecidableEq

def LedgerSession.call (session : LedgerSession) (fault : Fault)
    (now : Int) : Call → LedgerSession × Except LedgerError (Option Entry)
  | .credit userId amountCents details hold =>
    session.credit fault now userId amountCents details hold
  | .debitAvailable userId amountCents details =>
    session.debitAvailable fault now userId amountCents details
  | .reverse userId amountCents details => session.reverse fault now userId amountCents details

@[simp] theorem heldCents_nil (userId : UserId) (now : Int) :
    heldCents [] userId now = 0 := rfl

theorem heldCents_append (first second : List Entry) (userId : UserId) (now : Int) :
    heldCents (first ++ second) userId now =
      heldCents first userId now + heldCents second userId now := by
  simp [heldCents]

theorem heldCents_singleton (entry : Entry) (userId : UserId) (now : Int) :
    heldCents [entry] userId now = if entry.held userId now then entry.amountCents else 0 := by
  by_cases held : entry.held userId now <;> simp [heldCents, held]

theorem Entry.held_iff {entry : Entry} {userId : UserId} {now : Int} :
    entry.held userId now = true ↔ entry.userId = userId ∧ 0 < entry.amountCents ∧
        now < entry.availableAt := by
  simp [Entry.held, and_assoc]

theorem heldCents_nonneg (entries : List Entry) (userId : UserId)
    (now : Int) : 0 ≤ heldCents entries userId now := by
  apply List.sum_nonneg
  intro amount member
  obtain ⟨entry, entryMember, rfl⟩ := List.mem_map.mp member
  obtain ⟨_owner, positive, _later⟩ :=
    (Entry.held_iff).mp (List.mem_filter.mp entryMember).2
  omega

theorem heldCents_cons (entry : Entry) (entries : List Entry) (userId : UserId) (now : Int) :
    heldCents (entry :: entries) userId now =
      (if entry.held userId now then entry.amountCents else 0) +
        heldCents entries userId now := by
  rw [← List.singleton_append, heldCents_append, heldCents_singleton]

theorem heldCents_anti (entries : List Entry) (userId : UserId)
    {earlier later : Int} (ordered : earlier ≤ later) :
    heldCents entries userId later ≤ heldCents entries userId earlier := by
  induction entries with
  | nil => simp
  | cons entry rest induction =>
    rw [heldCents_cons, heldCents_cons]
    by_cases laterHeld : entry.held userId later = true
    · obtain ⟨owner, positive, release⟩ := (Entry.held_iff).mp laterHeld
      have earlierHeld : entry.held userId earlier = true :=
        (Entry.held_iff).mpr ⟨owner, positive, by omega⟩
      simpa [laterHeld, earlierHeld] using induction
    · rw [if_neg laterHeld]
      split
      · next earlierHeld =>
          have positive := ((Entry.held_iff).mp earlierHeld).2.1
          omega
      · omega

namespace LedgerDb

/-- `db'` is `db` after one move: the balance and the ledger moved together. -/
structure Moved (db : LedgerDb) (entry : Entry) (db' : LedgerDb) : Prop where
  balance : ∃ balance, db.wallets entry.userId = some balance ∧
    entry.balanceAfterCents = balance + entry.amountCents ∧
    (entry.amountCents < 0 → 0 ≤ balance + entry.amountCents)
  wallets : db'.wallets = Function.update db.wallets entry.userId (some entry.balanceAfterCents)
  entries : db'.entries = db.entries ++ [entry]

theorem apply_eq_some {db db' : LedgerDb} {userId : UserId}
    {deltaCents balanceAfter : Int} {floor : Option Int}
    (applied : db.apply userId deltaCents floor = some (balanceAfter, db')) :
    ∃ balance, db.wallets userId = some balance ∧ balanceAfter = balance + deltaCents ∧
      floorAllows floor balanceAfter = true ∧
      db' = db.setBalance userId balanceAfter := by
  unfold apply at applied
  split at applied
  · simp at applied
  · next balance found =>
      split at applied
      · next allowed =>
          simp only [Option.some.injEq, Prod.mk.injEq] at applied
          obtain ⟨rfl, rfl⟩ := applied
          exact ⟨balance, found, rfl, allowed, rfl⟩
      · simp at applied

end LedgerDb

namespace LedgerSession

theorem apply_cases (session : LedgerSession) (fault : Fault)
    (userId : UserId) (deltaCents : Int) (floor : Option Int) :
    (∃ after, session.apply fault userId deltaCents floor =
        (after, .error .database) ∧ after.working = session.working ∧
        after.durable = session.durable ∧ after.blocks = session.blocks ∧
        (session.failed = true → after.failed = true)) ∨
      (session.failed = false ∧
        session.apply fault userId deltaCents floor = (session, .ok none)) ∨
      (session.failed = false ∧ ∃ balance, session.working.wallets userId = some balance ∧
        floorAllows floor (balance + deltaCents) = true ∧
        session.apply fault userId deltaCents floor = ({ session with
              working :=
                session.working.setBalance userId (balance + deltaCents) },
            .ok (some (balance + deltaCents)))) := by
  cases failed : session.failed with
  | true => exact .inl ⟨session, by simp [apply, failed], rfl, rfl, rfl, by simp [failed]⟩
  | false =>
    by_cases refused : ∃ aborts, fault = .update aborts
    · obtain ⟨aborts, rfl⟩ := refused
      exact .inl ⟨{ session with failed := aborts }, by simp [apply, failed],
        rfl, rfl, rfl, by simp⟩
    · have issued : session.apply fault userId deltaCents floor =
          match session.working.apply userId deltaCents floor with
          | none => (session, .ok none)
          | some (balanceAfter, db) =>
            ({ session with working := db }, .ok (some balanceAfter)) := by
        cases fault <;> simp_all [apply]
      cases applied : session.working.apply userId deltaCents floor with
      | none => exact .inr (.inl ⟨rfl, by rw [issued, applied]⟩)
      | some result =>
        obtain ⟨balanceAfter, db⟩ := result
        obtain ⟨balance, found, rfl, allowed, rfl⟩ :=
          LedgerDb.apply_eq_some applied
        exact .inr (.inr ⟨rfl, balance, found, allowed, by
          simp [issued, applied, failed]⟩)

theorem writeEntry_spec (session : LedgerSession) (fault : Fault)
    {before : LedgerDb} {entry : Entry} (usable : session.failed = false)
    (moved : before.Moved entry (session.working.insert entry)) :
    let written := session.writeEntry fault entry
    written.1.durable = session.durable ∧ written.1.blocks = session.blocks ∧
      ((written.2 = .ok (some entry) ∧ written.1.failed = false ∧
          before.Moved entry written.1.working) ∨
        (written.2 = .error .database ∧ written.1.failed = true) ∨
        written.2 = .error .aroundInsert) := by
  cases fault <;> simp [writeEntry, usable, moved]

end LedgerSession

end Wallet

end TempestSdk
