import TempestSdk.Library.Registers
import TempestSdk.Wallet.HoldRace

/-!
# Withdrawals

`WalletService.withdraw` over the ledger of credits and debits that race:
read the balance, debit, call the provider, and give the debit back on a
refusal.  Each of these is a step of its own, and other calls run between
them.  The provider is what its answers are: accepted, refused, or an outcome
nobody knows.
-/

namespace TempestSdk

namespace Withdrawal

open Runs ReadCommitted Wallet HoldRace

/-- `WalletEntryKindEnum.WITHDRAW`. -/
def withdrawKind : String := "WITHDRAW"

/-- `WalletEntryKindEnum.WITHDRAW_REFUND`. -/
def withdrawRefundKind : String := "WITHDRAW_REFUND"

def payoutReferenceType : String := "payout"

inductive PixKeyType where
  | cpf
  | cnpj
  | email
  | phone
  | random
  deriving DecidableEq

/-- The arguments of `withdraw`, with the correlation id it settled on. -/
structure WithdrawRequest where
  userId : UserId
  pixKey : String
  pixKeyType : PixKeyType
  amountCents : Option Int := none
  correlation : String
  description : String := "Saque Pix"
  deriving DecidableEq

structure PayoutRequest where
  amountCents : Int
  pixKey : String
  pixKeyType : PixKeyType
  correlationId : String
  comment : Option String
  deriving DecidableEq

namespace WithdrawRequest

/-- The columns of the `WITHDRAW` line. -/
def debitDetails (request : WithdrawRequest) : Details :=
  { kind := withdrawKind
    description := request.description
    referenceType := some payoutReferenceType
    referenceId := some request.correlation }

/-- The columns of the `WITHDRAW_REFUND` line. -/
def refundDetails (request : WithdrawRequest) : Details :=
  { kind := withdrawRefundKind
    description := "Estorno: " ++ request.description
    referenceType := some payoutReferenceType
    referenceId := some request.correlation }

/-- The `PayoutRequest` the provider gets; `none` when its validation fails,
so that the provider is never called. -/
def payout (request : WithdrawRequest) (amountCents : Int) : Option PayoutRequest :=
  if 0 < amountCents ∧ request.pixKey ≠ "" ∧ request.correlation ≠ "" then
    some
      { amountCents
        pixKey := request.pixKey
        pixKeyType := request.pixKeyType
        correlationId := request.correlation
        comment := some request.description }
  else none

end WithdrawRequest

/-- What became of a withdrawal whose debit committed. -/
inductive Outcome where
  | pending
  /-- `transfer_to_pix_key` returned. -/
  | accepted
  /-- Any other exception: the debit is kept, and the money may have left. -/
  | unknown (sent : Bool)
  /-- `PayoutRejectedException`; the refund credit is on its way. -/
  | rejected
  | refundFailed
  /-- The refund credit committed and the exception was raised again. -/
  | refunded
  deriving DecidableEq

def Outcome.sent : Outcome → Bool
  | .accepted => true
  | .unknown sent => sent
  | _ => false

def Outcome.refused : Outcome → Bool
  | .rejected => true
  | .refundFailed => true
  | .refunded => true
  | _ => false

structure Payout where
  request : WithdrawRequest
  amountCents : Int
  outcome : Outcome
  deriving DecidableEq

/-- Where a transaction stands in a call of `withdraw`. -/
inductive WithdrawCall where
  | idle
  /-- `balance` read the clock. -/
  | balanceAt (request : WithdrawRequest) (moment : Int)
  /-- `balance` read the total. -/
  | totalRead (request : WithdrawRequest) (moment total : Int)
  | amountKnown (request : WithdrawRequest) (amountCents : Int)
  | debiting (request : WithdrawRequest) (amountCents : Int)
  /-- The debit committed as this payout, and the provider is called. -/
  | paying (index : Nat)
  | refunding (index : Nat)
  deriving DecidableEq

structure WithdrawDb where
  ledger : HoldDb
  call : TxId → WithdrawCall
  payouts : List Payout

inductive WithdrawAction where
  /-- A step of the ledger: of a credit or a debit of the application, or of
  one a withdrawal issued. -/
  | ledger (action : HoldAction)
  | withdraw (tx : TxId) (request : WithdrawRequest)
  | total (tx : TxId)
  | held (tx : TxId)
  | debit (tx : TxId)
  | accept (tx : TxId)
  | unknown (tx : TxId) (sent : Bool)
  | reject (tx : TxId)
  deriving DecidableEq

namespace WithdrawDb

def start (opening : List Int) : WithdrawDb :=
  { ledger := .start opening, call := fun _ => .idle, payouts := [] }

def goto (db : WithdrawDb) (tx : TxId) (call : WithdrawCall) : WithdrawDb :=
  { db with call := Function.update db.call tx call }

def close (db : WithdrawDb) (index : Nat) (outcome : Outcome) : WithdrawDb :=
  match db.payouts[index]? with
  | some payout => { db with payouts := db.payouts.set index { payout with outcome } }
  | none => db

/-- `amount_cents` is known: raise, or go on to the debit. -/
def checkAmount (db : WithdrawDb) (tx : TxId) (request : WithdrawRequest)
    (amountCents : Int) : WithdrawDb :=
  if amountCents ≤ 0 then db.goto tx .idle
  else db.goto tx (.amountKnown request amountCents)

/-- The ledger moved without a commit.  A call whose ledger move ended that
way raises. -/
def moved (db : WithdrawDb) (tx : TxId) (ledger : HoldDb) : WithdrawDb :=
  let db := { db with ledger }
  if ledger.phase tx = .idle then
    match db.call tx with
    | .debiting _ _ => db.goto tx .idle
    | .refunding index => (db.close index .refundFailed).goto tx .idle
    | _ => db
  else db

def committed (db : WithdrawDb) (tx : TxId) (ledger : HoldDb) : WithdrawDb :=
  let db := { db with ledger }
  match db.call tx with
  | .debiting request amountCents =>
    { db with
      payouts := db.payouts ++ [{ request, amountCents, outcome := .pending }]
      call := Function.update db.call tx (.paying db.payouts.length) }
  | .refunding index => (db.close index .refunded).goto tx .idle
  | _ => db

def ledgerStep (db : WithdrawDb) (action : HoldAction) : Option WithdrawDb :=
  match action with
  | .tick _ => (db.ledger.step action).map fun ledger => { db with ledger }
  | .credit tx _ _ _ _ | .debit tx _ _ _ =>
    if db.call tx = .idle then
      (db.ledger.step action).map fun ledger => { db with ledger }
    else none
  | .snapshot tx | .lock tx | .rollback tx => (db.ledger.step action).map (db.moved tx)
  | .commit tx => (db.ledger.step action).map (db.committed tx)

def answer (db : WithdrawDb) (tx : TxId) (outcome : Outcome) : Option WithdrawDb :=
  match db.call tx with
  | .paying index =>
    (db.payouts[index]?).bind fun payout =>
      if outcome = .unknown false ∨ (payout.request.payout payout.amountCents).isSome then
        some ((db.close index outcome).goto tx .idle)
      else none
  | _ => none

@[grind =] def step (db : WithdrawDb) : WithdrawAction → Option WithdrawDb
  | .ledger action => db.ledgerStep action
  | .withdraw tx request =>
    if db.call tx = .idle ∧ db.ledger.phase tx = .idle then
      match request.amountCents with
      | some amountCents => some (db.checkAmount tx request amountCents)
      | none => some (db.goto tx (.balanceAt request db.ledger.clock))
    else none
  | .total tx =>
    match db.call tx with
    | .balanceAt request moment =>
      match db.ledger.wallets.visible tx request.userId with
      | some total => some (db.goto tx (.totalRead request moment total))
      | none => some (db.goto tx .idle)
    | _ => none
  | .held tx =>
    match db.call tx with
    | .totalRead request moment total =>
      some (db.checkAmount tx request
        (total - min (heldCents db.ledger.entries request.userId moment) total))
    | _ => none
  | .debit tx =>
    match db.call tx with
    | .amountKnown request amountCents =>
      (db.ledger.step (.debit tx request.userId amountCents
        request.debitDetails)).map fun ledger =>
          { db with ledger }.goto tx (.debiting request amountCents)
    | _ => none
  | .accept tx => db.answer tx .accepted
  | .unknown tx sent => db.answer tx (.unknown sent)
  | .reject tx =>
    match db.call tx with
    | .paying index =>
      (db.payouts[index]?).bind fun payout =>
        if (payout.request.payout payout.amountCents).isSome then
          (db.ledger.step (.credit tx payout.request.userId
            payout.amountCents payout.request.refundDetails 0)).map fun ledger =>
                ({ db with ledger }.close index .rejected).goto tx (.refunding index)
        else none
    | _ => none

end WithdrawDb

/-- `WITHDRAW_REFUND` is a movement of the service, and no credit of the
application uses it. -/
def keepsRefundKind : WithdrawAction → Bool
  | .ledger (.credit _ _ _ details _) => decide (details.kind ≠ withdrawRefundKind)
  | _ => true

/-- What a ledger move changes, with the columns its caller chose. -/
structure Move where
  userId : UserId
  amountCents : Int
  details : Details
  deriving DecidableEq

def lineMove (entry : Entry) : Move :=
  { userId := entry.userId
    amountCents := entry.amountCents
    details :=
      { kind := entry.kind
        description := entry.description
        referenceType := entry.referenceType
        referenceId := entry.referenceId } }

/-- The move a transaction of the ledger is about to commit. -/
@[grind =] def phaseMove : HoldPhase → Option Move
  | .idle => none
  | .crediting userId amountCents details _ => some { userId, amountCents, details }
  | .requested userId amountCents details _ =>
    some { userId, amountCents := -amountCents, details }
  | .debiting userId amountCents details _ _ =>
    some { userId, amountCents := -amountCents, details }
  | .written entry => some (lineMove entry)

def WithdrawRequest.debitMove (request : WithdrawRequest) (amountCents : Int) : Move :=
  { userId := request.userId
    amountCents := -amountCents
    details := request.debitDetails }

def Payout.refundMove (payout : Payout) : Move :=
  { userId := payout.request.userId
    amountCents := payout.amountCents
    details := payout.request.refundDetails }

def Payout.refunded (payout : Payout) : Bool :=
  decide (payout.outcome = .refunded)

/-- A `WITHDRAW` debit of the user. -/
def withdrawLine (userId : UserId) (entry : Entry) : Bool :=
  decide (entry.userId = userId) && decide (entry.kind = withdrawKind) &&
    decide (entry.amountCents < 0)

/-- A `WITHDRAW_REFUND` credit. -/
def refundLine (entry : Entry) : Bool :=
  decide (entry.kind = withdrawRefundKind) && decide (0 < entry.amountCents)

/-- The sum of the `WITHDRAW` debits of a user. -/
def withdrawnCents (entries : List Entry) (userId : UserId) : Int :=
  ((entries.filter (withdrawLine userId)).map fun entry => -entry.amountCents).sum

/-- The sum of the `WITHDRAW_REFUND` credits of a user. -/
def refundedCents (entries : List Entry) (userId : UserId) : Int :=
  (((entries.filter refundLine).filter
    fun entry => decide (entry.userId = userId)).map Entry.amountCents).sum

/-- The sum of the payouts of a user that `counted` picks. -/
def payoutCents (counted : Payout → Bool) (payouts : List Payout) (userId : UserId) : Int :=
  ((payouts.filter fun payout =>
    decide (payout.request.userId = userId) && counted payout).map Payout.amountCents).sum

def sentCents (payouts : List Payout) (userId : UserId) : Int :=
  payoutCents (fun payout => payout.outcome.sent) payouts userId

theorem phaseMove_eq_none {phase : HoldPhase} : phaseMove phase = none ↔ phase = .idle := by
  cases phase <;> simp [phaseMove]

theorem sent_add_refunded_le {payouts : List Payout}
    (positive : ∀ payout ∈ payouts, 0 < payout.amountCents)
    (userId : UserId) :
    sentCents payouts userId + payoutCents Payout.refunded payouts userId ≤
      payoutCents (fun _ => true) payouts userId := by
  induction payouts with
  | nil => simp [sentCents, payoutCents]
  | cons payout rest induction =>
    have here := positive payout List.mem_cons_self
    have later := induction fun other member =>
      positive other (List.mem_cons_of_mem _ member)
    simp only [sentCents, payoutCents, Payout.refunded, Bool.and_true,
      List.filter_cons] at later ⊢
    by_cases owner : payout.request.userId = userId
    · cases outcome : payout.outcome with
      | unknown sent => cases sent <;> simp [owner, Outcome.sent] at later ⊢ <;> omega
      | accepted =>
        simp [owner, Outcome.sent] at later ⊢
        omega
      | _ =>
        simp [owner, Outcome.sent] at later ⊢
        omega
    · simpa [owner] using later

section Ledger

variable {db next : HoldDb} {tx : TxId}

/-- A move of one transaction that commits nothing. -/
structure Moved (db next : HoldDb) (tx : TxId) : Prop where
  entries : next.entries = db.entries
  others : ∀ other, other ≠ tx → next.phase other = db.phase other
  phase : next.phase tx = .idle ∨ phaseMove (next.phase tx) = phaseMove (db.phase tx)

theorem Moved.of_update {phase : HoldPhase} (entries : next.entries = db.entries)
    (phases : next.phase = Function.update db.phase tx phase)
    (same : phase = .idle ∨ phaseMove phase = phaseMove (db.phase tx)) :
    Moved db next tx where
  entries := entries
  others := fun other different => by
    rw [phases, Function.update_of_ne different]
  phase := by
    rw [phases]
    simpa using same

theorem moved_snapshot (taken : db.step (.snapshot tx) = some next) : Moved db next tx := by
  simp only [HoldDb.step] at taken
  split at taken
  · next userId amountCents details now phase =>
      split at taken
      · cases taken
        exact .of_update rfl rfl (.inr (by rw [phase]; rfl))
      · cases taken
        exact .of_update rfl rfl (.inl rfl)
  · simp at taken

theorem moved_lock (taken : db.step (.lock tx) = some next) : Moved db next tx := by
  simp only [HoldDb.step] at taken
  split at taken
  · next userId amountCents details hold phase =>
      obtain ⟨⟨matched, wallets⟩, _, rfl⟩ := Option.map_eq_some_iff.mp taken
      simp only
      split
      · split
        · exact .of_update rfl rfl (.inr (by rw [phase]; rfl))
        · exact .of_update rfl rfl (.inl rfl)
      · exact .of_update rfl rfl (.inl rfl)
  · next userId amountCents details now seen phase =>
      obtain ⟨⟨matched, wallets⟩, _, rfl⟩ := Option.map_eq_some_iff.mp taken
      simp only
      split
      · split
        · exact .of_update rfl rfl (.inr (by rw [phase]; rfl))
        · exact .of_update rfl rfl (.inl rfl)
      · exact .of_update rfl rfl (.inl rfl)
  · simp at taken

theorem moved_rollback (taken : db.step (.rollback tx) = some next) : Moved db next tx := by
  cases taken
  exact .of_update rfl rfl (.inl rfl)

theorem step_commit_cases (taken : db.step (.commit tx) = some next) :
    ∃ entry, db.phase tx = .written entry ∧ next.entries = db.entries ++ [entry] ∧
      next.phase = Function.update db.phase tx .idle := by
  simp only [HoldDb.step] at taken
  split at taken
  · next entry phase =>
      cases taken
      exact ⟨entry, phase, rfl, rfl⟩
  · simp at taken

end Ledger

def WithdrawCall.payout : WithdrawCall → Option Nat
  | .paying index => some index
  | .refunding index => some index
  | _ => none

def InCall (db : WithdrawDb) (tx : TxId) : WithdrawCall → Prop
  | .idle => ∀ move, phaseMove (db.ledger.phase tx) = some move →
      0 < move.amountCents → move.details.kind ≠ withdrawRefundKind
  | .amountKnown _ amountCents => db.ledger.phase tx = .idle ∧
      0 < amountCents
  | .debiting request amountCents => 0 < amountCents ∧
      phaseMove (db.ledger.phase tx) = some (request.debitMove amountCents)
  | .paying index => db.ledger.phase tx = .idle ∧
      ∃ payout, db.payouts[index]? = some payout ∧ payout.outcome = .pending
  | .refunding index => ∃ payout, db.payouts[index]? = some payout ∧
      payout.outcome = .rejected ∧
      phaseMove (db.ledger.phase tx) = some payout.refundMove
  | _ => db.ledger.phase tx = .idle

structure Sound (db : WithdrawDb) : Prop where
  calls : ∀ tx, InCall db tx (db.call tx)
  owner : ∀ tx other index, (db.call tx).payout = some index →
    (db.call other).payout = some index → tx = other
  rejected : ∀ index payout, db.payouts[index]? = some payout →
    payout.outcome = .rejected → ∃ tx, db.call tx = .refunding index
  positive : ∀ payout ∈ db.payouts, 0 < payout.amountCents
  debited : ∀ userId, payoutCents (fun _ => true) db.payouts userId ≤
    withdrawnCents db.ledger.entries userId
  refunds : ((db.ledger.entries.filter refundLine).map lineMove).Perm
    ((db.payouts.filter Payout.refunded).map Payout.refundMove)

theorem InCall.index_lt {db : WithdrawDb} {tx : TxId} {call : WithdrawCall}
    {index : Nat} (inCall : InCall db tx call)
    (busy : call.payout = some index) : index < db.payouts.length := by
  cases call with
  | paying index =>
    cases busy
    obtain ⟨_, payout, found, _⟩ := inCall
    exact (List.getElem?_eq_some_iff.mp found).1
  | refunding index =>
    cases busy
    obtain ⟨payout, found, _⟩ := inCall
    exact (List.getElem?_eq_some_iff.mp found).1
  | _ => simp [WithdrawCall.payout] at busy

theorem InCall.frame {db next : WithdrawDb} {tx : TxId} {call : WithdrawCall}
    (inCall : InCall db tx call)
    (phase : next.ledger.phase tx = db.ledger.phase tx)
    (payouts : ∀ index, call.payout = some index →
      next.payouts[index]? = db.payouts[index]?) : InCall next tx call := by
  cases call with
  | paying index => simpa [InCall, phase, payouts index rfl] using inCall
  | refunding index => simpa [InCall, phase, payouts index rfl] using inCall
  | _ => simpa [InCall, phase] using inCall

section Steps

variable {db next : WithdrawDb} {tx : TxId}

/-- What a step of one transaction does to the calls of the others. -/
structure Elsewhere (db next : WithdrawDb) (tx : TxId) : Prop where
  phases : ∀ other, other ≠ tx → next.ledger.phase other = db.ledger.phase other
  calls : ∀ other, other ≠ tx → next.call other = db.call other
  payouts : ∀ index, index < db.payouts.length → (db.call tx).payout ≠ some index →
      next.payouts[index]? = db.payouts[index]?

theorem Sound.advance (sound : Sound db) (tx : TxId) (elsewhere : Elsewhere db next tx)
    (inCall : InCall next tx (next.call tx))
    (owner : ∀ index, (next.call tx).payout = some index →
      (db.call tx).payout = some index ∨ index = db.payouts.length)
    (rejected : ∀ index payout, next.payouts[index]? = some payout →
      payout.outcome = .rejected → next.call tx = .refunding index ∨
        (db.payouts[index]? = some payout ∧ db.call tx ≠ .refunding index))
    (positive : ∀ payout ∈ next.payouts, 0 < payout.amountCents)
    (debited : ∀ userId, payoutCents (fun _ => true) next.payouts userId ≤
      withdrawnCents next.ledger.entries userId)
    (refunds : ((next.ledger.entries.filter refundLine).map lineMove).Perm
      ((next.payouts.filter Payout.refunded).map Payout.refundMove)) :
    Sound next := by
  have apart : ∀ other index, other ≠ tx → (db.call other).payout = some index →
        (next.call tx).payout ≠ some index := by
    intro other index different busy taken
    rcases owner index taken with before | fresh
    · exact different (sound.owner other tx index busy before)
    · have bound := (sound.calls other).index_lt busy
      omega
  refine ⟨?_, ?_, ?_, positive, debited, refunds⟩
  · intro other
    by_cases same : other = tx
    · subst same
      exact inCall
    · rw [elsewhere.calls other same]
      refine (sound.calls other).frame (elsewhere.phases other same) ?_
      intro index busy
      refine elsewhere.payouts index ((sound.calls other).index_lt busy) ?_
      intro own
      exact same (sound.owner other tx index busy own)
  · intro one other index first second
    by_cases left : one = tx
    · subst left
      by_contra different
      rw [elsewhere.calls other (Ne.symm different)] at second
      exact apart other index (Ne.symm different) second first
    · rw [elsewhere.calls one left] at first
      by_cases right : other = tx
      · subst right
        exact absurd second (apart one index left first)
      · rw [elsewhere.calls other right] at second
        exact sound.owner one other index first second
  · intro index payout found outcome
    rcases rejected index payout found outcome with own | ⟨before, notOwn⟩
    · exact ⟨tx, own⟩
    · obtain ⟨other, refunding⟩ :=
        sound.rejected index payout before outcome
      have different : other ≠ tx := by
        rintro rfl
        exact notOwn refunding
      exact ⟨other, by rw [elsewhere.calls other different, refunding]⟩

theorem Sound.steady (sound : Sound db) (tx : TxId)
    (entries : next.ledger.entries = db.ledger.entries)
    (payouts : next.payouts = db.payouts)
    (phases : ∀ other, other ≠ tx → next.ledger.phase other = db.ledger.phase other)
    (calls : ∀ other, other ≠ tx → next.call other = db.call other)
    (inCall : InCall next tx (next.call tx))
    (busy : next.call tx = db.call tx ∨
      ((next.call tx).payout = none ∧ (db.call tx).payout = none)) :
    Sound next := by
  refine sound.advance tx
    ⟨phases, calls, fun index _ _ => by rw [payouts]⟩ inCall ?_ ?_ ?_ ?_ ?_
  · intro index taken
    rcases busy with same | ⟨none, _⟩
    · exact .inl (by rw [← same, taken])
    · simp [none] at taken
  · intro index payout found outcome
    rw [payouts] at found
    rcases busy with same | ⟨_, none⟩
    · rw [same]
      by_cases own : db.call tx = .refunding index
      · exact .inl own
      · exact .inr ⟨found, own⟩
    · refine .inr ⟨found, ?_⟩
      intro own
      simp [own, WithdrawCall.payout] at none
  · rw [payouts]
    exact sound.positive
  · rw [payouts, entries]
    exact sound.debited
  · rw [payouts, entries]
    exact sound.refunds

variable {outcome : Outcome}

theorem payoutCents_set {payouts : List Payout} {index : Nat}
    {payout : Payout} {userId : UserId}
    (found : payouts[index]? = some payout) :
    payoutCents (fun _ => true) (payouts.set index { payout with outcome }) userId =
      payoutCents (fun _ => true) payouts userId :=
  congrArg List.sum (Registers.column_set_same found rfl rfl)

theorem Sound.close (sound : Sound db) (tx : TxId) {index : Nat}
    {payout : Payout} (own : (db.call tx).payout = some index)
    (found : db.payouts[index]? = some payout)
    (payouts : next.payouts = db.payouts.set index { payout with outcome })
    (phases : ∀ other, other ≠ tx → next.ledger.phase other = db.ledger.phase other)
    (calls : ∀ other, other ≠ tx → next.call other = db.call other)
    (inCall : InCall next tx (next.call tx))
    (busy : ((next.call tx).payout = none ∧ outcome ≠ .rejected) ∨
      next.call tx = .refunding index)
    (withdrawn : ∀ userId, withdrawnCents next.ledger.entries userId =
      withdrawnCents db.ledger.entries userId)
    (refunds : ((next.ledger.entries.filter refundLine).map lineMove).Perm
      ((next.payouts.filter Payout.refunded).map Payout.refundMove)) :
    Sound next := by
  have elsewhere : Elsewhere db next tx := by
    refine ⟨phases, calls, ?_⟩
    intro other _ different
    rw [payouts, List.getElem?_set_ne]
    rintro rfl
    exact different own
  refine sound.advance tx elsewhere inCall ?_ ?_ ?_ ?_ refunds
  · intro other taken
    rcases busy with ⟨none, _⟩ | refunding
    · simp [none] at taken
    · rw [refunding] at taken
      cases taken
      exact .inl own
  · intro other latest there rejected
    by_cases same : other = index
    · subst same
      rcases busy with ⟨_, kept⟩ | refunding
      · rw [payouts, List.getElem?_set_self (List.getElem?_eq_some_iff.mp
          found).1, Option.some.injEq] at there
        subst there
        exact absurd rejected kept
      · exact .inl refunding
    · rw [payouts, List.getElem?_set_ne (Ne.symm same)] at there
      refine .inr ⟨there, ?_⟩
      intro refunding
      rw [refunding] at own
      cases own
      exact same rfl
  · rw [payouts]
    exact Registers.all_set sound.positive (sound.positive payout (List.mem_of_getElem? found))
  · intro userId
    rw [payouts, withdrawn, payoutCents_set found]
    exact sound.debited userId

theorem refunds_set_same {payouts : List Payout} {index : Nat}
    {payout : Payout} (found : payouts[index]? = some payout)
    (before : payout.outcome ≠ .refunded) (after : outcome ≠ .refunded) :
    ((payouts.set index { payout with outcome }).filter Payout.refunded).map Payout.refundMove =
      (payouts.filter Payout.refunded).map Payout.refundMove :=
  Registers.column_set_same found (by simp [Payout.refunded, before, after])
    rfl

theorem withdrawnCents_append (first second : List Entry) (userId : UserId) :
    withdrawnCents (first ++ second) userId =
      withdrawnCents first userId + withdrawnCents second userId := by
  simp [withdrawnCents]

theorem payoutCents_append (counted : Payout → Bool)
    (first second : List Payout) (userId : UserId) :
    payoutCents counted (first ++ second) userId = payoutCents counted first userId +
        payoutCents counted second userId := by
  simp [payoutCents]

theorem withdrawnCents_singleton_nonneg (entry : Entry) (userId : UserId) :
    0 ≤ withdrawnCents [entry] userId := by
  simp only [withdrawnCents, List.filter_cons, List.filter_nil]
  split
  · next picked =>
      simp only [withdrawLine, Bool.and_eq_true, decide_eq_true_eq] at picked
      simp
      omega
  · simp

theorem withdrawKind_ne_refund : withdrawKind ≠ withdrawRefundKind := by
  decide

variable {ledger : HoldDb}

section

variable (sound : Sound db)

include sound

theorem Sound.moved (move : Moved db.ledger ledger tx) :
    Sound (db.moved tx ledger) := by
  have inCall := sound.calls tx
  simp only [WithdrawDb.moved]
  split
  · next idle =>
      have none : phaseMove (ledger.phase tx) = none := by
        rw [idle]
        rfl
      cases call : db.call tx with
      | debiting request amountCents =>
        exact sound.steady tx move.entries rfl move.others (fun other different => by
            simp [WithdrawDb.goto, Function.update_of_ne different])
          (by simp [WithdrawDb.goto, InCall, none])
          (.inr (by simp [WithdrawDb.goto, WithdrawCall.payout, call]))
      | refunding index =>
        rw [call] at inCall
        obtain ⟨payout, found, rejected, _⟩ := inCall
        simp only [WithdrawDb.close, found]
        refine sound.close tx (by rw [call]; rfl) found rfl
          move.others ?_ ?_ ?_ ?_ ?_
        · intro other different
          simp [WithdrawDb.goto, Function.update_of_ne different]
        · simp [WithdrawDb.goto, InCall, none]
        · exact .inl (by simp [WithdrawDb.goto, WithdrawCall.payout])
        · intro userId
          simp [WithdrawDb.goto, move.entries]
        · simp only [WithdrawDb.goto, move.entries, refunds_set_same found (by simp [rejected])
              (show Outcome.refundFailed ≠ .refunded by decide)]
          exact sound.refunds
      | _ =>
        rw [call] at inCall
        refine sound.steady tx move.entries rfl move.others (fun _ _ => rfl) ?_ (.inl rfl)
        simp [call, InCall, idle, phaseMove] at inCall ⊢ <;>
          exact inCall.2
  · next active =>
      have kept : phaseMove (ledger.phase tx) =
          phaseMove (db.ledger.phase tx) := move.phase.resolve_left active
      have busy : db.ledger.phase tx ≠ .idle := by
        intro idle
        rw [(phaseMove_eq_none).mpr idle] at kept
        exact active ((phaseMove_eq_none).mp kept)
      refine sound.steady tx move.entries rfl move.others (fun _ _ => rfl) ?_ (.inl rfl)
      cases call : db.call tx <;>
        simp_all [InCall]

theorem Sound.append_line {entry : Entry}
    (entries : ledger.entries = db.ledger.entries ++ [entry])
    (phases : ledger.phase = Function.update db.ledger.phase tx .idle)
    (call : db.call tx = .idle) (plain : refundLine entry = false) :
    Sound { db with ledger } := by
  refine sound.advance tx ⟨?_, fun _ _ => rfl, fun _ _ _ => rfl⟩ ?_ ?_ ?_ sound.positive ?_ ?_
  · intro other different
    simp [phases, Function.update_of_ne different]
  · simp [call, InCall, phases, phaseMove]
  · intro index busy
    exact .inl busy
  · intro index payout found _
    exact .inr ⟨found, by simp [call]⟩
  · intro userId
    have debited := sound.debited userId
    have more := withdrawnCents_singleton_nonneg entry userId
    simp only [entries, withdrawnCents_append]
    omega
  · simpa [entries, plain] using sound.refunds

theorem Sound.append_payout {entry : Entry}
    {request : WithdrawRequest} {amountCents : Int}
    (entries : ledger.entries = db.ledger.entries ++ [entry])
    (phases : ledger.phase = Function.update db.ledger.phase tx .idle)
    (call : db.call tx = .debiting request amountCents)
    (positive : 0 < amountCents)
    (move : lineMove entry = request.debitMove amountCents) :
    Sound
      { ledger
        payouts := db.payouts ++ [{ request, amountCents, outcome := .pending }]
        call := Function.update db.call tx (.paying db.payouts.length) } := by
  have user : entry.userId = request.userId := congrArg Move.userId move
  have amount : entry.amountCents = -amountCents :=
    congrArg Move.amountCents move
  have kind : entry.kind = withdrawKind :=
    congrArg (fun move => move.details.kind) move
  refine sound.advance tx ⟨?_, ?_, ?_⟩ ?_ ?_ ?_ ?_ ?_ ?_
  · intro other different
    simp [phases, Function.update_of_ne different]
  · intro other different
    simp [Function.update_of_ne different]
  · intro index older _
    simp [List.getElem?_append_left older]
  · simp [InCall, phases]
  · intro index busy
    exact .inr (by simpa [WithdrawCall.payout, eq_comm] using busy)
  · intro index payout found rejected
    refine .inr ⟨?_, by simp [call]⟩
    rcases Nat.lt_or_ge index db.payouts.length with older | newer
    · rwa [List.getElem?_append_left older] at found
    · rw [List.getElem?_append_right newer] at found
      have last := List.mem_of_getElem? found
      simp only [List.mem_singleton] at last
      subst last
      simp at rejected
  · intro payout member
    simp only [List.mem_append, List.mem_singleton] at member
    rcases member with older | rfl
    · exact sound.positive payout older
    · exact positive
  · intro userId
    have debited := sound.debited userId
    have same : payoutCents (fun _ => true)
          [{ request, amountCents, outcome := .pending }] userId =
        withdrawnCents [entry] userId := by
      by_cases owner : request.userId = userId
      · simp [payoutCents, withdrawnCents, withdrawLine, user, amount, kind, owner, positive]
      · simp [payoutCents, withdrawnCents, withdrawLine, user, owner]
    simp only [entries, withdrawnCents_append, payoutCents_append, same]
    omega
  · have plain : refundLine entry = false := by
      simp [refundLine, kind, withdrawKind_ne_refund]
    simpa [entries, plain, Payout.refunded] using sound.refunds

theorem Sound.committed (taken : db.ledger.step (.commit tx) = some ledger) :
    Sound (db.committed tx ledger) := by
  obtain ⟨entry, phase, entries, phases⟩ := step_commit_cases taken
  have inCall := sound.calls tx
  have move : phaseMove (db.ledger.phase tx) = some (lineMove entry) := by
    rw [phase]
    rfl
  simp only [WithdrawDb.committed]
  cases call : db.call tx with
  | idle =>
    refine sound.append_line entries phases call ?_
    rw [call] at inCall
    have plain := inCall (lineMove entry) move
    simp only [lineMove] at plain
    simp only [refundLine, Bool.and_eq_false_iff, decide_eq_false_iff_not]
    by_cases positive : 0 < entry.amountCents
    · exact .inl (plain positive)
    · exact .inr positive
  | debiting request amountCents =>
    rw [call] at inCall
    obtain ⟨positive, expected⟩ := inCall
    rw [move, Option.some.injEq] at expected
    exact sound.append_payout entries phases call positive expected
  | refunding index =>
    rw [call] at inCall
    obtain ⟨payout, found, rejected, expected⟩ := inCall
    rw [move, Option.some.injEq] at expected
    have positive := sound.positive payout (List.mem_of_getElem? found)
    have amount : entry.amountCents = payout.amountCents :=
      congrArg Move.amountCents expected
    have kind : entry.kind = withdrawRefundKind :=
      congrArg (fun move => move.details.kind) expected
    simp only [WithdrawDb.close, found]
    refine sound.close tx (by rw [call]; rfl) found rfl ?_ ?_ ?_
      ?_ ?_ ?_
    · intro other different
      simp [WithdrawDb.goto, phases, Function.update_of_ne different]
    · intro other different
      simp [WithdrawDb.goto, Function.update_of_ne different]
    · simp [WithdrawDb.goto, InCall, phases, phaseMove]
    · exact .inl (by simp [WithdrawDb.goto, WithdrawCall.payout])
    · intro userId
      have credit : withdrawLine userId entry = false := by
        simp [withdrawLine, amount]
        omega
      simp [WithdrawDb.goto, entries, withdrawnCents, credit]
    · have refund : refundLine entry = true := by
        simp [refundLine, kind, amount, positive]
      simp only [WithdrawDb.goto, entries, List.filter_append,
        List.map_append, List.filter_cons, refund, if_true,
        List.filter_nil, List.map_cons, List.map_nil]
      refine (sound.refunds.append_right _).trans ?_
      rw [expected]
      have before : payout.refunded = false := by
        simp [Payout.refunded, rejected]
      have after : Payout.refunded { payout with outcome := .refunded } = true := by
        simp [Payout.refunded]
      exact (Registers.column_set_enters found before after).symm
  | _ =>
    rw [call] at inCall
    simp [InCall, phase] at inCall

theorem Sound.ledgerStep {action : HoldAction}
    (reserved : keepsRefundKind (.ledger action) = true)
    (taken : db.ledgerStep action = some next) : Sound next := by
  cases action with
  | tick elapsed =>
    simp only [WithdrawDb.ledgerStep] at taken
    obtain ⟨ledger, ran, rfl⟩ := Option.map_eq_some_iff.mp taken
    cases ran
    exact ⟨sound.calls, sound.owner, sound.rejected, sound.positive,
      sound.debited, sound.refunds⟩
  | credit tx userId amountCents details hold =>
    simp only [WithdrawDb.ledgerStep, Option.ite_none_right_eq_some] at taken
    obtain ⟨idle, taken⟩ := taken
    obtain ⟨ledger, ran, rfl⟩ := Option.map_eq_some_iff.mp taken
    simp only [HoldDb.step, Option.ite_none_right_eq_some, Option.some.injEq] at ran
    obtain ⟨_, rfl⟩ := ran
    refine sound.steady tx rfl rfl ?_ (fun _ _ => rfl) ?_ (.inl rfl)
    · intro other different
      simp [HoldDb.goto, Function.update_of_ne different]
    · simp only [keepsRefundKind, decide_eq_true_eq] at reserved
      simp [idle, InCall, HoldDb.goto, phaseMove, reserved]
  | debit tx userId amountCents details =>
    simp only [WithdrawDb.ledgerStep, Option.ite_none_right_eq_some] at taken
    obtain ⟨idle, taken⟩ := taken
    obtain ⟨ledger, ran, rfl⟩ := Option.map_eq_some_iff.mp taken
    simp only [HoldDb.step, Option.ite_none_right_eq_some, Option.some.injEq] at ran
    obtain ⟨⟨_, positive⟩, rfl⟩ := ran
    refine sound.steady tx rfl rfl ?_ (fun _ _ => rfl) ?_ (.inl rfl)
    · intro other different
      simp [HoldDb.goto, Function.update_of_ne different]
    · simp only [idle, InCall, HoldDb.goto, Function.update_self, phaseMove, Option.some.injEq]
      rintro _ rfl credit
      simp only at credit
      omega
  | snapshot tx =>
    simp only [WithdrawDb.ledgerStep] at taken
    obtain ⟨ledger, ran, rfl⟩ := Option.map_eq_some_iff.mp taken
    exact sound.moved (moved_snapshot ran)
  | lock tx =>
    simp only [WithdrawDb.ledgerStep] at taken
    obtain ⟨ledger, ran, rfl⟩ := Option.map_eq_some_iff.mp taken
    exact sound.moved (moved_lock ran)
  | rollback tx =>
    simp only [WithdrawDb.ledgerStep] at taken
    obtain ⟨ledger, ran, rfl⟩ := Option.map_eq_some_iff.mp taken
    exact sound.moved (moved_rollback ran)
  | commit tx =>
    simp only [WithdrawDb.ledgerStep] at taken
    obtain ⟨ledger, ran, rfl⟩ := Option.map_eq_some_iff.mp taken
    exact sound.committed ran

theorem Sound.goto {call : WithdrawCall} (inCall : InCall db tx call)
    (before : (db.call tx).payout = none) (after : call.payout = none) :
    Sound (db.goto tx call) := by
  refine sound.steady tx rfl rfl (fun _ _ => rfl) ?_ ?_ (.inr ?_)
  · intro other different
    simp [WithdrawDb.goto, Function.update_of_ne different]
  · have framed : InCall (db.goto tx call) tx call :=
      inCall.frame rfl (fun _ _ => rfl)
    simpa [WithdrawDb.goto] using framed
  · simp [WithdrawDb.goto, before, after]

theorem Sound.checkAmount {request : WithdrawRequest}
    {amountCents : Int} (idle : db.ledger.phase tx = .idle)
    (before : (db.call tx).payout = none) :
    Sound (db.checkAmount tx request amountCents) := by
  simp only [WithdrawDb.checkAmount]
  split
  · exact sound.goto (by simp [InCall, idle, phaseMove]) before rfl
  · exact sound.goto ⟨idle, by omega⟩ before rfl

theorem Sound.answer (notRejected : outcome ≠ .rejected)
    (notRefunded : outcome ≠ .refunded)
    (taken : db.answer tx outcome = some next) : Sound next := by
  have inCall := sound.calls tx
  simp only [WithdrawDb.answer] at taken
  split at taken
  · next index call =>
      rw [call] at inCall
      obtain ⟨idle, payout, found, pending⟩ := inCall
      simp only [found, Option.bind_some, Option.ite_none_right_eq_some,
        Option.some.injEq] at taken
      obtain ⟨_, rfl⟩ := taken
      simp only [WithdrawDb.close, found]
      refine sound.close tx (by rw [call]; rfl) found rfl (fun _ _ => rfl)
        ?_ ?_ (.inl ⟨?_, notRejected⟩) (fun _ => rfl) ?_
      · intro other different
        simp [WithdrawDb.goto, Function.update_of_ne different]
      · simp [WithdrawDb.goto, InCall, idle, phaseMove]
      · simp [WithdrawDb.goto, WithdrawCall.payout]
      · simp only [WithdrawDb.goto, refunds_set_same found (by simp [pending]) notRefunded]
        exact sound.refunds
  · simp at taken

theorem Sound.reject
    (taken : db.step (.reject tx) = some next) : Sound next := by
  have inCall := sound.calls tx
  simp only [WithdrawDb.step] at taken
  split at taken
  · next index call =>
      rw [call] at inCall
      obtain ⟨idle, payout, found, pending⟩ := inCall
      simp only [found, Option.bind_some, Option.ite_none_right_eq_some] at taken
      obtain ⟨_, taken⟩ := taken
      obtain ⟨ledger, ran, rfl⟩ := Option.map_eq_some_iff.mp taken
      simp only [HoldDb.step, Option.ite_none_right_eq_some, Option.some.injEq] at ran
      obtain ⟨_, rfl⟩ := ran
      simp only [WithdrawDb.close, found]
      refine sound.close tx (by rw [call]; rfl) found rfl ?_ ?_ ?_
        (.inr ?_) (fun _ => rfl) ?_
      · intro other different
        simp [WithdrawDb.goto, HoldDb.goto, Function.update_of_ne different]
      · intro other different
        simp [WithdrawDb.goto, Function.update_of_ne different]
      · have bound := (List.getElem?_eq_some_iff.mp found).1
        simp [WithdrawDb.goto, HoldDb.goto, InCall, phaseMove, bound, Payout.refundMove]
      · simp [WithdrawDb.goto]
      · simp only [WithdrawDb.goto, HoldDb.goto, refunds_set_same found
          (by simp [pending]) (show Outcome.rejected ≠ .refunded by decide)]
        exact sound.refunds
  · simp at taken

theorem Sound.debit
    (taken : db.step (.debit tx) = some next) : Sound next := by
  have inCall := sound.calls tx
  simp only [WithdrawDb.step] at taken
  split at taken
  · next request amountCents call =>
      rw [call] at inCall
      obtain ⟨idle, positive⟩ := inCall
      obtain ⟨ledger, ran, rfl⟩ := Option.map_eq_some_iff.mp taken
      simp only [HoldDb.step, Option.ite_none_right_eq_some, Option.some.injEq] at ran
      obtain ⟨_, rfl⟩ := ran
      refine sound.steady tx rfl rfl ?_ ?_ ?_ (.inr ?_)
      · intro other different
        simp [WithdrawDb.goto, HoldDb.goto, Function.update_of_ne different]
      · intro other different
        simp [WithdrawDb.goto, Function.update_of_ne different]
      · simp [WithdrawDb.goto, HoldDb.goto, InCall, phaseMove, positive,
          WithdrawRequest.debitMove]
      · simp [WithdrawDb.goto, WithdrawCall.payout, call]
  · simp at taken

theorem Sound.step {action : WithdrawAction}
    (reserved : keepsRefundKind action = true)
    (taken : db.step action = some next) : Sound next := by
  cases action with
  | ledger action => exact sound.ledgerStep reserved taken
  | withdraw tx request =>
    simp only [WithdrawDb.step, Option.ite_none_right_eq_some] at taken
    obtain ⟨⟨call, idle⟩, taken⟩ := taken
    have before : (db.call tx).payout = none := by rw [call]; rfl
    split at taken
    · cases taken
      exact sound.checkAmount idle before
    · cases taken
      exact sound.goto idle before rfl
  | total tx =>
    have inCall := sound.calls tx
    simp only [WithdrawDb.step] at taken
    split at taken
    · next request moment call =>
        have before : (db.call tx).payout = none := by rw [call]; rfl
        rw [call] at inCall
        have idle : db.ledger.phase tx = .idle := inCall
        split at taken
        · cases taken
          exact sound.goto idle before rfl
        · cases taken
          exact sound.goto (by simp [InCall, idle, phaseMove]) before
            rfl
    · simp at taken
  | held tx =>
    have inCall := sound.calls tx
    simp only [WithdrawDb.step] at taken
    split at taken
    · next request moment total call =>
        have before : (db.call tx).payout = none := by rw [call]; rfl
        rw [call] at inCall
        cases taken
        exact sound.checkAmount inCall before
    · simp at taken
  | debit tx => exact sound.debit taken
  | accept tx => exact sound.answer (by simp) (by simp) taken
  | unknown tx sent => exact sound.answer (by simp) (by simp) taken
  | reject tx => exact sound.reject taken

end

end Steps

theorem sound_start (opening : List Int) : Sound (.start opening) where
  calls := by
    intro tx move pending
    simp [WithdrawDb.start, HoldDb.start, phaseMove] at pending
  owner := by simp [WithdrawDb.start, WithdrawCall.payout]
  rejected := by simp [WithdrawDb.start]
  positive := by simp [WithdrawDb.start]
  debited := by
    simp [WithdrawDb.start, HoldDb.start, payoutCents, withdrawnCents]
  refunds := by simp [WithdrawDb.start, HoldDb.start]

theorem Sound.refundedCents_eq {db : WithdrawDb} (sound : Sound db)
    (userId : UserId) : refundedCents db.ledger.entries userId =
      payoutCents Payout.refunded db.payouts userId := by
  have same := ((sound.refunds.filter fun move =>
    decide (move.userId = userId)).map Move.amountCents).sum_eq
  simp only [List.filter_map, List.map_map] at same
  simp only [payoutCents, ← List.filter_filter]
  exact same

/-- No interleaving of withdrawals, credits and debits pays out more than was
debited and not given back; the refund lines are, in some order, those of the
withdrawals the provider refused and that gave the debit back; and a refused
withdrawal without one has its refund credit still running, or that credit
raised. -/
theorem withdrawals_never_overpay (opening : List Int)
    (schedule : List WithdrawAction) {state : WithdrawDb}
    (reserved : ∀ action ∈ schedule, keepsRefundKind action = true)
    (run : exec WithdrawDb.step (.start opening) schedule = some state) :
    (∀ userId, sentCents state.payouts userId ≤ withdrawnCents state.ledger.entries userId -
        refundedCents state.ledger.entries userId) ∧
    ((state.ledger.entries.filter refundLine).map lineMove).Perm
      ((state.payouts.filter Payout.refunded).map Payout.refundMove) ∧
    ∀ index payout, state.payouts[index]? = some payout → payout.outcome.refused = true →
        payout.outcome = .refunded ∨ payout.outcome = .refundFailed ∨
          ∃ tx, state.call tx = .refunding index := by
  have meets : Meets WithdrawDb.step
      (fun _ action => keepsRefundKind action = true) (.start opening)
      schedule := Meets.of_forall reserved
  have sound : Sound state :=
    exec_invariant_of_meets (fun _ _ _ sound reserved taken => Sound.step sound reserved taken)
      meets (sound_start opening) run
  refine ⟨?_, sound.refunds, ?_⟩
  · intro userId
    have apart := sent_add_refunded_le sound.positive userId
    have debited := sound.debited userId
    rw [sound.refundedCents_eq]
    omega
  · intro index payout found refused
    cases outcome : payout.outcome with
    | rejected => exact .inr (.inr (sound.rejected index payout found outcome))
    | refunded => exact .inl rfl
    | refundFailed => exact .inr (.inl rfl)
    | _ => simp [outcome, Outcome.refused] at refused

/-- A refused withdrawal of the whole balance next to an accepted one. -/
def refusedWithdrawal : List WithdrawAction :=
  let request : WithdrawRequest :=
    { userId := 0, pixKey := "chave", pixKeyType := .random,
      correlation := "a" }
  [.withdraw 1 { request with amountCents := some 60 }, .withdraw 2 request,
    .total 2, .held 2, .debit 2, .ledger (.snapshot 2), .ledger (.lock 2),
    .ledger (.commit 2), .reject 2, .debit 1, .ledger (.lock 2),
    .ledger (.commit 2), .ledger (.snapshot 1), .ledger (.lock 1),
    .ledger (.commit 1), .accept 1]

theorem withdrawals_never_overpay_refused : ∃ state,
    exec WithdrawDb.step (.start [100]) refusedWithdrawal = some state ∧
      ∀ userId, sentCents state.payouts userId ≤ withdrawnCents state.ledger.entries userId -
          refundedCents state.ledger.entries userId :=
  ⟨_, rfl, (withdrawals_never_overpay [100] refusedWithdrawal (by decide)
    rfl).1⟩

/-- The provider refuses, and the database refuses the refund credit. -/
def lostRefund : List WithdrawAction :=
  [.withdraw 1
      { userId := 0, pixKey := "chave", pixKeyType := .random,
        amountCents := some 60, correlation := "a" },
    .debit 1, .ledger (.snapshot 1), .ledger (.lock 1), .ledger (.commit 1),
    .reject 1, .ledger (.rollback 1)]

theorem refused_without_refund : ∃ state payout,
    exec WithdrawDb.step (.start [100]) lostRefund = some state ∧
      state.payouts = [payout] ∧ payout.outcome.refused = true ∧
      state.call 1 = .idle ∧
      state.ledger.entries.filter refundLine = [] :=
  ⟨_, _, rfl, rfl, by decide, by decide, by decide⟩

end Withdrawal

end TempestSdk
