import TempestSdk.Wallet.Ledger

/-!
# Reversing a held credit

Two histories are compared: one with a credit and its reversal inserted, and
one without.  `_held_cents_query` counts credits and never looks at
reversals, so the reversed credit stays on hold until its release.  The pair
leaves nothing behind exactly when the hold is already over at the reversal.
-/

namespace TempestSdk

namespace Wallet

def LedgerDb.after (db : LedgerDb) (now : Int) (call : Call) : LedgerDb :=
  ((LedgerSession.idle db).call .none now call).1.durable

abbrev History := List (Int × Call)

def LedgerDb.run (db : LedgerDb) (history : History) : LedgerDb :=
  history.foldl (fun db step => db.after step.1 step.2) db

/-- Whether `debit_available` takes the amount. -/
def LedgerDb.debitAccepted (db : LedgerDb) (now : Int) (userId : UserId)
    (amountCents : Int) (details : Details) : Bool :=
  match ((LedgerSession.idle db).debitAvailable .none now userId amountCents
      details).2 with
  | .ok (some _) => true
  | _ => false

/-- The held and the available balance; `none` for an unknown wallet. -/
def LedgerDb.split (db : LedgerDb) (now : Int) (userId : UserId) : Option (Int × Int) :=
  (db.balance userId now).map fun balance =>
    (balance.heldCents, balance.availableCents)

/-- A credit and the reversal of the same amount right after it. -/
structure ReversedCredit where
  userId : UserId
  amountCents : Int
  hold : Int
  creditedAt : Int
  reversedAt : Int
  creditDetails : Details
  reverseDetails : Details

namespace ReversedCredit

def calls (pair : ReversedCredit) : History :=
  [(pair.creditedAt, .credit pair.userId pair.amountCents pair.creditDetails pair.hold),
    (pair.reversedAt, .reverse pair.userId pair.amountCents pair.reverseDetails)]

/-- No later history tells whether the pair was inserted after `before`. -/
def Neutral (pair : ReversedCredit) (opening : UserId → Option Int) (before : History) : Prop :=
  ∀ later : History, (∀ step ∈ later, pair.reversedAt ≤ step.1) → ∀ now, pair.reversedAt ≤ now →
      let start : LedgerDb := { wallets := opening, entries := [] }
      let inserted := start.run (before ++ pair.calls ++ later)
      let plain := start.run (before ++ later)
      ∀ userId, inserted.split now userId = plain.split now userId ∧
        ∀ amountCents details, inserted.debitAccepted now userId amountCents details =
            plain.debitAccepted now userId amountCents details

/-- `credit` takes the arguments of the pair. -/
def CreditTaken (pair : ReversedCredit) : Prop :=
  0 < pair.amountCents ∧ 0 ≤ pair.hold ∧ pair.creditedAt + pair.hold ≤ maxInstant

instance (pair : ReversedCredit) : Decidable pair.CreditTaken :=
  inferInstanceAs (Decidable (_ ∧ _ ∧ _))

/-- What the pair needs to leave nothing behind: the credit is taken and its
hold is over at the reversal, or neither call does anything. -/
def Undone (pair : ReversedCredit) (db : LedgerDb) : Prop :=
  match db.wallets pair.userId with
  | none => True
  | some balance =>
    if pair.CreditTaken then
      0 ≤ balance ∧ pair.creditedAt + pair.hold ≤ pair.reversedAt
    else pair.amountCents ≤ 0 ∨ balance < pair.amountCents

end ReversedCredit

def LedgerDb.move (db : LedgerDb) (userId : UserId) (deltaCents : Int)
    (floor : Option Int) (lineFor : Int → Except LedgerError Entry) :
    LedgerDb :=
  match db.apply userId deltaCents floor with
  | none => db
  | some (balanceAfter, moved) =>
    match lineFor balanceAfter with
    | .error _ => db
    | .ok entry => moved.insert entry

theorem durable_idle_move (db : LedgerDb) (userId : UserId)
    (deltaCents : Int) (floor : LedgerSession → Option Int)
    (unmatched : Except LedgerError (Option Entry))
    (lineFor : Int → Except LedgerError Entry) :
    ((LedgerSession.idle db).transaction fun session =>
      session.moveBody .none userId deltaCents (floor session) unmatched lineFor).1.durable =
      db.move userId deltaCents (floor { LedgerSession.idle db with blocks := [.transaction] })
        lineFor := by
  simp only [LedgerSession.transaction, LedgerSession.moveBody,
    LedgerSession.apply, LedgerSession.idle, LedgerDb.move,
    Bool.false_eq_true, if_false]
  generalize floor _ = bound
  cases db.apply userId deltaCents bound with
  | none =>
    cases unmatched <;>
      simp [LedgerSession.leave, Block.leave, LedgerSession.settle, Except.isOk, Except.toBool]
  | some moved =>
    obtain ⟨balanceAfter, moved⟩ := moved
    cases built : lineFor balanceAfter <;>
      simp [built, LedgerSession.leave, Block.leave, LedgerSession.settle,
        Except.isOk, Except.toBool, LedgerSession.writeEntry]

theorem after_credit (db : LedgerDb) (now : Int) (userId : UserId)
    (amountCents : Int) (details : Details) (hold : Int) :
    db.after now (.credit userId amountCents details hold) =
      if amountCents ≤ 0 ∨ hold < 0 then db
      else db.move userId amountCents none fun balanceAfter =>
        if maxInstant < now + hold then .error .overflowError
        else .ok (LedgerSession.line userId details amountCents balanceAfter (now + hold)) := by
  simp only [LedgerDb.after, LedgerSession.call, LedgerSession.credit]
  by_cases amount : amountCents ≤ 0
  · simp [amount, LedgerSession.idle]
  · by_cases negative : hold < 0
    · simp [amount, negative, LedgerSession.idle]
    · rw [if_neg amount, if_neg negative, if_neg (by tauto)]
      exact durable_idle_move db userId amountCents (fun _ => none) _ _

theorem after_debitAvailable (db : LedgerDb) (now : Int) (userId : UserId)
    (amountCents : Int) (details : Details) :
    db.after now (.debitAvailable userId amountCents details) = if amountCents ≤ 0 then db
      else db.move userId (-amountCents)
        (some (heldCents db.entries userId now)) fun balanceAfter =>
          .ok (LedgerSession.line userId details (-amountCents) balanceAfter now) := by
  simp only [LedgerDb.after, LedgerSession.call, LedgerSession.debitAvailable]
  by_cases amount : amountCents ≤ 0
  · simp [amount, LedgerSession.idle]
  · rw [if_neg amount, if_neg amount]
    exact durable_idle_move db userId (-amountCents)
      (fun session => some (heldCents session.working.entries userId now)) _ _

theorem after_reverse (db : LedgerDb) (now : Int) (userId : UserId)
    (amountCents : Int) (details : Details) :
    db.after now (.reverse userId amountCents details) = if amountCents ≤ 0 then db
      else db.move userId (-amountCents) (some 0) fun balanceAfter =>
        .ok (LedgerSession.line userId { details with kind := reversalKind }
          (-amountCents) balanceAfter now) := by
  simp only [LedgerDb.after, LedgerSession.call, LedgerSession.reverse]
  by_cases amount : amountCents ≤ 0
  · simp [amount, LedgerSession.idle]
  · rw [if_neg amount, if_neg amount]
    exact durable_idle_move db userId (-amountCents) (fun _ => some 0) _ _

/-- Equal balances, and equal holds from `since` on. -/
structure Agree (since : Int) (first second : LedgerDb) : Prop where
  wallets : first.wallets = second.wallets
  held : ∀ userId now, since ≤ now →
    heldCents first.entries userId now = heldCents second.entries userId now

theorem Agree.refl (since : Int) (db : LedgerDb) : Agree since db db where
  wallets := rfl
  held := fun _ _ _ => rfl

variable {first second : LedgerDb}

theorem Agree.move {since : Int} (agree : Agree since first second)
    (userId : UserId) (deltaCents : Int) (floor : Option Int)
    (lineFor : Int → Except LedgerError Entry) :
    Agree since (first.move userId deltaCents floor lineFor)
      (second.move userId deltaCents floor lineFor) := by
  simp only [LedgerDb.move, LedgerDb.apply, agree.wallets]
  cases found : second.wallets userId with
  | none => exact agree
  | some balance =>
    by_cases allowed : floorAllows floor (balance + deltaCents) = true
    · simp only [allowed, if_true]
      cases built : lineFor (balance + deltaCents) with
      | error error => exact agree
      | ok entry =>
        constructor
        · simp [LedgerDb.insert, LedgerDb.setBalance, agree.wallets]
        · intro owner now later
          simp only [LedgerDb.insert, LedgerDb.setBalance,
            heldCents_append, agree.held owner now later]
    · simp only [allowed]
      exact agree

theorem Agree.after {since now : Int} (agree : Agree since first second)
    (later : since ≤ now) (call : Call) :
    Agree since (first.after now call) (second.after now call) := by
  cases call with
  | credit userId amountCents details hold =>
    rw [after_credit, after_credit]
    split
    · exact agree
    · exact agree.move _ _ _ _
  | debitAvailable userId amountCents details =>
    rw [after_debitAvailable, after_debitAvailable, agree.held userId now later]
    split
    · exact agree
    · exact agree.move _ _ _ _
  | reverse userId amountCents details =>
    rw [after_reverse, after_reverse]
    split
    · exact agree
    · exact agree.move _ _ _ _

theorem Agree.run {since : Int} (agree : Agree since first second)
    {history : History} (later : ∀ step ∈ history, since ≤ step.1) :
    Agree since (first.run history) (second.run history) := by
  induction history generalizing first second with
  | nil => exact agree
  | cons step rest induction =>
    apply induction
    · exact agree.after (later step List.mem_cons_self) step.2
    · exact fun other member => later other (List.mem_cons_of_mem _ member)

theorem Agree.split {since now : Int} (agree : Agree since first second)
    (later : since ≤ now) (userId : UserId) :
    first.split now userId = second.split now userId := by
  simp [LedgerDb.split, LedgerDb.balance, agree.wallets,
    agree.held userId now later, Function.comp_def]

theorem debitAccepted_eq (db : LedgerDb) (now : Int) (userId : UserId)
    (amountCents : Int) (details : Details) :
    db.debitAccepted now userId amountCents details =
      (decide (0 < amountCents) && (db.apply userId (-amountCents)
          (some (heldCents db.entries userId now))).isSome) := by
  unfold LedgerDb.debitAccepted LedgerSession.debitAvailable
  by_cases amount : amountCents ≤ 0
  · simp [amount]
  · have positive : 0 < amountCents := by omega
    simp only [if_neg amount, LedgerSession.transaction,
      LedgerSession.moveBody, LedgerSession.apply, LedgerSession.idle,
      Bool.false_eq_true, if_false, positive, decide_true, Bool.true_and]
    cases db.apply userId (-amountCents) (some (heldCents db.entries userId now)) with
    | none => rfl
    | some moved => rfl

theorem Agree.debitAccepted {since now : Int}
    (agree : Agree since first second) (later : since ≤ now) (userId : UserId)
    (amountCents : Int) (details : Details) :
    first.debitAccepted now userId amountCents details =
      second.debitAccepted now userId amountCents details := by
  rw [debitAccepted_eq, debitAccepted_eq, agree.held userId now later]
  simp only [LedgerDb.apply, agree.wallets]
  cases second.wallets userId with
  | none => rfl
  | some balance =>
    simp only
    split <;> rfl

theorem run_append (db : LedgerDb) (first second : History) :
    db.run (first ++ second) = (db.run first).run second := by
  simp [LedgerDb.run]

theorem run_calls (pair : ReversedCredit) (db : LedgerDb) : db.run pair.calls =
      (db.after pair.creditedAt (.credit pair.userId pair.amountCents
        pair.creditDetails pair.hold)).after pair.reversedAt
        (.reverse pair.userId pair.amountCents pair.reverseDetails) := rfl

variable {userId : UserId} {db : LedgerDb}

theorem split_total {now : Int} {balance : Int} (found : db.wallets userId = some balance) :
    db.split now userId = some (min (heldCents db.entries userId now) balance,
        balance - min (heldCents db.entries userId now) balance) := by
  simp [LedgerDb.split, LedgerDb.balance, found]

theorem balance_of_split {now : Int} {one two : Int}
    (foundFirst : first.wallets userId = some one)
    (foundSecond : second.wallets userId = some two)
    (same : first.split now userId = second.split now userId) : one = two := by
  rw [split_total foundFirst, split_total foundSecond] at same
  simp only [Option.some.injEq, Prod.mk.injEq] at same
  omega

theorem wallets_insert_setBalance (db : LedgerDb) (userId : UserId)
    (balance : Int) (entry : Entry) :
    ((db.setBalance userId balance).insert entry).wallets userId = some balance := by
  simp [LedgerDb.insert, LedgerDb.setBalance]

variable {lineFor : Int → Except LedgerError Entry} {floor : Option Int}

theorem move_unknown {deltaCents : Int} (unknown : db.wallets userId = none) :
    db.move userId deltaCents floor lineFor = db := by
  simp [LedgerDb.move, LedgerDb.apply, unknown]

theorem move_refused {balance deltaCents : Int} (found : db.wallets userId = some balance)
    (refused : floorAllows floor (balance + deltaCents) = false) :
    db.move userId deltaCents floor lineFor = db := by
  simp [LedgerDb.move, LedgerDb.apply, found, refused]

theorem move_taken {balance deltaCents : Int} {entry : Entry}
    (found : db.wallets userId = some balance)
    (allowed : floorAllows floor (balance + deltaCents) = true)
    (built : lineFor (balance + deltaCents) = .ok entry) :
    db.move userId deltaCents floor lineFor =
      (db.setBalance userId (balance + deltaCents)).insert entry := by
  simp [LedgerDb.move, LedgerDb.apply, found, allowed, built]

theorem move_raised {deltaCents : Int}
    (raised : ∀ balanceAfter, ∃ error, lineFor balanceAfter = .error error) :
    db.move userId deltaCents floor lineFor = db := by
  unfold LedgerDb.move
  split
  · rfl
  · next balanceAfter moved _ =>
      obtain ⟨error, raises⟩ := raised balanceAfter
      simp [raises]

namespace ReversedCredit

def creditLine (pair : ReversedCredit) (balance : Int) : Entry :=
  LedgerSession.line pair.userId pair.creditDetails pair.amountCents
    (balance + pair.amountCents) (pair.creditedAt + pair.hold)

def reverseLine (pair : ReversedCredit) (balanceAfter : Int) : Entry :=
  LedgerSession.line pair.userId
    { pair.reverseDetails with kind := reversalKind } (-pair.amountCents)
    balanceAfter pair.reversedAt

variable {pair : ReversedCredit} {db : LedgerDb} {balance : Int}

theorem after_credit_taken (found : db.wallets pair.userId = some balance)
    (taken : pair.CreditTaken) :
    db.after pair.creditedAt (.credit pair.userId pair.amountCents
        pair.creditDetails pair.hold) =
      (db.setBalance pair.userId (balance + pair.amountCents)).insert
        (pair.creditLine balance) := by
  obtain ⟨positive, holds, dated⟩ := taken
  rw [after_credit, if_neg (by omega)]
  exact move_taken found rfl (if_neg (by omega))

theorem after_credit_refused (refused : ¬ pair.CreditTaken) :
    db.after pair.creditedAt (.credit pair.userId pair.amountCents
      pair.creditDetails pair.hold) = db := by
  rw [after_credit]
  split
  · rfl
  · next valid =>
      apply move_raised
      intro balanceAfter
      refine ⟨.overflowError, if_pos ?_⟩
      by_contra dated
      exact refused ⟨by omega, by omega, by omega⟩

section

variable (found : db.wallets pair.userId = some balance)

include found

theorem after_reverse_covered
    (positive : 0 < pair.amountCents) (covered : pair.amountCents ≤ balance) :
    db.after pair.reversedAt (.reverse pair.userId pair.amountCents pair.reverseDetails) =
      (db.setBalance pair.userId (balance - pair.amountCents)).insert
        (pair.reverseLine (balance - pair.amountCents)) := by
  rw [after_reverse, if_neg (by omega)]
  have floor : floorAllows (some 0) (balance + -pair.amountCents) = true := by
    simp only [floorAllows, decide_eq_true_eq]
    omega
  exact move_taken found floor rfl

theorem after_reverse_uncovered (short : pair.amountCents ≤ 0 ∨ balance < pair.amountCents) :
    db.after pair.reversedAt (.reverse pair.userId pair.amountCents
      pair.reverseDetails) = db := by
  rw [after_reverse]
  split
  · rfl
  · exact move_refused found (by simp [floorAllows]; omega)

theorem run_calls_taken (taken : pair.CreditTaken) (nonneg : 0 ≤ balance) :
    (db.run pair.calls).wallets = db.wallets ∧ (db.run pair.calls).entries =
        db.entries ++ [pair.creditLine balance, pair.reverseLine balance] := by
  have restored : balance + pair.amountCents - pair.amountCents = balance := by
    omega
  have credited := wallets_insert_setBalance db pair.userId
    (balance + pair.amountCents) (pair.creditLine balance)
  rw [run_calls, after_credit_taken found taken,
    after_reverse_covered credited taken.1 (by omega), restored]
  constructor
  · simp only [LedgerDb.insert, LedgerDb.setBalance, Function.update_idem]
    exact Function.update_eq_self_iff.mpr found.symm
  · simp [LedgerDb.insert, LedgerDb.setBalance]

end

theorem heldCents_pair (taken : pair.CreditTaken) (entries : List Entry)
    (userId : UserId) (now : Int) :
    heldCents (entries ++ [pair.creditLine balance, pair.reverseLine balance]) userId now =
      heldCents entries userId now +
        if pair.userId = userId ∧ now < pair.creditedAt + pair.hold then
          pair.amountCents else 0 := by
  have positive := taken.1
  have reversal : (pair.reverseLine balance).held userId now = false := by
    simp [Entry.held, reverseLine, LedgerSession.line]
    omega
  have credit : (pair.creditLine balance).held userId now = true ↔
      pair.userId = userId ∧ now < pair.creditedAt + pair.hold := by
    simp [Entry.held_iff, creditLine, LedgerSession.line, positive]
  rw [heldCents_append, heldCents_cons, heldCents_singleton, reversal]
  simp only [credit, Bool.false_eq_true, if_false, add_zero]
  rfl

theorem agree_of_undone (undone : pair.Undone db) :
    Agree pair.reversedAt (db.run pair.calls) db := by
  unfold Undone at undone
  cases found : db.wallets pair.userId with
  | none =>
    have same : db.run pair.calls = db := by
      rw [run_calls, after_credit, after_reverse]
      split <;> split <;> simp [move_unknown found]
    rw [same]
    exact .refl _ _
  | some balance =>
    simp only [found] at undone
    split at undone
    · next taken =>
        obtain ⟨wallets, entries⟩ := run_calls_taken found taken undone.1
        refine ⟨wallets, fun userId now later => ?_⟩
        rw [entries, heldCents_pair taken, if_neg (by omega), add_zero]
    · next refused =>
        have same : db.run pair.calls = db := by
          rw [run_calls, after_credit_refused refused, after_reverse_uncovered found undone]
        rw [same]
        exact .refl _ _

theorem held_shows (found : db.wallets pair.userId = some balance)
    (taken : pair.CreditTaken) (nonneg : 0 ≤ balance)
    (holding : pair.reversedAt < pair.creditedAt + pair.hold) :
    let extra := heldCents db.entries pair.userId pair.reversedAt + pair.amountCents
    let later : History := [(pair.reversedAt, .credit pair.userId extra pair.creditDetails 0)]
    ((db.run pair.calls).run later).split pair.reversedAt pair.userId ≠
      (db.run later).split pair.reversedAt pair.userId := by
  intro extra later
  have held := heldCents_nonneg db.entries pair.userId pair.reversedAt
  have positive := taken.1
  have dated := taken.2.2
  have extraPositive : 0 < extra := by omega
  have credited (ledger : LedgerDb) (known : ledger.wallets pair.userId = some balance) :
      (ledger.run later).split pair.reversedAt pair.userId =
        some (min (heldCents ledger.entries pair.userId pair.reversedAt) (balance + extra),
          balance + extra - min (heldCents ledger.entries pair.userId pair.reversedAt)
              (balance + extra)) := by
    have ran : ledger.run later = (ledger.setBalance pair.userId (balance + extra)).insert
          (LedgerSession.line pair.userId pair.creditDetails extra
            (balance + extra) (pair.reversedAt + 0)) := by
      change ledger.after _ _ = _
      rw [after_credit, if_neg (by omega)]
      exact move_taken known rfl (if_neg (by omega))
    rw [ran, split_total (wallets_insert_setBalance _ _ _ _)]
    simp [LedgerDb.insert, LedgerDb.setBalance, heldCents_append,
      heldCents_singleton, Entry.held, LedgerSession.line]
  obtain ⟨wallets, entries⟩ := run_calls_taken found taken nonneg
  rw [credited _ (by rw [wallets, found]), credited db found, entries,
    heldCents_pair taken, if_pos ⟨rfl, holding⟩]
  simp only [ne_eq, Option.some.injEq, Prod.mk.injEq]
  omega

theorem undone_of_same (same : ∀ later : History, (∀ step ∈ later, pair.reversedAt ≤ step.1) →
        ((db.run pair.calls).run later).split pair.reversedAt pair.userId =
          (db.run later).split pair.reversedAt pair.userId) :
    pair.Undone db := by
  have now : (db.run pair.calls).split pair.reversedAt pair.userId =
      db.split pair.reversedAt pair.userId :=
    same [] (by simp)
  unfold Undone
  cases found : db.wallets pair.userId with
  | none => trivial
  | some balance =>
    simp only
    by_cases taken : pair.CreditTaken
    · rw [if_pos taken]
      have nonneg : 0 ≤ balance := by
        by_contra negative
        have credited := after_credit_taken found taken
        have kept : (db.run pair.calls).wallets pair.userId =
            some (balance + pair.amountCents) := by
          have balanced := wallets_insert_setBalance db pair.userId
            (balance + pair.amountCents) (pair.creditLine balance)
          rw [run_calls, credited, after_reverse_uncovered balanced (by omega), balanced]
        have equal := balance_of_split kept found now
        have positive := taken.1
        omega
      refine ⟨nonneg, ?_⟩
      by_contra holding
      exact held_shows found taken nonneg (by omega)
        (same _ (by simp))
    · rw [if_neg taken]
      by_contra covered
      have lowered : (db.run pair.calls).wallets pair.userId =
          some (balance - pair.amountCents) := by
        rw [run_calls, after_credit_refused taken,
          after_reverse_covered found (by omega) (by omega)]
        simp [LedgerDb.insert, LedgerDb.setBalance]
      have equal := balance_of_split lowered found now
      omega

end ReversedCredit

/-- A reversed credit leaves nothing behind exactly when its hold is over at
the reversal, or neither call did anything. -/
theorem reversed_credit_neutral_iff (pair : ReversedCredit)
    (opening : UserId → Option Int) (before : History) :
    pair.Neutral opening before ↔ pair.Undone
        (LedgerDb.run { wallets := opening, entries := [] } before) := by
  constructor
  · intro neutral
    apply ReversedCredit.undone_of_same
    intro later ordered
    have same := neutral later ordered pair.reversedAt le_rfl pair.userId
    simpa only [run_append] using same.1
  · intro undone later ordered now latest
    have agree := (ReversedCredit.agree_of_undone undone).run ordered
    simp only [run_append]
    exact fun userId => ⟨agree.split latest userId, agree.debitAccepted latest userId⟩

/-- 500 released and 500 on hold for a day; the held credit is reversed a
minute later. -/
def reversedMinuteLater : ReversedCredit :=
  { userId := 0, amountCents := 500, hold := 86400000000, creditedAt := 0
    reversedAt := 60000000, creditDetails := { kind := "SALE" }
    reverseDetails := { kind := "SALE" } }

theorem reversed_minute_later_not_neutral :
    ¬ reversedMinuteLater.Neutral (fun _ => some 500) [] := by
  intro neutral
  have same := (neutral [] (by simp) 60000000 (by decide) 0).1
  revert same
  decide

end Wallet

end TempestSdk
