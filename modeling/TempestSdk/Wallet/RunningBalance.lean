import TempestSdk.Library.Runs
import TempestSdk.Wallet.LedgerCalls

/-!
# The running balance of a wallet

The law of the ledger: a balance is its opening value plus the sum of its
lines, every line carries the running sum, and no balance drops below zero.

A caller opens and leaves blocks, calls the ledger, and handles exceptions.
An exception raised after the balance `UPDATE` of a call leaves the move in
the open transaction, and only the block it is let out of takes it back.  So
the law holds of every schedule that lets such an exception reach a savepoint
or the outermost block, and fails of one that swallows it before.
-/

namespace TempestSdk

namespace Wallet

open Runs

structure Lawful (opening : UserId → Option Int) (db : LedgerDb) : Prop where
  balance : ∀ userId, db.wallets userId = (opening userId).map fun start =>
    start + ((db.entriesOf userId).map Entry.amountCents).sum
  running : ∀ userId start, opening userId = some start →
    ∀ before entry after, db.entriesOf userId = before ++ entry :: after →
      entry.balanceAfterCents = start + (before.map Entry.amountCents).sum + entry.amountCents
  nonneg : ∀ userId start balance, opening userId = some start → 0 ≤ start →
    db.wallets userId = some balance → 0 ≤ balance

def LedgerDb.opened (opening : UserId → Option Int) : LedgerDb :=
  { wallets := opening, entries := [] }

theorem lawful_opened (opening : UserId → Option Int) :
    Lawful opening (LedgerDb.opened opening) := by
  constructor
  · intro userId
    cases found : opening userId <;>
      simp [LedgerDb.opened, LedgerDb.entriesOf, found]
  · intro userId start _known before entry after split
    simp [LedgerDb.opened, LedgerDb.entriesOf] at split
  · intro userId start balance known nonneg found
    have same : start = balance := by
      simpa [LedgerDb.opened, known] using found
    omega

theorem LedgerDb.Moved.entriesOf_self {db db' : LedgerDb} {entry : Entry}
    (moved : db.Moved entry db') :
    db'.entriesOf entry.userId = db.entriesOf entry.userId ++ [entry] := by
  simp [LedgerDb.entriesOf, moved.entries]

theorem LedgerDb.Moved.entriesOf_other {db db' : LedgerDb} {entry : Entry}
    (moved : db.Moved entry db') {userId : UserId}
    (other : userId ≠ entry.userId) :
    db'.entriesOf userId = db.entriesOf userId := by
  simp [LedgerDb.entriesOf, moved.entries, Ne.symm other]

variable {opening : UserId → Option Int}

theorem Lawful.moved {db db' : LedgerDb} {entry : Entry}
    (lawful : Lawful opening db) (moved : db.Moved entry db') :
    Lawful opening db' := by
  obtain ⟨balance, found, after, covered⟩ := moved.balance
  have summed := lawful.balance entry.userId
  rw [found] at summed
  obtain ⟨start, known, total⟩ := Option.map_eq_some_iff.mp summed.symm
  constructor
  · intro userId
    by_cases same : userId = entry.userId
    · subst same
      rw [moved.wallets, Function.update_self, moved.entriesOf_self, known]
      simp
      omega
    · rw [moved.wallets, Function.update_of_ne same, moved.entriesOf_other same]
      exact lawful.balance userId
  · intro userId first knownFirst before line rest split
    by_cases same : userId = entry.userId
    · subst same
      have firstEq : first = start := by
        simpa [known] using knownFirst.symm
      subst firstEq
      rw [moved.entriesOf_self] at split
      rcases List.eq_nil_or_concat rest with rfl | ⟨rest, final, rfl⟩
      · obtain ⟨rfl, last⟩ := List.append_inj' split rfl
        cases last
        omega
      · have regrouped : db.entriesOf entry.userId ++ [entry] =
            (before ++ line :: rest) ++ [final] := by
          simpa using split
        obtain ⟨old, _last⟩ := List.append_inj' regrouped rfl
        exact lawful.running entry.userId first known before line rest old
    · rw [moved.entriesOf_other same] at split
      exact lawful.running userId first knownFirst before line rest split
  · intro userId first amount knownFirst nonneg foundAfter
    by_cases same : userId = entry.userId
    · subst same
      have old := lawful.nonneg entry.userId first balance knownFirst nonneg found
      have amountEq : entry.balanceAfterCents = amount := by
        simpa [moved.wallets] using foundAfter
      by_cases negative : entry.amountCents < 0
      · have := covered negative
        omega
      · omega
    · rw [moved.wallets, Function.update_of_ne same] at foundAfter
      exact lawful.nonneg userId first amount knownFirst nonneg foundAfter

/-- An exception on its way out, and whether a rollback already took back
what the call that raised it had written. -/
structure InFlight where
  error : LedgerError
  undone : Bool
  deriving DecidableEq

/-- A caller's session and the exception in flight, if any. -/
structure Caller where
  session : LedgerSession
  inFlight : Option InFlight

inductive CallerAction where
  | enterTransaction
  | enterSavepoint
  /-- Leave the innermost block, carrying the exception in flight. -/
  | leaveBlock
  | raise
  /-- An `except` clause handles the exception in flight. -/
  | swallow
  | call (fault : Fault) (now : Int) (call : Call)
  /-- `session.commit()` or an autocommitting write, outside any block. -/
  | commit
  /-- `session.rollback()`, outside any block. -/
  | rollback
  deriving DecidableEq

namespace Caller

def start (db : LedgerDb) : Caller := ⟨.idle db, none⟩

def afterLeaving (inFlight : Option InFlight) : Ending LedgerDb → Option InFlight
  | .rollback | .rollbackTo _ =>
    match inFlight with
    | some exception => some { exception with undone := true }
    | none => some ⟨.database, true⟩
  | .commit | .joined => inFlight

def step (state : Caller) : CallerAction → Option Caller
  | .enterTransaction =>
    if state.inFlight.isSome then none
    else some { state with
      session := { state.session with
        blocks := .transaction :: state.session.blocks } }
  | .enterSavepoint =>
    if state.inFlight.isSome || state.session.failed then none
    else some { state with
      session := { state.session with
        blocks :=
          .savepoint state.session.working :: state.session.blocks } }
  | .leaveBlock =>
    (Block.leave state.inFlight.isSome state.session.failed
        state.session.blocks).map fun (ending, outer) =>
      { session := state.session.settle outer ending
        inFlight := afterLeaving state.inFlight ending }
  | .raise =>
    if state.inFlight.isSome then none
    else some { state with inFlight := some ⟨.caller, true⟩ }
  | .swallow =>
    if state.inFlight.isSome then some { state with inFlight := none }
    else none
  | .call fault now call =>
    if state.inFlight.isSome then none
    else
      let answered := state.session.call fault now call
      some { session := answered.1
             inFlight :=
               match answered.2 with
               | .ok _ => none
               | .error error => some ⟨error, state.session.blocks.isEmpty⟩ }
  | .commit =>
    if state.inFlight.isSome || Block.inTransaction state.session.blocks then
      none
    else if state.session.failed then
      some { state with inFlight := some ⟨.database, true⟩ }
    else some { state with
      session := { state.session with durable := state.session.working } }
  | .rollback =>
    if Block.inTransaction state.session.blocks then none
    else some
      { session := { state.session with
          working := state.session.durable, failed := false }
        inFlight :=
          state.inFlight.map fun exception =>
            { exception with undone := true } }

/-- The open transaction still holds a move whose call raised, and the
database would commit it. -/
def dangling (state : Caller) : Bool :=
  match state.inFlight with
  | none => false
  | some exception => exception.error.late && !exception.undone && !state.session.failed

end Caller

/-- The caller does not swallow an exception while the open transaction still
holds the move of the call that raised it. -/
def LetsRollBack (state : Caller) (action : CallerAction) : Prop :=
  action = .swallow → state.dangling = false

instance (state : Caller) (action : CallerAction) :
    Decidable (LetsRollBack state action) :=
  inferInstanceAs (Decidable (action = .swallow → state.dangling = false))

/-- What holds of a caller at every moment: what can become durable is
lawful. -/
structure Sound (opening : UserId → Option Int) (state : Caller) : Prop where
  durable : Lawful opening state.session.durable
  saved : ∀ db, .savepoint db ∈ state.session.blocks → Lawful opening db
  working : state.session.failed = false → state.dangling = false →
    Lawful opening state.session.working

theorem sound_start (opening : UserId → Option Int) :
    Sound opening (Caller.start (LedgerDb.opened opening)) where
  durable := lawful_opened opening
  saved := by simp [Caller.start, LedgerSession.idle]
  working := fun _ _ => lawful_opened opening

theorem Caller.dangling_of_none {state : Caller}
    (quiet : state.inFlight = none) : state.dangling = false := by
  simp [dangling, quiet]

theorem Sound.of_quiet {state : Caller} (sound : Sound opening state)
    (quiet : state.inFlight = none) (usable : state.session.failed = false) :
    Lawful opening state.session.working :=
  sound.working usable (Caller.dangling_of_none quiet)

theorem Sound.leaveBlock {state : Caller} (sound : Sound opening state)
    {ending : Ending LedgerDb} {outer : List (Block LedgerDb)}
    (left : Block.leave state.inFlight.isSome state.session.failed
      state.session.blocks = some (ending, outer)) :
    Sound opening
      { session := state.session.settle outer ending
        inFlight := Caller.afterLeaving state.inFlight ending } := by
  have savedOuter : ∀ db, .savepoint db ∈ outer → Lawful opening db := by
    intro db member
    apply sound.saved db
    rcases Block.leave_cases left with ⟨blocks, rfl, _⟩ | ⟨blocks, _⟩ | ⟨saved, blocks, _⟩
    · simp at member
    · simp [blocks, member]
    · simp [blocks, member]
  have joined : ending = .joined → Sound opening
      { session := state.session.settle outer ending
        inFlight := Caller.afterLeaving state.inFlight ending } := by
    rintro rfl
    exact { durable := sound.durable, saved := savedOuter
            working := sound.working }
  rcases Block.leave_cases left with
    ⟨_blocks, _outer, ⟨raised, failed, rfl⟩ | ⟨_, rfl⟩⟩ |
    ⟨_blocks, _outer, same⟩ | ⟨saved, blocks, ⟨_, rfl⟩ | ⟨_, _, same⟩⟩
  · have quiet : state.inFlight = none := by simpa using raised
    have lawful := sound.of_quiet quiet failed
    exact { durable := lawful, saved := savedOuter
            working := fun _ _ => lawful }
  · exact { durable := sound.durable, saved := savedOuter
            working := fun _ _ => sound.durable }
  · exact joined same
  · have lawful := sound.saved saved (by simp [blocks])
    exact { durable := sound.durable, saved := savedOuter
            working := fun _ _ => lawful }
  · exact joined same

theorem Sound.call {state next : Caller} (sound : Sound opening state)
    {fault : Fault} {now : Int} {call : Call}
    (taken : state.step (.call fault now call) = some next) :
    Sound opening next := by
  simp only [Caller.step, Option.ite_none_left_eq_some, Option.some.injEq] at taken
  obtain ⟨flying, rfl⟩ := taken
  have quiet : state.inFlight = none := by simpa using flying
  have spec := LedgerSession.call_spec state.session fault now call
  generalize state.session.call fault now call = answered at spec
  obtain ⟨session, result⟩ := answered
  have blocks : session.blocks = state.session.blocks := spec.blocks
  have saved : ∀ db, .savepoint db ∈ session.blocks → Lawful opening db := by
    rw [blocks]
    exact sound.saved
  cases result with
  | ok answer =>
    cases answer with
    | none =>
      obtain ⟨usable, _kept, working, durable⟩ := spec.unmatched rfl
      have lawful := sound.of_quiet quiet usable
      refine { durable := ?_, saved, working := ?_ }
      · change Lawful opening session.durable
        rw [show session.durable = _ from durable]
        split
        · exact lawful
        · exact sound.durable
      · intro _ _
        change Lawful opening session.working
        rw [show session.working = _ from working]
        exact lawful
    | some entry =>
      obtain ⟨usable, _kept, moved, durable⟩ := spec.moved entry rfl
      have lawful := (sound.of_quiet quiet usable).moved moved
      refine { durable := ?_, saved, working := fun _ _ => lawful }
      change Lawful opening session.durable
      rw [show session.durable = _ from durable]
      split
      · exact lawful
      · exact sound.durable
  | error error =>
    obtain ⟨durable, alone, inside⟩ := spec.refused error rfl
    refine { durable := ?_, saved, working := ?_ }
    · change Lawful opening session.durable
      rw [show session.durable = _ from durable]
      exact sound.durable
    · intro usable settled
      have usable : session.failed = false := usable
      change Lawful opening session.working
      by_cases idle : state.session.blocks = []
      · rcases alone idle with same | ⟨working, _⟩
        · have same : session = state.session := same
          rw [same] at usable ⊢
          exact sound.of_quiet quiet usable
        · rw [show session.working = _ from working]
          exact sound.durable
      · obtain ⟨stays, kept⟩ := inside idle
        have before : state.session.failed = false := by
          cases failed : state.session.failed with
          | false => rfl
          | true => simp [show session.failed = true from stays failed] at usable
        have early : error.late = false := by
          simpa [Caller.dangling, usable, idle] using settled
        rcases kept early with working | failed
        · rw [show session.working = _ from working]
          exact sound.of_quiet quiet before
        · simp [show session.failed = true from failed] at usable

theorem Sound.step {state next : Caller} {action : CallerAction}
    (sound : Sound opening state) (recovers : LetsRollBack state action)
    (taken : state.step action = some next) : Sound opening next := by
  cases action with
  | enterTransaction =>
    simp only [Caller.step, Option.ite_none_left_eq_some, Option.some.injEq] at taken
    obtain ⟨_quiet, rfl⟩ := taken
    exact { durable := sound.durable, working := sound.working
            saved := by simpa using sound.saved }
  | enterSavepoint =>
    simp only [Caller.step, Option.ite_none_left_eq_some, Option.some.injEq] at taken
    obtain ⟨quiet, rfl⟩ := taken
    simp only [Bool.or_eq_true, not_or, Option.isSome_iff_ne_none, ne_eq,
      not_not, Bool.not_eq_true] at quiet
    have lawful := sound.of_quiet quiet.1 quiet.2
    refine { durable := sound.durable, working := sound.working
             saved := ?_ }
    intro db member
    rcases List.mem_cons.mp member with same | older
    · cases same
      exact lawful
    · exact sound.saved db older
  | leaveBlock =>
    obtain ⟨⟨ending, outer⟩, left, rfl⟩ := Option.map_eq_some_iff.mp taken
    exact sound.leaveBlock left
  | raise =>
    simp only [Caller.step, Option.ite_none_left_eq_some, Option.some.injEq] at taken
    obtain ⟨flying, rfl⟩ := taken
    have quiet : state.inFlight = none := by simpa using flying
    exact { durable := sound.durable, saved := sound.saved
            working := fun usable _ => sound.of_quiet quiet usable }
  | swallow =>
    simp only [Caller.step, Option.ite_none_right_eq_some, Option.some.injEq] at taken
    obtain ⟨_flying, rfl⟩ := taken
    exact { durable := sound.durable, saved := sound.saved
            working := fun usable _ => sound.working usable (recovers rfl) }
  | call fault now call => exact sound.call taken
  | commit =>
    simp only [Caller.step, Option.ite_none_left_eq_some] at taken
    obtain ⟨quiet, taken⟩ := taken
    simp only [Bool.or_eq_true, not_or, Option.isSome_iff_ne_none, ne_eq,
      not_not, Bool.not_eq_true] at quiet
    split at taken
    · cases taken
      next failed =>
        exact { durable := sound.durable, saved := sound.saved
                working := fun usable _ => by simp [failed] at usable }
    · next usable =>
        cases taken
        have lawful := sound.of_quiet quiet.1 (by simpa using usable)
        exact { durable := lawful, saved := sound.saved
                working := fun _ _ => lawful }
  | rollback =>
    simp only [Caller.step, Option.ite_none_left_eq_some, Option.some.injEq] at taken
    obtain ⟨_outside, rfl⟩ := taken
    exact { durable := sound.durable, saved := sound.saved
            working := fun _ _ => sound.durable }

theorem Caller.durable_of_flying {state next : Caller} (flying : state.inFlight.isSome = true)
    (left : state.step .leaveBlock = some next) :
    next.session.durable = state.session.durable := by
  obtain ⟨⟨ending, outer⟩, ended, rfl⟩ := Option.map_eq_some_iff.mp left
  rcases Block.leave_cases ended with
    ⟨_, _, ⟨raised, _, _⟩ | ⟨_, rfl⟩⟩ | ⟨_, _, rfl⟩ | ⟨_, _, ⟨_, rfl⟩ | ⟨_, _, rfl⟩⟩
  · simp [raised] at flying
  all_goals rfl

structure Answered (session : LedgerSession) (now : Int) (call : Call)
    (after : LedgerSession) (result : Except LedgerError (Option Entry)) :
    Prop where
  covered : ∀ userId amountCents details entry,
    call = .debitAvailable userId amountCents details →
    result = .ok (some entry) → ∃ balance, session.working.wallets userId = some balance ∧
        heldCents session.working.entries userId now ≤ balance - amountCents
  unmatched : result = .ok none → after.working = session.working ∧
    (after.durable = session.durable ∨ after.durable = session.working)
  refused : ∀ error, result = .error error → after.durable = session.durable ∧
      (after.working = session.working ∨ after.working = session.durable ∨
        after.failed = true ∨ (session.blocks ≠ [] ∧ error.late = true))

theorem answered (session : LedgerSession) (fault : Fault) (now : Int) (call : Call) :
    Answered session now call (session.call fault now call).1
      (session.call fault now call).2 := by
  have spec := LedgerSession.call_spec session fault now call
  refine { covered := ?_, unmatched := ?_, refused := ?_ }
  · rintro userId amountCents details entry rfl accepted
    exact LedgerSession.debitAvailable_covered accepted
  · intro returned
    obtain ⟨_usable, _kept, working, durable⟩ := spec.unmatched returned
    refine ⟨working, ?_⟩
    rw [durable]
    split
    · exact .inr rfl
    · exact .inl rfl
  · intro error returned
    obtain ⟨durable, alone, inside⟩ := spec.refused error returned
    refine ⟨durable, ?_⟩
    by_cases idle : session.blocks = []
    · rcases alone idle with same | ⟨working, _⟩
      · exact .inl (by rw [same])
      · exact .inr (.inl working)
    · by_cases late : error.late = true
      · exact .inr (.inr (.inr ⟨idle, late⟩))
      · rcases (inside idle).2 (by simpa using late) with working | failed
        · exact .inl working
        · exact .inr (.inr (.inl failed))

/-- The running-balance law: in every run of a caller that lets a late
exception reach the block that takes its move back, what is durable is lawful,
and every call answers for what it did. -/
theorem running_balance_law (opening : UserId → Option Int)
    (schedule : List CallerAction) {final : Caller}
    (recovers : Meets Caller.step LetsRollBack
      (Caller.start (LedgerDb.opened opening)) schedule)
    (run : exec Caller.step (Caller.start (LedgerDb.opened opening)) schedule = some final) :
    Lawful opening final.session.durable ∧ (∀ fault now call, Answered final.session now call
        (final.session.call fault now call).1
        (final.session.call fault now call).2) ∧
      ∀ next, final.inFlight.isSome = true → final.step .leaveBlock = some next →
          next.session.durable = final.session.durable := by
  have sound : Sound opening final :=
    exec_invariant_of_meets (fun _ _ _ sound recovers taken => Sound.step sound recovers taken)
      recovers (sound_start opening) run
  exact ⟨sound.durable, fun fault now call => answered _ fault now call,
    fun _ => Caller.durable_of_flying⟩

def oneWallet : UserId → Option Int := fun userId =>
  if userId = 0 then some 100 else none

/-- A held credit commits; another one overflows inside a block that rolls
back; a debit beyond the available balance is refused. -/
def recoveringSchedule : List CallerAction :=
  [.call .none 0 (.credit 0 50 { kind := "GIFT" } 10), .enterTransaction,
    .call .none 1 (.credit 0 70 { kind := "GIFT" } maxHold),
    .leaveBlock, .swallow,
    .call .none 2 (.debitAvailable 0 101 { kind := "PAY" }), .swallow,
    .call .none 3 (.debitAvailable 0 100 { kind := "PAY" })]

theorem running_balance_law_recovering :
    ∃ final, exec Caller.step (Caller.start (LedgerDb.opened oneWallet))
        recoveringSchedule = some final ∧
      Lawful oneWallet final.session.durable :=
  ⟨_, rfl, (running_balance_law oneWallet recoveringSchedule (by decide)
    rfl).1⟩

/-- A caller swallows the overflow of a credit inside its own block and
commits: the balance moved and no line accounts for it. -/
def swallowingSchedule : List CallerAction :=
  [.enterTransaction, .call .none 1 (.credit 0 70 { kind := "GIFT" } maxHold),
    .swallow, .leaveBlock]

theorem swallowed_overflow_breaks_law :
    ∃ final, exec Caller.step (Caller.start (LedgerDb.opened oneWallet))
        swallowingSchedule = some final ∧
      ¬ Lawful oneWallet final.session.durable := by
  refine ⟨_, rfl, fun lawful => ?_⟩
  have balance := lawful.balance 0
  revert balance
  decide

end Wallet

end TempestSdk
