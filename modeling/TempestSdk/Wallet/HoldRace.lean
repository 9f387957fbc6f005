import TempestSdk.Library.Runs
import TempestSdk.Library.RowVersions
import TempestSdk.Wallet.Ledger

/-!
# Credits and debits that race for a wallet

`credit` and `debit_available` under READ COMMITTED, statement by statement.
The `UPDATE` of a debit evaluates `_held_cents_query` on the snapshot it
starts with, and the balance on the row it has locked.  A held credit and
another debit that both commit between the two are therefore weighed
differently: the balance counts them and the hold does not.
-/

namespace TempestSdk

namespace HoldRace

open Runs ReadCommitted Wallet

inductive HoldPhase where
  | idle
  /-- `credit` issued its `UPDATE` and may wait for the row. -/
  | crediting (userId : UserId) (amountCents : Int) (details : Details)
      (hold : Int)
  /-- `debit_available` read the clock. -/
  | requested (userId : UserId) (amountCents : Int) (details : Details)
      (now : Int)
  /-- The `UPDATE` of `debit_available` found the row in its snapshot, which
  has the given ledger lines, and may wait for it. -/
  | debiting (userId : UserId) (amountCents : Int) (details : Details)
      (now : Int) (seen : List Entry)
  | written (entry : Entry)
  deriving DecidableEq

/-- The balance column, the committed ledger, the clock, and where each
transaction stands. -/
structure HoldDb where
  wallets : Rows TxId UserId Int
  entries : List Entry
  clock : Int
  phase : TxId → HoldPhase

inductive HoldAction where
  | tick (elapsed : Nat)
  | credit (tx : TxId) (userId : UserId) (amountCents : Int)
      (details : Details) (hold : Int)
  | debit (tx : TxId) (userId : UserId) (amountCents : Int)
      (details : Details)
  | snapshot (tx : TxId)
  | lock (tx : TxId)
  | commit (tx : TxId)
  | rollback (tx : TxId)
  deriving DecidableEq

/-- The `WHERE` of the debit, with the hold its snapshot gives. -/
def covers (amountCents held : Int) (balance : Int) : Bool :=
  decide (held ≤ balance - amountCents)

namespace HoldDb

def start (opening : List Int) : HoldDb :=
  { wallets := .settled (List.range opening.length)
      (fun userId => opening[userId]?) (by simp)
    entries := []
    clock := 0
    phase := fun _ => .idle }

def goto (db : HoldDb) (tx : TxId) (phase : HoldPhase) : HoldDb :=
  { db with phase := Function.update db.phase tx phase }

def rollback (db : HoldDb) (tx : TxId) : HoldDb :=
  { db with
    wallets := db.wallets.rollback tx
    phase := Function.update db.phase tx .idle }

@[grind =] def step (db : HoldDb) : HoldAction → Option HoldDb
  | .tick elapsed => some { db with clock := db.clock + elapsed }
  | .credit tx userId amountCents details hold =>
    if db.phase tx = .idle ∧ 0 < amountCents ∧ 0 ≤ hold then
      some (db.goto tx (.crediting userId amountCents details hold))
    else none
  | .debit tx userId amountCents details =>
    if db.phase tx = .idle ∧ 0 < amountCents then
      some (db.goto tx (.requested userId amountCents details db.clock))
    else none
  | .snapshot tx =>
    match db.phase tx with
    | .requested userId amountCents details now =>
      if (db.wallets.visible tx userId).any
          (covers amountCents (heldCents db.entries userId now)) then
        some (db.goto tx (.debiting userId amountCents details now db.entries))
      else some (db.rollback tx)
    | _ => none
  | .lock tx =>
    match db.phase tx with
    | .crediting userId amountCents details hold =>
      (db.wallets.update tx userId (fun _ => true)
          (· + amountCents)).map fun (matched, wallets) =>
        match wallets.visible tx userId with
        | some balanceAfter =>
          if matched ∧ db.clock + hold ≤ maxInstant then
            { db with wallets }.goto tx (.written
              (LedgerSession.line userId details amountCents balanceAfter (db.clock + hold)))
          else db.rollback tx
        | none => db.rollback tx
    | .debiting userId amountCents details now seen =>
      (db.wallets.update tx userId (covers amountCents (heldCents seen userId now))
          (· + -amountCents)).map fun (matched, wallets) =>
        match wallets.visible tx userId with
        | some balanceAfter =>
          if matched then
            { db with wallets }.goto tx (.written
              (LedgerSession.line userId details (-amountCents) balanceAfter now))
          else db.rollback tx
        | none => db.rollback tx
    | _ => none
  | .commit tx =>
    match db.phase tx with
    | .written entry =>
      some { db with
          wallets := db.wallets.commit tx
          entries := db.entries ++ [entry]
          phase := Function.update db.phase tx .idle }
    | _ => none
  | .rollback tx => some (db.rollback tx)

end HoldDb

def committedSince (db : HoldDb) (seen : List Entry) (userId : UserId) : List Entry :=
  (db.entries.drop seen.length).filter fun entry =>
    decide (entry.userId = userId)

/-- Since the snapshot of the debit that now gets its lock, no credit still on
hold or no debit of the wallet committed. -/
def snapshotStands (db : HoldDb) : HoldAction → Bool
  | .lock tx =>
    match db.phase tx with
    | .debiting userId _ _ now seen =>
      (committedSince db seen userId).all (fun entry => !entry.held userId now) ||
        (committedSince db seen userId).all fun entry => decide (0 ≤ entry.amountCents)
    | _ => true
  | _ => true

def expected (start : Int) (entries : List Entry) (userId : UserId) : Int :=
  start + ((entries.filter fun entry =>
    decide (entry.userId = userId)).map Entry.amountCents).sum

def Held (opening : List Int) (db : HoldDb) (tx : TxId) : HoldPhase → Prop
  | .crediting _ amountCents _ _ => db.wallets.Quiet tx ∧ 0 < amountCents
  | .requested _ amountCents _ now => db.wallets.Quiet tx ∧
      0 < amountCents ∧ now ≤ db.clock
  | .debiting userId amountCents _ now seen => db.wallets.Quiet tx ∧
      0 < amountCents ∧ now ≤ db.clock ∧ seen <+: db.entries ∧
      ∃ start, opening[userId]? = some start ∧
        heldCents seen userId now ≤ expected start seen userId - amountCents
  | .written entry => ∃ balance,
      db.wallets.committed entry.userId = some balance ∧
      db.wallets.Holds tx (fun key version => key = entry.userId ∧
        version = some (balance + entry.amountCents)) ∧
      (entry.amountCents < 0 → ∃ now, now ≤ db.clock ∧ heldCents db.entries entry.userId now ≤
          balance + entry.amountCents)
  | _ => db.wallets.Quiet tx

structure Sound (opening : List Int) (db : HoldDb) : Prop where
  balanced : ∀ userId, db.wallets.committed userId =
    opening[userId]?.map fun start => expected start db.entries userId
  held : ∀ tx, Held opening db tx (db.phase tx)

theorem expected_append (start : Int) (first second : List Entry) (userId : UserId) :
    expected start (first ++ second) userId = expected start first userId +
      ((second.filter fun entry =>
        decide (entry.userId = userId)).map Entry.amountCents).sum := by
  simp [expected, add_assoc]

theorem heldCents_other {entry : Entry} {userId : UserId}
    (other : userId ≠ entry.userId) (entries : List Entry) (now : Int) :
    heldCents (entries ++ [entry]) userId now = heldCents entries userId now := by
  have notHeld : entry.held userId now = false := by
    simp [Entry.held, Ne.symm other]
  simp [heldCents_append, heldCents_singleton, notHeld]

theorem heldCents_le_sum {entries : List Entry} {userId : UserId} (now : Int)
    (credits : ∀ entry ∈ entries, entry.userId = userId → 0 ≤ entry.amountCents) :
    heldCents entries userId now ≤ ((entries.filter fun entry =>
      decide (entry.userId = userId)).map Entry.amountCents).sum := by
  induction entries with
  | nil => simp
  | cons entry rest induction =>
    have later := induction fun other member =>
      credits other (List.mem_cons_of_mem _ member)
    have here := credits entry List.mem_cons_self
    rw [heldCents_cons]
    by_cases owner : entry.userId = userId
    · have nonneg := here owner
      rw [List.filter_cons_of_pos (by simpa using owner), List.map_cons,
        List.sum_cons]
      split <;> omega
    · rw [List.filter_cons_of_neg (by simpa using owner), if_neg]
      · simpa using later
      · simp [Entry.held, owner]

theorem heldCents_eq_zero {entries : List Entry} {userId : UserId} {now : Int}
    (released : ∀ entry ∈ entries, entry.userId = userId → entry.held userId now = false) :
    heldCents entries userId now = 0 := by
  have empty : entries.filter (Entry.held userId now) = [] := by
    apply List.filter_eq_nil_iff.mpr
    intro entry member held
    have owner := (Entry.held_iff.mp held).1
    simp [released entry member owner] at held
  simp [heldCents, empty]

section Steps

variable {opening : List Int} {db : HoldDb} {tx : TxId}

/-- What a step of one transaction may do around one that stands still. -/
structure Frame (db next : HoldDb) (other : TxId) : Prop where
  wallets : Rows.Undisturbed db.wallets next.wallets other
  clock : db.clock ≤ next.clock
  entries : db.entries <+: next.entries
  holds : ∀ userId version, db.wallets.pending userId = some (other, version) → ∀ now,
      heldCents next.entries userId now = heldCents db.entries userId now

variable {next : HoldDb}

theorem Held.frame {other : TxId} {phase : HoldPhase}
    (held : Held opening db other phase) (frame : Frame db next other) :
    Held opening next other phase := by
  cases phase with
  | requested userId amountCents details now =>
    obtain ⟨quiet, positive, earlier⟩ := held
    exact ⟨frame.wallets.quiet quiet, positive, earlier.trans frame.clock⟩
  | debiting userId amountCents details now seen =>
    obtain ⟨quiet, positive, earlier, older, covered⟩ := held
    exact ⟨frame.wallets.quiet quiet, positive, earlier.trans frame.clock,
      older.trans frame.entries, covered⟩
  | written entry =>
    obtain ⟨balance, found, holds, covered⟩ := held
    have pending := (holds entry.userId _).mpr ⟨rfl, rfl⟩
    refine ⟨balance, ?_, frame.wallets.holds holds, ?_⟩
    · rw [frame.wallets.fixed _ _ pending, found]
    · intro debit
      obtain ⟨now, earlier, enough⟩ := covered debit
      refine ⟨now, earlier.trans frame.clock, ?_⟩
      rw [frame.holds _ _ pending]
      exact enough
  | idle => exact frame.wallets.quiet held
  | crediting userId amountCents details hold => exact ⟨frame.wallets.quiet held.1, held.2⟩

section

variable (sound : Sound opening db)

include sound

theorem Sound.advance {phase : HoldPhase}
    (committed : next.wallets.committed = db.wallets.committed)
    (entries : next.entries = db.entries) (clock : next.clock = db.clock)
    (phases : next.phase = Function.update db.phase tx phase)
    (undisturbed : ∀ other, other ≠ tx → Rows.Undisturbed db.wallets next.wallets other)
    (held : Held opening next tx phase) : Sound opening next where
  balanced := by
    rw [committed, entries]
    exact sound.balanced
  held := by
    intro other
    rw [phases]
    by_cases same : other = tx
    · subst same
      simpa using held
    · rw [Function.update_of_ne same]
      exact (sound.held other).frame
        { wallets := undisturbed other same
          clock := le_of_eq clock.symm
          entries := by simp [entries]
          holds := fun _ _ _ _ => by rw [entries] }

theorem Sound.goto {phase : HoldPhase}
    (held : Held opening db tx phase) : Sound opening (db.goto tx phase) := by
  refine sound.advance rfl rfl rfl rfl (fun _ _ => .refl _ _) ?_
  cases phase <;> exact held

theorem Sound.rollback : Sound opening (db.rollback tx) :=
  sound.advance rfl rfl rfl rfl (fun _ different => Rows.undisturbed_rollback _ different)
    (Rows.quiet_rollback db.wallets tx)

theorem Sound.expected_of_committed {userId : UserId} {balance : Int}
    (found : db.wallets.committed userId = some balance) :
    ∃ start, opening[userId]? = some start ∧ balance = expected start db.entries userId := by
  rw [sound.balanced userId] at found
  obtain ⟨start, known, same⟩ := Option.map_eq_some_iff.mp found
  exact ⟨start, known, same.symm⟩

theorem Sound.snapshot
    (taken : db.step (.snapshot tx) = some next) : Sound opening next := by
  simp only [HoldDb.step] at taken
  split at taken
  · next userId amountCents details now phase =>
      obtain ⟨quiet, positive, earlier⟩ :
          Held opening db tx (.requested userId amountCents details now) := by
        rw [← phase]
        exact sound.held tx
      rw [quiet.visible] at taken
      cases found : db.wallets.committed userId with
      | none =>
        simp only [found, Option.any_none, Bool.false_eq_true, if_false,
          Option.some.injEq] at taken
        cases taken
        exact sound.rollback
      | some balance =>
        simp only [found, Option.any_some] at taken
        split at taken
        · next enough =>
            cases taken
            obtain ⟨start, known, rfl⟩ := sound.expected_of_committed found
            exact sound.goto ⟨quiet, positive, earlier, List.prefix_rfl,
              start, known, by simpa [covers] using enough⟩
        · cases taken
          exact sound.rollback
  · simp at taken

end

theorem covered_of_stands {start amountCents now : Int} {userId : UserId}
    {seen since : List Entry}
    (before : heldCents seen userId now ≤ expected start seen userId - amountCents)
    (checked : heldCents seen userId now ≤ expected start (seen ++ since) userId - amountCents)
    (stands : (∀ entry ∈ since, entry.userId = userId → entry.held userId now = false) ∨
      ∀ entry ∈ since, entry.userId = userId → 0 ≤ entry.amountCents) :
    heldCents (seen ++ since) userId now ≤
      expected start (seen ++ since) userId - amountCents := by
  rw [heldCents_append]
  rcases stands with released | credits
  · rw [heldCents_eq_zero released]
    omega
  · have gained := heldCents_le_sum now credits
    rw [expected_append]
    omega

theorem Sound.lock (sound : Sound opening db) (stands : snapshotStands db (.lock tx) = true)
    (taken : db.step (.lock tx) = some next) : Sound opening next := by
  simp only [HoldDb.step] at taken
  split at taken
  · next userId amountCents details hold phase =>
      obtain ⟨quiet, positive⟩ :
          Held opening db tx (.crediting userId amountCents details hold) := by
        rw [← phase]
        exact sound.held tx
      obtain ⟨⟨matched, wallets⟩, ran, rfl⟩ := Option.map_eq_some_iff.mp taken
      obtain ⟨free, ⟨rfl, balance, found, _, rfl⟩ | ⟨rfl, rfl, _⟩⟩ :=
        Rows.update_cases ran
      · rw [quiet.visible] at found
        simp only [Rows.visible_of_pending (Rows.pending_write_self _ _ _ _)]
        split
        · exact sound.advance rfl rfl rfl rfl
            (fun _ different => Rows.undisturbed_write free different _)
            ⟨balance, found, quiet.holds_write userId _, fun debit => by
              simp only [LedgerSession.line] at debit
              omega⟩
        · exact sound.rollback
      · simp only [Bool.false_eq_true, false_and, if_false]
        split <;> exact sound.rollback
  · next userId amountCents details now seen phase =>
      obtain ⟨quiet, positive, earlier, ⟨since, older⟩, start, known, before⟩ :
          Held opening db tx (.debiting userId amountCents details now seen) := by
        rw [← phase]
        exact sound.held tx
      obtain ⟨⟨matched, wallets⟩, ran, rfl⟩ := Option.map_eq_some_iff.mp taken
      obtain ⟨free, ⟨rfl, balance, found, enough, rfl⟩ | ⟨rfl, rfl, _⟩⟩ :=
        Rows.update_cases ran
      · rw [quiet.visible] at found
        obtain ⟨first, again, total⟩ := sound.expected_of_committed found
        rw [known] at again
        cases again
        simp only [snapshotStands, phase, committedSince, ← older,
          List.drop_left, Bool.or_eq_true, List.all_eq_true, List.mem_filter,
          decide_eq_true_eq, Bool.not_eq_true', and_imp] at stands
        simp only [covers, decide_eq_true_eq] at enough
        rw [total, ← older] at enough
        have covered := covered_of_stands before enough stands
        rw [older, ← total] at covered
        simp only [Rows.visible_of_pending (Rows.pending_write_self _ _ _ _), if_true]
        refine sound.advance rfl rfl rfl rfl
          (fun _ different => Rows.undisturbed_write free different _)
          ⟨balance, found, quiet.holds_write userId _, fun _ =>
            ⟨now, earlier, ?_⟩⟩
        change heldCents db.entries userId now ≤ balance + -amountCents
        omega
      · simp only [Bool.false_eq_true, if_false]
        split <;> exact sound.rollback
  · simp at taken

theorem step_commit (entry : Entry) (written : db.phase tx = .written entry) :
    db.step (.commit tx) = some { db with
          wallets := db.wallets.commit tx
          entries := db.entries ++ [entry]
          phase := Function.update db.phase tx .idle } := by
  simp [HoldDb.step, written]

theorem Sound.commit (sound : Sound opening db)
    (taken : db.step (.commit tx) = some next) : Sound opening next := by
  simp only [HoldDb.step] at taken
  split at taken
  · next entry phase =>
      cases taken
      obtain ⟨balance, found, holds, covered⟩ : Held opening db tx (.written entry) := by
        rw [← phase]
        exact sound.held tx
      have pending := (holds entry.userId _).mpr ⟨rfl, rfl⟩
      constructor
      · intro userId
        change (db.wallets.commit tx).committed userId = _
        by_cases same : userId = entry.userId
        · subst same
          obtain ⟨start, known, total⟩ := sound.expected_of_committed found
          rw [Rows.committed_commit, Rows.visible_of_pending pending, known, total]
          simp [expected_append]
        · have unlocked : (db.wallets.commit tx).committed userId =
              db.wallets.committed userId := by
            apply Rows.committed_commit_of_other
            intro version own
            exact same ((holds userId version).mp own).1
          rw [unlocked, sound.balanced userId]
          simp [expected_append, Ne.symm same]
      · intro other
        by_cases same : other = tx
        · subst same
          simp only [Function.update_self]
          exact Rows.quiet_commit db.wallets other
        · simp only [Function.update_of_ne same]
          refine (sound.held other).frame
            { wallets := Rows.undisturbed_commit db.wallets same
              clock := le_rfl
              entries := List.prefix_append _ _
              holds := ?_ }
          intro userId version owned now
          apply heldCents_other
          rintro rfl
          rw [pending] at owned
          cases owned
          exact same rfl
  · simp at taken

theorem Sound.step (sound : Sound opening db) {action : HoldAction}
    (stands : snapshotStands db action = true)
    (taken : db.step action = some next) : Sound opening next := by
  cases action with
  | tick elapsed =>
    cases taken
    refine ⟨sound.balanced, fun other => (sound.held other).frame ?_⟩
    exact { wallets := .refl _ _
            clock := by simp
            entries := List.prefix_rfl
            holds := fun _ _ _ _ => rfl }
  | credit tx userId amountCents details hold =>
    simp only [HoldDb.step, Option.ite_none_right_eq_some, Option.some.injEq] at taken
    obtain ⟨⟨idle, positive, _⟩, rfl⟩ := taken
    have held := sound.held tx
    rw [idle] at held
    exact sound.goto ⟨held, positive⟩
  | debit tx userId amountCents details =>
    simp only [HoldDb.step, Option.ite_none_right_eq_some, Option.some.injEq] at taken
    obtain ⟨⟨idle, positive⟩, rfl⟩ := taken
    have held := sound.held tx
    rw [idle] at held
    exact sound.goto ⟨held, positive, le_rfl⟩
  | snapshot tx => exact sound.snapshot taken
  | lock tx => exact sound.lock stands taken
  | commit tx => exact sound.commit taken
  | rollback tx =>
    cases taken
    exact sound.rollback

end Steps

theorem sound_start (opening : List Int) : Sound opening (.start opening) where
  balanced := by
    intro userId
    simp [HoldDb.start, Rows.settled, expected]
  held := by
    intro tx key version
    simp [HoldDb.start, Rows.settled]

/-- Right after a debit commits, the balance covers what is on hold, in every
run in which the snapshot of each debit still stands when it gets its lock. -/
theorem hold_never_drained (opening : List Int) (schedule : List HoldAction)
    {state next : HoldDb} {tx : TxId} {entry : Entry}
    (stands : Meets HoldDb.step (fun db action => snapshotStands db action = true)
      (.start opening) schedule)
    (run : exec HoldDb.step (.start opening) schedule = some state)
    (written : state.phase tx = .written entry)
    (debit : entry.amountCents < 0)
    (committed : state.step (.commit tx) = some next) :
    ∃ balance, next.wallets.committed entry.userId = some balance ∧
      heldCents next.entries entry.userId next.clock ≤ balance := by
  have sound : Sound opening state :=
    exec_invariant_of_meets (fun _ _ _ sound stands taken => Sound.step sound stands taken)
      stands (sound_start opening) run
  obtain ⟨balance, found, holds, covered⟩ : Held opening state tx (.written entry) := by
    rw [← written]
    exact sound.held tx
  obtain ⟨now, earlier, enough⟩ := covered debit
  simp only [HoldDb.step, written, Option.some.injEq] at committed
  subst committed
  refine ⟨balance + entry.amountCents, ?_, ?_⟩
  · change (state.wallets.commit tx).committed entry.userId = _
    rw [Rows.committed_commit, Rows.visible_of_pending ((holds entry.userId _).mpr ⟨rfl, rfl⟩)]
  · have own : entry.held entry.userId state.clock = false := by
      simp [Entry.held]
      omega
    simp only [heldCents_append, heldCents_singleton, own,
      Bool.false_eq_true, if_false, add_zero]
    exact (heldCents_anti _ _ earlier).trans enough

/-- A debit next to a held credit that commits first. -/
def coveredDebit : List HoldAction :=
  [.credit 1 0 100 { kind := "SALE" } 1000, .debit 2 0 100 { kind := "PAY" },
    .lock 1, .snapshot 2, .commit 1, .lock 2]

theorem hold_never_drained_covered : ∃ state next,
      exec HoldDb.step (.start [100]) coveredDebit = some state ∧
      state.step (.commit 2) = some next ∧
      ∃ balance, next.wallets.committed 0 = some balance ∧
        heldCents next.entries 0 next.clock ≤ balance :=
  let entry := LedgerSession.line 0 { kind := "PAY" } (-100) 100 0
  have ran : ∃ state, exec HoldDb.step (.start [100]) coveredDebit =
      some state ∧ state.phase 2 = .written entry := ⟨_, rfl, by decide⟩
  ran.elim fun state ⟨run, written⟩ =>
    ⟨state, _, run, step_commit entry written,
      hold_never_drained [100] coveredDebit (by decide) run written
        (by decide) (step_commit entry written)⟩

/-- A held credit of 100 is in flight when two debits of 100 take their
snapshots of a wallet with 100 released.  The credit commits, and both debits
pass: the second one spends what is on hold. -/
def drainedHold : List HoldAction :=
  [.credit 1 0 100 { kind := "SALE" } 1000, .lock 1,
    .debit 2 0 100 { kind := "PAY" }, .snapshot 2,
    .debit 3 0 100 { kind := "PAY" }, .snapshot 3,
    .commit 1, .lock 2, .commit 2, .lock 3]

theorem hold_drained_by_second_debit : ∃ state next,
      exec HoldDb.step (.start [100]) drainedHold = some state ∧
      state.phase 3 = .written (LedgerSession.line 0 { kind := "PAY" } (-100) 0 0) ∧
      state.step (.commit 3) = some next ∧
      next.wallets.committed 0 = some 0 ∧
      heldCents next.entries 0 next.clock = 100 :=
  ⟨_, _, rfl, by decide, step_commit
    (LedgerSession.line 0 { kind := "PAY" } (-100) 0 0) (by decide),
    by decide, by decide⟩

end HoldRace

end TempestSdk
