import TempestSdk.Library.Runs
import TempestSdk.Library.RowVersions
import TempestSdk.Db.Transaction

/-!
# Settlements that run once

Any number of workers call `claim_once` on the rows of one table and write the
effects it guards in the same transaction.  A worker opens and leaves blocks,
raises and handles exceptions, and may crash.  It writes the effects of a row
only while it is in the block in which `claim_once` answered `True` for it, so
a savepoint that is reverted takes both the claim and the effects back.
-/

namespace TempestSdk

namespace ClaimOnce

open Runs ReadCommitted

abbrev RowId := Nat

structure ClaimRow where
  claimedAt : Option Int
  deriving DecidableEq

/-- The `WHERE` of `claim_once`, next to the id. -/
def ClaimRow.unclaimed (row : ClaimRow) : Bool := row.claimedAt.isNone

def ClaimRow.stamp (now : Int) (_row : ClaimRow) : ClaimRow :=
  { claimedAt := some now }

/-- What a worker has done in its open transaction: its uncommitted versions,
the rows it claimed, and the rows whose effects it wrote. -/
structure Level where
  own : RowId → Option (Option ClaimRow)
  claims : List RowId
  staged : List RowId

structure Worker where
  blocks : List (Block Level)
  raised : Bool
  /-- The database refuses everything until a rollback. -/
  failed : Bool
  /-- The row an `UPDATE` of `claim_once` found and may wait for. -/
  waiting : Option (RowId × Int)
  claims : List RowId
  staged : List RowId

def Worker.fresh : Worker :=
  { blocks := [], raised := false, failed := false, waiting := none
    claims := [], staged := [] }

def Worker.able (worker : Worker) : Bool :=
  !worker.raised && !worker.failed && worker.waiting.isNone

/-- The table, the workers, and the effects that are committed: the row they
belong to and the number of the commit that made them durable. -/
structure Settlement where
  rows : Rows TxId RowId ClaimRow
  worker : TxId → Worker
  commits : Nat
  settled : List (RowId × Nat)

inductive SettlementAction where
  | enterTransaction (tx : TxId)
  | enterSavepoint (tx : TxId)
  /-- Leave the innermost block, carrying the exception in flight. -/
  | leave (tx : TxId)
  | claim (tx : TxId) (row : RowId) (now : Int)
  | lockClaim (tx : TxId)
  | effect (tx : TxId) (row : RowId)
  | raise (tx : TxId)
  | swallow (tx : TxId)
  /-- The database aborts the transaction (a deadlock, a refused flush). -/
  | abort (tx : TxId)
  /-- `session.commit()`, outside any block. -/
  | commit (tx : TxId)
  | crash (tx : TxId)
  deriving DecidableEq

namespace Settlement

def start (columns : List (Option Int)) : Settlement :=
  { rows := .settled (List.range columns.length)
      (fun row => columns[row]?.map ClaimRow.mk) (by simp)
    worker := fun _ => .fresh
    commits := 0
    settled := [] }

def setWorker (state : Settlement) (tx : TxId) (worker : Worker) : Settlement :=
  { state with worker := Function.update state.worker tx worker }

def level (state : Settlement) (tx : TxId) : Level :=
  { own := state.rows.own tx
    claims := (state.worker tx).claims
    staged := (state.worker tx).staged }

def settle (state : Settlement) (tx : TxId) (outer : List (Block Level)) :
    Ending Level → Settlement
  | .commit =>
    { state with
      rows := state.rows.commit tx
      commits := state.commits + 1
      settled := state.settled ++ (state.worker tx).staged.map fun row => (row, state.commits)
    }.setWorker tx { state.worker tx with
      blocks := outer, claims := [], staged := [] }
  | .rollback =>
    { state with rows := state.rows.rollback tx }.setWorker tx
      { state.worker tx with
        blocks := outer, claims := [], staged := [], failed := false
        raised := true }
  | .rollbackTo saved =>
    { state with rows := state.rows.rollbackTo tx saved.own }.setWorker tx
      { state.worker tx with
        blocks := outer, claims := saved.claims, staged := saved.staged
        failed := false, raised := true }
  | .joined => state.setWorker tx { state.worker tx with blocks := outer }

@[grind =] def step (state : Settlement) : SettlementAction → Option Settlement
  | .enterTransaction tx =>
    let worker := state.worker tx
    if worker.able then
      some (state.setWorker tx { worker with blocks := .transaction :: worker.blocks })
    else none
  | .enterSavepoint tx =>
    let worker := state.worker tx
    if worker.able then
      some (state.setWorker tx { worker with
          blocks := .savepoint (state.level tx) :: worker.blocks })
    else none
  | .leave tx =>
    let worker := state.worker tx
    if worker.waiting.isNone then
      (Block.leave worker.raised worker.failed worker.blocks).map
        fun (ending, outer) => state.settle tx outer ending
    else none
  | .claim tx row now =>
    let worker := state.worker tx
    if worker.able then
      if (state.rows.visible tx row).any ClaimRow.unclaimed then
        some (state.setWorker tx { worker with waiting := some (row, now) })
      else some state
    else none
  | .lockClaim tx =>
    let worker := state.worker tx
    match worker.waiting with
    | some (row, now) =>
      (state.rows.update tx row ClaimRow.unclaimed
          (ClaimRow.stamp now)).map fun (matched, rows) =>
        { state with rows }.setWorker tx
          { worker with
            waiting := none
            claims :=
              if matched then row :: worker.claims else worker.claims }
    | none => none
  | .effect tx row =>
    let worker := state.worker tx
    if worker.able && worker.claims.contains row then
      some (state.setWorker tx { worker with staged := row :: worker.staged })
    else none
  | .raise tx =>
    let worker := state.worker tx
    if worker.able then
      some (state.setWorker tx { worker with raised := true })
    else none
  | .swallow tx => some (state.setWorker tx { state.worker tx with raised := false })
  | .abort tx =>
    some (state.setWorker tx { state.worker tx with
      raised := true, failed := true, waiting := none })
  | .commit tx =>
    let worker := state.worker tx
    if worker.able && worker.blocks.isEmpty then
      some (state.settle tx [] .commit)
    else none
  | .crash tx => some ({ state with rows := state.rows.rollback tx }.setWorker tx .fresh)

end Settlement

/-- A level holds the locks of its claims, over rows nobody had claimed, and
its effects are those of its claims. -/
structure Level.Good (rows : Rows TxId RowId ClaimRow) (level : Level) :
    Prop where
  claimed : ∀ key version, level.own key = some version → key ∈ level.claims ∧
      (∃ row, rows.committed key = some row ∧ row.claimedAt = none) ∧
      ∃ now, version = some { claimedAt := some now }
  owned : ∀ key ∈ level.claims, ∃ version, level.own key = some version
  guarded : ∀ key ∈ level.staged, key ∈ level.claims

def Level.Within (older newer : Level) : Prop :=
  ∀ key version, older.own key = some version → newer.own key = some version

def Levels (rows : Rows TxId RowId ClaimRow) : Level → List (Block Level) → Prop
  | current, [] => current.Good rows
  | current, .transaction :: outer => Levels rows current outer
  | current, .savepoint saved :: outer =>
    current.Good rows ∧ saved.Within current ∧ Levels rows saved outer

variable {rows after : Rows TxId RowId ClaimRow} {current : Level}
  {blocks : List (Block Level)}

theorem Levels.good (levels : Levels rows current blocks) : current.Good rows := by
  induction blocks with
  | nil => exact levels
  | cons block outer induction =>
    cases block with
    | transaction => exact induction levels
    | savepoint saved => exact levels.1

theorem Levels.grow (levels : Levels rows current blocks) {newer : Level}
    (within : current.Within newer) (good : newer.Good rows) :
    Levels rows newer blocks := by
  induction blocks with
  | nil => exact good
  | cons block outer induction =>
    cases block with
    | transaction => exact induction levels
    | savepoint saved =>
      exact ⟨good, fun key version owned =>
        within key version (levels.2.1 key version owned), levels.2.2⟩

theorem Level.Good.frame (good : current.Good rows)
    (fixed : ∀ key version, current.own key = some version →
      after.committed key = rows.committed key) : current.Good after where
  claimed := by
    intro key version owned
    obtain ⟨member, ⟨row, found, free⟩, stamped⟩ :=
      good.claimed key version owned
    exact ⟨member, ⟨row, by rw [fixed key version owned, found], free⟩,
      stamped⟩
  owned := good.owned
  guarded := good.guarded

theorem Levels.frame (levels : Levels rows current blocks)
    (fixed : ∀ key version, current.own key = some version →
      after.committed key = rows.committed key) :
    Levels after current blocks := by
  induction blocks generalizing current with
  | nil => exact Level.Good.frame levels fixed
  | cons block outer induction =>
    cases block with
    | transaction => exact induction levels fixed
    | savepoint saved =>
      obtain ⟨good, within, older⟩ := levels
      exact ⟨good.frame fixed, within, induction older
        fun key version owned => fixed key version (within key version owned)⟩

theorem levels_quiet {tx : TxId} (quiet : rows.Quiet tx) :
    Level.Good rows { own := rows.own tx, claims := [], staged := [] } where
  claimed := by
    intro key version owned
    exact absurd (Rows.own_eq_some.mp owned) (quiet key version)
  owned := by simp
  guarded := by simp

structure Sound (state : Settlement) : Prop where
  levels : ∀ tx, Levels state.rows (state.level tx) (state.worker tx).blocks
  recorded : ∀ row number, (row, number) ∈ state.settled →
    number < state.commits ∧ ∃ record, state.rows.committed row = some record ∧
        record.claimedAt.isSome = true
  once : ∀ row first second, (row, first) ∈ state.settled →
    (row, second) ∈ state.settled → first = second

section Steps

variable {state : Settlement} {tx : TxId}
variable {next : Settlement}

section

variable (sound : Sound state)

include sound

theorem Sound.advance {worker : Worker}
    (committed : next.rows.committed = state.rows.committed)
    (commits : next.commits = state.commits)
    (settled : next.settled = state.settled)
    (workers : next.worker = Function.update state.worker tx worker)
    (undisturbed : ∀ other, other ≠ tx →
      Rows.Undisturbed state.rows next.rows other)
    (levels : Levels next.rows
      { own := next.rows.own tx, claims := worker.claims
        staged := worker.staged } worker.blocks) :
    Sound next where
  levels := by
    intro other
    by_cases same : other = tx
    · subst same
      simpa [Settlement.level, workers] using levels
    · have own := (undisturbed other same).own
      have old := sound.levels other
      simp only [Settlement.level, workers, Function.update_of_ne same, own]
      exact old.frame fun key version owned =>
        (undisturbed other same).fixed key version (Rows.own_eq_some.mp owned)
  recorded := by
    rw [settled, commits, committed]
    exact sound.recorded
  once := by
    rw [settled]
    exact sound.once

theorem Sound.setWorker {worker : Worker} (levels : Levels state.rows
      { own := state.rows.own tx, claims := worker.claims
        staged := worker.staged } worker.blocks) :
    Sound (state.setWorker tx worker) :=
  sound.advance rfl rfl rfl rfl (fun _ _ => .refl _ _) levels

theorem Sound.lockClaim
    (taken : state.step (.lockClaim tx) = some next) : Sound next := by
  simp only [Settlement.step] at taken
  split at taken
  · next row now waiting =>
      obtain ⟨⟨matched, rows⟩, ran, rfl⟩ := Option.map_eq_some_iff.mp taken
      have levels := sound.levels tx
      have good := levels.good
      obtain ⟨free, ⟨rfl, record, found, picked, rfl⟩ | ⟨rfl, rfl, _⟩⟩ :=
        Rows.update_cases ran
      · have unclaimed : record.claimedAt = none := by
          simpa [ClaimRow.unclaimed] using picked
        -- The worker's own versions are claimed, so it matched a committed row.
        have unowned : ∀ version, state.rows.pending row ≠ some (tx, version) := by
          intro version pending
          obtain ⟨_, _, stamped, rfl⟩ :=
            good.claimed row version (Rows.own_eq_some.mpr pending)
          rw [Rows.visible_of_pending pending] at found
          cases found
          simp at unclaimed
        have committed : state.rows.committed row = some record := by
          rcases Rows.visible_cases state.rows tx row with own | ⟨same, _⟩
          · exact absurd own (unowned _)
          · rw [← same, found]
        have ownSelf : ∀ key version,
            (state.rows.write tx row (some (record.stamp now))).own tx key = some version ↔
              (key = row ∧ version = some (record.stamp now)) ∨
                (key ≠ row ∧ state.rows.own tx key = some version) := by
          intro key version
          rw [Rows.own_eq_some, Rows.own_eq_some]
          by_cases same : key = row
          · subst same
            simp [eq_comm]
          · rw [Rows.pending_write_of_ne _ _ _ same]
            simp [same]
        have framed : Levels (state.rows.write tx row (some (record.stamp now)))
            (state.level tx) (state.worker tx).blocks :=
          levels.frame fun _ _ _ => rfl
        refine sound.advance rfl rfl rfl rfl
          (fun _ different => Rows.undisturbed_write free different _)
          (framed.grow ?_ ?_)
        · intro key version owned
          refine (ownSelf key version).mpr (.inr ⟨?_, owned⟩)
          rintro rfl
          exact unowned version (Rows.own_eq_some.mp owned)
        · constructor
          · intro key version owned
            rcases (ownSelf key version).mp owned with
              ⟨rfl, rfl⟩ | ⟨_, older⟩
            · exact ⟨by simp, ⟨record, committed, unclaimed⟩, now, rfl⟩
            · obtain ⟨member, free, stamped⟩ := good.claimed key version older
              exact ⟨by simpa using .inr member, free, stamped⟩
          · intro key member
            by_cases same : key = row
            · exact ⟨_, (ownSelf key _).mpr (.inl ⟨same, rfl⟩)⟩
            · have older : key ∈ (state.worker tx).claims := by
                simpa [same] using member
              obtain ⟨version, owned⟩ := good.owned key older
              exact ⟨version, (ownSelf key version).mpr (.inr ⟨same, owned⟩)⟩
          · intro key member
            simpa using .inr (good.guarded key member)
      · exact sound.setWorker levels
  · simp at taken

theorem Sound.rollbackTo {saved : Level} {outer : List (Block Level)}
    (blocks : (state.worker tx).blocks = .savepoint saved :: outer) :
    Sound (state.settle tx outer (.rollbackTo saved)) := by
  have levels := sound.levels tx
  rw [blocks] at levels
  obtain ⟨_, within, older⟩ := levels
  have held : ∀ key version, saved.own key = some version →
      state.rows.holds tx key = true := fun key version owned =>
    Rows.holds_iff.mpr ⟨version, Rows.own_eq_some.mp (within key version owned)⟩
  have own : (state.rows.rollbackTo tx saved.own).own tx = saved.own := by
    funext key
    apply Option.ext
    intro version
    rw [Rows.own_eq_some, Rows.pending_rollbackTo held]
    simp
  have framed : Levels (state.rows.rollbackTo tx saved.own) saved outer :=
    older.frame fun _ _ _ => rfl
  refine sound.advance rfl rfl rfl rfl
    (fun _ different => Rows.undisturbed_rollbackTo held different) ?_
  change Levels (state.rows.rollbackTo tx saved.own)
    { own := (state.rows.rollbackTo tx saved.own).own tx
      claims := saved.claims, staged := saved.staged } outer
  rw [own]
  exact framed

theorem Sound.rollback {worker : Worker}
    (claims : worker.claims = []) (staged : worker.staged = [])
    (blocks : worker.blocks = []) :
    Sound ({ state with rows := state.rows.rollback tx }.setWorker tx worker) := by
  refine sound.advance rfl rfl rfl rfl
    (fun _ different => Rows.undisturbed_rollback _ different) ?_
  rw [claims, staged, blocks]
  exact levels_quiet (Rows.quiet_rollback _ _)

theorem Sound.commit : Sound (state.settle tx [] .commit) := by
  have good := (sound.levels tx).good
  -- What was claimed before stays claimed: the commit only stamps rows.
  have stamped : ∀ row record, state.rows.committed row = some record →
      record.claimedAt.isSome = true → (state.rows.commit tx).committed row = some record := by
    intro row record found claimed
    rw [Rows.committed_commit]
    rcases Rows.visible_cases state.rows tx row with own | ⟨same, _⟩
    · obtain ⟨_, ⟨old, again, free⟩, _⟩ :=
        good.claimed row _ (Rows.own_eq_some.mpr own)
      rw [found] at again
      cases again
      simp [free] at claimed
    · rw [same, found]
  have unsettled : ∀ row ∈ (state.worker tx).staged, ∀ number,
      (row, number) ∉ state.settled := by
    intro row member number settled
    obtain ⟨version, owned⟩ := good.owned row (good.guarded row member)
    obtain ⟨_, ⟨record, found, free⟩, _⟩ := good.claimed row version owned
    obtain ⟨_, other, again, claimed⟩ := sound.recorded row number settled
    rw [found] at again
    cases again
    simp [free] at claimed
  constructor
  · intro other
    by_cases same : other = tx
    · subst same
      simp only [Settlement.settle, Settlement.setWorker, Settlement.level,
        Function.update_self]
      exact levels_quiet (Rows.quiet_commit _ _)
    · have undisturbed := Rows.undisturbed_commit state.rows same
      simp only [Settlement.settle, Settlement.setWorker, Settlement.level,
        Function.update_of_ne same, undisturbed.own]
      exact (sound.levels other).frame fun key version owned =>
        undisturbed.fixed key version (Rows.own_eq_some.mp owned)
  · intro row number member
    rcases List.mem_append.mp member with old | new
    · obtain ⟨earlier, record, found, claimed⟩ :=
        sound.recorded row number old
      exact ⟨Nat.lt_succ_of_lt earlier, record, stamped row record found claimed, claimed⟩
    · obtain ⟨staged, inStaged, same⟩ := List.mem_map.mp new
      cases same
      obtain ⟨version, owned⟩ := good.owned row (good.guarded row inStaged)
      obtain ⟨_, _, now, rfl⟩ := good.claimed row version owned
      refine ⟨Nat.lt_succ_self _, { claimedAt := some now }, ?_, rfl⟩
      change (state.rows.commit tx).committed row = _
      rw [Rows.committed_commit, Rows.visible_of_pending (Rows.own_eq_some.mp owned)]
  · intro row first second one two
    rcases List.mem_append.mp one with oldOne | newOne <;>
      rcases List.mem_append.mp two with oldTwo | newTwo
    · exact sound.once row first second oldOne oldTwo
    · obtain ⟨staged, member, same⟩ := List.mem_map.mp newTwo
      cases same
      exact absurd oldOne (unsettled row member first)
    · obtain ⟨staged, member, same⟩ := List.mem_map.mp newOne
      cases same
      exact absurd oldTwo (unsettled row member second)
    · obtain ⟨_, _, same⟩ := List.mem_map.mp newOne
      obtain ⟨_, _, other⟩ := List.mem_map.mp newTwo
      cases same
      cases other
      rfl

theorem Sound.leave
    (taken : state.step (.leave tx) = some next) : Sound next := by
  simp only [Settlement.step, Option.ite_none_right_eq_some] at taken
  obtain ⟨_settled, taken⟩ := taken
  obtain ⟨⟨ending, outer⟩, left, rfl⟩ := Option.map_eq_some_iff.mp taken
  have levels := sound.levels tx
  rcases Block.leave_cases left with
    ⟨_, rfl, ⟨_, _, rfl⟩ | ⟨_, rfl⟩⟩ | ⟨blocks, _, rfl⟩ |
    ⟨saved, blocks, ⟨_, rfl⟩ | ⟨_, _, rfl⟩⟩
  · exact sound.commit
  · exact sound.rollback rfl rfl rfl
  · rw [blocks] at levels
    exact sound.setWorker levels
  · exact sound.rollbackTo blocks
  · rw [blocks] at levels
    exact sound.setWorker (levels.2.2.grow levels.2.1 levels.1)

theorem Sound.step {action : SettlementAction}
    (taken : state.step action = some next) : Sound next := by
  -- Most actions leave the table and the claims of the worker alone.
  have same (tx : TxId) (worker : Worker) (claims : worker.claims = (state.worker tx).claims)
      (staged : worker.staged = (state.worker tx).staged)
      (blocks : worker.blocks = (state.worker tx).blocks) :
      Sound (state.setWorker tx worker) := by
    have levels := sound.levels tx
    refine sound.setWorker ?_
    rw [claims, staged, blocks]
    exact levels
  cases action with
  | enterTransaction tx =>
    simp only [Settlement.step, Option.ite_none_right_eq_some, Option.some.injEq] at taken
    obtain ⟨_able, rfl⟩ := taken
    exact sound.setWorker (sound.levels tx)
  | enterSavepoint tx =>
    simp only [Settlement.step, Option.ite_none_right_eq_some, Option.some.injEq] at taken
    obtain ⟨_able, rfl⟩ := taken
    exact sound.setWorker ⟨(sound.levels tx).good, fun _ _ => id, sound.levels tx⟩
  | leave tx => exact sound.leave taken
  | claim tx row now =>
    simp only [Settlement.step, Option.ite_none_right_eq_some] at taken
    obtain ⟨_able, taken⟩ := taken
    split at taken <;> cases taken
    · exact same tx _ rfl rfl rfl
    · exact sound
  | lockClaim tx => exact sound.lockClaim taken
  | effect tx row =>
    simp only [Settlement.step, Option.ite_none_right_eq_some,
      Option.some.injEq, Bool.and_eq_true, List.contains_iff_mem] at taken
    obtain ⟨⟨_able, claimed⟩, rfl⟩ := taken
    have levels := sound.levels tx
    refine sound.setWorker (levels.grow (fun _ _ => id) ?_)
    refine ⟨levels.good.claimed, levels.good.owned, ?_⟩
    intro key member
    rcases List.mem_cons.mp member with rfl | older
    · exact claimed
    · exact levels.good.guarded key older
  | raise tx =>
    simp only [Settlement.step, Option.ite_none_right_eq_some, Option.some.injEq] at taken
    obtain ⟨_able, rfl⟩ := taken
    exact same tx _ rfl rfl rfl
  | swallow tx =>
    cases taken
    exact same tx _ rfl rfl rfl
  | abort tx =>
    cases taken
    exact same tx _ rfl rfl rfl
  | commit tx =>
    simp only [Settlement.step, Option.ite_none_right_eq_some, Option.some.injEq] at taken
    obtain ⟨_able, rfl⟩ := taken
    exact sound.commit
  | crash tx =>
    cases taken
    exact sound.rollback rfl rfl rfl

end

theorem sound_start (columns : List (Option Int)) : Sound (.start columns) where
  levels := by
    intro tx
    exact levels_quiet fun key version =>
      by simp [Settlement.start, Rows.settled]
  recorded := by simp [Settlement.start]
  once := by simp [Settlement.start]

def RollsBack (state : Settlement) (tx : TxId) (action : SettlementAction) : Prop :=
  action = .crash tx ∨ (action = .leave tx ∧
    ((state.worker tx).raised || (state.worker tx).failed) = true)

def Unclaimed (state : Settlement) (row : RowId) : Prop :=
  state.rows.pending row = none ∧
    ∃ record, state.rows.committed row = some record ∧ record.claimedAt = none

theorem Sound.unclaimed (sound : Sound state) {action : SettlementAction}
    {row : RowId} (rollsBack : RollsBack state tx action)
    (taken : state.step action = some next)
    (claimed : row ∈ (state.worker tx).claims)
    (lost : row ∉ (next.worker tx).claims) : Unclaimed next row := by
  have levels := sound.levels tx
  have good := levels.good
  obtain ⟨version, owned⟩ := good.owned row claimed
  have pending := Rows.own_eq_some.mp owned
  obtain ⟨_, free, _⟩ := good.claimed row version owned
  have released : (state.rows.rollback tx).pending row = none := by
    rw [Option.eq_none_iff_forall_ne_some]
    rintro ⟨owner, latest⟩ still
    obtain ⟨other, different⟩ := Rows.pending_rollback.mp still
    rw [pending] at other
    cases other
    exact different rfl
  rcases rollsBack with rfl | ⟨rfl, raised⟩
  · cases taken
    exact ⟨released, free⟩
  · simp only [Settlement.step, Option.ite_none_right_eq_some] at taken
    obtain ⟨_settled, taken⟩ := taken
    obtain ⟨⟨ending, outer⟩, left, rfl⟩ := Option.map_eq_some_iff.mp taken
    rcases Block.leave_cases left with
      ⟨_, rfl, ⟨calm, sane, rfl⟩ | ⟨_, rfl⟩⟩ | ⟨_, _, rfl⟩ |
      ⟨saved, blocks, ⟨_, rfl⟩ | ⟨_, _, rfl⟩⟩
    · simp [calm, sane] at raised
    · exact ⟨released, free⟩
    · simp [Settlement.settle, Settlement.setWorker, claimed] at lost
    · rw [blocks] at levels
      obtain ⟨_, within, older⟩ := levels
      have held : ∀ key version, saved.own key = some version →
          state.rows.holds tx key = true := fun key version owned =>
        Rows.holds_iff.mpr ⟨version, Rows.own_eq_some.mp (within key version owned)⟩
      refine ⟨?_, free⟩
      change (state.rows.rollbackTo tx saved.own).pending row = none
      rw [Option.eq_none_iff_forall_ne_some]
      rintro ⟨owner, latest⟩ still
      rcases (Rows.pending_rollbackTo held).mp still with
        ⟨different, other⟩ | ⟨_, savedOwn⟩
      · rw [pending] at other
        cases other
        exact different rfl
      · have kept := (older.good.claimed row latest savedOwn).1
        simp [Settlement.settle, Settlement.setWorker, kept] at lost
    · simp [Settlement.settle, Settlement.setWorker, claimed] at lost

theorem claims_of_unclaimed {row : RowId} (unclaimed : Unclaimed state row)
    (able : (state.worker tx).able = true) (now : Int) :
    ∃ waiting after, state.step (.claim tx row now) = some waiting ∧
      waiting.step (.lockClaim tx) = some after ∧
      row ∈ (after.worker tx).claims := by
  obtain ⟨unlocked, record, found, free⟩ := unclaimed
  have seen : state.rows.visible tx row = some record := by
    rw [Rows.visible_of_unlocked unlocked, found]
  have picked : record.unclaimed = true := by
    simp [ClaimRow.unclaimed, free]
  have writable : state.rows.free tx row = true :=
    Rows.free_iff.mpr (by simp [unlocked])
  let waiting := state.setWorker tx { state.worker tx with waiting := some (row, now) }
  let after :=
    { waiting with
      rows := state.rows.write tx row (some (record.stamp now)) }.setWorker tx
        { waiting.worker tx with
          waiting := none, claims := row :: (waiting.worker tx).claims }
  have found : state.step (.claim tx row now) = some waiting := by
    simp [Settlement.step, able, seen, picked, waiting]
  have locked : waiting.step (.lockClaim tx) = some after := by
    simp [Settlement.step, Settlement.setWorker, Rows.update, writable, seen,
      picked, waiting, after]
  exact ⟨waiting, after, found, locked, by simp [Settlement.setWorker, after]⟩

end Steps

/-- The guarantee of `claim_once`. -/
structure ClaimsOnce (state : Settlement) : Prop where
  /-- One commit at most ever made effects of a row durable. -/
  once : ∀ row first second, (row, first) ∈ state.settled →
    (row, second) ∈ state.settled → first = second
  claimed : ∀ row number, (row, number) ∈ state.settled →
    ∃ record, state.rows.committed row = some record ∧ record.claimedAt.isSome = true
  again : ∀ tx action next row, RollsBack state tx action →
    state.step action = some next → row ∈ (state.worker tx).claims →
    row ∉ (next.worker tx).claims → ∀ other now, (next.worker other).able = true →
        ∃ waiting after, next.step (.claim other row now) = some waiting ∧
          waiting.step (.lockClaim other) = some after ∧
          row ∈ (after.worker other).claims

theorem claim_once_settles (columns : List (Option Int))
    (schedule : List SettlementAction) {final : Settlement}
    (run : exec Settlement.step (.start columns) schedule = some final) :
    ClaimsOnce final := by
  have sound : Sound final :=
    exec_invariant (fun _ _ _ sound taken => Sound.step sound taken) (sound_start columns) run
  refine ⟨sound.once, fun row number member =>
    (sound.recorded row number member).2, ?_⟩
  intro tx action next row rollsBack taken claimed lost other now able
  exact claims_of_unclaimed (sound.unclaimed rollsBack taken claimed lost) able now

/-- Two workers race for one row; the first to claim it fails and rolls back,
and the second, which was waiting, settles. -/
def racingWorkers : List SettlementAction :=
  [.enterTransaction 0, .enterTransaction 1, .claim 0 0 5, .claim 1 0 6,
    .lockClaim 0, .effect 0 0, .raise 0, .leave 0, .lockClaim 1,
    .effect 1 0, .leave 1]

theorem claim_once_settles_racing :
    ∃ final, exec Settlement.step (.start [none]) racingWorkers = some final ∧
      final.settled = [(0, 0)] ∧ ClaimsOnce final :=
  ⟨_, rfl, by decide, claim_once_settles [none] racingWorkers rfl⟩

end ClaimOnce

end TempestSdk
