import TempestSdk.Db.RepositoryWrites
import TempestSdk.Library.Runs

/-!
# What a transaction block makes durable, and when

Programs of repository writes on one session, in blocks nested at any depth.
While a block is open the writes join it: nothing is durable and nothing ends
the transaction, whatever the writes raise.  The deletes by id of
`TenantScopedRepository` do not join; the programs are the ones that call
these outside a block, or for a row that is not there.
-/

namespace TempestSdk

namespace UnitOfWork

open Effects Runs

variable {Store : Type}

/-- The program left the blocks as they were, and in a block it made nothing
durable and did not end the transaction. -/
structure Joins (before later : Session Store) : Prop where
  blocks : later.blocks = before.blocks
  durable : before.blocks ≠ [] → later.durable = before.durable
  issued : ∀ entry ∈ later.log, entry ∈ before.log ∨ entry.2 = 0

theorem joins_of_same {before later : Session Store}
    (blocks : later.blocks = before.blocks)
    (durable : later.durable = before.durable)
    (log : later.log = before.log) : Joins before later := by
  refine ⟨blocks, fun _ => durable, ?_⟩
  intro entry member
  exact .inl (by simpa [log] using member)

theorem joins_refl (session : Session Store) : Joins session session :=
  joins_of_same rfl rfl rfl

theorem joins_trans (first second third : Session Store)
    (front : Joins first second) (back : Joins second third) :
    Joins first third := by
  refine ⟨back.blocks.trans front.blocks, ?_, ?_⟩
  · intro inside
    have still : second.blocks ≠ [] := by rw [front.blocks]; exact inside
    exact (back.durable still).trans (front.durable inside)
  · intro entry member
    rcases back.issued entry member with earlier | outside
    · exact front.issued entry earlier
    · exact .inr outside

def JoinsOutside (before later : Session Store) : Prop :=
  before.blocks = [] → Joins before later

theorem outside_trans (first second third : Session Store)
    (front : JoinsOutside first second) (back : JoinsOutside second third) :
    JoinsOutside first third := by
  intro outside
  have joined := front outside
  have still : second.blocks = [] := joined.blocks.trans outside
  exact joins_trans _ _ _ joined (back still)

section Joining

variable {α β : Type}

theorem joins_pure (value : α) :
    Keeps Joins (pure value : Write Store α) :=
  keeps_pure joins_refl value

theorem joins_throw (error : WriteError) :
    Keeps Joins (throw error : Write Store α) :=
  keeps_throw joins_refl error

variable {program : Write Store α}

theorem joins_bind {next : α → Write Store β} (first : Keeps Joins program)
    (rest : ∀ value, Keeps Joins (next value)) :
    Keeps Joins (program >>= next) :=
  keeps_bind joins_trans first rest

theorem joins_forM {items : List α} {body : α → Write Store PUnit}
    (each : ∀ item ∈ items, Keeps Joins (body item)) :
    Keeps Joins (items.forM body) :=
  keeps_forM joins_refl joins_trans each

theorem joins_stage (statement : Statement Store) :
    Keeps Joins (stage statement) :=
  fun _ => joins_of_same rfl rfl rfl

theorem joins_emit (hook : Hook Store) : Keeps Joins (emit hook) := by
  obtain ⟨changes, raises⟩ := hook
  apply joins_bind (joins_forM fun change _ => joins_stage change)
  intro _
  cases raises with
  | none => exact joins_pure ()
  | some raised => exact joins_throw _

theorem flush_cases (session : Session Store) :
    (session.staged = [] ∧ flush session = (.ok (), session)) ∨
      (∃ working, session.health = .usable ∧
        runAll session.staged session.working = some working ∧
        flush session = (.ok (), { session with working, staged := [] })) ∨
      ∃ error, (error.isApp = false ∧ (session.health = .usable →
          runAll session.staged session.working = none)) ∧
        flush session = (.error error, session.unflushed) := by
  obtain ⟨durable, working, staged, blocks, health, aborts, log⟩ := session
  cases staged with
  | nil => exact .inl ⟨rfl, rfl⟩
  | cons statement rest =>
    cases health with
    | usable =>
      cases ran : runAll (statement :: rest) working with
      | some left =>
        refine .inr (.inl ⟨left, rfl, rfl, ?_⟩)
        simp only [flush, ran]
      | none =>
        refine .inr (.inr ⟨.integrity, ⟨rfl, fun _ => rfl⟩, ?_⟩)
        simp only [flush, ran]
    | aborted => exact .inr (.inr ⟨.unusable, ⟨rfl, nofun⟩, rfl⟩)
    | inactive => exact .inr (.inr ⟨.unusable, ⟨rfl, nofun⟩, rfl⟩)

theorem joins_flush : Keeps Joins (flush : Write Store Unit) := by
  intro session
  rcases flush_cases session with
    ⟨_, same⟩ | ⟨working, _, _, same⟩ | ⟨error, _, same⟩
  all_goals
    rw [after, same]
    exact joins_of_same rfl rfl rfl

theorem send_cases (statement : Statement Store) (session : Session Store) :
    (∃ working touched, session.health = .usable ∧
        statement session.working = some (working, touched) ∧
        send statement session = (.ok touched, { session with working })) ∨
      ∃ error health, error.isApp = false ∧
        (session.health = .usable → statement session.working = none) ∧
        send statement session = (.error error, { session with health }) := by
  obtain ⟨durable, working, staged, blocks, health, aborts, log⟩ := session
  cases health with
  | usable =>
    cases ran : statement working with
    | some left =>
      refine .inl ⟨left.1, left.2, rfl, rfl, ?_⟩
      simp only [send, ran]
    | none =>
      refine .inr ⟨.integrity, if aborts then .aborted else .usable,
        rfl, fun _ => rfl, ?_⟩
      simp only [send, ran]
  | aborted => exact .inr ⟨.unusable, .aborted, rfl, nofun, rfl⟩
  | inactive => exact .inr ⟨.unusable, .inactive, rfl, nofun, rfl⟩

theorem joins_send (statement : Statement Store) :
    Keeps Joins (send statement) := by
  intro session
  rcases send_cases statement session with
    ⟨working, touched, _, _, same⟩ | ⟨error, health, _, _, same⟩
  all_goals
    rw [after, same]
    exact joins_of_same rfl rfl rfl

theorem joins_execute (statement : Statement Store) :
    Keeps Joins (execute statement) :=
  joins_bind joins_flush fun _ => joins_send statement

theorem joins_select : Keeps Joins (select : Write Store Unit) :=
  joins_bind (joins_execute _) fun _ => joins_pure ()

theorem outside_of_joins (joined : Keeps Joins program) :
    Keeps JoinsOutside program :=
  fun session _ => joined session

theorem outside_bind {next : α → Write Store β}
    (first : Keeps JoinsOutside program)
    (rest : ∀ value, Keeps JoinsOutside (next value)) :
    Keeps JoinsOutside (program >>= next) :=
  keeps_bind outside_trans first rest

theorem joins_ended {session : Session Store} (outside : session.blocks = [])
    (issued : Issued) (durable : Store) :
    Joins session (session.ended issued durable) := by
  refine ⟨?_, ?_, ?_⟩
  · simp [Session.ended, outside]
  · intro inside
    exact absurd outside inside
  · intro entry member
    simp only [Session.ended, outside, List.mem_append,
      List.mem_singleton] at member
    rcases member with earlier | rfl
    · exact .inl earlier
    · exact .inr rfl

theorem outside_sessionRollback :
    Keeps JoinsOutside (sessionRollback : Write Store Unit) :=
  fun session outside => joins_ended outside .rollback session.durable

theorem outside_sendCommit :
    Keeps JoinsOutside (sendCommit : Write Store Unit) := by
  intro session outside
  obtain ⟨durable, working, staged, blocks, health, aborts, log⟩ := session
  cases health with
  | usable => exact joins_ended outside .commit working
  | aborted => exact joins_ended outside .commit durable
  | inactive => exact joins_refl _

theorem outside_sessionCommit :
    Keeps JoinsOutside (sessionCommit : Write Store Unit) :=
  outside_bind (outside_of_joins joins_flush) fun _ => outside_sendCommit

theorem joins_commitWrite (repo : Repository) :
    Keeps Joins (repo.commitWrite : Write Store Unit) := by
  intro session
  change Joins session (after (if repo.autocommit &&
    !Block.inTransaction session.blocks then sessionCommit else flush) session)
  split
  · rename_i commits
    have outside : session.blocks = [] := by
      cases blocks : session.blocks with
      | nil => rfl
      | cons block outer => simp [blocks] at commits
    exact outside_sessionCommit session outside
  · exact joins_flush session

theorem joins_rollbackAfterFailure :
    Keeps Joins (Repository.rollbackAfterFailure : Write Store Unit) := by
  intro session
  change Joins session (after (if Block.inTransaction session.blocks
    then pure () else sessionRollback) session)
  cases blocks : session.blocks with
  | nil => exact outside_sessionRollback session blocks
  | cons block outer =>
    simp only [Block.inTransaction_cons, if_true]
    exact joins_refl session

theorem joins_guarded {conflict : Option ConflictException}
    {body : Write Store α} (joined : Keeps Joins body) :
    Keeps Joins (Repository.guarded conflict body) := by
  apply keeps_tryCatch joins_trans joined
  intro error
  apply joins_bind joins_rollbackAfterFailure
  intro _
  split <;> exact joins_throw _

theorem joins_unlessApp {rollback body : Write Store Unit}
    (reverted : Keeps Joins rollback) (joined : Keeps Joins body) :
    Keeps Joins (Repository.unlessApp rollback body) := by
  apply keeps_tryCatch joins_trans joined
  intro error
  split
  · exact joins_bind reverted fun _ => joins_throw _
  · exact joins_throw _

theorem joins_refresh (hook : Hook Store) :
    Keeps Joins (refresh hook : Write Store Unit) :=
  joins_bind joins_select fun _ => joins_emit hook

theorem joins_discard (joined : Keeps Joins program) :
    Keeps Joins (discard program) :=
  joins_bind joined fun _ => joins_pure ()

section

variable (repo : Repository)

include repo

theorem joins_update (check : Hook Store) (hooks : Hooks Store) :
    Keeps Joins (repo.update check hooks : Write Store Unit) := by
  apply joins_guarded
  apply joins_bind (joins_emit check)
  intro _
  apply joins_bind (joins_emit _)
  intro _
  apply joins_bind (joins_commitWrite repo)
  intro _
  exact joins_bind (joins_refresh _) fun _ => joins_emit _

theorem joins_executeUpdate (refused : Hook Store)
    (statement : Statement Store) :
    Keeps Joins (repo.executeUpdate refused statement) := by
  apply joins_bind (joins_emit refused)
  intro _
  apply joins_guarded
  apply joins_bind (joins_execute statement)
  intro _
  exact joins_bind (joins_commitWrite repo) fun _ => joins_pure _

theorem joins_executeAndCommit
    (conflict : Option ConflictException) (statement : Statement Store) :
    Keeps Joins (Repository.guarded conflict do
      let touched ← execute statement
      repo.commitWrite
      pure touched) := by
  apply joins_guarded
  apply joins_bind (joins_execute statement)
  intro _
  exact joins_bind (joins_commitWrite repo) fun _ => joins_pure _

theorem joins_setActive (found : Bool)
    (change : Statement Store) (check : Hook Store) (hooks : Hooks Store) :
    Keeps Joins (repo.setActive found change check hooks) := by
  apply joins_bind joins_select
  intro _
  have updated : Keeps Joins (do stage change; repo.update check hooks) :=
    joins_bind (joins_stage change) fun _ => joins_update repo check hooks
  cases found with
  | true => exact updated
  | false => exact joins_bind (joins_throw _) fun _ => updated

theorem joins_delete (statement : Statement Store)
    (signals : Option (Repository.DeleteSignals Store)) :
    Keeps Joins (repo.delete statement signals) := by
  apply joins_unlessApp joins_rollbackAfterFailure
  have deleted : Keeps Joins ((do
      let deleted ← execute statement
      if deleted = 0 then throw .notFound
      repo.commitWrite
      signals.forM fun signals => emit signals.postDelete) :
        Write Store Unit) := by
    apply joins_bind (joins_execute statement)
    intro touched
    have committed : Keeps Joins ((do
        repo.commitWrite
        signals.forM fun signals => emit signals.postDelete) :
          Write Store Unit) := by
      apply joins_bind (joins_commitWrite repo)
      intro _
      cases signals with
      | none => exact joins_pure _
      | some signals => exact joins_emit _
    by_cases missed : touched = 0
    · simp only [missed, if_true]
      exact joins_bind (joins_throw _) fun _ => committed
    · simp only [missed, if_false]
      exact committed
  refine joins_bind ?_ fun _ => deleted
  cases signals with
  | none => exact joins_pure _
  | some signals =>
    obtain ⟨found, preDelete, postDelete⟩ := signals
    apply joins_bind joins_select
    intro _
    cases found with
    | true => exact joins_emit preDelete
    | false => exact joins_bind (joins_throw _) fun _ => joins_emit preDelete

theorem joins_run (call : WriteCall Store)
    (joining : repo.tenantScoped = true →
      (∀ statement signals, call ≠ .delete statement signals) ∧
        ∀ statement, call ≠ .deleteBatch statement) :
    Keeps Joins (call.run repo) := by
  cases call with
  | add insert hooks =>
    apply joins_guarded
    apply joins_bind (joins_emit _)
    intro _
    apply joins_bind (joins_stage insert)
    intro _
    apply joins_bind (joins_commitWrite repo)
    intro _
    exact joins_bind (joins_refresh _) fun _ => joins_emit _
  | addAll inserts =>
    apply joins_guarded
    apply joins_bind (joins_forM fun model _ => joins_emit _)
    intro _
    apply joins_bind (joins_forM fun model _ => joins_stage _)
    intro _
    apply joins_bind (joins_commitWrite repo)
    intro _
    apply joins_forM
    intro model _
    exact joins_bind (joins_refresh _) fun _ => joins_emit _
  | saveWithOutbox insert event refreshed =>
    apply joins_guarded
    apply joins_bind (joins_stage insert)
    intro _
    apply joins_bind (joins_stage event)
    intro _
    exact joins_bind (joins_commitWrite repo) fun _ => joins_refresh _
  | addAudited insert entry audit refreshed =>
    apply joins_guarded
    apply joins_bind (joins_stage insert)
    intro _
    apply joins_bind joins_flush
    intro _
    apply joins_bind (joins_emit audit)
    intro _
    apply joins_bind (joins_stage entry)
    intro _
    exact joins_bind (joins_commitWrite repo) fun _ => joins_refresh _
  | updateAudited entry check audit refreshed =>
    apply joins_guarded
    apply joins_bind (joins_emit check)
    intro _
    apply joins_bind (joins_emit audit)
    intro _
    apply joins_bind (joins_stage entry)
    intro _
    exact joins_bind (joins_commitWrite repo) fun _ => joins_refresh _
  | deleteAudited deletion entry check audit =>
    apply joins_guarded
    apply joins_bind (joins_emit check)
    intro _
    apply joins_bind (joins_emit audit)
    intro _
    apply joins_bind (joins_stage deletion)
    intro _
    exact joins_bind (joins_stage entry) fun _ => joins_commitWrite repo
  | recordEvent entry audit =>
    apply joins_bind (joins_emit audit)
    intro _
    apply joins_guarded
    exact joins_bind (joins_stage entry) fun _ => joins_commitWrite repo
  | update check hooks => exact joins_update repo check hooks
  | updateMany models =>
    apply joins_guarded
    apply joins_bind (joins_forM fun model _ => joins_emit _)
    intro _
    apply joins_bind (joins_forM fun model _ => joins_emit _)
    intro _
    apply joins_bind (joins_commitWrite repo)
    intro _
    exact joins_forM fun model _ => joins_emit _
  | bulkUpdate filtered refused statement =>
    apply joins_discard
    cases filtered with
    | true => exact joins_executeUpdate repo refused statement
    | false => exact joins_throw _
  | updateReturning returning filtered refused statement =>
    apply joins_discard
    cases returning with
    | true =>
      cases filtered with
      | true => exact joins_executeUpdate repo refused statement
      | false => exact joins_throw _
    | false => exact joins_throw _
  | bulkCreateValues statement =>
    apply joins_discard
    cases statement with
    | none => exact joins_throw _
    | some statement => exact joins_executeAndCommit repo _ statement
  | bulkUpsert refused statement =>
    apply joins_discard
    exact joins_bind (joins_emit refused) fun _ =>
      joins_executeAndCommit repo _ statement
  | delete statement signals =>
    cases tenant : repo.tenantScoped with
    | true => exact absurd rfl ((joining tenant).1 statement signals)
    | false =>
      simp only [WriteCall.run, tenant, Bool.false_eq_true, if_false]
      exact joins_delete repo statement signals
  | deleteMany statement => exact joins_discard (joins_executeAndCommit repo _ statement)
  | deleteBatch statement =>
    cases tenant : repo.tenantScoped with
    | true => exact absurd rfl ((joining tenant).2 statement)
    | false =>
      simp only [WriteCall.run, tenant, Bool.false_eq_true, if_false]
      exact joins_discard (joins_executeAndCommit repo _ statement)
  | softDelete found change check hooks => exact joins_setActive repo found change check hooks
  | restore found change check hooks => exact joins_setActive repo found change check hooks
  | commit =>
    intro session
    change Joins session (after (if Block.inTransaction session.blocks
      then UnitOfWork.flush else sessionCommit) session)
    cases blocks : session.blocks with
    | nil => exact outside_sessionCommit session blocks
    | cons block outer =>
      simp only [Block.inTransaction_cons, if_true]
      exact joins_flush session
  | flush => exact joins_flush
  | rollback =>
    intro session
    change Joins session (after (if Block.inTransaction session.blocks
      then throw _ else sessionRollback) session)
    cases blocks : session.blocks with
    | nil => exact outside_sessionRollback session blocks
    | cons block outer =>
      simp only [Block.inTransaction_cons, if_true]
      exact joins_refl session

end

end Joining

def findsNothing (statement : Statement Store) (session : Session Store) :
    Bool :=
  match session.health, runAll session.staged session.working with
  | .usable, some working =>
    match statement working with
    | some (_, 0) => true
    | _ => false
  | _, _ => false

/-- What a statement that cannot be sent, or is refused, leaves. -/
structure Refused (session : Session Store) (error : WriteError)
    (left : Session Store) : Prop where
  error : error.isApp = false
  blocks : left.blocks = session.blocks
  log : left.log = session.log

theorem execute_cases (statement : Statement Store)
    (session : Session Store) :
    (∃ flushed working touched, session.health = .usable ∧
        runAll session.staged session.working = some flushed ∧
        statement flushed = some (working, touched) ∧
        execute statement session =
          (.ok touched, { session with working, staged := [] })) ∨
      (findsNothing statement session = false ∧
        ∃ error left, Refused session error left ∧
          execute statement session = (.error error, left)) := by
  have split := bind_apply flush (fun _ => send statement) session
  change execute statement session = _ at split
  rcases flush_cases session with
    ⟨empty, same⟩ | ⟨flushed, usable, ran, same⟩ | ⟨error, refused, same⟩
  · simp only [result, after, same] at split
    rcases send_cases statement session with
      ⟨working, touched, usable, sent, done⟩ | ⟨error, health, app, missed, done⟩
    · refine .inl ⟨session.working, working, touched, usable, ?_, sent, ?_⟩
      · simp [empty, runAll]
      · rw [split, done, ← empty]
    · refine .inr ⟨?_, error, { session with health }, ⟨app, rfl, rfl⟩,
        split.trans done⟩
      simp only [findsNothing, empty, runAll]
      cases usable : session.health with
      | usable => simp [missed usable]
      | aborted => rfl
      | inactive => rfl
  · simp only [result, after, same] at split
    rcases send_cases statement { session with working := flushed, staged := [] }
      with ⟨working, touched, _, sent, done⟩ | ⟨error, health, app, missed, done⟩
    · exact .inl ⟨flushed, working, touched, usable, ran, sent, split.trans done⟩
    · refine .inr ⟨?_, error,
        { session with working := flushed, staged := [], health },
        ⟨app, rfl, rfl⟩, split.trans done⟩
      simp [findsNothing, usable, ran, missed usable]
  · simp only [result, after, same] at split
    refine .inr ⟨?_, error, session.unflushed, ⟨refused.1, rfl, rfl⟩, split⟩
    cases usable : session.health with
    | usable => simp [findsNothing, usable, refused.2 usable]
    | aborted => simp [findsNothing, usable]
    | inactive => simp [findsNothing, usable]

variable {session : Session Store}

theorem joins_tenantDelete {statement : Statement Store}
    (nothing : findsNothing statement session = true) :
    Joins session (after (Repository.tenantDelete statement) session) := by
  rcases execute_cases statement session with
    ⟨flushed, working, touched, usable, ran, sent, done⟩ | ⟨missed, _⟩
  · have none_touched : touched = 0 := by
      cases touched with
      | zero => rfl
      | succ others => simp [findsNothing, usable, ran, sent] at nothing
    subst none_touched
    have raises : Repository.tenantDelete statement session =
        (.error .notFound, { session with working, staged := [] }) := by
      simp only [Repository.tenantDelete, Repository.unlessApp, tryCatch_apply,
        bind_apply, result, after, done]
      rfl
    rw [after, raises]
    exact joins_of_same rfl rfl rfl
  · simp [missed] at nothing

theorem outside_tenantDelete (statement : Statement Store) :
    Keeps JoinsOutside (Repository.tenantDelete statement) := by
  apply keeps_tryCatch outside_trans
  · apply outside_bind (outside_of_joins (joins_execute statement))
    intro touched
    by_cases missed : touched = 0
    · simp only [missed, if_true]
      exact outside_bind (outside_of_joins (joins_throw _)) fun _ =>
        outside_sessionCommit
    · simp only [missed, if_false]
      exact outside_sessionCommit
  · intro error
    cases error.isApp with
    | true => exact outside_of_joins (joins_throw _)
    | false =>
      exact outside_bind outside_sessionRollback fun _ =>
        outside_of_joins (joins_throw _)

theorem outside_tenantDeleteBatch (statement : Statement Store) :
    Keeps JoinsOutside (Repository.tenantDeleteBatch statement) := by
  apply keeps_tryCatch outside_trans
  · apply outside_bind (outside_of_joins (joins_execute statement))
    intro touched
    exact outside_bind outside_sessionCommit fun _ =>
      outside_of_joins (joins_pure _)
  · intro error
    exact outside_bind outside_sessionRollback fun _ =>
      outside_of_joins (joins_throw _)

theorem sessionCommit_of_flushed (usable : session.health = .usable)
    (flushed : session.staged = []) :
    sessionCommit session =
      (.ok (), session.ended .commit session.working) := by
  obtain ⟨durable, working, staged, blocks, health, aborts, log⟩ := session
  subst usable flushed
  rfl

theorem tenantDelete_ends {statement : Statement Store}
    (finds : findsNothing statement session = false) :
    ∃ issued, (issued, Block.transactionDepth session.blocks) ∈
      (after (Repository.tenantDelete statement) session).log := by
  rcases execute_cases statement session with
    ⟨flushed, working, touched, usable, ran, sent, done⟩ |
    ⟨_, error, left, refused, done⟩
  · have row : touched ≠ 0 := by
      rintro rfl
      simp [findsNothing, usable, ran, sent] at finds
    have committed : sessionCommit
          ({ session with working, staged := [] } : Session Store) = _ :=
        sessionCommit_of_flushed usable rfl
    have commits : after (Repository.tenantDelete statement) session =
        ({ session with working, staged := [] } : Session Store).ended
          .commit working := by
      simp only [Repository.tenantDelete, Repository.unlessApp, after,
        tryCatch_apply, bind_apply, result, done, row, if_false, committed]
    refine ⟨.commit, ?_⟩
    rw [commits]
    simp [Session.ended]
  · have reverts : after (Repository.tenantDelete statement) session =
        left.ended .rollback left.durable := by
      simp only [Repository.tenantDelete, Repository.unlessApp, after,
        tryCatch_apply, bind_apply, result, done, refused.error]
      rfl
    refine ⟨.rollback, ?_⟩
    rw [reverts]
    simp [Session.ended, refused.blocks]

theorem tenantDeleteBatch_ends (statement : Statement Store)
    (session : Session Store) :
    ∃ issued, (issued, Block.transactionDepth session.blocks) ∈
      (after (Repository.tenantDeleteBatch statement) session).log := by
  rcases execute_cases statement session with
    ⟨flushed, working, touched, usable, ran, sent, done⟩ |
    ⟨_, error, left, refused, done⟩
  · have committed : sessionCommit
          ({ session with working, staged := [] } : Session Store) = _ :=
        sessionCommit_of_flushed usable rfl
    have commits : after (Repository.tenantDeleteBatch statement) session =
        ({ session with working, staged := [] } : Session Store).ended
          .commit working := by
      simp only [Repository.tenantDeleteBatch, after, tryCatch_apply,
        bind_apply, result, done, committed]
      rfl
    refine ⟨.commit, ?_⟩
    rw [commits]
    simp [Session.ended]
  · have reverts : after (Repository.tenantDeleteBatch statement) session =
        left.ended .rollback left.durable := by
      simp only [Repository.tenantDeleteBatch, after, tryCatch_apply,
        bind_apply, result, done]
      rfl
    refine ⟨.rollback, ?_⟩
    rw [reverts]
    simp [Session.ended, refused.blocks]

inductive SessionAction (Store : Type) where
  | transaction
  | savepoint
  /-- The innermost block is left, by an exception when `raised` is set. -/
  | leave (raised : Bool)
  | change (statement : Statement Store)
  | query
  | call (repo : Repository) (write : WriteCall Store)

def step (session : Session Store) : SessionAction Store →
    Option (Session Store)
  | .transaction => some (after enterTransaction session)
  | .savepoint => some (after enterSavepoint session)
  | .leave raised =>
    if Block.inTransaction session.blocks then
      some (after (leave raised) session)
    else none
  | .change statement => some (after (stage statement) session)
  | .query => some (after select session)
  | .call repo write => some (after (write.run repo) session)

/-- A delete by id of a `TenantScopedRepository` is made outside every block,
or for one row that is not there. -/
def joining (session : Session Store) : SessionAction Store → Bool
  | .call repo (.delete statement _) =>
    !(repo.tenantScoped && Block.inTransaction session.blocks) ||
      findsNothing statement session
  | .call repo (.deleteBatch _) => !(repo.tenantScoped && Block.inTransaction session.blocks)
  | _ => true

abbrev StaysOpen (opened : Session Store)
    (actions : List (SessionAction Store)) : Prop :=
  Meets step (fun session action =>
    (step session action).all (fun next => Block.inTransaction next.blocks) =
      true) opened actions

theorem joins_call {repo : Repository} {write : WriteCall Store}
    (met : joining session (.call repo write) = true) :
    Joins session (after (write.run repo) session) := by
  cases tenant : repo.tenantScoped with
  | false =>
    apply joins_run repo write
    intro owned
    simp [tenant] at owned
  | true =>
    cases blocks : session.blocks with
    | nil =>
      cases write with
      | delete statement signals =>
        simp only [WriteCall.run, tenant, if_true]
        exact outside_tenantDelete statement session blocks
      | deleteBatch statement =>
        simp only [WriteCall.run, tenant, if_true]
        exact outside_bind (outside_tenantDeleteBatch statement)
          (fun _ => outside_of_joins (joins_pure _)) session blocks
      | _ =>
        apply joins_run
        intro _
        exact ⟨nofun, nofun⟩
    | cons block outer =>
      cases write with
      | delete statement signals =>
        simp only [WriteCall.run, tenant, if_true]
        apply joins_tenantDelete
        simpa [joining, tenant, blocks] using met
      | deleteBatch statement => simp [joining, tenant, blocks] at met
      | _ =>
        apply joins_run
        intro _
        exact ⟨nofun, nofun⟩

/-- What leaving a block can do: only the outermost one ends the
transaction. -/
structure Leaves (before later : Session Store) : Prop where
  durable : Block.inTransaction later.blocks = true →
    later.durable = before.durable
  issued : ∀ entry ∈ later.log, entry ∈ before.log ∨ entry.2 = 0

theorem leaves_of_joins {first second third : Session Store}
    (front : Joins first second) (inside : first.blocks ≠ [])
    (back : Leaves second third) : Leaves first third := by
  refine ⟨?_, ?_⟩
  · intro still
    exact (back.durable still).trans (front.durable inside)
  · intro entry member
    rcases back.issued entry member with earlier | outside
    · exact front.issued entry earlier
    · exact .inr outside

theorem leaves_leaveBlock (raised : Bool) (session : Session Store) :
    Leaves session (after (leaveBlock raised) session) := by
  have same : ∀ later : Session Store, later.durable = session.durable →
      later.log = session.log → Leaves session later := by
    intro later durable log
    refine ⟨fun _ => durable, ?_⟩
    intro entry member
    exact .inl (by simpa [log] using member)
  have ends : ∀ later, Joins ({ session with blocks := [] }) later →
      Leaves session later := by
    intro later joined
    refine ⟨?_, joined.issued⟩
    intro still
    simp [joined.blocks] at still
  cases left : Block.leave raised (decide (session.health ≠ .usable))
      session.blocks with
  | none =>
    simp only [after, leaveBlock, left]
    exact same _ rfl rfl
  | some found =>
    obtain ⟨ending, outer⟩ := found
    simp only [after, leaveBlock, left]
    rcases Block.leave_cases left with
      ⟨_, rfl, ⟨rfl, _, rfl⟩ | ⟨_, rfl⟩⟩ | ⟨_, _, rfl⟩ |
      ⟨saved, _, ⟨_, rfl⟩ | ⟨_, _, rfl⟩⟩
    · exact ends _ (outside_sessionCommit _ rfl)
    · cases raised with
      | true => exact ends _ (outside_sessionRollback _ rfl)
      | false => exact ends _ (outside_sessionCommit _ rfl)
    · exact same _ rfl rfl
    · exact same _ rfl rfl
    · exact same _ rfl rfl

theorem result_get (session : Session Store) :
    result (get : Write Store (Session Store)) session = .ok session := rfl

theorem after_get (session : Session Store) :
    ((get : Write Store (Session Store)) session).2 = session := rfl

theorem leave_false (session : Session Store) :
    after (leave false) session = after (leaveBlock false) session ∨
      ∃ saved outer, session.blocks = .savepoint saved :: outer ∧
        after (leave false) session = after (leaveBlock false)
          (after (tryCatch flush fun _ => pure ()) session) := by
  have returns : result
      (tryCatch flush fun _ => pure () : Write Store Unit) session =
        .ok () := by
    rw [result, tryCatch_apply]
    cases result flush session <;> rfl
  cases blocks : session.blocks with
  | nil =>
    left
    simp only [after, leave, bind_apply, result_get, after_get, blocks]
  | cons inner outer =>
    cases inner with
    | transaction =>
      left
      simp only [after, leave, bind_apply, result_get, after_get, blocks]
    | savepoint saved =>
      refine .inr ⟨saved, outer, rfl, ?_⟩
      simp only [after, leave, bind_apply, result_get, after_get, blocks, returns]

theorem joins_released : Keeps Joins
    (tryCatch flush fun _ => pure () : Write Store Unit) :=
  keeps_tryCatch joins_trans joins_flush fun _ => joins_pure ()

theorem leaves_leave (raised : Bool) (inside : session.blocks ≠ []) :
    Leaves session (after (leave raised) session) := by
  cases raised with
  | true => exact leaves_leaveBlock true session
  | false =>
    rcases leave_false session with direct | ⟨_, _, _, flushed⟩
    · rw [direct]
      exact leaves_leaveBlock false session
    · rw [flushed]
      exact leaves_of_joins (joins_released session) inside
        (leaves_leaveBlock false _)

theorem durable_sessionCommit (session : Session Store) :
    (after sessionCommit session).durable = session.durable ∨
      runAll session.staged session.working =
        some (after sessionCommit session).durable := by
  rw [after, sessionCommit, bind_apply]
  rcases flush_cases session with
    ⟨empty, same⟩ | ⟨working, usable, ran, same⟩ | ⟨error, _, same⟩
  · simp only [result, after, same, sendCommit]
    cases session.health with
    | usable =>
      right
      rw [empty]
      rfl
    | aborted => exact .inl rfl
    | inactive => exact .inl rfl
  · simp only [result, after, same, sendCommit, usable]
    exact .inr ran
  · simp only [result, after, same]
    exact .inl rfl

theorem durable_leave_raised (session : Session Store) :
    (after (leave true) session).durable = session.durable := by
  change (after (leaveBlock true) session).durable = _
  cases left : Block.leave true (decide (session.health ≠ .usable))
      session.blocks with
  | none => simp only [after, leaveBlock, left]
  | some found =>
    obtain ⟨ending, outer⟩ := found
    simp only [after, leaveBlock, left]
    cases ending with
    | _ => rfl

theorem durable_leave_savepoint {saved : Store} {outer : List (Block Store)}
    (blocks : session.blocks = .savepoint saved :: outer) (raised : Bool) :
    (after (leaveBlock raised) session).durable = session.durable := by
  simp only [after, leaveBlock, blocks, Block.leave]
  cases raised || decide (session.health ≠ .usable) <;> rfl

theorem durable_leave (session : Session Store) :
    (after (leave false) session).durable = session.durable ∨
      runAll session.staged session.working =
        some (after (leave false) session).durable := by
  rcases leave_false session with direct | ⟨saved, outer, blocks, flushed⟩
  · rw [direct]
    cases left : Block.leave false (decide (session.health ≠ .usable))
        session.blocks with
    | none =>
      left
      simp only [after, leaveBlock, left]
    | some found =>
      obtain ⟨ending, outer⟩ := found
      cases ending with
      | joined =>
        left
        simp only [after, leaveBlock, left]
      | rollbackTo saved =>
        left
        simp only [after, leaveBlock, left]
      | commit =>
        simp only [after, leaveBlock, left]
        exact durable_sessionCommit { session with blocks := outer }
      | rollback =>
        simp only [after, leaveBlock, left]
        exact durable_sessionCommit { session with blocks := outer }
  · left
    have joined := joins_released session
    have inside : session.blocks ≠ [] := by simp [blocks]
    rw [flushed, durable_leave_savepoint (joined.blocks.trans blocks),
      joined.durable inside]

theorem enterSavepoint_kept (session : Session Store) :
    (after enterSavepoint session).durable = session.durable ∧
      (after enterSavepoint session).log = session.log := by
  rw [after, enterSavepoint, bind_apply]
  rcases flush_cases session with
    ⟨_, same⟩ | ⟨working, _, _, same⟩ | ⟨error, _, same⟩
  · simp only [result, after, same, sendSavepoint]
    split <;> exact ⟨rfl, rfl⟩
  · simp only [result, after, same, sendSavepoint]
    split <;> exact ⟨rfl, rfl⟩
  · simp only [result, after, same]
    exact ⟨rfl, rfl⟩

theorem step_durable {session next : Session Store}
    {action : SessionAction Store} (met : joining session action = true)
    (taken : step session action = some next)
    (still : Block.inTransaction next.blocks = true) :
    next.durable = session.durable := by
  have joined : ∀ later, Joins session later →
      Block.inTransaction later.blocks = true →
      later.durable = session.durable := by
    intro later joins inside
    apply joins.durable
    rw [← joins.blocks]
    intro outside
    simp [outside] at inside
  cases action with
  | transaction =>
    cases taken
    rfl
  | savepoint =>
    cases taken
    exact (enterSavepoint_kept session).1
  | leave raised =>
    simp only [step] at taken
    split at taken
    · rename_i inside
      cases taken
      have open_ : session.blocks ≠ [] := by
        intro outside
        simp [outside] at inside
      exact (leaves_leave raised open_).durable still
    · contradiction
  | change statement =>
    cases taken
    rfl
  | query =>
    cases taken
    exact joined _ (joins_select session) still
  | call repo write =>
    cases taken
    exact joined _ (joins_call met) still

theorem step_issued {session next : Session Store}
    {action : SessionAction Store} (met : joining session action = true)
    (taken : step session action = some next) :
    ∀ entry ∈ next.log, entry ∈ session.log ∨ entry.2 = 0 := by
  cases action with
  | transaction =>
    cases taken
    exact fun entry member => .inl member
  | savepoint =>
    cases taken
    intro entry member
    rw [(enterSavepoint_kept session).2] at member
    exact .inl member
  | leave raised =>
    simp only [step] at taken
    split at taken
    · rename_i inside
      cases taken
      have open_ : session.blocks ≠ [] := by
        intro outside
        simp [outside] at inside
      exact (leaves_leave raised open_).issued
    · contradiction
  | change statement =>
    cases taken
    exact fun entry member => .inl member
  | query =>
    cases taken
    exact (joins_select session).issued
  | call repo write =>
    cases taken
    exact (joins_call met).issued

theorem run_issued {start final : Session Store}
    {actions : List (SessionAction Store)}
    (meets : Meets step (fun session action => joining session action = true)
      start actions)
    (run : exec step start actions = some final)
    (outside : ∀ entry ∈ start.log, entry.2 = 0) :
    ∀ entry ∈ final.log, entry.2 = 0 := by
  have kept : ∀ (session : Session Store) (action : SessionAction Store)
      (next : Session Store), (∀ entry ∈ session.log, entry.2 = 0) →
      joining session action = true → step session action = some next →
      ∀ entry ∈ next.log, entry.2 = 0 := by
    intro session action next logged met taken entry member
    rcases step_issued met taken entry member with earlier | ended
    · exact logged entry earlier
    · exact ended
  exact exec_invariant_of_meets kept meets outside run

theorem run_durable {opened final : Session Store}
    {inside : List (SessionAction Store)}
    (meets : Meets step (fun session action => joining session action = true)
      opened inside)
    (still : StaysOpen opened inside)
    (run : exec step opened inside = some final) :
    final.durable = opened.durable := by
  induction inside generalizing opened with
  | nil =>
    cases run
    rfl
  | cons action rest induction =>
    obtain ⟨next, taken, remaining⟩ := exec_cons.mp run
    have open_ : Block.inTransaction next.blocks = true := by
      simpa [taken] using still.1
    rw [induction (meets.2 next taken) (still.2 next taken) remaining]
    exact step_durable meets.1 taken open_

theorem ends_of_not_joining {action : SessionAction Store}
    (unmet : joining session action = false) :
    ∃ next issued, step session action = some next ∧
      (issued, Block.transactionDepth session.blocks) ∈ next.log ∧
      0 < Block.transactionDepth session.blocks := by
  cases action with
  | call repo write =>
    cases write with
    | delete statement signals =>
      simp only [joining, Bool.or_eq_false_iff, Bool.not_eq_false',
        Bool.and_eq_true] at unmet
      obtain ⟨⟨tenant, inside⟩, finds⟩ := unmet
      obtain ⟨issued, ended⟩ := tenantDelete_ends finds
      refine ⟨_, issued, rfl, ?_, by simpa [Block.inTransaction] using inside⟩
      simpa only [WriteCall.run, tenant, if_true] using ended
    | deleteBatch statement =>
      simp only [joining, Bool.not_eq_false', Bool.and_eq_true] at unmet
      obtain ⟨tenant, inside⟩ := unmet
      obtain ⟨issued, ended⟩ := tenantDeleteBatch_ends statement session
      refine ⟨_, issued, rfl, ?_, by simpa [Block.inTransaction] using inside⟩
      simp only [WriteCall.run, tenant, if_true, after_discard]
      exact ended
    | _ => simp [joining] at unmet
  | _ => simp [joining] at unmet

/-- Nothing of a block becomes durable before it ends, an exception that
leaves it leaves the durable rows as they were, and a clean exit makes all of
it durable or nothing. -/
theorem transaction_atomic {store : Store} {aborts : Bool}
    {before inside : List (SessionAction Store)}
    {opened final : Session Store}
    (meets : Meets step (fun session action => joining session action = true)
      (Session.open_ store aborts) (before ++ inside))
    (reached : exec step (Session.open_ store aborts) before = some opened)
    (run : exec step opened inside = some final) :
    (∀ entry ∈ final.log, entry.2 = 0) ∧
      (StaysOpen opened inside →
        final.durable = opened.durable ∧
          (after (leave true) final).durable = opened.durable ∧
          ((after (leave false) final).durable = opened.durable ∨
            runAll final.staged final.working =
              some (after (leave false) final).durable)) := by
  have whole : exec step (Session.open_ store aborts) (before ++ inside) =
      some final := exec_append.mpr ⟨opened, reached, run⟩
  have met_inside := meets.of_append.2 opened reached
  refine ⟨?_, ?_⟩
  · exact run_issued meets whole nofun
  · intro still
    have kept := run_durable met_inside still run
    refine ⟨kept, (durable_leave_raised final).trans kept, ?_⟩
    simpa only [kept] using durable_leave final

/-- A write, a savepoint that is left by an exception, and a delete by id for a
row that is not there. -/
def nestedBlock : List (SessionAction (List Nat)) :=
  [.transaction,
    .call ⟨true, true⟩ (.add (fun rows => some (8 :: rows, 1)) {}),
    .savepoint, .call ⟨true, false⟩ (.deleteMany fun _ => some ([], 2)),
    .leave true,
    .call ⟨true, true⟩ (.delete (fun rows => some (rows, 0)) none)]

theorem transaction_atomic_nested :
    ∃ final, exec step (Session.open_ [7] true) nestedBlock = some final ∧
      (∀ entry ∈ final.log, entry.2 = 0) ∧ final.durable = [7] ∧
      (after (leave true) final).durable = [7] ∧
      (after (leave false) final).durable = [8, 7] := by
  have meets : Meets step
      (fun session action => joining session action = true)
      (Session.open_ [7] true) ([] ++ nestedBlock) := by decide
  have still : StaysOpen (Session.open_ [7] true) nestedBlock := by decide
  obtain ⟨outside, within⟩ := transaction_atomic meets rfl rfl
  exact ⟨_, rfl, outside, (within still).1, (within still).2.1, rfl⟩

theorem transaction_not_atomic :
    ∃ final, exec step (Session.open_ [7] true)
        [.transaction,
          .call ⟨true, true⟩ (.delete (fun _ => some ([], 1)) none)] =
        some final ∧
      StaysOpen (Session.open_ [7] true)
        [.transaction,
          .call ⟨true, true⟩ (.delete (fun _ => some ([], 1)) none)] ∧
      (Issued.commit, 1) ∈ final.log ∧
      final.durable = [] ∧ (after (leave true) final).durable = [] :=
  ⟨_, rfl, by decide, by decide, rfl, rfl⟩

end UnitOfWork

end TempestSdk
