import TempestSdk.Db.Atomicity

/-!
# What a write that raises leaves

A write method of a repository that commits on its own, called outside every
block, either raises before its commit, and then nothing is durable, or after
it.  The error path reverts what is pending; a call that is refused before it
has written anything, and an `AppException` in a delete by id, leave what was
pending before the call.
-/

namespace TempestSdk

namespace UnitOfWork

open Effects

variable {Store : Type}

namespace WriteCall

def afterCommit (repo : Repository) : WriteCall Store → Write Store Unit
  | .add _ hooks | .update _ hooks | .softDelete _ _ _ hooks
  | .restore _ _ _ hooks => do
      refresh hooks.refreshed
      emit hooks.postSave
  | .addAll inserts =>
    inserts.forM fun model => do
      refresh model.2.refreshed
      emit model.2.postSave
  | .saveWithOutbox _ _ refreshed | .addAudited _ _ _ refreshed
  | .updateAudited _ _ _ refreshed => refresh refreshed
  | .updateMany models => models.forM fun model => emit model.2.postSave
  | .delete _ signals =>
    if repo.tenantScoped then pure ()
    else signals.forM fun signals => emit signals.postDelete
  | _ => pure ()

/-- The error passes without a rollback: the call is refused before its guarded
part, or an `AppException` leaves a delete by id. -/
def refuses (error : WriteError) : WriteCall Store → Bool
  | .recordEvent _ audit => audit.raises.isSome
  | .bulkUpdate filtered refused _ => !filtered || refused.raises.isSome
  | .updateReturning returning filtered refused _ =>
    !returning || !filtered || refused.raises.isSome
  | .bulkCreateValues statement => statement.isNone
  | .bulkUpsert refused _ => refused.raises.isSome
  | .delete _ _ => error.isApp
  | .softDelete found _ _ _ | .restore found _ _ _ => !found
  | _ => false

def refusedChanges : WriteCall Store → List (Statement Store)
  | .recordEvent _ audit => audit.changes
  | .bulkUpdate _ refused _ | .updateReturning _ _ refused _
  | .bulkUpsert refused _ => refused.changes
  | .delete _ (some signals) => signals.preDelete.changes ++ signals.postDelete.changes
  | _ => []

/-- A write, and not `commit`, `flush` or `rollback` themselves. -/
def isWrite : WriteCall Store → Bool
  | .commit | .flush | .rollback => false
  | _ => true

def Counted (call : WriteCall Store) : Prop :=
  ∀ statement signals, call = .delete statement signals →
    ∀ rows next, statement rows = some (next, 0) → next = rows

end WriteCall

def Session.Settled (session : Session Store) : Prop :=
  session.staged = [] ∧
    (session.health = .usable → session.working = session.durable)

def Session.pending (session : Session Store) : Option Store :=
  runAll session.staged session.working

def RaisesLate (late : Write Store Unit) (durable : Store) : Prop :=
  ∃ committed reason, committed.Settled ∧ committed.health = .usable ∧
    committed.durable = durable ∧ result late committed = .error reason

/-- What is pending is what was pending before and what was changed since, or
only what was changed since the commit. -/
def LeavesPending (changes : List (Statement Store))
    (session left : Session Store) : Prop :=
  ∃ changed, changed.Sublist changes ∧
    (left.pending = session.pending.bind (runAll changed) ∨
      left.pending = runAll changed left.durable)

theorem runAll_append (first second : List (Statement Store)) (store : Store) :
    runAll (first ++ second) store =
      (runAll first store).bind (runAll second) := by
  induction first generalizing store with
  | nil => rfl
  | cons statement rest induction =>
    cases ran : statement store with
    | none => simp [runAll, ran]
    | some done =>
      simp only [List.cons_append, runAll, ran, Option.bind_some]
      exact induction done.1

/-- The durable rows and the blocks are as before. -/
structure Undurable (before later : Session Store) : Prop where
  durable : later.durable = before.durable
  blocks : later.blocks = before.blocks

theorem undurable_refl (session : Session Store) :
    Undurable session session :=
  ⟨rfl, rfl⟩

theorem undurable_trans (first second third : Session Store)
    (front : Undurable first second) (back : Undurable second third) :
    Undurable first third :=
  ⟨back.durable.trans front.durable, back.blocks.trans front.blocks⟩

section Undurable

variable {α β : Type}

theorem undurable_bind {program : Write Store α} {next : α → Write Store β}
    (first : Keeps Undurable program)
    (rest : ∀ value, Keeps Undurable (next value)) :
    Keeps Undurable (program >>= next) :=
  keeps_bind undurable_trans first rest

theorem undurable_pure (value : α) :
    Keeps Undurable (pure value : Write Store α) :=
  keeps_pure undurable_refl value

theorem undurable_throw (error : WriteError) :
    Keeps Undurable (throw error : Write Store α) :=
  keeps_throw undurable_refl error

theorem undurable_forM {items : List α} {body : α → Write Store PUnit}
    (each : ∀ item ∈ items, Keeps Undurable (body item)) :
    Keeps Undurable (items.forM body) :=
  keeps_forM undurable_refl undurable_trans each

theorem undurable_stage (statement : Statement Store) :
    Keeps Undurable (stage statement) :=
  fun _ => ⟨rfl, rfl⟩

theorem undurable_emit (hook : Hook Store) : Keeps Undurable (emit hook) := by
  obtain ⟨changes, raises⟩ := hook
  apply undurable_bind (undurable_forM fun change _ => undurable_stage change)
  intro _
  cases raises with
  | none => exact undurable_pure ()
  | some raised => exact undurable_throw _

theorem undurable_flush : Keeps Undurable (flush : Write Store Unit) := by
  intro session
  rcases flush_cases session with
    ⟨_, same⟩ | ⟨working, _, _, same⟩ | ⟨error, _, same⟩
  all_goals
    rw [after, same]
    exact ⟨rfl, rfl⟩

theorem undurable_send (statement : Statement Store) :
    Keeps Undurable (send statement) := by
  intro session
  rcases send_cases statement session with
    ⟨working, touched, _, _, same⟩ | ⟨error, health, _, _, same⟩
  all_goals
    rw [after, same]
    exact ⟨rfl, rfl⟩

theorem undurable_execute (statement : Statement Store) :
    Keeps Undurable (execute statement) :=
  undurable_bind undurable_flush fun _ => undurable_send statement

theorem undurable_select : Keeps Undurable (select : Write Store Unit) :=
  undurable_bind (undurable_execute _) fun _ => undurable_pure ()

theorem undurable_refresh (hook : Hook Store) :
    Keeps Undurable (refresh hook) :=
  undurable_bind undurable_select fun _ => undurable_emit hook

theorem undurable_afterCommit (repo : Repository) (call : WriteCall Store) :
    Keeps Undurable (call.afterCommit repo) := by
  have saved : ∀ hooks : Hooks Store, Keeps Undurable (do
      refresh hooks.refreshed
      emit hooks.postSave) := fun hooks =>
    undurable_bind (undurable_refresh _) fun _ => undurable_emit _
  cases call with
  | add insert hooks => exact saved hooks
  | update check hooks => exact saved hooks
  | softDelete found change check hooks => exact saved hooks
  | restore found change check hooks => exact saved hooks
  | addAll inserts => exact undurable_forM fun model _ => saved model.2
  | saveWithOutbox insert event refreshed => exact undurable_refresh refreshed
  | addAudited insert entry audit refreshed => exact undurable_refresh refreshed
  | updateAudited entry check audit refreshed => exact undurable_refresh refreshed
  | updateMany models => exact undurable_forM fun model _ => undurable_emit _
  | delete statement signals =>
    simp only [WriteCall.afterCommit]
    split
    · exact undurable_pure ()
    · cases signals with
      | none => exact undurable_pure ()
      | some signals => exact undurable_emit _
  | _ => exact undurable_pure ()

end Undurable

section Parts

variable {α β : Type} {session left : Session Store} {error : WriteError}

theorem emit_apply (hook : Hook Store) (session : Session Store) :
    emit hook session =
      (match hook.raises with
        | none => .ok ()
        | some (app, message) => .error (.raised app message),
        { session with staged := session.staged ++ hook.changes }) := by
  obtain ⟨changes, raises⟩ := hook
  have staged : ∀ (changes : List (Statement Store)) session,
      changes.forM stage session =
        (.ok (), { session with staged := session.staged ++ changes }) := by
    intro changes
    induction changes with
    | nil =>
      intro session
      rw [List.append_nil]
      rfl
    | cons change rest induction =>
      intro session
      rw [List.forM_eq_forM, List.forM_cons, ← List.forM_eq_forM]
      have further := induction
        { session with staged := session.staged ++ [change] }
      rw [List.append_assoc] at further
      exact further
  have split := bind_apply (changes.forM stage)
    (fun _ : PUnit => (match raises with
      | none => pure ()
      | some (app, message) => throw (.raised app message) :
        Write Store Unit)) session
  simp only [result, after, staged] at split
  refine split.trans ?_
  cases raises <;> rfl

theorem settled_unflushed (session : Session Store) :
    session.unflushed.Settled := by
  refine ⟨rfl, ?_⟩
  intro usable
  cases usable

theorem select_cases (session : Session Store) :
    (∃ rows, session.pending = some rows ∧
      select session =
        (.ok (), { session with working := rows, staged := [] })) ∨
      ∃ error left, error.isApp = false ∧ left.Settled ∧
        left.durable = session.durable ∧
        select session = (.error error, left) := by
  have split := bind_apply flush
    (fun _ => send fun store : Store => some (store, 0)) session
  have whole := bind_apply (execute fun store : Store => some (store, 0))
    (fun _ => (pure () : Write Store Unit)) session
  change select session = _ at whole
  change execute _ session = _ at split
  simp only [result, after, split] at whole
  rcases flush_cases session with
    ⟨empty, same⟩ | ⟨rows, usable, ran, same⟩ | ⟨error, refused, same⟩
  · obtain ⟨durable, working, staged, blocks, health, aborts, log⟩ := session
    obtain rfl := empty
    simp only [same] at whole
    cases health with
    | usable => exact .inl ⟨working, rfl, whole⟩
    | aborted =>
      exact .inr ⟨.unusable, _, rfl, ⟨rfl, fun usable => by cases usable⟩,
        rfl, whole⟩
    | inactive =>
      exact .inr ⟨.unusable, _, rfl, ⟨rfl, fun usable => by cases usable⟩,
        rfl, whole⟩
  · obtain ⟨durable, working, staged, blocks, health, aborts, log⟩ := session
    obtain rfl := usable
    simp only [same] at whole
    exact .inl ⟨rows, ran, whole⟩
  · simp only [same] at whole
    exact .inr ⟨error, _, refused.1, settled_unflushed session, rfl, whole⟩

theorem settled_ended (issued : Issued) (durable : Store) :
    (session.ended issued durable).Settled :=
  ⟨rfl, fun _ => rfl⟩

theorem sessionCommit_cases (outside : session.blocks = []) :
    (∃ committed, committed.Settled ∧ committed.health = .usable ∧
      committed.blocks = [] ∧ sessionCommit session = (.ok (), committed)) ∨
      ∃ error left, error.isApp = false ∧ left.durable = session.durable ∧
        left.blocks = [] ∧ sessionCommit session = (.error error, left) := by
  have ended : ∀ (before : Session Store) durable, before.blocks = [] →
      (before.ended .commit durable).blocks = [] := by
    intro before durable none_open
    simp [Session.ended, none_open]
  have split := bind_apply flush (fun _ => sendCommit) session
  change sessionCommit session = _ at split
  rcases flush_cases session with
    ⟨empty, same⟩ | ⟨rows, usable, ran, same⟩ | ⟨error, refused, same⟩
  · simp only [result, after, same] at split
    cases health : session.health with
    | usable =>
      refine .inl ⟨_, settled_ended .commit session.working, rfl,
        ended session _ outside, ?_⟩
      simp [split, sendCommit, health]
    | aborted =>
      refine .inl ⟨_, settled_ended .commit session.durable, rfl,
        ended session _ outside, ?_⟩
      simp [split, sendCommit, health]
    | inactive =>
      refine .inr ⟨.unusable, session, rfl, rfl, outside, ?_⟩
      simp [split, sendCommit, health]
  · simp only [result, after, same] at split
    refine .inl ⟨_, settled_ended .commit rows, rfl,
      ended { session with working := rows, staged := [] } _ outside, ?_⟩
    simp [split, sendCommit, usable]
  · simp only [result, after, same] at split
    exact .inr ⟨error, session.unflushed, refused.1, rfl, outside, split⟩

/-- What raises before its commit leaves the durable rows, and what raises
after it is `late`. -/
def Commits (late : Write Store Unit) (body : Write Store α) : Prop :=
  ∀ session, session.blocks = [] → ∀ error left,
    body session = (.error error, left) →
    left.blocks = [] ∧
      (left.durable = session.durable ∨ RaisesLate late left.durable)

variable {late : Write Store Unit}

theorem commits_early {program : Write Store α}
    (early : Keeps Undurable program) : Commits late program := by
  intro session outside error left raised
  have kept := early.run raised
  exact ⟨kept.blocks.trans outside, .inl kept.durable⟩

theorem commits_bind {program : Write Store α} {next : α → Write Store β}
    (early : Keeps Undurable program)
    (rest : ∀ value, Commits late (next value)) :
    Commits late (program >>= next) := by
  intro session outside error left raised
  rcases error_of_bind raised with first | ⟨value, middle, done, second⟩
  · exact commits_early early session outside error left first
  · have kept := early.run done
    obtain ⟨still, outcome⟩ :=
      rest value middle (kept.blocks.trans outside) error left second
    rw [kept.durable] at outcome
    exact ⟨still, outcome⟩

variable {repo : Repository}

section

variable (autocommit : repo.autocommit = true)

include autocommit

theorem commitWrite_apply
    (outside : session.blocks = []) :
    repo.commitWrite session = sessionCommit session := by
  change (if repo.autocommit && !Block.inTransaction session.blocks
    then sessionCommit else flush) session = _
  rw [outside, autocommit]
  rfl

theorem commits_commitWrite {rest : Write Store α}
    (undurable : Keeps Undurable rest)
    (same : ∀ session error left, rest session = (.error error, left) →
      ∃ reason, result late session = .error reason) :
    Commits late (do
      repo.commitWrite
      rest) := by
  intro session outside error left raised
  have commits := commitWrite_apply autocommit outside
  rcases sessionCommit_cases outside with
    ⟨committed, settled, usable, none_open, done⟩ |
    ⟨reason, failed, _, durable, none_open, done⟩
  · rcases error_of_bind raised with first | ⟨value, middle, first, second⟩
    · rw [commits, done] at first
      cases first
    · rw [commits, done] at first
      cases first
      have kept := undurable.run second
      obtain ⟨reason, late_raises⟩ := same committed error left second
      exact ⟨kept.blocks.trans none_open, .inr ⟨committed, reason, settled,
        usable, kept.durable.symm, late_raises⟩⟩
  · rcases error_of_bind raised with first | ⟨value, middle, first, second⟩
    · rw [commits, done] at first
      cases first
      exact ⟨none_open, .inl durable⟩
    · rw [commits, done] at first
      cases first

theorem commits_last
    (undurable : Keeps Undurable late) :
    Commits late (do
      repo.commitWrite
      late) := by
  apply commits_commitWrite autocommit undurable
  intro session error left raised
  exact ⟨error, by rw [result, raised]⟩

end

theorem commits_sessionCommit :
    Commits late (sessionCommit : Write Store Unit) := by
  intro session outside error left raised
  rcases sessionCommit_cases outside with
    ⟨committed, _, _, _, done⟩ | ⟨reason, broken, _, durable, none_open, done⟩
  · rw [done] at raised
    cases raised
  · rw [done] at raised
    cases raised
    exact ⟨none_open, .inl durable⟩

theorem commits_end (autocommit : repo.autocommit = true) :
    Commits late (repo.commitWrite : Write Store Unit) := by
  intro session outside error left raised
  rw [commitWrite_apply autocommit outside] at raised
  exact commits_sessionCommit session outside error left raised

theorem commits_pure {program : Write Store α} {value : β}
    (commits : Commits late program) :
    Commits late (do
      let _ ← program
      pure value) := by
  intro session outside error left raised
  rcases error_of_bind raised with first | ⟨_, middle, _, absurd⟩
  · exact commits session outside error left first
  · cases absurd

theorem rollbackAfterFailure_apply (outside : session.blocks = []) :
    Repository.rollbackAfterFailure session =
      (.ok (), session.ended .rollback session.durable) := by
  change (if Block.inTransaction session.blocks
    then pure () else sessionRollback : Write Store Unit) session = _
  rw [outside]
  rfl

theorem guarded_raises {body : Write Store α}
    {conflict : Option ConflictException} (commits : Commits late body)
    (outside : session.blocks = [])
    (raised : Repository.guarded conflict body session = (.error error, left)) :
    left.Settled ∧
      (left.durable = session.durable ∨ RaisesLate late left.durable) := by
  obtain ⟨first, middle, failed, handled⟩ := error_of_tryCatch raised
  obtain ⟨still, outcome⟩ := commits session outside first middle failed
  have reverted := rollbackAfterFailure_apply still
  have ends : left = middle.ended .rollback middle.durable := by
    rcases error_of_bind handled with refused | ⟨_, other, done, last⟩
    · rw [reverted] at refused
      cases refused
    · rw [reverted] at done
      cases done
      split at last
      · cases last
        rfl
      · cases last
        rfl
  rw [ends]
  exact ⟨settled_ended _ _, outcome⟩

theorem unlessApp_raises {late body : Write Store Unit}
    {rollback : Write Store Unit}
    (reverts : ∀ session : Session Store, session.blocks = [] →
      rollback session = (.ok (), session.ended .rollback session.durable))
    (commits : Commits late body) (outside : session.blocks = [])
    (raised : Repository.unlessApp rollback body session =
      (.error error, left)) :
    (left.durable = session.durable ∨ RaisesLate late left.durable) ∧
      (left.Settled ∨
        (error.isApp = true ∧ body session = (.error error, left))) := by
  obtain ⟨first, middle, failed, handled⟩ := error_of_tryCatch raised
  obtain ⟨still, outcome⟩ := commits session outside first middle failed
  cases app : first.isApp with
  | true =>
    have passes : (throw first : Write Store Unit) middle =
        (.error error, left) := by
      simpa [app] using handled
    cases passes
    exact ⟨outcome, .inr ⟨app, failed⟩⟩
  | false =>
    have reverted : (do rollback; throw first : Write Store Unit) middle =
        (.error error, left) := by
      simpa [app] using handled
    have ends : left = middle.ended .rollback middle.durable := by
      rcases error_of_bind reverted with refused | ⟨_, other, done, last⟩
      · rw [reverts middle still] at refused
        cases refused
      · rw [reverts middle still] at done
        cases done
        cases last
        rfl
    rw [ends]
    exact ⟨outcome, .inl (settled_ended _ _)⟩

end Parts

section Passing

variable {session left : Session Store} {error : WriteError}

theorem runAll_nil (rows : Option Store) : rows.bind (runAll []) = rows := by
  cases rows <;> rfl

theorem leavesPending_same {changes : List (Statement Store)}
    (same : left.pending = session.pending) :
    LeavesPending changes session left :=
  ⟨[], List.nil_sublist _, .inl (by rw [same, runAll_nil])⟩

theorem pending_staged (changes : List (Statement Store)) :
    Session.pending { session with staged := session.staged ++ changes } =
      session.pending.bind (runAll changes) :=
  runAll_append session.staged changes session.working

theorem pending_emit {hook : Hook Store} {outcome : Except WriteError Unit}
    (done : emit hook session = (outcome, left)) :
    left.pending = session.pending.bind (runAll hook.changes) ∧
      left.durable = session.durable ∧ left.blocks = session.blocks := by
  rw [emit_apply] at done
  cases done
  exact ⟨pending_staged hook.changes, rfl, rfl⟩

theorem emit_refuses {hook : Hook Store}
    (raised : emit hook session = (.error error, left)) :
    hook.raises.isSome = true ∧ LeavesPending hook.changes session left := by
  refine ⟨?_, hook.changes, List.Sublist.refl _, .inl (pending_emit raised).1⟩
  rw [emit_apply] at raised
  cases raises : hook.raises with
  | some reason => rfl
  | none =>
    rw [raises] at raised
    cases raised

theorem preDelete_cases {signals : Repository.DeleteSignals Store}
    {outcome : Except WriteError Unit}
    (done : (do
      select
      if !signals.found then throw .notFound
      emit signals.preDelete : Write Store Unit) session = (outcome, left)) :
    (∃ error, outcome = .error error ∧ error.isApp = false) ∨
      ∃ changed, changed.Sublist signals.preDelete.changes ∧
        left.pending = session.pending.bind (runAll changed) := by
  obtain ⟨found, preDelete, postDelete⟩ := signals
  have split := bind_apply select (fun _ => (do
    if !found then throw .notFound
    emit preDelete : Write Store Unit)) session
  rw [done] at split
  rcases select_cases session with
    ⟨rows, pending, same⟩ | ⟨error, broken, app, _, _, same⟩
  · have loaded : Session.pending
        { session with working := rows, staged := [] } = session.pending :=
      pending.symm
    simp only [result, after, same] at split
    cases found with
    | false =>
      right
      refine ⟨[], List.nil_sublist _, ?_⟩
      cases split
      rw [runAll_nil]
      exact loaded
    | true =>
      right
      refine ⟨preDelete.changes, List.Sublist.refl _, ?_⟩
      rw [(pending_emit split.symm).1, loaded]
  · simp only [result, after, same] at split
    cases split
    exact .inl ⟨error, rfl, app⟩

theorem undurable_preDelete (signals : Repository.DeleteSignals Store) :
    Keeps Undurable (do
      select
      if !signals.found then throw .notFound
      emit signals.preDelete : Write Store Unit) := by
  apply undurable_bind undurable_select
  intro _
  cases signals.found with
  | true => exact undurable_emit _
  | false => exact undurable_bind (undurable_throw _) fun _ => undurable_emit _

theorem deletion_passes {statement : Statement Store} {next : Write Store Unit}
    (counted : ∀ rows next, statement rows = some (next, 0) → next = rows)
    (app : error.isApp = true)
    (raised : (do
      let deleted ← execute statement
      if deleted = 0 then throw .notFound
      next : Write Store Unit) session = (.error error, left)) :
    left.pending = session.pending ∨
      ∃ middle : Session Store, middle.blocks = session.blocks ∧
        next middle = (.error error, left) := by
  rcases execute_cases statement session with
    ⟨flushed, rows, touched, _, ran, sent, done⟩ |
    ⟨_, reason, refusing, refused, done⟩
  · rcases error_of_bind raised with first | ⟨deleted, middle, first, second⟩
    · rw [done] at first
      cases first
    · rw [done] at first
      cases first
      by_cases missed : touched = 0
      · left
        subst missed
        simp only [if_true] at second
        cases second
        rw [counted flushed rows sent]
        exact ran.symm
      · right
        simp only [missed, if_false] at second
        exact ⟨{ session with working := rows, staged := [] }, rfl, second⟩
  · rcases error_of_bind raised with first | ⟨deleted, middle, first, second⟩
    · rw [done] at first
      cases first
      rw [refused.error] at app
      cases app
    · rw [done] at first
      cases first

theorem sessionCommit_passes {outcome : Except WriteError Unit}
    (outside : session.blocks = [])
    (done : sessionCommit session = (outcome, left)) :
    (∃ error, outcome = .error error ∧ error.isApp = false) ∨
      (outcome = .ok () ∧ left.Settled ∧ left.health = .usable) := by
  rcases sessionCommit_cases outside with
    ⟨committed, settled, usable, _, same⟩ | ⟨error, broken, app, _, _, same⟩
  · rw [same] at done
    cases done
    exact .inr ⟨rfl, settled, usable⟩
  · rw [same] at done
    cases done
    exact .inl ⟨error, rfl, app⟩

theorem committed_passes {repo : Repository} {late : Write Store Unit}
    (autocommit : repo.autocommit = true) (outside : session.blocks = [])
    (app : error.isApp = true)
    (raised : (do
      repo.commitWrite
      late : Write Store Unit) session = (.error error, left)) :
    ∃ committed : Session Store, committed.Settled ∧
      committed.health = .usable ∧ late committed = (.error error, left) := by
  have done := commitWrite_apply autocommit outside
  rcases error_of_bind raised with first | ⟨_, committed, first, second⟩
  · rw [done] at first
    rcases sessionCommit_passes outside first with
      ⟨reason, same, plain⟩ | ⟨absurd, _⟩
    · cases same
      rw [plain] at app
      cases app
    · cases absurd
  · rw [done] at first
    rcases sessionCommit_passes outside first with
      ⟨reason, absurd, _⟩ | ⟨_, settled, usable⟩
    · cases absurd
    · exact ⟨committed, settled, usable, second⟩

theorem delete_passes {repo : Repository} {statement : Statement Store}
    {signals : Option (Repository.DeleteSignals Store)}
    (counted : ∀ rows next, statement rows = some (next, 0) → next = rows)
    (autocommit : repo.autocommit = true) (outside : session.blocks = [])
    (app : error.isApp = true)
    (raised : (do
      signals.forM fun signals => do
        select
        if !signals.found then throw .notFound
        emit signals.preDelete
      let deleted ← execute statement
      if deleted = 0 then throw .notFound
      repo.commitWrite
      signals.forM fun signals => emit signals.postDelete :
        Write Store Unit) session = (.error error, left)) :
    LeavesPending
      (WriteCall.delete statement signals).refusedChanges session left := by
  cases signals with
  | none =>
    rcases deletion_passes counted app raised with
      same | ⟨middle, blocks, committing⟩
    · exact leavesPending_same same
    · obtain ⟨committed, _, _, absurd⟩ :=
        committed_passes autocommit (blocks.trans outside) app committing
      cases absurd
  | some signals =>
    rcases error_of_bind raised with first | ⟨_, loaded, first, second⟩
    · rcases preDelete_cases first with
        ⟨reason, same, plain⟩ | ⟨changed, within, pending⟩
      · cases same
        rw [plain] at app
        cases app
      · exact ⟨changed, within.trans (List.sublist_append_left _ _),
          .inl pending⟩
    · have kept := (undurable_preDelete signals).run first
      rcases preDelete_cases first with
        ⟨reason, absurd, _⟩ | ⟨changed, within, pending⟩
      · cases absurd
      · rcases deletion_passes counted app second with
          same | ⟨middle, blocks, committing⟩
        · exact ⟨changed, within.trans (List.sublist_append_left _ _),
            .inl (same.trans pending)⟩
        · obtain ⟨committed, settled, usable, last⟩ :=
            committed_passes autocommit
              (blocks.trans (kept.blocks.trans outside)) app committing
          obtain ⟨staged, durable, _⟩ := pending_emit last
          refine ⟨signals.postDelete.changes, List.sublist_append_right _ _,
            .inr ?_⟩
          rw [staged, durable, Session.pending, settled.1, settled.2 usable]
          rfl

end Passing

/-- Either nothing is durable, or what comes after the commit raises; and
nothing is pending, unless the call was refused. -/
structure WriteCall.Fails (repo : Repository) (call : WriteCall Store)
    (session : Session Store) (error : WriteError) (left : Session Store) :
    Prop where
  durable : left.durable = session.durable ∨
    RaisesLate (call.afterCommit repo) left.durable
  pending : left.Settled ∨
    (call.refuses error = true ∧
      LeavesPending call.refusedChanges session left)

section Methods

variable {repo : Repository} {session left : Session Store}
  {error : WriteError}

variable {call : WriteCall Store}

theorem fails_guarded {α : Type} {conflict : Option ConflictException}
    {body : Write Store α} (commits : Commits (call.afterCommit repo) body)
    (outside : session.blocks = [])
    (raised : Repository.guarded conflict body session = (.error error, left)) :
    call.Fails repo session error left := by
  obtain ⟨settled, durable⟩ := guarded_raises commits outside raised
  exact ⟨durable, .inl settled⟩

theorem fails_emit {hook : Hook Store}
    (refuses : hook.raises.isSome = true → call.refuses error = true)
    (changes : call.refusedChanges = hook.changes)
    (raised : emit hook session = (.error error, left)) :
    call.Fails repo session error left := by
  obtain ⟨raises, pending⟩ := emit_refuses raised
  rw [← changes] at pending
  exact ⟨.inl (pending_emit raised).2.1, .inr ⟨refuses raises, pending⟩⟩

theorem fails_throw {reason : WriteError} {α : Type}
    (refuses : call.refuses reason = true)
    (raised : (throw reason : Write Store α) session = (.error error, left)) :
    call.Fails repo session error left := by
  cases raised
  exact ⟨.inl rfl, .inr ⟨refuses, leavesPending_same rfl⟩⟩

theorem commits_execute (autocommit : repo.autocommit = true)
    (statement : Statement Store) :
    Commits (pure ()) (do
      let touched ← execute statement
      repo.commitWrite
      pure touched) := by
  apply commits_bind (undurable_execute statement)
  intro touched
  exact commits_pure (commits_end autocommit)

theorem emit_returns {hook : Hook Store} {middle : Session Store}
    (done : emit hook session = (.ok (), middle)) :
    middle.durable = session.durable ∧ middle.blocks = session.blocks :=
  (pending_emit done).2

theorem fails_checked {hook : Hook Store}
    {conflict : Option ConflictException} {α : Type} {body : Write Store α}
    (refuses : hook.raises.isSome = true → call.refuses error = true)
    (changes : call.refusedChanges = hook.changes)
    (commits : Commits (call.afterCommit repo) body)
    (outside : session.blocks = [])
    (raised : (do
      emit hook
      Repository.guarded conflict body) session = (.error error, left)) :
    call.Fails repo session error left := by
  rcases error_of_bind raised with first | ⟨_, middle, first, second⟩
  · exact fails_emit refuses changes first
  · obtain ⟨durable, blocks⟩ := emit_returns first
    obtain ⟨settled, outcome⟩ :=
      guarded_raises commits (blocks.trans outside) second
    rw [durable] at outcome
    exact ⟨outcome, .inl settled⟩

theorem commits_saved (autocommit : repo.autocommit = true)
    (hooks : Hooks Store) :
    Commits (do refresh hooks.refreshed; emit hooks.postSave) (do
      repo.commitWrite
      refresh hooks.refreshed
      emit hooks.postSave) :=
  commits_last autocommit
    (undurable_bind (undurable_refresh _) fun _ => undurable_emit _)

theorem commits_update (autocommit : repo.autocommit = true)
    (check : Hook Store) (hooks : Hooks Store) :
    Commits (do refresh hooks.refreshed; emit hooks.postSave) (do
      emit check
      emit hooks.preSave
      repo.commitWrite
      refresh hooks.refreshed
      emit hooks.postSave) := by
  apply commits_bind (undurable_emit check)
  intro _
  apply commits_bind (undurable_emit _)
  intro _
  exact commits_saved autocommit hooks

theorem fails_setActive {found : Bool} {change : Statement Store}
    {check : Hook Store} {hooks : Hooks Store}
    (late : call.afterCommit repo =
      (do refresh hooks.refreshed; emit hooks.postSave))
    (refuses : found = false → call.refuses error = true)
    (autocommit : repo.autocommit = true) (outside : session.blocks = [])
    (raised : repo.setActive found change check hooks session =
      (.error error, left)) : call.Fails repo session error left := by
  rcases error_of_bind raised with first | ⟨_, loaded, first, second⟩
  · rcases select_cases session with
      ⟨rows, _, done⟩ | ⟨reason, broken, _, settled, durable, done⟩
    · rw [done] at first
      cases first
    · rw [done] at first
      cases first
      exact ⟨.inl durable, .inl settled⟩
  · have kept := undurable_select.run first
    cases found with
    | false =>
      rcases select_cases session with
        ⟨rows, pending, done⟩ | ⟨reason, broken, _, _, _, done⟩
      · rw [done] at first
        cases first
        cases second
        exact ⟨.inl rfl, .inr ⟨refuses rfl,
          leavesPending_same pending.symm⟩⟩
      · rw [done] at first
        cases first
    | true =>
      have changed := (undurable_stage change) loaded
      have updated : repo.update check hooks (after (stage change) loaded) =
          (.error error, left) := second
      obtain ⟨settled, outcome⟩ :=
        guarded_raises (commits_update autocommit check hooks)
          (changed.blocks.trans (kept.blocks.trans outside)) updated
      rw [← late, changed.durable, kept.durable] at outcome
      exact ⟨outcome, .inl settled⟩

theorem fails_delete {statement : Statement Store}
    {signals : Option (Repository.DeleteSignals Store)}
    (tenant : repo.tenantScoped = false)
    (counted : ∀ rows next, statement rows = some (next, 0) → next = rows)
    (autocommit : repo.autocommit = true) (outside : session.blocks = [])
    (raised : repo.delete statement signals session = (.error error, left)) :
    (WriteCall.delete statement signals).Fails repo session error left := by
  have commits : Commits
      ((WriteCall.delete statement signals).afterCommit repo) (do
        signals.forM fun signals => do
          select
          if !signals.found then throw .notFound
          emit signals.preDelete
        let deleted ← execute statement
        if deleted = 0 then throw .notFound
        repo.commitWrite
        signals.forM fun signals => emit signals.postDelete) := by
    have late : (WriteCall.delete statement signals).afterCommit repo =
        signals.forM fun signals => emit signals.postDelete := by
      simp [WriteCall.afterCommit, tenant]
    have undurable := undurable_afterCommit repo (.delete statement signals)
    rw [late] at undurable ⊢
    apply commits_bind
    · cases signals with
      | none => exact undurable_pure _
      | some signals => exact undurable_preDelete signals
    · intro _
      apply commits_bind (undurable_execute statement)
      intro touched
      by_cases missed : touched = 0
      · simp only [missed, if_true]
        exact commits_bind (undurable_throw _) fun _ =>
          commits_last autocommit undurable
      · simp only [missed, if_false]
        exact commits_last autocommit undurable
  obtain ⟨durable, settled | ⟨app, passed⟩⟩ :=
    unlessApp_raises (fun _ => rollbackAfterFailure_apply) commits outside
      raised
  · exact ⟨durable, .inl settled⟩
  · exact ⟨durable, .inr ⟨app,
      delete_passes counted autocommit outside app passed⟩⟩

theorem fails_tenantDelete {statement : Statement Store}
    {signals : Option (Repository.DeleteSignals Store)}
    (counted : ∀ rows next, statement rows = some (next, 0) → next = rows)
    (outside : session.blocks = [])
    (raised : Repository.tenantDelete statement session =
      (.error error, left)) :
    (WriteCall.delete statement signals).Fails repo session error left := by
  have commits : Commits
      ((WriteCall.delete statement signals).afterCommit repo) (do
        let deleted ← execute statement
        if deleted = 0 then throw .notFound
        sessionCommit) := by
    apply commits_bind (undurable_execute statement)
    intro touched
    by_cases missed : touched = 0
    · simp only [missed, if_true]
      exact commits_bind (undurable_throw _) fun _ => commits_sessionCommit
    · simp only [missed, if_false]
      exact commits_sessionCommit
  obtain ⟨durable, settled | ⟨app, passed⟩⟩ :=
    unlessApp_raises (fun _ _ => rfl) commits outside raised
  · exact ⟨durable, .inl settled⟩
  · refine ⟨durable, .inr ⟨app, ?_⟩⟩
    rcases deletion_passes counted app passed with
      same | ⟨middle, blocks, committing⟩
    · exact leavesPending_same same
    · rcases sessionCommit_passes (blocks.trans outside) committing with
        ⟨reason, same, plain⟩ | ⟨absurd, _⟩
      · cases same
        rw [plain] at app
        cases app
      · cases absurd

theorem fails_tenantDeleteBatch {statement : Statement Store}
    (outside : session.blocks = [])
    (raised : Repository.tenantDeleteBatch statement session =
      (.error error, left)) :
    (WriteCall.deleteBatch statement).Fails repo session error left := by
  have commits : Commits (pure ()) (do
      let deleted ← execute statement
      sessionCommit
      pure deleted) :=
    commits_bind (undurable_execute statement) fun _ =>
      commits_pure commits_sessionCommit
  obtain ⟨first, middle, failed, handled⟩ := error_of_tryCatch raised
  obtain ⟨_, outcome⟩ := commits session outside first middle failed
  cases handled
  exact ⟨outcome, .inl (settled_ended _ _)⟩

end Methods

/-- A write that raises is durable only if what comes after its commit raises,
and leaves nothing pending unless it is refused. -/
theorem write_fails_atomically {repo : Repository} {call : WriteCall Store}
    {session left : Session Store} {error : WriteError}
    (autocommit : repo.autocommit = true) (outside : session.blocks = [])
    (isWrite : call.isWrite = true) (counted : call.Counted)
    (raised : call.run repo session = (.error error, left)) :
    call.Fails repo session error left := by
  cases call with
  | add insert hooks =>
    refine fails_guarded ?_ outside raised
    apply commits_bind (undurable_emit _)
    intro _
    apply commits_bind (undurable_stage insert)
    intro _
    exact commits_saved autocommit hooks
  | addAll inserts =>
    refine fails_guarded ?_ outside raised
    apply commits_bind (undurable_forM fun model _ => undurable_emit _)
    intro _
    apply commits_bind (undurable_forM fun model _ => undurable_stage _)
    intro _
    apply commits_last autocommit
    exact undurable_afterCommit repo (.addAll inserts)
  | saveWithOutbox insert event refreshed =>
    refine fails_guarded ?_ outside raised
    apply commits_bind (undurable_stage insert)
    intro _
    apply commits_bind (undurable_stage event)
    intro _
    exact commits_last autocommit (undurable_refresh refreshed)
  | addAudited insert entry audit refreshed =>
    refine fails_guarded ?_ outside raised
    apply commits_bind (undurable_stage insert)
    intro _
    apply commits_bind undurable_flush
    intro _
    apply commits_bind (undurable_emit audit)
    intro _
    apply commits_bind (undurable_stage entry)
    intro _
    exact commits_last autocommit (undurable_refresh refreshed)
  | updateAudited entry check audit refreshed =>
    refine fails_guarded ?_ outside raised
    apply commits_bind (undurable_emit check)
    intro _
    apply commits_bind (undurable_emit audit)
    intro _
    apply commits_bind (undurable_stage entry)
    intro _
    exact commits_last autocommit (undurable_refresh refreshed)
  | deleteAudited deletion entry check audit =>
    have failed : repo.deleteAudited deletion entry check audit session =
        (.error error, left) := raised
    refine fails_guarded ?_ outside failed
    apply commits_bind (undurable_emit check)
    intro _
    apply commits_bind (undurable_emit audit)
    intro _
    apply commits_bind (undurable_stage deletion)
    intro _
    exact commits_bind (undurable_stage entry) fun _ => commits_end autocommit
  | recordEvent entry audit =>
    refine fails_checked id rfl ?_ outside raised
    exact commits_bind (undurable_stage entry) fun _ => commits_end autocommit
  | update check hooks =>
    exact fails_guarded (commits_update autocommit check hooks) outside raised
  | updateMany models =>
    refine fails_guarded ?_ outside raised
    apply commits_bind (undurable_forM fun model _ => undurable_emit _)
    intro _
    apply commits_bind (undurable_forM fun model _ => undurable_emit _)
    intro _
    apply commits_last autocommit
    exact undurable_afterCommit repo (.updateMany models)
  | bulkUpdate filtered refused statement =>
    have failed := error_of_discard raised
    cases filtered with
    | false => exact fails_throw rfl failed
    | true =>
      exact fails_checked id rfl (commits_execute autocommit statement)
        outside failed
  | updateReturning returning filtered refused statement =>
    have failed := error_of_discard raised
    cases returning with
    | false => exact fails_throw rfl failed
    | true =>
      cases filtered with
      | false => exact fails_throw rfl failed
      | true =>
        exact fails_checked id rfl (commits_execute autocommit statement)
          outside failed
  | bulkCreateValues statement =>
    have failed := error_of_discard raised
    cases statement with
    | none => exact fails_throw rfl failed
    | some statement =>
      exact fails_guarded (commits_execute autocommit statement) outside
        failed
  | bulkUpsert refused statement =>
    have failed := error_of_discard raised
    exact fails_checked id rfl (commits_execute autocommit statement) outside
      failed
  | delete statement signals =>
    have rows_kept := counted statement signals rfl
    cases tenant : repo.tenantScoped with
    | true =>
      simp only [WriteCall.run, tenant, if_true] at raised
      exact fails_tenantDelete rows_kept outside raised
    | false =>
      simp only [WriteCall.run, tenant, Bool.false_eq_true, if_false]
        at raised
      exact fails_delete tenant rows_kept autocommit outside raised
  | deleteMany statement =>
    exact fails_guarded (commits_execute autocommit statement) outside
      (error_of_discard raised)
  | deleteBatch statement =>
    cases tenant : repo.tenantScoped with
    | true =>
      simp only [WriteCall.run, tenant, if_true] at raised
      exact fails_tenantDeleteBatch outside (error_of_discard raised)
    | false =>
      simp only [WriteCall.run, tenant, Bool.false_eq_true, if_false]
        at raised
      have failed : repo.deleteMany statement session =
          (.error error, left) := error_of_discard raised
      exact fails_guarded (commits_execute autocommit statement) outside
        failed
  | softDelete found change check hooks =>
    apply fails_setActive rfl _ autocommit outside raised
    intro missing
    simp [WriteCall.refuses, missing]
  | restore found change check hooks =>
    apply fails_setActive rfl _ autocommit outside raised
    intro missing
    simp [WriteCall.refuses, missing]
  | commit => cases isWrite
  | flush => cases isWrite
  | rollback => cases isWrite

def push (row : Nat) : Statement (List Nat) :=
  fun rows => some (row :: rows, 1)

def committing : Repository where
  autocommit := true
  tenantScoped := false

theorem write_fails_atomically_veto :
    ∃ error left, (WriteCall.add (push 8)
        { preSave := { changes := [push 1], raises := some (true, "no") } }).run
          committing { Session.open_ [7] true with staged := [push 9] } =
            (.error error, left) ∧
      left.durable = [7] ∧ left.Settled := by
  refine ⟨_, _, rfl, rfl, ?_⟩
  have fails := write_fails_atomically rfl rfl rfl
    (by intro statement signals other; cases other)
    (show (WriteCall.add (push 8)
        { preSave := { changes := [push 1], raises := some (true, "no") } }).run
          committing { Session.open_ [7] true with staged := [push 9] } =
            (.error _, _) from rfl)
  apply fails.pending.resolve_right
  intro refused
  cases refused.1

/-- A handler of `POST_SAVE` raises once the row is durable; and what a handler
of `PRE_DELETE` has changed before it raises an `AppException` is flushed by a
later commit. -/
theorem write_fails_halfway :
    (∃ error left, (WriteCall.add (push 8)
        { postSave := { raises := some (false, "down") } }).run committing
          (Session.open_ [7] true) = (.error error, left) ∧
      left.durable = [8, 7]) ∧
    ∃ error left, (WriteCall.delete (fun _ => some ([], 1))
        (some {
          found := true
          preDelete := { changes := [push 1], raises := some (true, "in use") }
          postDelete := {} })).run committing (Session.open_ [7] true) =
            (.error error, left) ∧
      left.durable = [7] ∧ (after sessionCommit left).durable = [1, 7] :=
  ⟨⟨_, _, rfl, rfl⟩, _, _, rfl, rfl, rfl⟩

end UnitOfWork

end TempestSdk
