import TempestSdk.Db.Transaction
import TempestSdk.Library.RowVersions
import TempestSdk.Tasks.Jobs

/-!
# The job store

The calls of `JobStore` under READ COMMITTED, any number of them at a time.
Each call is one transaction: an insert, one conditional `UPDATE` of a row, or
the two of `reclaim_stale`, row by row.  A schedule interleaves the
statements, commits and rollbacks of any number of workers.

The store keeps, next to the table, what was done to each job so far and who
was given it: no call reads either.
-/

namespace TempestSdk

namespace Jobs

open Runs ReadCommitted

abbrev JobId := Nat

inductive JobCall where
  | claim
  | reportProgress (progress : PyFloat) (stage : Option String)
  | succeed (resultId : Option Nat)
      (values : Option (List (String × Option String)))
  | fail (reason : String)
  | cancel (reason : Option String)

/-- The `UPDATE` a method issues, with the clock it reads. -/
def JobCall.update (settings : JobStoreSettings) (now : Int) :
    JobCall → Except ValuesError JobUpdate
  | .claim => .ok (.claim now)
  | .reportProgress progress stage => .ok (.reportProgress progress stage)
  | .succeed resultId none => .ok (.succeed now resultId [])
  | .succeed resultId (some values) =>
    (projectValues settings values).map (.succeed now resultId)
  | .fail reason => .ok (.fail now reason)
  | .cancel reason => .ok (.cancel now reason)

/-- What a finishing call raises when no row matched. -/
inductive JobError where
  | notFound (jobId : JobId)
  | cancelled (jobId : JobId)
  | alreadyFinished (jobId : JobId) (status : JobStatus)
  deriving DecidableEq

/-- The end of `_finish`, on the row it reads back. -/
def finishError (jobId : JobId) : Option Job → JobError
  | none => .notFound jobId
  | some job =>
    if job.status = .cancelled then .cancelled jobId
    else .alreadyFinished jobId job.status

inductive StorePhase where
  | idle
  | enqueued (jobId : JobId)
  /-- The `UPDATE` ran, and it found the row or not. -/
  | updated (jobId : JobId) (update : JobUpdate) (matched : Bool)
  /-- `reclaim_stale` is at its first or second statement, and has written
  these rows. -/
  | sweeping (cutoff : Int) (first : Bool)
      (swept : List (JobId × JobUpdate))

def StorePhase.work : StorePhase → List (JobId × JobUpdate)
  | .updated jobId update true => [(jobId, update)]
  | .sweeping _ _ swept => swept
  | _ => []

structure StoreDb where
  jobs : Rows TxId JobId Job
  clock : Int
  phase : TxId → StorePhase
  history : JobId → List JobUpdate
  /-- The transactions `claim` gave the job to, each with its attempt. -/
  winners : JobId → List (TxId × Nat)

inductive StoreAction where
  | tick (elapsed : Nat)
  | enqueue (tx : TxId) (jobId : JobId) (kind params : String)
      (payload : Option (List UInt8)) (maxAttempts : Int)
  | call (tx : TxId) (jobId : JobId) (now : Int) (call : JobCall)
  | sweep (tx : TxId)
  | giveUp (tx : TxId) (jobId : JobId)
  | requeueing (tx : TxId)
  | requeue (tx : TxId) (jobId : JobId)
  | commit (tx : TxId)
  | rollback (tx : TxId)

namespace StoreDb

def start : StoreDb where
  jobs := .empty
  clock := 0
  phase := fun _ => .idle
  history := fun _ => []
  winners := fun _ => []

def goto (db : StoreDb) (tx : TxId) (phase : StorePhase) : StoreDb :=
  { db with phase := Function.update db.phase tx phase }

/-- One row of an `UPDATE`. -/
def updateRow (settings : JobStoreSettings) (db : StoreDb) (tx : TxId)
    (jobId : JobId) (update : JobUpdate) (next : Bool → StorePhase) :
    Option StoreDb :=
  (db.jobs.update tx jobId (fun job => update.guard settings job)
      (fun job => update.values job)).map fun (matched, jobs) =>
    { db with jobs }.goto tx (next matched)

def raised (db : StoreDb) (tx : TxId) : Option JobError :=
  match db.phase tx with
  | .updated jobId update false =>
    if update.finishes then
      some (finishError jobId (db.jobs.visible tx jobId))
    else none
  | _ => none

def won (db : StoreDb) (tx : TxId) (jobId : JobId) : List (TxId × Nat) :=
  match (db.phase tx).work.lookup jobId, db.jobs.visible tx jobId with
  | some (.claim _), some job => [(tx, job.attempts)]
  | _, _ => []

def commit (db : StoreDb) (tx : TxId) : StoreDb :=
  { db with
    jobs := db.jobs.commit tx
    phase := Function.update db.phase tx .idle
    history := fun jobId =>
      db.history jobId ++ ((db.phase tx).work.lookup jobId).toList
    winners := fun jobId => db.winners jobId ++ db.won tx jobId }

def rollback (db : StoreDb) (tx : TxId) : StoreDb :=
  { db with
    jobs := db.jobs.rollback tx
    phase := Function.update db.phase tx .idle }

@[grind =] def step (settings : JobStoreSettings) (db : StoreDb) :
    StoreAction → Option StoreDb
  | .tick elapsed => some { db with clock := db.clock + elapsed }
  | .enqueue tx jobId kind params payload maxAttempts =>
    match db.phase tx with
    | .idle =>
      if jobId ∈ db.jobs.keys then none
      else
        some ({ db with
          jobs := db.jobs.write tx jobId
            (some (newJob kind params payload maxAttempts)) }.goto tx
          (.enqueued jobId))
    | _ => none
  | .call tx jobId now call =>
    match db.phase tx with
    | .idle =>
      if now ≤ db.clock then
        match call.update settings now with
        | .ok update => db.updateRow settings tx jobId update (.updated jobId update)
        | .error _ => some db
      else none
    | _ => none
  | .sweep tx =>
    match db.phase tx, settings.staleAfter with
    | .idle, some staleAfter => some (db.goto tx (.sweeping (db.clock - staleAfter) true []))
    | _, _ => none
  | .giveUp tx jobId =>
    match db.phase tx with
    | .sweeping cutoff true swept =>
      let update := .giveUp cutoff db.clock
      db.updateRow settings tx jobId update fun matched =>
        .sweeping cutoff true (if matched then (jobId, update) :: swept else swept)
    | _ => none
  | .requeueing tx =>
    match db.phase tx with
    | .sweeping cutoff true swept => some (db.goto tx (.sweeping cutoff false swept))
    | _ => none
  | .requeue tx jobId =>
    match db.phase tx with
    | .sweeping cutoff false swept =>
      let update := .requeue cutoff
      db.updateRow settings tx jobId update fun matched =>
        .sweeping cutoff false (if matched then (jobId, update) :: swept else swept)
    | _ => none
  | .commit tx => if (db.raised tx).isSome then none else some (db.commit tx)
  | .rollback tx => some (db.rollback tx)

end StoreDb

/-- A budget of at least one attempt, and no NaN for a progress. -/
def StoreAction.regular : StoreAction → Bool
  | .enqueue _ _ _ _ _ maxAttempts => decide (1 ≤ maxAttempts)
  | .call _ _ _ (.reportProgress progress _) => decide (progress ≠ .nan)
  | _ => true

/-- The updates of `reclaim_stale`. -/
def JobUpdate.sweeps : JobUpdate → Bool
  | .giveUp _ _ => true
  | .requeue _ => true
  | _ => false

/-- The transaction has locked exactly the rows it worked on, and left what
its updates make of the committed rows. -/
structure Working (settings : JobStoreSettings) (db : StoreDb) (tx : TxId)
    (work : List (JobId × JobUpdate)) : Prop where
  locked : ∀ jobId version, db.jobs.pending jobId = some (tx, version) →
    ∃ update, (jobId, update) ∈ work
  left : ∀ jobId update, (jobId, update) ∈ work → ∃ job next,
    db.jobs.committed jobId = some job ∧ job.apply settings update = some next ∧
      db.jobs.pending jobId = some (tx, some next)

def Holding (settings : JobStoreSettings) (db : StoreDb) (tx : TxId) : StorePhase → Prop
  | .enqueued jobId => ∃ kind params payload maxAttempts,
      db.jobs.committed jobId = none ∧
      db.jobs.Holds tx fun key version => key = jobId ∧
        version = some (newJob kind params payload maxAttempts)
  | .sweeping _ _ swept => Working settings db tx swept ∧
      ∀ pair ∈ swept, pair.2.sweeps = true
  | phase => Working settings db tx phase.work

structure Sound (settings : JobStoreSettings) (db : StoreDb) : Prop where
  holding : ∀ tx, Holding settings db tx (db.phase tx)
  unborn : ∀ jobId, db.jobs.committed jobId = none →
    db.history jobId = [] ∧ db.winners jobId = []
  past : ∀ jobId job, db.jobs.committed jobId = some job → ∃ kind params payload maxAttempts,
      exec (Job.apply settings) (newJob kind params payload maxAttempts)
        (db.history jobId) = some job
  numbered : ∀ jobId job, db.jobs.committed jobId = some job →
    (db.winners jobId).map Prod.snd = List.range' 1 job.attempts

section Steps

variable {settings : JobStoreSettings} {db next : StoreDb} {tx : TxId}

theorem Working.frame {other : TxId} {work : List (JobId × JobUpdate)}
    (working : Working settings db other work)
    (undisturbed : Rows.Undisturbed db.jobs next.jobs other) :
    Working settings next other work where
  locked := fun jobId version pending =>
    working.locked jobId version ((undisturbed.locks jobId version).mp pending)
  left := by
    intro jobId update member
    obtain ⟨job, after, found, applied, pending⟩ :=
      working.left jobId update member
    refine ⟨job, after, ?_, applied, (undisturbed.locks _ _).mpr pending⟩
    rw [undisturbed.fixed _ _ pending, found]

variable {phase : StorePhase}

theorem Holding.frame {other : TxId} (holding : Holding settings db other phase)
    (undisturbed : Rows.Undisturbed db.jobs next.jobs other) :
    Holding settings next other phase := by
  cases phase with
  | enqueued jobId =>
    obtain ⟨kind, params, payload, maxAttempts, absent, holds⟩ := holding
    refine ⟨kind, params, payload, maxAttempts, ?_, undisturbed.holds holds⟩
    rw [undisturbed.fixed _ _ ((holds jobId _).mpr ⟨rfl, rfl⟩), absent]
  | sweeping cutoff first swept => exact ⟨holding.1.frame undisturbed, holding.2⟩
  | idle => exact Working.frame holding undisturbed
  | updated jobId update matched => exact Working.frame holding undisturbed

theorem Working.quiet (working : Working settings db tx []) : db.jobs.Quiet tx := by
  intro jobId version pending
  obtain ⟨update, member⟩ := working.locked jobId version pending
  cases member

theorem working_nil (quiet : db.jobs.Quiet tx) : Working settings db tx [] where
  locked := fun jobId version pending => absurd pending (quiet jobId version)
  left := by simp

variable {jobId : JobId} {update : JobUpdate}

theorem Working.write {work : List (JobId × JobUpdate)} {job after : Job}
    (working : Working settings db tx work)
    (own : ∀ version, db.jobs.pending jobId ≠ some (tx, version))
    (found : db.jobs.visible tx jobId = some job)
    (applied : job.apply settings update = some after) :
    Working settings ({ db with jobs := db.jobs.write tx jobId (some after) }.goto tx phase)
      tx ((jobId, update) :: work) where
  locked := by
    intro key version pending
    by_cases same : key = jobId
    · subst same
      exact ⟨update, List.mem_cons_self⟩
    · rw [StoreDb.goto, Rows.pending_write_of_ne _ _ _ same] at pending
      obtain ⟨older, member⟩ := working.locked key version pending
      exact ⟨older, List.mem_cons_of_mem _ member⟩
  left := by
    intro key older member
    have committed : db.jobs.committed jobId = some job := by
      rcases Rows.visible_cases db.jobs tx jobId with mine | ⟨same, _⟩
      · exact absurd mine (own _)
      · rw [← same, found]
    rcases List.mem_cons.mp member with same | earlier
    · cases same
      exact ⟨job, after, committed, applied, Rows.pending_write_self _ _ _ _⟩
    · obtain ⟨row, latest, present, made, pending⟩ :=
        working.left key older earlier
      have different : key ≠ jobId := by
        rintro rfl
        exact own _ pending
      refine ⟨row, latest, present, made, ?_⟩
      rw [← pending]
      exact Rows.pending_write_of_ne _ _ _ different

theorem Sound.advance (sound : Sound settings db) {jobs : Rows TxId JobId Job}
    (committed : jobs.committed = db.jobs.committed)
    (undisturbed : ∀ other, other ≠ tx → Rows.Undisturbed db.jobs jobs other)
    (holding : Holding settings ({ db with jobs }.goto tx phase) tx phase) :
    Sound settings ({ db with jobs }.goto tx phase) := by
  refine ⟨?_, ?_, ?_, ?_⟩
  · intro other
    by_cases same : other = tx
    · subst same
      simpa [StoreDb.goto] using holding
    · simp only [StoreDb.goto, Function.update_of_ne same]
      exact (sound.holding other).frame (undisturbed other same)
  · intro jobId absent
    exact sound.unborn jobId (by rw [← committed]; exact absent)
  · intro jobId job found
    exact sound.past jobId job (by rw [← committed]; exact found)
  · intro jobId job found
    exact sound.numbered jobId job (by rw [← committed]; exact found)

theorem updateRow_cases {phase : Bool → StorePhase}
    (ran : db.updateRow settings tx jobId update phase = some next) :
    (∃ job after, db.jobs.free tx jobId = true ∧ db.jobs.visible tx jobId = some job ∧
        job.apply settings update = some after ∧
        next = { db with jobs := db.jobs.write tx jobId (some after) }.goto tx (phase true)) ∨
      (next = db.goto tx (phase false) ∧ ∀ job, db.jobs.visible tx jobId = some job →
          job.apply settings update = none) := by
  obtain ⟨⟨matched, jobs⟩, updated, rfl⟩ := Option.map_eq_some_iff.mp ran
  obtain ⟨free, ⟨rfl, job, found, guard, rfl⟩ | ⟨rfl, rfl, unmatched⟩⟩ :=
    Rows.update_cases updated
  · exact .inl ⟨job, update.values job, free, found, apply_eq_some.mpr ⟨guard, rfl⟩, rfl⟩
  · refine .inr ⟨rfl, fun job found => ?_⟩
    simp [Job.apply, unmatched job found]

theorem Sound.quiet (sound : Sound settings db)
    (idle : db.phase tx = .idle) : db.jobs.Quiet tx := by
  have holding := sound.holding tx
  rw [idle] at holding
  exact Working.quiet holding

theorem Sound.enqueue (sound : Sound settings db) {kind params : String}
    {payload : Option (List UInt8)} {maxAttempts : Int}
    (taken : db.step settings (.enqueue tx jobId kind params payload maxAttempts) = some next) :
    Sound settings next := by
  simp only [StoreDb.step] at taken
  split at taken
  · next idle =>
      split at taken
      · simp at taken
      · next fresh =>
          cases taken
          refine sound.advance rfl (fun other different =>
            Rows.undisturbed_write (Rows.free_of_fresh fresh) different _) ?_
          exact ⟨kind, params, payload, maxAttempts, (db.jobs.covered jobId fresh).1,
            (sound.quiet idle).holds_write jobId _⟩
  · simp at taken

theorem Sound.call (sound : Sound settings db) {now : Int} {call : JobCall}
    (taken : db.step settings (.call tx jobId now call) = some next) :
    Sound settings next := by
  simp only [StoreDb.step] at taken
  split at taken
  · next idle =>
      have quiet := sound.quiet idle
      split at taken
      · split at taken
        · rcases updateRow_cases taken with
            ⟨job, after, free, found, applied, rfl⟩ | ⟨rfl, _⟩
          · refine sound.advance rfl (fun other different =>
              Rows.undisturbed_write free different _) ?_
            exact (working_nil quiet).write (quiet jobId) found applied
          · exact sound.advance rfl (fun _ _ => .refl _ _) (working_nil quiet)
        · cases taken
          exact sound
      · simp at taken
  · simp at taken

theorem apply_of_swept {job after : Job} {first second : JobUpdate}
    (applied : job.apply settings first = some after)
    (sweeps : first.sweeps = true) (again : second.sweeps = true) :
    after.apply settings second = none := by
  obtain ⟨_, rfl⟩ := apply_eq_some.mp applied
  cases first <;> cases second <;>
    simp_all [JobUpdate.sweeps, Job.apply, JobUpdate.guard, JobUpdate.values, Job.stale]

theorem Sound.sweepRow (sound : Sound settings db) {cutoff : Int}
    {first : Bool} {swept : List (JobId × JobUpdate)}
    (sweeps : update.sweeps = true)
    (phase : db.phase tx = .sweeping cutoff first swept)
    (ran : db.updateRow settings tx jobId update (fun matched =>
      .sweeping cutoff first
        (if matched then (jobId, update) :: swept else swept)) = some next) :
    Sound settings next := by
  obtain ⟨working, sweepsAll⟩ : Holding settings db tx (.sweeping cutoff first swept) := by
    rw [← phase]
    exact sound.holding tx
  rcases updateRow_cases ran with
    ⟨job, after, free, found, applied, rfl⟩ | ⟨rfl, _⟩
  · have own : ∀ version, db.jobs.pending jobId ≠ some (tx, version) := by
      intro version pending
      obtain ⟨older, member⟩ := working.locked jobId version pending
      obtain ⟨row, latest, _, made, locked⟩ :=
        working.left jobId older member
      rw [Rows.visible_of_pending locked] at found
      cases found
      rw [apply_of_swept made (sweepsAll _ member) sweeps] at applied
      cases applied
    refine sound.advance rfl (fun other different =>
      Rows.undisturbed_write free different _) ?_
    refine ⟨working.write own found applied, ?_⟩
    intro pair member
    rcases List.mem_cons.mp member with rfl | earlier
    · exact sweeps
    · exact sweepsAll pair earlier
  · exact sound.advance rfl (fun _ _ => .refl _ _) ⟨working.frame (.refl _ _), sweepsAll⟩

theorem Sound.rollback (sound : Sound settings db) : Sound settings (db.rollback tx) := by
  refine sound.advance rfl (fun _ different => Rows.undisturbed_rollback _ different) ?_
  exact working_nil (Rows.quiet_rollback db.jobs tx)

theorem commit_cases (sound : Sound settings db) (tx : TxId) (jobId : JobId) :
    (∃ update job after, (db.phase tx).work.lookup jobId = some update ∧
        (jobId, update) ∈ (db.phase tx).work ∧
        db.jobs.committed jobId = some job ∧
        job.apply settings update = some after ∧
        db.jobs.visible tx jobId = some after) ∨
      (∃ kind params payload maxAttempts, (db.phase tx).work.lookup jobId = none ∧
        db.jobs.committed jobId = none ∧
        db.jobs.visible tx jobId = some (newJob kind params payload maxAttempts)) ∨
      ((db.phase tx).work.lookup jobId = none ∧
        db.jobs.visible tx jobId = db.jobs.committed jobId) := by
  have holding := sound.holding tx
  by_cases own : ∃ version, db.jobs.pending jobId = some (tx, version)
  · obtain ⟨version, pending⟩ := own
    have worked : ∀ work, (db.phase tx).work = work →
        Working settings db tx work → ∃ update job after,
          (db.phase tx).work.lookup jobId = some update ∧
          (jobId, update) ∈ (db.phase tx).work ∧
          db.jobs.committed jobId = some job ∧
          job.apply settings update = some after ∧
          db.jobs.visible tx jobId = some after := by
      rintro work rfl working
      obtain ⟨some_, member⟩ := working.locked jobId version pending
      cases latest : (db.phase tx).work.lookup jobId with
      | none =>
        have absent := List.lookup_eq_none_iff.mp latest _ member
        simp at absent
      | some update =>
        obtain ⟨before, after, split, _⟩ :=
          List.lookup_eq_some_iff.mp latest
        have present : (jobId, update) ∈ (db.phase tx).work := by
          simp [split]
        obtain ⟨job, next, found, applied, locked⟩ :=
          working.left jobId update present
        exact ⟨update, job, next, rfl, present, found, applied, Rows.visible_of_pending locked⟩
    cases phase : db.phase tx with
    | enqueued fresh =>
      rw [phase] at holding
      obtain ⟨kind, params, payload, maxAttempts, absent, holds⟩ := holding
      obtain ⟨rfl, rfl⟩ := (holds jobId version).mp pending
      exact .inr (.inl ⟨kind, params, payload, maxAttempts, rfl, absent,
        Rows.visible_of_pending pending⟩)
    | sweeping cutoff first swept =>
      rw [phase] at holding worked
      exact .inl (worked swept rfl holding.1)
    | idle =>
      rw [phase] at holding worked
      exact .inl (worked _ rfl holding)
    | updated key update matched =>
      rw [phase] at holding worked
      exact .inl (worked _ rfl holding)
  · have unlocked : db.jobs.visible tx jobId = db.jobs.committed jobId := by
      rcases Rows.visible_cases db.jobs tx jobId with mine | ⟨same, _⟩
      · exact absurd ⟨_, mine⟩ own
      · exact same
    have idle : ∀ work, (db.phase tx).work = work → Working settings db tx work →
          (db.phase tx).work.lookup jobId = none := by
      rintro work rfl working
      refine List.lookup_eq_none_iff.mpr ?_
      rintro ⟨key, update⟩ member
      simp only [bne_iff_ne, ne_eq]
      rintro rfl
      obtain ⟨_, next, _, _, pending⟩ := working.left jobId update member
      exact own ⟨_, pending⟩
    refine .inr (.inr ⟨?_, unlocked⟩)
    cases phase : db.phase tx with
    | enqueued fresh => rfl
    | sweeping cutoff first swept =>
      rw [phase] at holding idle
      exact idle swept rfl holding.1
    | idle =>
      rw [phase] at holding idle
      exact idle _ rfl holding
    | updated key update matched =>
      rw [phase] at holding idle
      exact idle _ rfl holding

theorem won_of_apply {job after : Job} (looked : (db.phase tx).work.lookup jobId = some update)
    (applied : job.apply settings update = some after)
    (found : db.jobs.visible tx jobId = some after) :
    (db.won tx jobId).map Prod.snd =
      List.range' (1 + job.attempts) (after.attempts - job.attempts) := by
  have counted := attempts_of_apply applied
  cases update <;> simp_all [StoreDb.won, JobUpdate.isClaim, Nat.add_comm]

theorem won_of_lookup_none (looked : (db.phase tx).work.lookup jobId = none) :
    db.won tx jobId = [] := by
  simp [StoreDb.won, looked]

theorem Sound.commit (sound : Sound settings db) (tx : TxId) :
    Sound settings (db.commit tx) := by
  refine ⟨?_, ?_, ?_, ?_⟩
  · intro other
    by_cases same : other = tx
    · subst same
      simp only [StoreDb.commit, Function.update_self]
      exact working_nil (Rows.quiet_commit db.jobs other)
    · simp only [StoreDb.commit, Function.update_of_ne same]
      exact (sound.holding other).frame (Rows.undisturbed_commit db.jobs same)
  · intro jobId absent
    change db.jobs.visible tx jobId = none at absent
    rcases commit_cases sound tx jobId with
      ⟨_, _, _, _, _, _, _, found⟩ | ⟨_, _, _, _, _, _, found⟩ | ⟨looked, same⟩
    · rw [found] at absent
      cases absent
    · rw [found] at absent
      cases absent
    · obtain ⟨history, winners⟩ := sound.unborn jobId (by rw [← same, absent])
      simp [StoreDb.commit, history, winners, looked, won_of_lookup_none looked]
  · intro jobId job present
    change db.jobs.visible tx jobId = some job at present
    simp only [StoreDb.commit]
    rcases commit_cases sound tx jobId with
      ⟨update, before, after, looked, _, old, applied, found⟩ |
        ⟨kind, params, payload, maxAttempts, looked, absent, found⟩ |
        ⟨looked, same⟩
    · rw [found, Option.some.injEq] at present
      subst present
      obtain ⟨kind, params, payload, maxAttempts, run⟩ :=
        sound.past jobId before old
      refine ⟨kind, params, payload, maxAttempts, ?_⟩
      rw [looked]
      exact exec_append.mpr ⟨before, run, exec_cons.mpr ⟨_, applied, rfl⟩⟩
    · rw [found, Option.some.injEq] at present
      subst present
      refine ⟨kind, params, payload, maxAttempts, ?_⟩
      simp [looked, (sound.unborn jobId absent).1]
    · rw [same] at present
      simpa [looked] using sound.past jobId job present
  · intro jobId job present
    change db.jobs.visible tx jobId = some job at present
    simp only [StoreDb.commit, List.map_append]
    rcases commit_cases sound tx jobId with
      ⟨update, before, after, looked, _, old, applied, found⟩ |
        ⟨kind, params, payload, maxAttempts, looked, absent, found⟩ |
        ⟨looked, same⟩
    · rw [won_of_apply looked applied found, sound.numbered jobId before old]
      rw [found, Option.some.injEq] at present
      subst present
      have counted := attempts_of_apply applied
      rw [List.range'_append_1]
      congr 1
      omega
    · rw [won_of_lookup_none looked, (sound.unborn jobId absent).2]
      rw [found, Option.some.injEq] at present
      subst present
      rfl
    · rw [same] at present
      rw [won_of_lookup_none looked]
      simpa using sound.numbered jobId job present

theorem Sound.step (sound : Sound settings db) {action : StoreAction}
    (taken : db.step settings action = some next) : Sound settings next := by
  cases action with
  | tick elapsed =>
    cases taken
    exact ⟨fun tx => (sound.holding tx).frame (.refl _ _), sound.unborn,
      sound.past, sound.numbered⟩
  | enqueue tx jobId kind params payload maxAttempts => exact sound.enqueue taken
  | call tx jobId now call => exact sound.call taken
  | sweep tx =>
    simp only [StoreDb.step] at taken
    split at taken
    · next staleAfter idle _ =>
        cases taken
        exact sound.advance rfl (fun _ _ => .refl _ _) ⟨working_nil (sound.quiet idle), by simp⟩
    · simp at taken
  | giveUp tx jobId =>
    simp only [StoreDb.step] at taken
    split at taken
    · next phase => exact sound.sweepRow rfl phase taken
    · simp at taken
  | requeueing tx =>
    simp only [StoreDb.step] at taken
    split at taken
    · next cutoff swept phase =>
        cases taken
        have holding := sound.holding tx
        rw [phase] at holding
        exact sound.advance rfl (fun _ _ => .refl _ _) ⟨holding.1.frame (.refl _ _), holding.2⟩
    · simp at taken
  | requeue tx jobId =>
    simp only [StoreDb.step] at taken
    split at taken
    · next phase => exact sound.sweepRow rfl phase taken
    · simp at taken
  | commit tx =>
    simp only [StoreDb.step] at taken
    split at taken
    · simp at taken
    · cases taken
      exact sound.commit tx
  | rollback tx =>
    cases taken
    exact sound.rollback

/-- Every version of a row keeps the laws of a row, and no transaction
reports NaN. -/
structure Lawful (db : StoreDb) : Prop where
  versions : ∀ jobId job, db.jobs.HasVersion jobId job → job.Sound
  numbers : ∀ tx jobId update, (jobId, update) ∈ (db.phase tx).work →
    update.reportsNumber = true

theorem Lawful.advance (lawful : Lawful db) {jobs : Rows TxId JobId Job}
    (versions : ∀ jobId job, jobs.HasVersion jobId job → job.Sound)
    (numbers : ∀ jobId update, (jobId, update) ∈ phase.work → update.reportsNumber = true) :
    Lawful ({ db with jobs }.goto tx phase) := by
  refine ⟨versions, ?_⟩
  intro other jobId update member
  by_cases same : other = tx
  · subst same
    simp only [StoreDb.goto, Function.update_self] at member
    exact numbers jobId update member
  · simp only [StoreDb.goto, Function.update_of_ne same] at member
    exact lawful.numbers other jobId update member

theorem Lawful.updateRow (lawful : Lawful db) {phase : Bool → StorePhase}
    (number : update.reportsNumber = true)
    (numbers : ∀ matched key other, (key, other) ∈ (phase matched).work →
      other.reportsNumber = true)
    (ran : db.updateRow settings tx jobId update phase = some next) :
    Lawful next := by
  rcases updateRow_cases ran with
    ⟨job, after, _, found, applied, rfl⟩ | ⟨rfl, _⟩
  · refine lawful.advance ?_ (numbers true)
    intro key other version
    rcases Rows.HasVersion.of_write version with older | ⟨rfl, rfl⟩
    · exact lawful.versions key other older
    · exact (lawful.versions _ job (Rows.HasVersion.of_visible found)).apply number applied
  · exact lawful.advance lawful.versions (numbers false)

theorem number_of_regular {now : Int} {call : JobCall}
    (regular : (StoreAction.call tx jobId now call).regular = true)
    (built : call.update settings now = .ok update) :
    update.reportsNumber = true := by
  cases call with
  | reportProgress progress stage =>
    cases built
    exact regular
  | succeed resultId values =>
    cases values with
    | none =>
      cases built
      rfl
    | some values =>
      simp only [JobCall.update] at built
      cases checked : projectValues settings values with
      | error error => simp [checked, Except.map] at built
      | ok values =>
        simp only [checked, Except.map, Except.ok.injEq] at built
        subst built
        rfl
  | _ =>
    cases built
    rfl

theorem Lawful.step (lawful : Lawful db) {action : StoreAction}
    (regular : action.regular = true)
    (taken : db.step settings action = some next) : Lawful next := by
  cases action with
  | tick elapsed =>
    cases taken
    exact ⟨lawful.versions, lawful.numbers⟩
  | enqueue tx jobId kind params payload maxAttempts =>
    simp only [StoreAction.regular, decide_eq_true_eq] at regular
    simp only [StoreDb.step] at taken
    split at taken
    · split at taken
      · simp at taken
      · cases taken
        refine lawful.advance ?_ (by simp [StorePhase.work])
        intro key job version
        rcases Rows.HasVersion.of_write version with older | ⟨_, rfl⟩
        · exact lawful.versions key job older
        · exact sound_newJob kind params payload regular
    · simp at taken
  | call tx jobId now call =>
    simp only [StoreDb.step] at taken
    split at taken
    · split at taken
      · split at taken
        · next update built =>
            have number := number_of_regular regular built
            refine lawful.updateRow number ?_ taken
            intro matched key other member
            cases matched with
            | true =>
              simp only [StorePhase.work, List.mem_singleton, Prod.mk.injEq] at member
              rw [member.2]
              exact number
            | false => simp [StorePhase.work] at member
        · cases taken
          exact lawful
      · simp at taken
    · simp at taken
  | sweep tx =>
    simp only [StoreDb.step] at taken
    split at taken
    · cases taken
      exact lawful.advance lawful.versions (by simp [StorePhase.work])
    · simp at taken
  | giveUp tx jobId =>
    simp only [StoreDb.step] at taken
    split at taken
    · next cutoff swept phase =>
        refine lawful.updateRow rfl ?_ taken
        intro matched key other member
        have older := lawful.numbers tx key other
        rw [phase] at older
        cases matched with
        | true =>
          rcases List.mem_cons.mp member with same | earlier
          · cases same
            rfl
          · exact older earlier
        | false => exact older member
    · simp at taken
  | requeueing tx =>
    simp only [StoreDb.step] at taken
    split at taken
    · next cutoff swept phase =>
        cases taken
        refine lawful.advance lawful.versions ?_
        intro key other member
        have older := lawful.numbers tx key other
        rw [phase] at older
        exact older member
    · simp at taken
  | requeue tx jobId =>
    simp only [StoreDb.step] at taken
    split at taken
    · next cutoff swept phase =>
        refine lawful.updateRow rfl ?_ taken
        intro matched key other member
        have older := lawful.numbers tx key other
        rw [phase] at older
        cases matched with
        | true =>
          rcases List.mem_cons.mp member with same | earlier
          · cases same
            rfl
          · exact older earlier
        | false => exact older member
    · simp at taken
  | commit tx =>
    simp only [StoreDb.step] at taken
    split at taken
    · simp at taken
    · cases taken
      have ended : Lawful ({ db with jobs := db.jobs.commit tx }.goto tx .idle) :=
        lawful.advance (fun jobId job version =>
            lawful.versions jobId job version.of_commit)
          (by simp [StorePhase.work])
      exact ⟨ended.versions, ended.numbers⟩
  | rollback tx =>
    cases taken
    exact lawful.advance (fun jobId job version =>
        lawful.versions jobId job version.of_rollback)
      (by simp [StorePhase.work])

/-- From one state to a later one, every job ran through further updates,
and the history says which. -/
def Evolves (settings : JobStoreSettings) (db next : StoreDb) : Prop :=
  ∀ jobId job, db.jobs.committed jobId = some job → ∃ updates later,
    next.jobs.committed jobId = some later ∧
    next.history jobId = db.history jobId ++ updates ∧
    exec (Job.apply settings) job updates = some later ∧
    ∀ update ∈ updates, update.reportsNumber = true

theorem evolves_of_same (committed : next.jobs.committed = db.jobs.committed)
    (history : next.history = db.history) : Evolves settings db next := by
  intro jobId job found
  exact ⟨[], job, by rw [committed, found], by simp [history], rfl, by simp⟩

theorem Evolves.trans {final : StoreDb} (first : Evolves settings db next)
    (second : Evolves settings next final) : Evolves settings db final := by
  intro jobId job found
  obtain ⟨earlier, middle, present, extended, run, numbers⟩ :=
    first jobId job found
  obtain ⟨updates, later, last, longer, further, more⟩ :=
    second jobId middle present
  refine ⟨earlier ++ updates, later, last, ?_, exec_append.mpr ⟨middle, run, further⟩, ?_⟩
  · rw [longer, extended, List.append_assoc]
  · intro update member
    rcases List.mem_append.mp member with old | new
    · exact numbers update old
    · exact more update new

theorem evolves_commit (sound : Sound settings db) (lawful : Lawful db)
    (tx : TxId) : Evolves settings db (db.commit tx) := by
  intro jobId job found
  change ∃ updates later, db.jobs.visible tx jobId = some later ∧
    db.history jobId ++ ((db.phase tx).work.lookup jobId).toList =
      db.history jobId ++ updates ∧ _
  rcases commit_cases sound tx jobId with
    ⟨update, before, after, looked, member, old, applied, visible⟩ |
      ⟨_, _, _, _, _, absent, _⟩ | ⟨looked, same⟩
  · rw [found, Option.some.injEq] at old
    subst old
    refine ⟨[update], after, visible, by simp [looked],
      exec_cons.mpr ⟨after, applied, rfl⟩, ?_⟩
    intro other single
    rw [List.mem_singleton.mp single]
    exact lawful.numbers tx jobId update member
  · rw [found] at absent
    cases absent
  · exact ⟨[], job, by rw [same, found], by simp [looked], rfl, by simp⟩

theorem updateRow_keeps {phase : Bool → StorePhase}
    (ran : db.updateRow settings tx jobId update phase = some next) :
    next.jobs.committed = db.jobs.committed ∧ next.history = db.history := by
  rcases updateRow_cases ran with ⟨job, after, _, _, _, rfl⟩ | ⟨rfl, _⟩
  · exact ⟨rfl, rfl⟩
  · exact ⟨rfl, rfl⟩

theorem evolves_step (sound : Sound settings db) (lawful : Lawful db)
    {action : StoreAction} (taken : db.step settings action = some next) :
    Evolves settings db next := by
  have keeps : ∀ {tx jobId update phase},
      db.updateRow settings tx jobId update phase = some next →
        Evolves settings db next := fun ran =>
    evolves_of_same (updateRow_keeps ran).1 (updateRow_keeps ran).2
  cases action with
  | tick elapsed =>
    cases taken
    exact evolves_of_same rfl rfl
  | enqueue tx jobId kind params payload maxAttempts =>
    simp only [StoreDb.step] at taken
    split at taken
    · split at taken
      · simp at taken
      · cases taken
        exact evolves_of_same rfl rfl
    · simp at taken
  | call tx jobId now call =>
    simp only [StoreDb.step] at taken
    split at taken
    · split at taken
      · split at taken
        · exact keeps taken
        · cases taken
          exact evolves_of_same rfl rfl
      · simp at taken
    · simp at taken
  | sweep tx =>
    simp only [StoreDb.step] at taken
    split at taken
    · cases taken
      exact evolves_of_same rfl rfl
    · simp at taken
  | giveUp tx jobId =>
    simp only [StoreDb.step] at taken
    split at taken
    · exact keeps taken
    · simp at taken
  | requeueing tx =>
    simp only [StoreDb.step] at taken
    split at taken
    · cases taken
      exact evolves_of_same rfl rfl
    · simp at taken
  | requeue tx jobId =>
    simp only [StoreDb.step] at taken
    split at taken
    · exact keeps taken
    · simp at taken
  | commit tx =>
    simp only [StoreDb.step] at taken
    split at taken
    · simp at taken
    · cases taken
      exact evolves_commit sound lawful tx
  | rollback tx =>
    cases taken
    exact evolves_of_same rfl rfl

end Steps

theorem sound_start (settings : JobStoreSettings) : Sound settings .start where
  holding := by
    intro tx
    exact working_nil (by simp [Rows.Quiet, StoreDb.start, Rows.empty,
      Rows.settled])
  unborn := by simp [StoreDb.start]
  past := by simp [StoreDb.start, Rows.empty, Rows.settled]
  numbered := by simp [StoreDb.start, Rows.empty, Rows.settled]

theorem lawful_start : Lawful .start where
  versions := by
    simp [StoreDb.start, Rows.HasVersion, Rows.empty, Rows.settled]
  numbers := by simp [StoreDb.start, StorePhase.work]

theorem run_evolves {settings : JobStoreSettings} {db next : StoreDb}
    {schedule : List StoreAction} (sound : Sound settings db)
    (lawful : Lawful db)
    (regular : ∀ action ∈ schedule, action.regular = true)
    (run : exec (StoreDb.step settings) db schedule = some next) :
    Sound settings next ∧ Lawful next ∧ Evolves settings db next := by
  have meets : Meets (StoreDb.step settings)
      (fun _ action => action.regular = true) db schedule :=
    Meets.of_forall regular
  have kept : ∀ (middle : StoreDb) action later,
      Sound settings middle ∧ Lawful middle ∧ Evolves settings db middle →
        action.regular = true → middle.step settings action = some later →
          Sound settings later ∧ Lawful later ∧ Evolves settings db later := by
    rintro middle action later ⟨sound, lawful, evolves⟩ regular taken
    exact ⟨sound.step taken, lawful.step regular taken,
      evolves.trans (evolves_step sound lawful taken)⟩
  exact exec_invariant_of_meets kept meets ⟨sound, lawful, evolves_of_same rfl rfl⟩ run

/-- Closed jobs stay as they are, the bar never moves back, the attempts are
numbered by the claims that won them, and the columns of every row fit its
status. -/
theorem job_state_machine (settings : JobStoreSettings)
    (first second : List StoreAction) {state final : StoreDb}
    (regular : ∀ action ∈ first ++ second, action.regular = true)
    (before : exec (StoreDb.step settings) .start first = some state)
    (after : exec (StoreDb.step settings) state second = some final) :
    (∀ jobId job, state.jobs.committed jobId = some job → ∃ later,
      final.jobs.committed jobId = some later ∧
      (job.status.terminal = true → later = job) ∧
      job.progress.AtMost later.progress) ∧
    ∀ jobId job, final.jobs.committed jobId = some job →
      (final.winners jobId).map Prod.snd = List.range' 1 job.attempts ∧
      (job.attempts : Int) ≤ job.maxAttempts ∧
      PyFloat.AtMost (.num 0) job.progress ∧
      job.progress.AtMost (.num 1) ∧
      (job.status = .done → job.progress = .num 1) ∧
      (job.status.terminal = true → job.payload = none) := by
  obtain ⟨sound, lawful, _⟩ := run_evolves (sound_start settings) lawful_start
    (fun action member => regular action (List.mem_append_left _ member))
    before
  obtain ⟨soundAfter, lawfulAfter, evolves⟩ := run_evolves sound lawful
    (fun action member => regular action (List.mem_append_right _ member))
    after
  constructor
  · intro jobId job found
    obtain ⟨updates, later, present, _, run, numbers⟩ :=
      evolves jobId job found
    have row := lawful.versions jobId job (.inl found)
    exact ⟨later, present, fun terminal => (run_of_terminal terminal run).2,
      (row.run numbers run).2⟩
  · intro jobId job found
    have row := lawfulAfter.versions jobId job (.inl found)
    exact ⟨soundAfter.numbered jobId job found, row.budget, row.started,
      row.bounded, row.full, row.emptied⟩

/-- A store over PostgreSQL with one project column. -/
def sampleStore : JobStoreSettings where
  projectColumns := ["object_key"]
  staleAfter := some 60
  nanGreatest := true

def claimedJob : List StoreAction :=
  [.enqueue 1 0 "extract" "{}" (some [37]) 2, .commit 1, .call 1 0 0 .claim, .commit 1]

/-- Two workers race for the claim; the job is reported on and cancelled, and
a late success is refused. -/
def cancelledJob : List StoreAction :=
  [.enqueue 1 0 "extract" "{}" (some [37]) 2, .commit 1,
    .call 1 0 0 .claim, .commit 1, .call 2 0 0 .claim, .commit 2,
    .call 1 0 0 (.reportProgress (.num 1) (some "pages")), .commit 1,
    .call 3 0 0 (.cancel none), .commit 3]

def lateSuccess : List StoreAction :=
  [.call 1 0 0 (.succeed (some 7) (some [("object_key", some "k")])), .rollback 1]

theorem job_state_machine_cancelled : ∃ state final,
    exec (StoreDb.step sampleStore) .start cancelledJob = some state ∧
      exec (StoreDb.step sampleStore) state lateSuccess = some final ∧
      ∀ jobId job, state.jobs.committed jobId = some job → ∃ later,
        final.jobs.committed jobId = some later ∧
        (job.status.terminal = true → later = job) ∧
        job.progress.AtMost later.progress := by
  refine ⟨_, _, rfl, rfl, ?_⟩
  exact (job_state_machine sampleStore cancelledJob lateSuccess (by decide)
    rfl rfl).1

theorem progress_off_status :
    (∃ state job, exec (StoreDb.step sampleStore) .start (claimedJob ++
          [.call 1 0 0 (.reportProgress (.num 1) none), .commit 1]) =
          some state ∧
        state.jobs.committed 0 = some job ∧ job.status = .running ∧
        job.progress = .num 1) ∧
      ∃ state job, exec (StoreDb.step sampleStore) .start (claimedJob ++
          [.call 1 0 0 (.reportProgress .nan none), .commit 1]) =
          some state ∧
        state.jobs.committed 0 = some job ∧ job.progress = .nan :=
  ⟨⟨_, _, rfl, rfl, rfl, rfl⟩, ⟨_, _, rfl, rfl, rfl⟩⟩

/-- The claim of the first worker is swept, and a second worker claims. -/
def reclaimedJob : List StoreAction :=
  claimedJob ++ [.tick 61, .sweep 3, .giveUp 3 0, .requeueing 3,
    .requeue 3 0, .commit 3, .call 2 0 61 .claim, .commit 2]

end Jobs

end TempestSdk
