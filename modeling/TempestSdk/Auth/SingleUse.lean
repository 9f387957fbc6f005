import TempestSdk.Auth.SecondFactor

/-!
# A second factor is accepted once

The invariant behind it: once a TOTP step is accepted, no version of the row
that still has its secret has an older last step, and once a recovery code is
accepted, no version of its row is unused.  Until the commit only the version
of the accepting transaction says so, and the lock on the row keeps the
others out.
-/

namespace TempestSdk

namespace SecondFactor

open Runs ReadCommitted

def Past (secret : String) (step : Int) (row : UserColumns) : Prop :=
  row.totpSecret = some secret → ∃ last, row.totpLastStep = some last ∧ step ≤ last

def Spent (db : MfaDb) : Factor → Prop
  | .totp secret step => ∃ owner, (secret, owner) ∈ db.issued ∧
      ∀ row, db.users.HasVersion owner row → Past secret step row
  | .recovery hash => hash ∈ db.codes.keys ∧
      ∀ row, db.codes.HasVersion hash row → row.usedAt.isSome = true

/-- The transaction has the row locked, and its version no longer accepts the
factor. -/
def SpentBy (db : MfaDb) (tx : TxId) : Factor → Prop
  | .totp secret step => ∃ owner version, (secret, owner) ∈ db.issued ∧
      db.users.pending owner = some (tx, version) ∧
      ∀ row, version = some row → Past secret step row
  | .recovery hash => ∃ version,
      db.codes.pending hash = some (tx, version) ∧
      ∀ row, version = some row → row.usedAt.isSome = true

def UserInstance.Steady (user : UserInstance) : Prop :=
  user.columns.totpSecret = user.loaded.totpSecret ∧
    user.columns.totpLastStep = user.loaded.totpLastStep

/-- The phases of a method that ends with `mfa_reset`. -/
@[grind =] def MfaPhase.resets : MfaPhase → Bool
  | .attaching .reset => true
  | .attaching (.check .disable _ _) => true
  | .claiming .disable _ _ => true
  | .selecting .disable _ => true
  | .spending .disable _ => true
  | _ => false

def Ready : MfaPhase → UserInstance → Prop
  | .clearing, user => user.attached = true ∧
      user.columns.totpSecret = none ∧ user.loaded.totpSecret ≠ none
  | .staging secret _, user => user.attached = true ∧
      user.columns.totpSecret = some secret
  | phase, user => user.Steady ∧
      (phase.resets = true → user.columns.totpSecret ≠ none)

structure Sound (db : MfaDb) : Prop where
  owner : ∀ secret one other, (secret, one) ∈ db.issued →
    (secret, other) ∈ db.issued → one = other
  versions : ∀ owner row secret, db.users.HasVersion owner row →
    row.totpSecret = some secret → (secret, owner) ∈ db.issued
  loaded : ∀ tx user secret, db.held tx = some user →
    user.loaded.totpSecret = some secret → ∃ owner, (secret, owner) ∈ db.issued
  ready : ∀ tx user, db.held tx = some user → Ready (db.phase tx) user
  accepted : ∀ factor ∈ db.accepted, Spent db factor
  earned : ∀ tx, ∀ factor ∈ db.earned tx, SpentBy db tx factor
  once : ∀ tx, (db.earned tx ++ db.accepted).Nodup

theorem SpentBy.lock_unique {db : MfaDb} (sound : Sound db) {one other : TxId}
    {factor : Factor} (first : SpentBy db one factor)
    (second : SpentBy db other factor) : one = other := by
  cases factor with
  | totp secret step =>
    obtain ⟨owner, version, issued, pending, _⟩ := first
    obtain ⟨again, latest, issuedAgain, locked, _⟩ := second
    obtain rfl := sound.owner secret owner again issued issuedAgain
    rw [pending] at locked
    cases locked
    rfl
  | recovery hash =>
    obtain ⟨version, pending, _⟩ := first
    obtain ⟨latest, locked, _⟩ := second
    rw [pending] at locked
    cases locked
    rfl

theorem Spent.frame {db next : MfaDb} {factor : Factor} (spent : Spent db factor)
    (issued : ∀ pair ∈ db.issued, pair ∈ next.issued)
    (users : ∀ owner row, next.users.HasVersion owner row → db.users.HasVersion owner row)
    (keys : ∀ hash ∈ db.codes.keys, hash ∈ next.codes.keys)
    (codes : ∀ hash row, next.codes.HasVersion hash row →
      db.codes.HasVersion hash row) : Spent next factor := by
  cases factor with
  | totp secret step =>
    obtain ⟨owner, drawn, past⟩ := spent
    exact ⟨owner, issued _ drawn, fun row version =>
      past row (users owner row version)⟩
  | recovery hash =>
    obtain ⟨known, used⟩ := spent
    exact ⟨keys hash known, fun row version =>
      used row (codes hash row version)⟩

theorem SpentBy.frame {db next : MfaDb} {tx : TxId} {factor : Factor}
    (spent : SpentBy db tx factor)
    (issued : ∀ pair ∈ db.issued, pair ∈ next.issued)
    (users : ∀ owner version, db.users.pending owner = some (tx, version) →
      next.users.pending owner = some (tx, version))
    (codes : ∀ hash version, db.codes.pending hash = some (tx, version) →
      next.codes.pending hash = some (tx, version)) :
    SpentBy next tx factor := by
  cases factor with
  | totp secret step =>
    obtain ⟨owner, version, drawn, pending, past⟩ := spent
    exact ⟨owner, version, issued _ drawn, users owner version pending, past⟩
  | recovery hash =>
    obtain ⟨version, pending, used⟩ := spent
    exact ⟨version, codes hash version pending, used⟩

section Steps

variable {db : MfaDb} {tx : TxId} {user : UserInstance}

theorem Sound.advance (sound : Sound db) {phase : MfaPhase}
    (loaded : ∀ secret, user.loaded.totpSecret = some secret →
      ∃ owner, (secret, owner) ∈ db.issued)
    (ready : Ready phase user) : Sound ((db.hold tx user).goto tx phase) := by
  refine ⟨sound.owner, sound.versions, ?_, ?_, sound.accepted, sound.earned, sound.once⟩
  · intro other latest secret held
    by_cases same : other = tx
    · subst same
      simp only [MfaDb.goto, MfaDb.hold, Function.update_self, Option.some.injEq] at held
      subst held
      exact loaded secret
    · simp only [MfaDb.goto, MfaDb.hold, Function.update_of_ne same] at held
      exact sound.loaded other latest secret held
  · intro other latest held
    by_cases same : other = tx
    · subst same
      simp only [MfaDb.goto, MfaDb.hold, Function.update_self, Option.some.injEq] at held
      subst held
      simpa [MfaDb.goto] using ready
    · simp only [MfaDb.goto, MfaDb.hold, Function.update_of_ne same] at held ⊢
      exact sound.ready other latest held

theorem Sound.goto (sound : Sound db) {phase : MfaPhase}
    (held : db.held tx = some user) (ready : Ready phase user) :
    Sound (db.goto tx phase) := by
  have same : (db.hold tx user).goto tx phase = db.goto tx phase := by
    simp [MfaDb.hold, ← held]
  rw [← same]
  exact sound.advance (fun secret => sound.loaded tx user secret held) ready

theorem Sound.hold (sound : Sound db) (loaded : ∀ secret, user.loaded.totpSecret = some secret →
      ∃ owner, (secret, owner) ∈ db.issued)
    (ready : Ready (db.phase tx) user) : Sound (db.hold tx user) := by
  have same : (db.hold tx user).goto tx (db.phase tx) = db.hold tx user := by
    simp [MfaDb.hold, MfaDb.goto]
  rw [← same]
  exact sound.advance loaded ready

theorem Sound.earn (sound : Sound db) (tx : TxId) (factor : Factor)
    (spent : SpentBy db tx factor)
    (fresh : factor ∉ db.earned tx ++ db.accepted) :
    Sound (db.earn tx factor) := by
  refine ⟨sound.owner, sound.versions, sound.loaded, sound.ready, sound.accepted, ?_, ?_⟩
  · intro other latest member
    by_cases same : other = tx
    · subst same
      simp only [MfaDb.earn, Function.update_self, List.mem_cons] at member
      rcases member with rfl | older
      · exact spent
      · exact sound.earned other latest older
    · simp only [MfaDb.earn, Function.update_of_ne same] at member
      exact sound.earned other latest member
  · intro other
    by_cases same : other = tx
    · subst same
      simpa [MfaDb.earn] using ⟨by simpa using fresh, sound.once other⟩
    · simpa [MfaDb.earn, Function.update_of_ne same] using sound.once other

variable {row : UserColumns}

section

variable (sound : Sound db)

include sound

theorem Sound.writeUser {key : UserId}
    (latest : UserColumns) (free : db.users.free tx key = true)
    (found : db.users.visible tx key = some row)
    (known : ∀ secret, latest.totpSecret = some secret → (secret, key) ∈ db.issued)
    (past : ∀ secret step, Factor.totp secret step ∈ db.earned tx ++ db.accepted →
        Past secret step row → Past secret step latest) :
    Sound { db with users := db.users.write tx key (some latest) } := by
  refine ⟨sound.owner, ?_, sound.loaded, sound.ready, ?_, ?_, sound.once⟩
  · intro owner other secret version has
    rcases Rows.HasVersion.of_write version with older | ⟨rfl, rfl⟩
    · exact sound.versions owner other secret older has
    · exact known secret has
  · intro factor member
    have spent := sound.accepted factor member
    cases factor with
    | recovery hash => exact spent
    | totp secret step =>
      obtain ⟨owner, drawn, behind⟩ := spent
      refine ⟨owner, drawn, ?_⟩
      intro other version
      rcases Rows.HasVersion.of_write version with older | ⟨rfl, rfl⟩
      · exact behind other older
      · exact past secret step (List.mem_append_right _ member)
          (behind row (Rows.HasVersion.of_visible found))
  · intro other factor member
    have spent := sound.earned other factor member
    by_cases same : other = tx
    · subst same
      cases factor with
      | recovery hash => exact spent
      | totp secret step =>
        obtain ⟨owner, version, drawn, pending, behind⟩ := spent
        by_cases here : owner = key
        · subst here
          refine ⟨owner, some latest, drawn, Rows.pending_write_self _ _ _ _, ?_⟩
          rintro _ ⟨rfl⟩
          rw [Rows.visible_of_pending pending] at found
          exact past secret step (List.mem_append_left _ member) (behind row found)
        · refine ⟨owner, version, drawn, ?_, behind⟩
          rw [← pending]
          exact Rows.pending_write_of_ne _ _ _ here
    · exact spent.frame (fun _ drawn => drawn) (fun owner version pending =>
          ((Rows.undisturbed_write free same _).locks owner version).mpr pending)
        (fun _ _ pending => pending)

theorem Sound.useCode {hash : String} (code : RecoveryCode)
    (free : db.codes.free tx hash = true) (used : code.usedAt.isSome = true) :
    Sound { db with codes := db.codes.write tx hash (some code) } := by
  refine ⟨sound.owner, sound.versions, sound.loaded, sound.ready, ?_, ?_, sound.once⟩
  · intro factor member
    have spent := sound.accepted factor member
    cases factor with
    | totp secret step => exact spent
    | recovery other =>
      obtain ⟨known, stamped⟩ := spent
      refine ⟨List.mem_insert_of_mem known, ?_⟩
      intro row version
      rcases Rows.HasVersion.of_write version with older | ⟨_, rfl⟩
      · exact stamped row older
      · exact used
  · intro other factor member
    have spent := sound.earned other factor member
    by_cases same : other = tx
    · subst same
      cases factor with
      | totp secret step => exact spent
      | recovery key =>
        obtain ⟨version, pending, stamped⟩ := spent
        by_cases here : key = hash
        · subst here
          refine ⟨some code, Rows.pending_write_self _ _ _ _, ?_⟩
          rintro _ ⟨rfl⟩
          exact used
        · refine ⟨version, ?_, stamped⟩
          rw [← pending]
          exact Rows.pending_write_of_ne _ _ _ here
    · exact spent.frame (fun _ drawn => drawn) (fun _ _ pending => pending)
        (fun key version pending =>
          ((Rows.undisturbed_write free same _).locks key version).mpr pending)

theorem Sound.insertCode (tx : TxId) {hash : String}
    (code : RecoveryCode) (fresh : hash ∉ db.codes.keys) :
    Sound { db with codes := db.codes.write tx hash (some code) } := by
  have absent := (db.codes.covered hash fresh).2
  refine ⟨sound.owner, sound.versions, sound.loaded, sound.ready, ?_, ?_, sound.once⟩
  · intro factor member
    have spent := sound.accepted factor member
    cases factor with
    | totp secret step => exact spent
    | recovery other =>
      obtain ⟨known, stamped⟩ := spent
      refine ⟨List.mem_insert_of_mem known, ?_⟩
      intro row version
      rcases Rows.HasVersion.of_write version with older | ⟨rfl, _⟩
      · exact stamped row older
      · exact absurd known fresh
  · intro other factor member
    refine (sound.earned other factor member).frame (fun _ drawn => drawn)
      (fun _ _ pending => pending) ?_
    intro key version pending
    rw [← pending]
    refine Rows.pending_write_of_ne _ _ _ ?_
    rintro rfl
    rw [absent] at pending
    cases pending

theorem Sound.insertCodes (tx : TxId) (userId : UserId)
    {hashes : List String} (distinct : hashes.Nodup)
    (fresh : ∀ hash ∈ hashes, hash ∉ db.codes.keys) :
    Sound { db with codes := MfaDb.insertCodes db.codes tx userId hashes } := by
  induction hashes generalizing db with
  | nil => exact sound
  | cons hash rest induction =>
    obtain ⟨notLater, distinct⟩ := List.nodup_cons.mp distinct
    have inserted := sound.insertCode tx
      { userId, usedAt := none } (fresh hash List.mem_cons_self)
    refine induction inserted distinct ?_
    intro other member known
    rcases List.mem_insert_iff.mp known with rfl | older
    · exact notLater member
    · exact fresh other (List.mem_cons_of_mem _ member) older

theorem Sound.deleteCodes {codes : Rows TxId String RecoveryCode} {guard : RecoveryCode → Bool}
    (ran : db.codes.delete tx guard = some codes) :
    Sound { db with codes } := by
  refine ⟨sound.owner, sound.versions, sound.loaded, sound.ready, ?_, ?_, sound.once⟩
  · intro factor member
    refine (sound.accepted factor member).frame (fun _ drawn => drawn)
      (fun _ _ version => version) ?_
      (fun _ _ version => Rows.HasVersion.of_delete ran version)
    intro hash known
    rwa [Rows.keys_delete ran]
  · intro other factor member
    have spent := sound.earned other factor member
    by_cases same : other = tx
    · subst same
      cases factor with
      | totp secret step => exact spent
      | recovery hash =>
        obtain ⟨version, pending, stamped⟩ := spent
        rcases Rows.pending_delete_cases ran hash with gone | kept
        · exact ⟨none, gone, by simp⟩
        · exact ⟨version, by rw [← pending, ← kept], stamped⟩
    · exact spent.frame (fun _ drawn => drawn) (fun _ _ pending => pending)
        (fun _ _ pending => Rows.pending_delete_of_other ran same pending)

end

variable {secret : String}

theorem Sound.issue (sound : Sound db) (userId : UserId)
    (fresh : ∀ pair ∈ db.issued, pair.1 ≠ secret) :
    Sound { db with issued := (secret, userId) :: db.issued } := by
  have kept : ∀ pair ∈ db.issued, pair ∈ (secret, userId) :: db.issued :=
    fun pair drawn => List.mem_cons_of_mem _ drawn
  refine ⟨?_, ?_, ?_, sound.ready, ?_, ?_, sound.once⟩
  · intro name one other first second
    simp only [List.mem_cons, Prod.mk.injEq] at first second
    rcases first with ⟨rfl, rfl⟩ | first
    · rcases second with ⟨_, rfl⟩ | second
      · rfl
      · exact absurd rfl (fresh _ second)
    · rcases second with ⟨rfl, rfl⟩ | second
      · exact absurd rfl (fresh _ first)
      · exact sound.owner name one other first second
  · intro owner row name version has
    exact kept _ (sound.versions owner row name version has)
  · intro other latest name held has
    obtain ⟨owner, drawn⟩ := sound.loaded other latest name held has
    exact ⟨owner, kept _ drawn⟩
  · intro factor member
    exact (sound.accepted factor member).frame kept (fun _ _ version => version)
      (fun _ known => known) (fun _ _ version => version)
  · intro other factor member
    exact (sound.earned other factor member).frame kept
      (fun _ _ pending => pending) (fun _ _ pending => pending)

theorem Sound.rollback (sound : Sound db) : Sound (db.rollback tx) := by
  refine ⟨sound.owner, ?_, ?_, ?_, ?_, ?_, ?_⟩
  · intro owner row secret version has
    exact sound.versions owner row secret version.of_rollback has
  · intro other latest secret held
    by_cases same : other = tx
    · subst same
      simp only [MfaDb.rollback, Function.update_self, Option.filter_eq_some_iff] at held
      exact sound.loaded other latest secret held.1
    · simp only [MfaDb.rollback, Function.update_of_ne same] at held
      exact sound.loaded other latest secret held
  · intro other latest held
    by_cases same : other = tx
    · subst same
      simp only [MfaDb.rollback, Function.update_self,
        Option.filter_eq_some_iff, Bool.not_eq_true'] at held
      have before := sound.ready other latest held.1
      have steady : latest.Steady := by
        cases phase : db.phase other with
        | clearing => simp [phase, Ready, held.2] at before
        | staging => simp [phase, Ready, held.2] at before
        | _ =>
          rw [phase] at before
          exact before.1
      simpa [MfaDb.rollback, Ready, MfaPhase.resets] using steady
    · simp only [MfaDb.rollback, Function.update_of_ne same] at held ⊢
      exact sound.ready other latest held
  · intro factor member
    exact (sound.accepted factor member).frame (fun _ drawn => drawn)
      (fun _ _ version => version.of_rollback) (fun _ known => known)
      (fun _ _ version => version.of_rollback)
  · intro other factor member
    by_cases same : other = tx
    · subst same
      simp [MfaDb.rollback] at member
    · simp only [MfaDb.rollback, Function.update_of_ne same] at member
      exact (sound.earned other factor member).frame (fun _ drawn => drawn)
        (fun _ _ pending => Rows.pending_rollback.mpr ⟨pending, same⟩)
        (fun _ _ pending => Rows.pending_rollback.mpr ⟨pending, same⟩)
  · intro other
    by_cases same : other = tx
    · subst same
      simpa [MfaDb.rollback] using (List.nodup_append.mp (sound.once other)).2.1
    · simpa [MfaDb.rollback, Function.update_of_ne same] using sound.once other

variable {next : MfaDb}

theorem SpentBy.commit {factor : Factor} (spent : SpentBy db tx factor)
    (issued : next.issued = db.issued)
    (users : next.users = db.users.commit tx)
    (codes : next.codes = db.codes.commit tx) : Spent next factor := by
  cases factor with
  | totp secret step =>
    obtain ⟨owner, version, drawn, pending, past⟩ := spent
    refine ⟨owner, by rwa [issued], ?_⟩
    intro row has
    rw [users] at has
    rcases has with committed | ⟨other, locked⟩
    · rw [Rows.committed_commit, Rows.visible_of_pending pending] at committed
      exact past row committed
    · obtain ⟨before, different⟩ := Rows.pending_commit.mp locked
      rw [pending] at before
      cases before
      exact absurd rfl different
  | recovery hash =>
    obtain ⟨version, pending, used⟩ := spent
    constructor
    · by_contra fresh
      rw [codes] at fresh
      rw [(db.codes.covered hash fresh).2] at pending
      cases pending
    · intro row has
      rw [codes] at has
      rcases has with committed | ⟨other, locked⟩
      · rw [Rows.committed_commit, Rows.visible_of_pending pending] at committed
        exact used row committed
      · obtain ⟨before, different⟩ := Rows.pending_commit.mp locked
        rw [pending] at before
        cases before
        exact absurd rfl different

theorem Sound.commit (sound : Sound db) : Sound { db with
        users := db.users.commit tx
        codes := db.codes.commit tx
        earned := Function.update db.earned tx []
        accepted := db.earned tx ++ db.accepted } := by
  refine ⟨sound.owner, ?_, sound.loaded, sound.ready, ?_, ?_, ?_⟩
  · intro owner row secret version has
    exact sound.versions owner row secret version.of_commit has
  · intro factor member
    rcases List.mem_append.mp member with own | older
    · exact (sound.earned tx factor own).commit rfl rfl rfl
    · exact (sound.accepted factor older).frame (fun _ drawn => drawn)
        (fun _ _ version => version.of_commit) (fun _ known => known)
        (fun _ _ version => version.of_commit)
  · intro other factor member
    by_cases same : other = tx
    · subst same
      simp at member
    · simp only [Function.update_of_ne same] at member
      exact (sound.earned other factor member).frame (fun _ drawn => drawn)
        (fun _ _ pending => Rows.pending_commit.mpr ⟨pending, same⟩)
        (fun _ _ pending => Rows.pending_commit.mpr ⟨pending, same⟩)
  · intro other
    by_cases same : other = tx
    · subst same
      simpa using sound.once other
    · simp only [Function.update_of_ne same]
      have mine := List.nodup_append.mp (sound.once other)
      refine List.nodup_append.mpr ⟨mine.1, sound.once tx, ?_⟩
      intro factor member again elsewhere equal
      subst equal
      rcases List.mem_append.mp elsewhere with own | older
      · exact same (SpentBy.lock_unique sound (sound.earned other _ member)
          (sound.earned tx _ own))
      · exact mine.2.2 _ member _ older rfl

theorem flushUser_cases {next : MfaDb → MfaDb} {after : MfaDb}
    (ran : db.flushUser tx user next = some after) :
    (user.dirty = false ∧ after = next db) ∨ (∃ row, db.users.free tx user.userId = true ∧
        db.users.visible tx user.userId = some row ∧
        after = next ({ db with
              users := db.users.write tx user.userId (some (user.flushInto row)) }.hold tx
            { user with loaded := user.columns })) ∨
      after = db.rollback tx := by
  simp only [MfaDb.flushUser] at ran
  split at ran
  · obtain ⟨⟨matched, users⟩, updated, rfl⟩ := Option.map_eq_some_iff.mp ran
    obtain ⟨free, ⟨rfl, row, found, _, rfl⟩ | ⟨rfl, rfl, _⟩⟩ :=
      Rows.update_cases updated
    · exact .inr (.inl ⟨row, free, found, rfl⟩)
    · exact .inr (.inr rfl)
  · next clean =>
      cases ran
      exact .inl ⟨by simpa using clean, rfl⟩

theorem Sound.flushSteady (sound : Sound db) (held : db.held tx = some user)
    (steady : user.Steady) (free : db.users.free tx user.userId = true)
    (found : db.users.visible tx user.userId = some row)
    (ready : Ready (db.phase tx) { user with loaded := user.columns }) :
    Sound ({ db with
        users := db.users.write tx user.userId (some (user.flushInto row)) }
      |>.hold tx { user with loaded := user.columns }) := by
  have secret : (user.flushInto row).totpSecret = row.totpSecret :=
    if_pos steady.1
  have lastStep : (user.flushInto row).totpLastStep = row.totpLastStep :=
    if_pos steady.2
  have written := sound.writeUser (user.flushInto row) free found
    (fun name has => sound.versions _ _ name
      (Rows.HasVersion.of_visible found) (by rw [← secret, has]))
    (fun name step _ past has => by
      rw [lastStep]
      exact past (by rw [← secret, has]))
  refine written.hold ?_ ready
  intro name has
  exact sound.loaded tx user name held (by rw [← steady.1]; exact has)

theorem Sound.clear (sound : Sound db) (held : db.held tx = some user)
    (phase : db.phase tx = .clearing)
    (ran : db.flushUser tx user (fun db => db.goto tx (.wiping .reset)) =
      some next) : Sound next := by
  have ready := sound.ready tx user held
  rw [phase] at ready
  obtain ⟨attached, none, loaded⟩ := ready
  have differs : user.columns.totpSecret ≠ user.loaded.totpSecret := by
    rw [none]
    exact Ne.symm loaded
  rcases flushUser_cases ran with ⟨clean, _⟩ | ⟨row, free, found, rfl⟩ | rfl
  · simp only [UserInstance.dirty, attached, Bool.true_and,
      decide_eq_false_iff_not, ne_eq, not_not] at clean
    rw [clean] at differs
    exact absurd rfl differs
  · have cleared : (user.flushInto row).totpSecret = .none := by
      rw [← none]
      exact if_neg differs
    have written := sound.writeUser (user.flushInto row) free found
      (fun secret has => by simp [cleared] at has)
      (fun secret step _ _ has => by simp [cleared] at has)
    refine written.advance ?_ ⟨⟨rfl, rfl⟩, by simp [MfaPhase.resets]⟩
    intro secret has
    simp [none] at has
  · exact sound.rollback

theorem Sound.stage (sound : Sound db) {hashes : List String} (held : db.held tx = some user)
    (phase : db.phase tx = .staging secret hashes)
    (fresh : ∀ pair ∈ db.issued, pair.1 ≠ secret) (distinct : hashes.Nodup)
    (unknown : ∀ hash ∈ hashes, hash ∉ db.codes.keys)
    (ran : db.flushUser tx user (fun db =>
      { db with
        codes := MfaDb.insertCodes db.codes tx user.userId hashes
        issued := (secret, user.userId) :: db.issued }.goto tx .idle) =
          some next) : Sound next := by
  have ready := sound.ready tx user held
  rw [phase] at ready
  obtain ⟨attached, staged⟩ := ready
  have differs : user.columns.totpSecret ≠ user.loaded.totpSecret := by
    intro same
    obtain ⟨owner, drawn⟩ := sound.loaded tx user secret held (by rw [← same, staged])
    exact fresh _ drawn rfl
  rcases flushUser_cases ran with ⟨clean, _⟩ | ⟨row, free, found, rfl⟩ | rfl
  · simp only [UserInstance.dirty, attached, Bool.true_and,
      decide_eq_false_iff_not, ne_eq, not_not] at clean
    rw [clean] at differs
    exact absurd rfl differs
  · have latest : (user.flushInto row).totpSecret = some secret := by
      rw [← staged]
      exact if_neg differs
    -- what was accepted before belongs to a secret drawn before
    have older : ∀ name step, Factor.totp name step ∈ db.earned tx ++ db.accepted →
          name ≠ secret := by
      rintro name step member rfl
      rcases List.mem_append.mp member with own | accepted
      · obtain ⟨owner, _, drawn, _⟩ := sound.earned tx _ own
        exact fresh _ drawn rfl
      · obtain ⟨owner, drawn, _⟩ := sound.accepted _ accepted
        exact fresh _ drawn rfl
    have issued := sound.issue user.userId fresh
    have inserted := issued.insertCodes tx user.userId distinct unknown
    have written := inserted.writeUser (user.flushInto row) free found (fun name has => by
        rw [latest, Option.some.injEq] at has
        subst has
        exact List.mem_cons_self)
      (fun name step member _ has => by
        rw [latest, Option.some.injEq] at has
        exact absurd has.symm (older name step member))
    refine written.advance ?_ ⟨⟨rfl, rfl⟩, by simp [MfaPhase.resets]⟩
    intro name has
    simp only [staged, Option.some.injEq] at has
    subst has
    exact ⟨user.userId, List.mem_cons_self⟩
  · exact sound.rollback

variable {settings : MfaSettings}

theorem Sound.flush (sound : Sound db)
    (taken : db.step settings (.flush tx) = some next) : Sound next := by
  simp only [MfaDb.step] at taken
  split at taken
  · simp at taken
  · next user held =>
      have ready := sound.ready tx user held
      split at taken
      · next phase => exact sound.clear held phase taken
      · next phase =>
          rw [phase] at ready
          have later : Ready .enabling { user with loaded := user.columns } :=
            ⟨⟨rfl, rfl⟩, by simp [MfaPhase.resets]⟩
          rcases flushUser_cases taken with
            ⟨_, rfl⟩ | ⟨row, free, found, rfl⟩ | rfl
          · exact sound.goto held ready
          · have flushed := sound.flushSteady held ready.1 free found
              (by rw [phase]; exact later)
            exact flushed.goto (Function.update_self ..) later
          · exact sound.rollback
      · next secret hashes phase =>
          split at taken
          · next fresh =>
              exact sound.stage held phase fresh.1 fresh.2.1 fresh.2.2 taken
          · simp at taken
      · next notClearing notEnabling notStaging =>
          have steady : user.Steady ∧
              Ready (db.phase tx) { user with loaded := user.columns } := by
            cases phase : db.phase tx with
            | clearing => exact absurd phase notClearing
            | staging secret hashes => exact absurd phase (notStaging secret hashes)
            | _ =>
              rw [phase] at ready
              exact ⟨ready.1, ⟨rfl, rfl⟩, ready.2⟩
          split at taken
          · rcases flushUser_cases taken with
              ⟨_, rfl⟩ | ⟨row, free, found, rfl⟩ | rfl
            · exact sound
            · exact sound.flushSteady held steady.1 free found steady.2
            · exact sound.rollback
          · simp at taken

theorem Sound.call (sound : Sound db) {purpose : Purpose}
    (taken : db.step settings (.call tx purpose) = some next) : Sound next := by
  simp only [MfaDb.step] at taken
  split at taken
  · next user phase held =>
      split at taken
      · next admitted =>
          cases taken
          have ready := sound.ready tx user held
          rw [phase] at ready
          refine sound.goto held ?_
          have active : user.mfaActive = true → user.columns.totpSecret ≠ none := by
            intro active none
            simp [UserInstance.mfaActive, none] at active
          cases purpose with
          | check check code recovery =>
            cases check with
            | disable =>
              simp only [MfaDb.admits, Bool.and_eq_true] at admitted
              exact ⟨ready.1, fun _ => active admitted.2⟩
            | _ => exact ⟨ready.1, by simp [MfaDb.entry, MfaPhase.resets]⟩
          | reset => exact ⟨ready.1, fun _ => active admitted⟩
          | _ => exact ⟨ready.1, by simp [MfaDb.entry, MfaPhase.resets]⟩
      · simp at taken
  · simp at taken

theorem UserInstance.Steady.attach (steady : user.Steady)
    (calm : (user.attached || decide (user.columns.totpSecret = row.totpSecret ∧
        user.columns.totpLastStep = row.totpLastStep)) = true) :
    (user.attach row).Steady := by
  simp only [UserInstance.attach]
  split
  · exact steady
  · next detached =>
      simp only [detached, Bool.false_or, decide_eq_true_eq] at calm
      exact calm

theorem Sound.attach (sound : Sound db) (calm : undisputed db (.attach tx) = true)
    (taken : db.step settings (.attach tx) = some next) : Sound next := by
  simp only [MfaDb.step] at taken
  split at taken
  · next purpose user phase held =>
      split at taken
      · next row found =>
          cases taken
          have ready := sound.ready tx user held
          rw [phase] at ready
          simp only [undisputed, phase, held, found, Option.all_some] at calm
          have loaded : ∀ secret, (user.attach row).loaded.totpSecret = some secret →
                ∃ owner, (secret, owner) ∈ db.issued := by
            intro secret has
            simp only [UserInstance.attach] at has
            split at has
            · exact sound.loaded tx user secret held has
            · exact ⟨_, sound.versions _ _ secret (Rows.HasVersion.of_visible found) has⟩
          have columns : (user.attach row).columns = user.columns := by
            simp only [UserInstance.attach]
            split <;> rfl
          have attached : (user.attach row).attached = true := by
            simp only [UserInstance.attach]
            split
            · assumption
            · rfl
          cases purpose with
          | enroll secret hashes => exact sound.advance loaded ⟨attached, rfl⟩
          | reset =>
            refine sound.advance loaded ⟨attached, rfl, ?_⟩
            simp only [UserInstance.attach]
            split
            · rw [← ready.1.1]
              exact ready.2 rfl
            · next detached =>
                intro none
                have none : row.totpSecret = .none := none
                simp [detached, none] at calm
          | check check code recovery =>
            have steady := ready.1.attach calm
            refine sound.advance loaded ?_
            split
            · refine ⟨steady, fun resets => ?_⟩
              rw [columns]
              cases check with
              | disable => exact ready.2 rfl
              | _ => simp [MfaPhase.resets] at resets
            · exact ⟨steady, by simp [MfaPhase.resets]⟩
          | other => exact sound.advance loaded ⟨ready.1.attach calm, by simp [MfaPhase.resets]⟩
      · simp at taken
  · simp at taken

theorem UserInstance.Steady.synchronize {step : Int}
    (steady : user.Steady) : (user.synchronize step).Steady := by
  simp only [UserInstance.synchronize]
  split
  · exact ⟨steady.1, rfl⟩
  · exact steady

theorem synchronize_columns_secret (step : Int) :
    (user.synchronize step).columns.totpSecret = user.columns.totpSecret := by
  simp only [UserInstance.synchronize]
  split <;> rfl

theorem synchronize_loaded_secret (step : Int) :
    (user.synchronize step).loaded.totpSecret = user.loaded.totpSecret := by
  simp only [UserInstance.synchronize]
  split <;> rfl

theorem Sound.accept (sound : Sound db) {check : Check} (steady : user.Steady)
    (secret : check = .disable → user.columns.totpSecret ≠ none)
    (loaded : ∀ secret, user.loaded.totpSecret = some secret →
      ∃ owner, (secret, owner) ∈ db.issued) :
    Sound (db.accept tx user check) := by
  cases check with
  | disable => exact sound.advance loaded ⟨steady, fun _ => secret rfl⟩
  | confirm => exact sound.advance loaded ⟨steady, by simp [MfaPhase.resets]⟩
  | _ => exact sound.advance loaded ⟨steady, by simp [MfaPhase.resets]⟩

theorem Sound.tryRecovery (sound : Sound db) {check : Check} {code : String}
    {recovery : Bool} (held : db.held tx = some user)
    (ready : Ready (.claiming check code recovery) user) :
    Sound (db.tryRecovery tx check code recovery) := by
  refine sound.goto held ?_
  split
  · refine ⟨ready.1, fun resets => ready.2 ?_⟩
    cases check with
    | disable => rfl
    | _ => simp [MfaPhase.resets] at resets
  · exact ⟨ready.1, by simp [MfaPhase.resets]⟩

theorem Sound.unspent_fresh (sound : Sound db) {key : UserId} {step : Int}
    (found : db.users.visible tx key = some row)
    (has : row.totpSecret = some secret)
    (unspent : stepUnspent step row = true) :
    Factor.totp secret step ∉ db.earned tx ++ db.accepted := by
  have drawn := sound.versions key row secret (Rows.HasVersion.of_visible found) has
  have notPast : ¬Past secret step row := by
    intro past
    obtain ⟨last, recorded, behind⟩ := past has
    simp only [stepUnspent, recorded, Option.all_some, decide_eq_true_eq] at unspent
    omega
  intro member
  rcases List.mem_append.mp member with own | accepted
  · obtain ⟨owner, version, again, pending, past⟩ := sound.earned tx _ own
    obtain rfl := sound.owner secret owner key again drawn
    rw [Rows.visible_of_pending pending] at found
    exact notPast (past row found)
  · obtain ⟨owner, again, past⟩ := sound.accepted _ accepted
    obtain rfl := sound.owner secret owner key again drawn
    exact notPast (past row (Rows.HasVersion.of_visible found))

theorem past_spend {step later : Int} (unspent : stepUnspent later row = true)
    (past : Past secret step row) : Past secret step (row.spend later) := by
  intro has
  obtain ⟨last, recorded, behind⟩ := past has
  simp only [stepUnspent, recorded, Option.all_some, decide_eq_true_eq] at unspent
  exact ⟨later, rfl, by omega⟩

section

variable (sound : Sound db)

include sound

theorem Sound.claim (calm : undisputed db (.claim tx) = true)
    (taken : db.step settings (.claim tx) = some next) : Sound next := by
  simp only [MfaDb.step] at taken
  split at taken
  · next check code recovery user phase held =>
      have ready := sound.ready tx user held
      rw [phase] at ready
      have retry := sound.tryRecovery held ready
      split at taken
      · simp at taken
      · split at taken
        · cases taken
          exact retry
        · next secret has =>
            split at taken
            · cases taken
              exact retry
            · split at taken
              · cases taken
                exact retry
              · next step matching =>
                  obtain ⟨⟨matched, users⟩, updated, rfl⟩ :=
                    Option.map_eq_some_iff.mp taken
                  have loaded : ∀ name, (user.synchronize step).loaded.totpSecret = some name →
                        ∃ owner, (name, owner) ∈ db.issued := by
                    intro name known
                    rw [synchronize_loaded_secret] at known
                    exact sound.loaded tx user name held known
                  obtain ⟨free, ⟨rfl, row, found, unspent, rfl⟩ |
                      ⟨rfl, rfl, _⟩⟩ := Rows.update_cases updated
                  · simp only [undisputed, phase, held, found,
                      Option.all_some, decide_eq_true_eq] at calm
                    have rowHas : row.totpSecret = some secret := by
                      rw [← calm, has]
                    have drawn := sound.versions _ _ secret
                      (Rows.HasVersion.of_visible found) rowHas
                    have fresh := sound.unspent_fresh found rowHas unspent
                    have written := sound.writeUser (row.spend step) free found
                      (fun name known => by
                        simp only [UserColumns.spend, rowHas, Option.some.injEq] at known
                        rwa [← known])
                      (fun name earlier _ past => past_spend unspent past)
                    have earned := written.earn tx (.totp secret step)
                      ⟨user.userId, _, drawn, Rows.pending_write_self _ _ _ _, by
                          rintro _ ⟨rfl⟩ _
                          exact ⟨step, rfl, Int.le_refl step⟩⟩ fresh
                    simp only [if_true]
                    refine earned.accept ready.1.synchronize ?_ loaded
                    rintro rfl
                    rw [synchronize_columns_secret, has]
                    simp
                  · simp only [Bool.false_eq_true, if_false]
                    have kept : Ready (.claiming check code recovery)
                        (user.synchronize step) := by
                      refine ⟨ready.1.synchronize, fun resets => ?_⟩
                      rw [synchronize_columns_secret]
                      exact ready.2 resets
                    have synchronized := sound.hold loaded (by rw [phase]; exact kept)
                    exact synchronized.tryRecovery (by simp [MfaDb.hold]) kept
  · simp at taken

theorem Sound.select (taken : db.step settings (.select tx) = some next) : Sound next := by
  simp only [MfaDb.step] at taken
  split at taken
  · next check code user phase held =>
      have ready := sound.ready tx user held
      rw [phase] at ready
      split at taken
      · simp at taken
      · split at taken
        · cases taken
          refine sound.goto held ⟨ready.1, fun resets => ready.2 ?_⟩
          cases check with
          | disable => rfl
          | _ => simp [MfaPhase.resets] at resets
        · cases taken
          exact sound.goto held ⟨ready.1, by simp [MfaPhase.resets]⟩
  · simp at taken

theorem Sound.spend (calm : undisputed db (.spend tx) = true)
    (taken : db.step settings (.spend tx) = some next) : Sound next := by
  simp only [MfaDb.step] at taken
  split at taken
  · next check hash user phase held =>
      have ready := sound.ready tx user held
      rw [phase] at ready
      obtain ⟨⟨matched, codes⟩, updated, rfl⟩ :=
        Option.map_eq_some_iff.mp taken
      obtain ⟨free, ⟨rfl, row, found, _, rfl⟩ | ⟨rfl, rfl, _⟩⟩ :=
        Rows.update_cases updated
      · simp only [undisputed, phase, found, Option.any_some] at calm
        have fresh : Factor.recovery hash ∉ db.earned tx ++ db.accepted := by
          intro member
          rcases List.mem_append.mp member with own | accepted
          · obtain ⟨version, pending, used⟩ := sound.earned tx _ own
            rw [Rows.visible_of_pending pending] at found
            have stamped := used row found
            simp [Option.isNone_iff_eq_none.mp calm] at stamped
          · obtain ⟨_, used⟩ := sound.accepted _ accepted
            have stamped := used row (Rows.HasVersion.of_visible found)
            simp [Option.isNone_iff_eq_none.mp calm] at stamped
        have written := sound.useCode { row with usedAt := some db.clock } free rfl
        have earned := written.earn tx (.recovery hash) ⟨_, Rows.pending_write_self _ _ _ _, by
            rintro _ ⟨rfl⟩
            rfl⟩ fresh
        simp only [if_true]
        refine earned.accept ready.1 ?_ (fun secret => sound.loaded tx user secret held)
        rintro rfl
        exact ready.2 rfl
      · exact sound.rollback
  · simp at taken

theorem Sound.wipe (taken : db.step settings (.wipe tx) = some next) : Sound next := by
  simp only [MfaDb.step] at taken
  split at taken
  · next purpose user phase held =>
      have ready := sound.ready tx user held
      rw [phase] at ready
      split at taken
      · simp at taken
      · obtain ⟨codes, ran, rfl⟩ := Option.map_eq_some_iff.mp taken
        refine (sound.deleteCodes ran).goto held ?_
        cases purpose <;> exact ⟨ready.1, by simp [MfaPhase.resets]⟩
  · simp at taken

theorem Sound.load {userId : UserId} {attached : Bool}
    (taken : db.step settings (.load tx userId attached) = some next) :
    Sound next := by
  simp only [MfaDb.step, Option.ite_none_right_eq_some] at taken
  obtain ⟨idle, taken⟩ := taken
  obtain ⟨columns, read, rfl⟩ := Option.map_eq_some_iff.mp taken
  have version : db.users.HasVersion userId columns := by
    split at read
    · exact Rows.HasVersion.of_visible read
    · exact .inl read
  refine sound.hold (fun secret has => ⟨userId, ?_⟩) ?_
  · exact sound.versions userId columns secret version has
  · rw [idle]
    exact ⟨⟨rfl, rfl⟩, by simp [MfaPhase.resets]⟩

theorem Sound.step {action : MfaAction} (calm : undisputed db action = true)
    (taken : db.step settings action = some next) : Sound next := by
  cases action with
  | tick elapsed =>
    cases taken
    exact ⟨sound.owner, sound.versions, sound.loaded, sound.ready,
      sound.accepted, sound.earned, sound.once⟩
  | load tx userId attached => exact sound.load taken
  | call tx purpose => exact sound.call taken
  | attach tx => exact sound.attach calm taken
  | flush tx => exact sound.flush taken
  | claim tx => exact sound.claim calm taken
  | select tx => exact sound.select taken
  | spend tx => exact sound.spend calm taken
  | wipe tx => exact sound.wipe taken
  | commit tx =>
    simp only [MfaDb.step, Option.ite_none_right_eq_some, Option.some.injEq] at taken
    obtain ⟨_, rfl⟩ := taken
    exact sound.commit
  | rollback tx =>
    cases taken
    exact sound.rollback

end

end Steps

theorem sound_start (users : Nat) : Sound (.start users) where
  owner := by simp [MfaDb.start]
  versions := by
    intro owner row secret version has
    rcases version with committed | ⟨tx, pending⟩
    · simp only [MfaDb.start, Rows.settled, Option.ite_none_right_eq_some,
        Option.some.injEq] at committed
      simp [← committed.2, UserColumns.plain] at has
    · simp [MfaDb.start, Rows.settled] at pending
  loaded := by simp [MfaDb.start]
  ready := by simp [MfaDb.start]
  accepted := by simp [MfaDb.start]
  earned := by simp [MfaDb.start]
  once := by simp [MfaDb.start]

/-- In every run in which nothing changes under a request, no step of a
secret and no recovery code is accepted twice. -/
theorem second_factor_once (settings : MfaSettings) (users : Nat)
    (schedule : List MfaAction) {state : MfaDb}
    (calm : Meets (MfaDb.step settings)
      (fun db action => undisputed db action = true) (.start users) schedule)
    (run : exec (MfaDb.step settings) (.start users) schedule = some state) :
    state.accepted.Nodup := by
  have sound : Sound state :=
    exec_invariant_of_meets (fun _ _ _ sound calm taken => Sound.step sound calm taken)
      calm (sound_start users) run
  exact (List.nodup_append.mp (sound.once 0)).2.1

/-- The first HOTP values of the ASCII key 12345678901234567890, and the
digests of a recovery code and of one of these values. -/
def sampleSettings : MfaSettings where
  mfaEnabled := true
  verifyWindow := 1
  generateOtp := fun _ step =>
    match step with
    | 0 => "755224"
    | 1 => "287082"
    | 2 => "359152"
    | _ => "969429"
  hashOpaqueToken := fun code =>
    if code = "b7Qk2xJm9Zs" then
      "0086e1ae37e3cf92fea79ddd4d22f30cf17fb41d56af9c6c441d63443a91c189"
    else "5c24358901dcc3ea3408b50a701fa317e3dfec80ede2422fbd91318beb847843"

def sampleSecret : String := "GEZDGNBVGY3TQOJQGEZDGNBVGY3TQOJQ"

/-- A user enrolls and confirms with the code of step 0. -/
def enrollment : List MfaAction :=
  [.load 1 0 true, .call 1 (.enroll sampleSecret
      [sampleSettings.hashOpaqueToken "b7Qk2xJm9Zs"]),
    .wipe 1, .attach 1, .flush 1, .commit 1, .load 1 0 true,
    .call 1 (.check .confirm "755224" false), .attach 1, .claim 1, .flush 1,
    .commit 1]

/-- A login with the code of step 1, and the same code again. -/
def replayedLogin : List MfaAction :=
  enrollment ++ [.tick 30, .load 2 0 true, .load 3 0 true,
    .call 2 (.check .login "287 082" true), .claim 2, .commit 2,
    .call 3 (.check .login "287082" true), .claim 3, .select 3, .commit 3]

theorem second_factor_once_replayed : ∃ state,
    exec (MfaDb.step sampleSettings) (.start 1) replayedLogin = some state ∧
      state.accepted.Nodup :=
  ⟨_, rfl, second_factor_once sampleSettings 1 replayedLogin (by decide) rfl⟩

/-- A detached copy from before the login is merged, writes the old last step
back, and the code of the login passes again. -/
def staleMerge : List MfaAction :=
  enrollment ++ [.load 2 0 false, .tick 30, .load 3 0 true,
    .call 3 (.check .login "287082" true), .claim 3, .commit 3,
    .call 2 (.check .stepUp "287082" false), .attach 2, .flush 2, .claim 2,
    .commit 2]

/-- Two logins read the same recovery code before either stamps it. -/
def racedRecovery : List MfaAction :=
  enrollment ++ [.load 2 0 true, .load 3 0 true,
    .call 2 (.check .login "b7Qk2xJm9Zs" true), .claim 2, .select 2,
    .call 3 (.check .login "b7Qk2xJm9Zs" true), .claim 3, .select 3,
    .spend 2, .commit 2, .spend 3, .commit 3]

theorem second_factor_accepted_twice :
    (∃ state, exec (MfaDb.step sampleSettings) (.start 1) staleMerge =
        some state ∧ state.accepted.count (.totp sampleSecret 1) = 2) ∧
      ∃ state, exec (MfaDb.step sampleSettings) (.start 1) racedRecovery =
        some state ∧ state.accepted.count
            (.recovery (sampleSettings.hashOpaqueToken "b7Qk2xJm9Zs")) = 2 :=
  ⟨⟨_, rfl, by decide⟩, ⟨_, rfl, by decide⟩⟩

end SecondFactor

end TempestSdk
