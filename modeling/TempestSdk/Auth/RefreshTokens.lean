import TempestSdk.Library.Runs
import TempestSdk.Library.RowVersions
import TempestSdk.Db.Transaction

/-!
# Refresh-token rotation and revocation

The refresh-token table under READ COMMITTED, and the transactions that write
it: a login opens a family, `refresh_tokens` spends the presented token and
mints its child, a detected replay revokes the family, and
`revoke_refresh_token` and `revoke_user_refresh_tokens` revoke a family or a
user.  Every transaction runs statement by statement, so a schedule is an
interleaving of statements, lock waits and commits.

A revoking `UPDATE` picks its rows from the snapshot it starts with.  A child
minted by a refresh that commits after that snapshot is not among them, so the
revocation can miss the only live token of its family.
-/

namespace TempestSdk

namespace RefreshTokens

open Runs ReadCommitted

/-- An opaque token, which `hash_opaque_token` maps to its row. -/
abbrev TokenId := Nat

abbrev FamilyId := Nat

structure RefreshToken where
  userId : UserId
  familyId : FamilyId
  expiresAt : Int
  usedAt : Option Int
  revokedAt : Option Int
  amr : Option (List String)
  deriving DecidableEq

namespace RefreshToken

def live (token : RefreshToken) : Bool :=
  token.usedAt.isNone && token.revokedAt.isNone

/-- The `WHERE` of the spending `UPDATE`. -/
def spendable (now : Int) (token : RefreshToken) : Bool :=
  token.live && decide (now < token.expiresAt)

def spend (now : Int) (token : RefreshToken) : RefreshToken :=
  { token with usedAt := some now }

def revoke (now : Int) (token : RefreshToken) : RefreshToken :=
  { token with revokedAt := some now }

/-- The row `_issue_refresh_record` inserts for a login. -/
def root (userId : UserId) (familyId : FamilyId) (expiresAt : Int)
    (amr : Option (List String)) : RefreshToken :=
  { userId, familyId, expiresAt, usedAt := none, revokedAt := none, amr }

/-- The row `refresh_tokens` mints from the one it spent. -/
def child (parent : RefreshToken) (expiresAt : Int) : RefreshToken :=
  root parent.userId parent.familyId expiresAt parent.amr

end RefreshToken

inductive Target where
  | family (familyId : FamilyId)
  | user (userId : UserId)
  deriving DecidableEq

def RefreshToken.Follows (token later : RefreshToken) : Prop :=
  later.userId = token.userId ∧ later.familyId = token.familyId ∧
    (token.revokedAt.isSome = true → later.revokedAt.isSome = true)

def Target.owns (target : Target) (token : RefreshToken) : Bool :=
  match target with
  | .family familyId => decide (token.familyId = familyId)
  | .user userId => decide (token.userId = userId)

/-- The `WHERE` of the revoking `UPDATE`. -/
def Target.revokes (target : Target) (token : RefreshToken) : Bool :=
  target.owns token && token.revokedAt.isNone

inductive RefreshPhase where
  | idle
  | issuing (root : TokenId)
  /-- The spending `UPDATE` found its row and may wait for its lock. -/
  | spending (token : TokenId) (now : Int)
  /-- The spending `UPDATE` returned no row. -/
  | refused (token : TokenId)
  /-- The spending `UPDATE` returned the row. -/
  | spent (token : TokenId)
  | rotated (parent child : TokenId)
  /-- A revocation is about to issue its `UPDATE`. -/
  | revokeRequested (target : Target)
  /-- The revoking `UPDATE` runs: the tokens of the target in its snapshot,
  and the picked ones it has not reached. -/
  | revoking (target : Target) (now : Int) (seen todo : List TokenId)
  deriving DecidableEq

/-- The table, where each transaction stands, the families ever opened, and
the families a committed revocation was about. -/
structure RefreshDb where
  rows : Rows TxId TokenId RefreshToken
  phase : TxId → RefreshPhase
  families : List FamilyId
  dead : List FamilyId

inductive RefreshAction where
  | login (tx : TxId) (userId : UserId) (familyId : FamilyId) (root : TokenId)
      (expiresAt : Int) (amr : Option (List String))
  | refresh (tx : TxId) (token : TokenId) (now : Int)
  | lockSpend (tx : TxId)
  | mint (tx : TxId) (child : TokenId) (expiresAt : Int)
  | lookup (tx : TxId) (now : Int)
  | logout (tx : TxId) (token : TokenId) (allSessions : Bool)
  | revokeUser (tx : TxId) (userId : UserId)
  | startRevoke (tx : TxId) (now : Int)
  | revokeRow (tx : TxId) (token : TokenId)
  | commit (tx : TxId)
  | rollback (tx : TxId)
  deriving DecidableEq

namespace RefreshDb

def empty : RefreshDb :=
  { rows := .empty, phase := fun _ => .idle, families := [], dead := [] }

def goto (db : RefreshDb) (tx : TxId) (phase : RefreshPhase) : RefreshDb :=
  { db with phase := Function.update db.phase tx phase }

def rollback (db : RefreshDb) (tx : TxId) (phase : RefreshPhase) : RefreshDb :=
  { db with
    rows := db.rows.rollback tx
    phase := Function.update db.phase tx phase }

def commit (db : RefreshDb) (tx : TxId) : RefreshDb :=
  { db with
    rows := db.rows.commit tx
    phase := Function.update db.phase tx .idle }

def familiesOf (rows : Rows TxId TokenId RefreshToken) (target : Target) : List FamilyId :=
  rows.keys.filterMap fun key =>
    ((rows.committed key).filter target.owns).map RefreshToken.familyId

/-- `_lookup_refresh_record` after a spend that matched nothing: a token
already rotated, or one that still reads as live, revokes its family; every
other token only raises. -/
def lookup (db : RefreshDb) (tx : TxId) (now : Int) (token : TokenId) : RefreshDb :=
  match db.rows.visible tx token with
  | none => db.rollback tx .idle
  | some record =>
    if record.revokedAt.isSome then db.rollback tx .idle
    else if record.usedAt.isSome then
      db.rollback tx (.revokeRequested (.family record.familyId))
    else if record.expiresAt < now then db.rollback tx .idle
    else db.rollback tx (.revokeRequested (.family record.familyId))

@[grind =] def step (db : RefreshDb) : RefreshAction → Option RefreshDb
  | .login tx userId familyId root expiresAt amr =>
    if db.phase tx = .idle ∧ familyId ∉ db.families ∧ root ∉ db.rows.keys then
      some { db with
          rows := db.rows.write tx root (some (.root userId familyId expiresAt amr))
          phase := Function.update db.phase tx (.issuing root)
          families := familyId :: db.families }
    else none
  | .refresh tx token now =>
    if db.phase tx = .idle then
      if (db.rows.visible tx token).any (RefreshToken.spendable now) then
        some (db.goto tx (.spending token now))
      else some (db.goto tx (.refused token))
    else none
  | .lockSpend tx =>
    match db.phase tx with
    | .spending token now =>
      (db.rows.update tx token (RefreshToken.spendable now)
          (RefreshToken.spend now)).map fun (matched, rows) =>
        { db with rows }.goto tx
          (if matched then .spent token else .refused token)
    | _ => none
  | .mint tx child expiresAt =>
    match db.phase tx with
    | .spent token =>
      match db.rows.visible tx token with
      | some record =>
        if child ∉ db.rows.keys then
          some ({ db with
            rows := db.rows.write tx child (some (record.child expiresAt)) }.goto tx
                (.rotated token child))
        else none
      | none => none
    | _ => none
  | .lookup tx now =>
    match db.phase tx with
    | .refused token => some (db.lookup tx now token)
    | _ => none
  | .logout tx token allSessions =>
    if db.phase tx = .idle then
      match db.rows.visible tx token with
      | none => some db
      | some record =>
        some (db.goto tx (.revokeRequested (if allSessions then .user record.userId
            else .family record.familyId)))
    else none
  | .revokeUser tx userId =>
    if db.phase tx = .idle then
      some (db.goto tx (.revokeRequested (.user userId)))
    else none
  | .startRevoke tx now =>
    match db.phase tx with
    | .revokeRequested target =>
      some (db.goto tx (.revoking target now (db.rows.matching tx target.owns)
        (db.rows.matching tx target.revokes)))
    | _ => none
  | .revokeRow tx token =>
    match db.phase tx with
    | .revoking target now seen todo =>
      if token ∈ todo then
        (db.rows.update tx token target.revokes (RefreshToken.revoke now)).map fun (_, rows) =>
          { db with rows }.goto tx
            (.revoking target now seen (todo.erase token))
      else none
    | _ => none
  | .commit tx =>
    match db.phase tx with
    | .issuing _ | .rotated _ _ => some (db.commit tx)
    | .revoking target _ _ [] =>
      some { db.commit tx with
        dead := db.dead ++ familiesOf (db.rows.commit tx) target }
    | _ => none
  | .rollback tx => some (db.rollback tx .idle)

end RefreshDb

def Held (rows : Rows TxId TokenId RefreshToken) (dead : List FamilyId)
    (tx : TxId) : RefreshPhase → Prop
  | .issuing root => ∃ token, rows.committed root = none ∧
      rows.Holds tx (fun key version => key = root ∧ version = some token) ∧
      token.familyId ∉ dead ∧
      ∀ key other, rows.HasVersion key other → other.familyId = token.familyId → key = root
  | .spent parent => ∃ token now, rows.committed parent = some token ∧
      token.live = true ∧
      rows.Holds tx fun key version =>
        key = parent ∧ version = some (token.spend now)
  | .rotated parent child => ∃ token now expiresAt,
      rows.committed parent = some token ∧ token.live = true ∧
      rows.committed child = none ∧
      rows.Holds tx fun key version =>
        (key = parent ∧ version = some (token.spend now)) ∨
          (key = child ∧ version = some (token.child expiresAt))
  | .revoking target now seen todo =>
    (∀ key version, rows.pending key = some (tx, version) →
      ∃ token, rows.committed key = some token ∧ version = some (token.revoke now)) ∧
    ∀ key ∈ seen, ∃ token, rows.committed key = some token ∧ target.owns token = true ∧
      (key ∈ todo ∨ token.revokedAt.isSome = true ∨
        ∃ version, rows.pending key = some (tx, version))
  | _ => rows.Quiet tx

structure Sound (db : RefreshDb) : Prop where
  known : ∀ key token, db.rows.HasVersion key token → token.familyId ∈ db.families
  deadKnown : ∀ family ∈ db.dead, family ∈ db.families
  sameUser : ∀ key token other record, db.rows.HasVersion key token →
    db.rows.HasVersion other record → token.familyId = record.familyId →
    token.userId = record.userId
  single : ∀ key token other record, db.rows.committed key = some token →
    db.rows.committed other = some record →
    token.familyId = record.familyId → token.live = true →
    record.live = true → key = other
  buried : ∀ key token, db.rows.committed key = some token →
    token.familyId ∈ db.dead → token.live = false
  held : ∀ tx, Held db.rows db.dead tx (db.phase tx)

theorem Target.owns_of_follows {target : Target} {token later : RefreshToken}
    (follows : token.Follows later) :
    target.owns later = target.owns token := by
  obtain ⟨user, family, _⟩ := follows
  cases target <;> simp [Target.owns, user, family]

theorem Held.follows {rows : Rows TxId TokenId RefreshToken}
    {dead : List FamilyId} {tx : TxId} {phase : RefreshPhase}
    (held : Held rows dead tx phase) {key : TokenId}
    {version : Option RefreshToken} {token : RefreshToken}
    (pending : rows.pending key = some (tx, version))
    (committed : rows.committed key = some token) :
    ∃ later, version = some later ∧ token.Follows later := by
  cases phase with
  | issuing root =>
    obtain ⟨_, absent, holds, _⟩ := held
    obtain ⟨rfl, _⟩ := (holds key version).mp pending
    simp [absent] at committed
  | spent parent =>
    obtain ⟨spent, now, found, _, holds⟩ := held
    obtain ⟨rfl, rfl⟩ := (holds key version).mp pending
    rw [found] at committed
    cases committed
    exact ⟨_, rfl, rfl, rfl, id⟩
  | rotated parent child =>
    obtain ⟨spent, now, expiresAt, found, _, absent, holds⟩ := held
    rcases (holds key version).mp pending with ⟨rfl, rfl⟩ | ⟨rfl, rfl⟩
    · rw [found] at committed
      cases committed
      exact ⟨_, rfl, rfl, rfl, id⟩
    · simp [absent] at committed
  | revoking target now seen todo =>
    obtain ⟨revoked, found, rfl⟩ := held.1 key version pending
    rw [found] at committed
    cases committed
    exact ⟨_, rfl, rfl, rfl, fun _ => rfl⟩
  | idle => exact absurd pending (held key version)
  | spending token now => exact absurd pending (held key version)
  | refused token => exact absurd pending (held key version)
  | revokeRequested target => exact absurd pending (held key version)

/-- What another transaction may do around one that stands still. -/
structure Frame (rows : Rows TxId TokenId RefreshToken)
    (families dead : List FamilyId) (other : TxId)
    (after : Rows TxId TokenId RefreshToken) (deadAfter : List FamilyId) :
    Prop extends Rows.Undisturbed rows after other where
  grows : ∀ key token, rows.committed key = some token →
    ∃ later, after.committed key = some later ∧ token.Follows later
  versions : ∀ key token, after.HasVersion key token →
    rows.HasVersion key token ∨ token.familyId ∉ families ∨
      ∃ old record, rows.committed old = some record ∧ record.familyId = token.familyId
  buried : ∀ family ∈ deadAfter, family ∈ dead ∨
    ∃ key token, after.committed key = some token ∧ token.familyId = family

theorem Held.frame {rows after : Rows TxId TokenId RefreshToken}
    {families dead deadAfter : List FamilyId} {other : TxId}
    {phase : RefreshPhase} (held : Held rows dead other phase)
    (known : ∀ key token, rows.HasVersion key token → token.familyId ∈ families)
    (frame : Frame rows families dead other after deadAfter) :
    Held after deadAfter other phase := by
  have quiet (none : rows.Quiet other) : after.Quiet other :=
    frame.toUndisturbed.quiet none
  cases phase with
  | issuing root =>
    obtain ⟨token, absent, holds, alive, alone⟩ := held
    have pending : rows.pending root = some (other, some token) :=
      (holds root (some token)).mpr ⟨rfl, rfl⟩
    have absentAfter : after.committed root = none := by
      rw [frame.fixed root _ pending, absent]
    have aloneAfter : ∀ key record, after.HasVersion key record →
        record.familyId = token.familyId → key = root := by
      intro key record version family
      rcases frame.versions key record version with
        old | fresh | ⟨old, existing, committed, same⟩
      · exact alone key record old family
      · rw [family] at fresh
        exact absurd (known root token (.inr ⟨other, pending⟩)) fresh
      · have collision :=
          alone old existing (.inl committed) (same.trans family)
        rw [collision, absent] at committed
        simp at committed
    refine ⟨token, absentAfter, frame.toUndisturbed.holds holds, ?_, aloneAfter⟩
    intro buried
    rcases frame.buried _ buried with old | ⟨key, record, committed, family⟩
    · exact alive old
    · rw [aloneAfter key record (.inl committed) family, absentAfter] at committed
      simp at committed
  | spent parent =>
    obtain ⟨token, now, found, live, holds⟩ := held
    refine ⟨token, now, ?_, live, frame.toUndisturbed.holds holds⟩
    rw [frame.fixed parent _ ((holds parent _).mpr ⟨rfl, rfl⟩), found]
  | rotated parent child =>
    obtain ⟨token, now, expiresAt, found, live, absent, holds⟩ := held
    refine ⟨token, now, expiresAt, ?_, live, ?_, frame.toUndisturbed.holds holds⟩
    · rw [frame.fixed parent _ ((holds parent _).mpr (.inl ⟨rfl, rfl⟩)), found]
    · rw [frame.fixed child _ ((holds child _).mpr (.inr ⟨rfl, rfl⟩)), absent]
  | revoking target now seen todo =>
    obtain ⟨revoked, reached⟩ := held
    constructor
    · intro key version pending
      have old := (frame.locks key version).mp pending
      rw [frame.fixed key version old]
      exact revoked key version old
    · intro key member
      obtain ⟨token, committed, owned, progress⟩ := reached key member
      obtain ⟨later, committedAfter, follows⟩ :=
        frame.grows key token committed
      refine ⟨later, committedAfter, ?_, ?_⟩
      · rw [Target.owns_of_follows follows, owned]
      · rcases progress with waiting | gone | ⟨version, pending⟩
        · exact .inl waiting
        · exact .inr (.inl (follows.2.2 gone))
        · exact .inr (.inr ⟨version, (frame.locks key version).mpr pending⟩)
  | idle => exact quiet held
  | spending token now => exact quiet held
  | refused token => exact quiet held
  | revokeRequested target => exact quiet held

section Frames

variable {db : RefreshDb} {tx other : TxId}

theorem Frame.of_write (different : other ≠ tx) {key : TokenId}
    {record : RefreshToken} (unlocked : db.rows.free tx key = true)
    (origin : record.familyId ∉ db.families ∨ ∃ old token, db.rows.committed old = some token ∧
        token.familyId = record.familyId) :
    Frame db.rows db.families db.dead other (db.rows.write tx key (some record)) db.dead where
  toUndisturbed := Rows.undisturbed_write unlocked different _
  grows := fun _ token committed => ⟨token, committed, rfl, rfl, id⟩
  versions := by
    intro at_ token version
    rcases version.of_write with old | ⟨rfl, rfl⟩
    · exact .inl old
    · exact .inr origin
  buried := fun _ member => .inl member

theorem Frame.of_rollback (different : other ≠ tx) :
    Frame db.rows db.families db.dead other (db.rows.rollback tx) db.dead where
  toUndisturbed := Rows.undisturbed_rollback _ different
  grows := fun _ token committed => ⟨token, committed, rfl, rfl, id⟩
  versions := fun _ _ version => .inl version.of_rollback
  buried := fun _ member => .inl member

theorem Frame.of_commit (different : other ≠ tx) {phase : RefreshPhase}
    (held : Held db.rows db.dead tx phase) {deadAfter : List FamilyId}
    (buried : ∀ family ∈ deadAfter, family ∈ db.dead ∨
      ∃ key token, (db.rows.commit tx).committed key = some token ∧ token.familyId = family) :
    Frame db.rows db.families db.dead other (db.rows.commit tx) deadAfter where
  toUndisturbed := Rows.undisturbed_commit _ different
  grows := by
    intro key token committed
    rw [Rows.committed_commit]
    rcases Rows.visible_cases db.rows tx key with own | ⟨same, _⟩
    · obtain ⟨later, found, follows⟩ := held.follows own committed
      exact ⟨later, found, follows⟩
    · exact ⟨token, by rw [same, committed], rfl, rfl, id⟩
  versions := fun _ _ version => .inl version.of_commit
  buried := buried

end Frames

section Steps

variable {db : RefreshDb} {tx : TxId}

theorem Sound.goto (sound : Sound db) {phase : RefreshPhase}
    (held : Held db.rows db.dead tx phase) : Sound (db.goto tx phase) where
  known := sound.known
  deadKnown := sound.deadKnown
  sameUser := sound.sameUser
  single := sound.single
  buried := sound.buried
  held := by
    intro other
    by_cases same : other = tx
    · subst same
      simpa [RefreshDb.goto] using held
    · simpa [RefreshDb.goto, same] using sound.held other

theorem Sound.rollback (sound : Sound db) {phase : RefreshPhase}
    (held : Held (db.rows.rollback tx) db.dead tx phase) :
    Sound (db.rollback tx phase) where
  known := fun key token version => sound.known key token version.of_rollback
  deadKnown := sound.deadKnown
  sameUser := fun key token other record version versionOther =>
    sound.sameUser key token other record version.of_rollback versionOther.of_rollback
  single := sound.single
  buried := sound.buried
  held := by
    intro other
    by_cases same : other = tx
    · subst same
      simpa [RefreshDb.rollback] using held
    · simpa [RefreshDb.rollback, same] using
        (sound.held other).frame sound.known (.of_rollback same)

theorem Sound.write (sound : Sound db) {key : TokenId}
    {record : RefreshToken} {phase : RefreshPhase}
    {families : List FamilyId}
    (unlocked : db.rows.free tx key = true)
    (opened : record.familyId ∈ families)
    (kept : ∀ family ∈ db.families, family ∈ families)
    (user : ∀ other token, db.rows.HasVersion other token →
      token.familyId = record.familyId → token.userId = record.userId)
    (origin : record.familyId ∉ db.families ∨ ∃ old token, db.rows.committed old = some token ∧
        token.familyId = record.familyId)
    (held : Held (db.rows.write tx key (some record)) db.dead tx phase) :
    Sound
      { rows := db.rows.write tx key (some record)
        phase := Function.update db.phase tx phase
        families := families
        dead := db.dead } where
  known := by
    intro other token version
    rcases version.of_write with old | ⟨rfl, rfl⟩
    · exact kept _ (sound.known other token old)
    · exact opened
  deadKnown := fun family member => kept family (sound.deadKnown family member)
  sameUser := by
    intro first token second other one two same
    rcases one.of_write with oldOne | ⟨rfl, rfl⟩ <;>
      rcases two.of_write with oldTwo | ⟨rfl, rfl⟩
    · exact sound.sameUser _ _ _ _ oldOne oldTwo same
    · exact user _ _ oldOne same
    · exact (user _ _ oldTwo same.symm).symm
    · rfl
  single := sound.single
  buried := sound.buried
  held := by
    intro other
    by_cases same : other = tx
    · subst same
      simpa using held
    · simpa [same] using (sound.held other).frame sound.known (.of_write same unlocked origin)

theorem Sound.commit (sound : Sound db) {dead : List FamilyId}
    (deadFrom : ∀ family ∈ dead, family ∈ db.dead ∨
      ∃ key token, (db.rows.commit tx).committed key = some token ∧ token.familyId = family)
    (single : ∀ key token other record, (db.rows.commit tx).committed key = some token →
      (db.rows.commit tx).committed other = some record →
      token.familyId = record.familyId → token.live = true →
      record.live = true → key = other)
    (buried : ∀ key token, (db.rows.commit tx).committed key = some token →
      token.familyId ∈ dead → token.live = false) :
    Sound { db.commit tx with dead := dead } where
  known := fun key token version => sound.known key token version.of_commit
  deadKnown := by
    intro family member
    rcases deadFrom family member with old | ⟨key, token, committed, rfl⟩
    · exact sound.deadKnown family old
    · exact sound.known key token (Rows.HasVersion.of_commit (.inl committed))
  sameUser := fun key token other record version versionOther =>
    sound.sameUser key token other record version.of_commit versionOther.of_commit
  single := single
  buried := buried
  held := by
    intro other
    by_cases same : other = tx
    · subst same
      simp only [RefreshDb.commit, Function.update_self]
      exact Rows.quiet_commit db.rows other
    · simpa [RefreshDb.commit, same] using (sound.held other).frame sound.known
          (.of_commit same (sound.held tx) deadFrom)

variable {next : RefreshDb}

section

variable (sound : Sound db)

include sound

theorem Sound.login {userId : UserId} {familyId : FamilyId}
    {root : TokenId} {expiresAt : Int} {amr : Option (List String)}
    (taken : db.step (.login tx userId familyId root expiresAt amr) =
      some next) : Sound next := by
  simp only [RefreshDb.step, Option.ite_none_right_eq_some, Option.some.injEq] at taken
  obtain ⟨⟨idle, newFamily, newRoot⟩, rfl⟩ := taken
  have absent := (db.rows.covered root newRoot).1
  have quiet : db.rows.Quiet tx := by
    simpa [Held, idle] using sound.held tx
  refine sound.write (Rows.free_of_fresh newRoot) List.mem_cons_self
    (fun _ member => List.mem_cons_of_mem _ member) ?_ (.inl newFamily)
    ⟨_, absent, quiet.holds_write root _, ?_, ?_⟩
  · intro other token version same
    have used := sound.known other token version
    rw [same] at used
    exact absurd used newFamily
  · exact fun buried => newFamily (sound.deadKnown _ buried)
  · intro key other version same
    rcases version.of_write with old | ⟨rfl, _⟩
    · have used := sound.known key other old
      rw [same] at used
      exact absurd used newFamily
    · rfl

theorem Sound.lockSpend
    (taken : db.step (.lockSpend tx) = some next) : Sound next := by
  simp only [RefreshDb.step] at taken
  split at taken
  · next token now phase =>
      have quiet : db.rows.Quiet tx := by
        simpa [Held, phase] using sound.held tx
      obtain ⟨⟨matched, rows⟩, ran, rfl⟩ := Option.map_eq_some_iff.mp taken
      obtain ⟨free, ⟨rfl, record, found, spendable, rfl⟩ | ⟨rfl, rfl, _⟩⟩ :=
        Rows.update_cases ran
      · have committed : db.rows.committed token = some record := by
          rw [← quiet.visible token, found]
        have live : record.live = true := by
          simp only [RefreshToken.spendable, Bool.and_eq_true] at spendable
          exact spendable.1
        exact sound.write free
          (sound.known token record (.inl committed)) (fun _ member => member)
          (fun other old version same => sound.sameUser other old token record
            version (.inl committed) same)
          (.inr ⟨token, record, committed, rfl⟩)
          ⟨record, now, committed, live, quiet.holds_write token _⟩
      · exact sound.goto quiet
  · simp at taken

theorem Sound.mint {child : TokenId} {expiresAt : Int}
    (taken : db.step (.mint tx child expiresAt) = some next) : Sound next := by
  simp only [RefreshDb.step] at taken
  split at taken
  · next parent phase =>
      obtain ⟨token, now, committed, live, holds⟩ :
          Held db.rows db.dead tx (.spent parent) := by
        rw [← phase]
        exact sound.held tx
      have own := (holds parent (some (token.spend now))).mpr ⟨rfl, rfl⟩
      rw [Rows.visible_of_pending own] at taken
      simp only [Option.ite_none_right_eq_some, Option.some.injEq] at taken
      obtain ⟨fresh, rfl⟩ := taken
      have absent := (db.rows.covered child fresh).1
      have different : parent ≠ child := by
        rintro rfl
        simp [absent] at committed
      refine sound.write (Rows.free_of_fresh fresh)
        (sound.known parent token (.inl committed)) (fun _ member => member)
        (fun other old version same => sound.sameUser other old parent token
          version (.inl committed) same)
        (.inr ⟨parent, token, committed, rfl⟩)
        ⟨token, now, expiresAt, committed, live, absent, ?_⟩
      intro key version
      by_cases same : key = child
      · subst same
        simp [Ne.symm different, eq_comm, RefreshToken.child, RefreshToken.spend]
      · rw [Rows.pending_write_of_ne _ _ _ same]
        simpa [same] using holds key version
  · simp at taken

theorem Sound.startRevoke {now : Int}
    (taken : db.step (.startRevoke tx now) = some next) : Sound next := by
  simp only [RefreshDb.step] at taken
  split at taken
  · next target phase =>
      cases taken
      have quiet : db.rows.Quiet tx := by
        simpa [Held, phase] using sound.held tx
      refine sound.goto ⟨fun key version pending =>
        absurd pending (quiet key version), ?_⟩
      intro key member
      obtain ⟨token, found, owned⟩ := Rows.matching_iff.mp member
      have committed : db.rows.committed key = some token := by
        rw [← quiet.visible key, found]
      refine ⟨token, committed, owned, ?_⟩
      by_cases active : token.revokedAt.isSome = true
      · exact .inr (.inl active)
      · left
        refine Rows.matching_iff.mpr ⟨token, found, ?_⟩
        simp only [Target.revokes, owned, Bool.true_and]
        simpa using active
  · simp at taken

theorem Sound.revokeRow {token : TokenId}
    (taken : db.step (.revokeRow tx token) = some next) : Sound next := by
  simp only [RefreshDb.step] at taken
  split at taken
  · next target now seen todo phase =>
      simp only [Option.ite_none_right_eq_some] at taken
      obtain ⟨_picked, taken⟩ := taken
      obtain ⟨⟨matched, rows⟩, ran, rfl⟩ := Option.map_eq_some_iff.mp taken
      obtain ⟨revoked, reached⟩ : Held db.rows db.dead tx (.revoking target now seen todo) := by
        rw [← phase]
        exact sound.held tx
      -- A row this statement already wrote no longer matches its guard.
      have unwritten : ∀ record, db.rows.visible tx token = some record →
          target.revokes record = true → db.rows.committed token = some record := by
        intro record found picked
        rcases Rows.visible_cases db.rows tx token with own | ⟨same, _⟩
        · obtain ⟨old, _, written⟩ := revoked token _ own
          rw [found] at written
          cases written
          simp [Target.revokes, RefreshToken.revoke] at picked
        · rw [← same, found]
      obtain ⟨free, ⟨rfl, record, found, picked, rfl⟩ | ⟨rfl, rfl, passed⟩⟩ :=
        Rows.update_cases ran
      · have committed := unwritten record found picked
        refine sound.write free
          (sound.known token record (.inl committed)) (fun _ member => member)
          (fun other old version same => sound.sameUser other old token record
            version (.inl committed) same)
          (.inr ⟨token, record, committed, rfl⟩) ⟨?_, ?_⟩
        · intro key version pending
          by_cases same : key = token
          · subst same
            rw [Rows.pending_write_self] at pending
            cases pending
            exact ⟨record, committed, rfl⟩
          · rw [Rows.pending_write_of_ne _ _ _ same] at pending
            exact revoked key version pending
        · intro key member
          obtain ⟨old, found, owned, progress⟩ := reached key member
          refine ⟨old, found, owned, ?_⟩
          by_cases same : key = token
          · subst same
            exact .inr (.inr ⟨_, Rows.pending_write_self _ _ _ _⟩)
          · rw [Rows.pending_write_of_ne _ _ _ same]
            simpa [List.mem_erase_of_ne same] using progress
      · refine sound.goto ⟨revoked, ?_⟩
        intro key member
        obtain ⟨old, found, owned, progress⟩ := reached key member
        refine ⟨old, found, owned, ?_⟩
        by_cases same : key = token
        · subst same
          rcases Rows.visible_cases db.rows tx key with own | ⟨same, _⟩
          · exact .inr (.inr ⟨_, own⟩)
          · have spared := passed old (by rw [same, found])
            simp only [Target.revokes, owned, Bool.true_and] at spared
            exact .inr (.inl (by simpa using spared))
        · simpa [List.mem_erase_of_ne same] using progress
  · simp at taken

theorem Sound.commitRoot {root : TokenId}
    (phase : db.phase tx = .issuing root) : Sound (db.commit tx) := by
  obtain ⟨token, _absent, holds, alive, alone⟩ : Held db.rows db.dead tx (.issuing root) := by
    rw [← phase]
    exact sound.held tx
  refine sound.commit (fun _ member => .inl member) ?_ ?_
  · intro key one other two committed committedOther same live liveOther
    have versionOne := Rows.HasVersion.of_commit (.inl committed)
    have versionTwo := Rows.HasVersion.of_commit (.inl committedOther)
    rcases Rows.committed_commit_cases committed with own | ⟨old, _⟩
    · obtain ⟨rfl, written⟩ := (holds key _).mp own
      cases written
      exact (alone other two versionTwo same.symm).symm
    · rcases Rows.committed_commit_cases committedOther with
        own | ⟨oldOther, _⟩
      · obtain ⟨rfl, written⟩ := (holds other _).mp own
        cases written
        exact alone key one versionOne same
      · exact sound.single key one other two old oldOther same live liveOther
  · intro key record committed buried
    rcases Rows.committed_commit_cases committed with own | ⟨old, _⟩
    · obtain ⟨_, written⟩ := (holds key _).mp own
      cases written
      exact absurd buried alive
    · exact sound.buried key record old buried

theorem Sound.commitRotation {parent child : TokenId}
    (phase : db.phase tx = .rotated parent child) : Sound (db.commit tx) := by
  obtain ⟨token, now, expiresAt, found, live, _absent, holds⟩ :
      Held db.rows db.dead tx (.rotated parent child) := by
    rw [← phase]
    exact sound.held tx
  -- Every live token after the commit is the child, or was live before and
  -- belongs to another family.
  have survivors : ∀ key record,
      (db.rows.commit tx).committed key = some record → record.live = true →
        (key = child ∧ record.familyId = token.familyId) ∨
          (db.rows.committed key = some record ∧ record.familyId ≠ token.familyId) := by
    intro key record committed alive
    rcases Rows.committed_commit_cases committed with own | ⟨old, other⟩
    · rcases (holds key _).mp own with ⟨_, written⟩ | ⟨rfl, written⟩
      · cases written
        simp [RefreshToken.spend, RefreshToken.live] at alive
      · cases written
        exact .inl ⟨rfl, rfl⟩
    · refine .inr ⟨old, fun same => ?_⟩
      have collision := sound.single key record parent token old found same alive live
      subst collision
      exact other _ ((holds key _).mpr (.inl ⟨rfl, rfl⟩))
  refine sound.commit (fun _ member => .inl member) ?_ ?_
  · intro key one other two committed committedOther same alive aliveOther
    rcases survivors key one committed alive with
      ⟨rfl, family⟩ | ⟨old, family⟩ <;>
      rcases survivors other two committedOther aliveOther with
        ⟨rfl, familyOther⟩ | ⟨oldOther, familyOther⟩
    · rfl
    · exact absurd (same.symm.trans family) familyOther
    · exact absurd (same.trans familyOther) family
    · exact sound.single key one other two old oldOther same alive aliveOther
  · intro key record committed buried
    by_contra alive
    have alive : record.live = true := by simpa using alive
    rcases survivors key record committed alive with
      ⟨_, family⟩ | ⟨old, _⟩
    · rw [family] at buried
      simp [sound.buried parent token found buried] at live
    · simp [sound.buried key record old buried] at alive

end

theorem mem_familiesOf {rows : Rows TxId TokenId RefreshToken}
    {target : Target} {family : FamilyId}
    (member : family ∈ RefreshDb.familiesOf rows target) :
    ∃ key token, rows.committed key = some token ∧
      target.owns token = true ∧ token.familyId = family := by
  obtain ⟨key, _listed, found⟩ := List.mem_filterMap.mp member
  obtain ⟨token, kept, rfl⟩ := Option.map_eq_some_iff.mp found
  obtain ⟨committed, owned⟩ := Option.filter_eq_some_iff.mp kept
  exact ⟨key, token, committed, owned, rfl⟩

theorem Sound.owns_of_family (sound : Sound db) {target : Target}
    {key other : TokenId} {token record : RefreshToken}
    (version : db.rows.HasVersion key token)
    (versionOther : db.rows.HasVersion other record)
    (same : token.familyId = record.familyId)
    (owned : target.owns token = true) : target.owns record = true := by
  have user := sound.sameUser key token other record version versionOther same
  cases target <;> simpa [Target.owns, user, same] using owned

theorem Sound.commitRevocation (sound : Sound db) {target : Target}
    {now : Int} {seen : List TokenId}
    (phase : db.phase tx = .revoking target now seen [])
    (complete : ∀ key token, db.rows.committed key = some token →
      target.owns token = true → token.live = true → key ∈ seen) :
    Sound { db.commit tx with
      dead := db.dead ++ RefreshDb.familiesOf (db.rows.commit tx) target } := by
  obtain ⟨revoked, reached⟩ : Held db.rows db.dead tx (.revoking target now seen []) := by
    rw [← phase]
    exact sound.held tx
  have survivors : ∀ key record,
      (db.rows.commit tx).committed key = some record → record.live = true →
        db.rows.committed key = some record ∧ target.owns record = false := by
    intro key record committed alive
    rcases Rows.committed_commit_cases committed with own | ⟨old, other⟩
    · obtain ⟨token, _, written⟩ := revoked key _ own
      cases written
      simp [RefreshToken.revoke, RefreshToken.live] at alive
    · refine ⟨old, ?_⟩
      by_contra owned
      obtain ⟨token, found, _, progress⟩ :=
        reached key (complete key record old (by simpa using owned) alive)
      rw [old] at found
      cases found
      rcases progress with waiting | gone | ⟨version, pending⟩
      · simp at waiting
      · have active : record.revokedAt.isNone = true := by
          simp only [RefreshToken.live, Bool.and_eq_true] at alive
          exact alive.2
        rw [Option.isNone_iff_eq_none] at active
        simp [active] at gone
      · exact other version pending
  refine sound.commit ?_ ?_ ?_
  · intro family member
    rcases List.mem_append.mp member with old | new
    · exact .inl old
    · obtain ⟨key, token, committed, _, family⟩ := mem_familiesOf new
      exact .inr ⟨key, token, committed, family⟩
  · intro key one other two committed committedOther same alive aliveOther
    exact sound.single key one other two (survivors _ _ committed alive).1
      (survivors _ _ committedOther aliveOther).1 same alive aliveOther
  · intro key record committed buried
    by_contra alive
    have alive : record.live = true := by simpa using alive
    obtain ⟨old, spared⟩ := survivors key record committed alive
    rcases List.mem_append.mp buried with before | new
    · simp [sound.buried key record old before] at alive
    · obtain ⟨witness, token, found, owned, family⟩ := mem_familiesOf new
      have ownsRecord := sound.owns_of_family
        (Rows.HasVersion.of_commit (.inl found)) (.inl old) family owned
      simp [spared] at ownsRecord

end Steps

/-- No live token of the target is missing from the snapshot of the revoking
`UPDATE` when the revocation commits. -/
def noneMissed (db : RefreshDb) : RefreshAction → Bool
  | .commit tx =>
    match db.phase tx with
    | .revoking target _ seen _ => db.rows.keys.all fun key =>
      (db.rows.committed key).all fun token =>
        !(target.owns token && token.live) || seen.contains key
    | _ => true
  | _ => true

theorem Sound.step {db next : RefreshDb} {action : RefreshAction}
    (sound : Sound db) (complete : noneMissed db action = true)
    (taken : db.step action = some next) : Sound next := by
  have quiet {tx : TxId} (idle : db.phase tx = .idle) : db.rows.Quiet tx := by
    simpa [Held, idle] using sound.held tx
  cases action with
  | login tx userId familyId root expiresAt amr => exact sound.login taken
  | refresh tx token now =>
    simp only [RefreshDb.step, Option.ite_none_right_eq_some] at taken
    obtain ⟨idle, taken⟩ := taken
    split at taken <;> cases taken <;> exact sound.goto (quiet idle)
  | lockSpend tx => exact sound.lockSpend taken
  | mint tx child expiresAt => exact sound.mint taken
  | lookup tx now =>
    simp only [RefreshDb.step] at taken
    split at taken
    · next token phase =>
        cases taken
        have undone (phase : RefreshPhase)
            (writesNothing : Held (db.rows.rollback tx) db.dead tx phase) :=
          sound.rollback writesNothing
        simp only [RefreshDb.lookup]
        split
        · exact undone _ (Rows.quiet_rollback db.rows tx)
        · split_ifs <;> exact undone _ (Rows.quiet_rollback db.rows tx)
    · simp at taken
  | logout tx token allSessions =>
    simp only [RefreshDb.step, Option.ite_none_right_eq_some] at taken
    obtain ⟨idle, taken⟩ := taken
    split at taken <;> cases taken
    · exact sound
    · exact sound.goto (quiet idle)
  | revokeUser tx userId =>
    simp only [RefreshDb.step, Option.ite_none_right_eq_some, Option.some.injEq] at taken
    obtain ⟨idle, rfl⟩ := taken
    exact sound.goto (quiet idle)
  | startRevoke tx now => exact sound.startRevoke taken
  | revokeRow tx token => exact sound.revokeRow taken
  | commit tx =>
    simp only [RefreshDb.step] at taken
    split at taken
    · next root phase =>
        cases taken
        exact sound.commitRoot phase
    · next parent child phase =>
        cases taken
        exact sound.commitRotation phase
    · next target now seen phase =>
        cases taken
        refine sound.commitRevocation phase ?_
        intro key token committed owned live
        have listed : key ∈ db.rows.keys := by
          by_contra absent
          simp [(db.rows.covered key absent).1] at committed
        simp only [noneMissed, phase, List.all_eq_true] at complete
        simpa [committed, owned, live] using complete key listed
    · simp at taken
  | rollback tx =>
    cases taken
    exact sound.rollback (Rows.quiet_rollback db.rows tx)

theorem sound_empty : Sound .empty := by
  have quiet : ∀ key version tx, RefreshDb.empty.rows.pending key ≠ some (tx, version) := by
    simp [RefreshDb.empty, Rows.empty, Rows.settled]
  constructor
  · rintro key token (committed | ⟨_, pending⟩)
    · simp [RefreshDb.empty, Rows.empty, Rows.settled] at committed
    · exact absurd pending (quiet _ _ _)
  · simp [RefreshDb.empty]
  · rintro key token other record (committed | ⟨_, pending⟩)
    · simp [RefreshDb.empty, Rows.empty, Rows.settled] at committed
    · exact absurd pending (quiet _ _ _)
  · intro key token other record committed
    simp [RefreshDb.empty, Rows.empty, Rows.settled] at committed
  · simp [RefreshDb.empty, Rows.empty, Rows.settled]
  · exact fun tx key version => quiet key version tx

/-- The guarantee of rotation and revocation.  A child keeps the family of its
parent, so the descendants of a token are tokens of its family. -/
structure RevocationComplete (db : RefreshDb) : Prop where
  oneLive : ∀ key token other record, db.rows.committed key = some token →
    db.rows.committed other = some record →
    token.familyId = record.familyId → token.live = true →
    record.live = true → key = other
  noneLeft : ∀ key token, db.rows.committed key = some token →
    token.familyId ∈ db.dead → token.live = false
  noneAccepted : ∀ tx key token,
    (db.phase tx = .spent key ∨ ∃ child, db.phase tx = .rotated key child) →
    db.rows.committed key = some token → token.familyId ∉ db.dead

/-- Revocation is complete in every run whose revocations each had all the
live tokens of their target in the snapshot of their `UPDATE`. -/
theorem revocation_complete (schedule : List RefreshAction) {final : RefreshDb}
    (complete : Meets RefreshDb.step
      (fun db action => noneMissed db action = true) .empty schedule)
    (run : exec RefreshDb.step .empty schedule = some final) :
    RevocationComplete final := by
  have sound : Sound final :=
    exec_invariant_of_meets (fun _ _ _ sound complete taken => Sound.step sound complete taken)
      complete sound_empty run
  refine ⟨sound.single, sound.buried, ?_⟩
  intro tx key token accepted committed buried
  have live : token.live = true := by
    have held := sound.held tx
    rcases accepted with phase | ⟨child, phase⟩
    · rw [phase] at held
      obtain ⟨spent, _, found, live, _⟩ := held
      rw [committed] at found
      cases found
      exact live
    · rw [phase] at held
      obtain ⟨spent, _, _, found, live, _⟩ := held
      rw [committed] at found
      cases found
      exact live
  simp [sound.buried key token committed buried] at live

def rotatedThenRevoked : List RefreshAction :=
  [.login 0 7 0 0 1000 none, .commit 0,
    .refresh 1 0 10, .lockSpend 1, .mint 1 1 2000, .commit 1,
    .revokeUser 2 7, .startRevoke 2 20, .revokeRow 2 0, .revokeRow 2 1,
    .commit 2]

theorem revocation_complete_rotated :
    ∃ final, exec RefreshDb.step .empty rotatedThenRevoked = some final ∧
      final.dead = [0, 0] ∧ RevocationComplete final :=
  ⟨_, rfl, by decide, revocation_complete rotatedThenRevoked (by decide)
    rfl⟩

/-- A logout takes its snapshot while a refresh of the same token is in
flight.  It waits for the parent, never sees the child, and the child is
exchanged after the revocation committed. -/
def childMissed : List RefreshAction :=
  [.login 0 7 0 0 1000 none, .commit 0, .refresh 1 0 10, .lockSpend 1,
    .logout 2 0 false, .startRevoke 2 20,
    .mint 1 1 2000, .commit 1,
    .revokeRow 2 0, .commit 2,
    .refresh 3 1 30, .lockSpend 3]

theorem child_missed_by_revocation :
    ∃ final, exec RefreshDb.step .empty childMissed = some final ∧
      ¬ RevocationComplete final := by
  refine ⟨_, rfl, fun complete => ?_⟩
  exact complete.noneAccepted 3 1 (.root 7 0 2000 none) (.inl (by decide))
    (by decide) (by decide)

end RefreshTokens

end TempestSdk
