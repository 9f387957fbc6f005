import TempestSdk.Library.Runs
import TempestSdk.Library.RowVersions
import TempestSdk.Db.Transaction

/-!
# One-shot link tokens

The token table behind the emailed links, the accounts their confirmation
writes, and the transactions of the `request_*` and confirm methods, statement
by statement under READ COMMITTED.

`_consume_token` spends a token in one conditional `UPDATE`, and the effect of
the link is flushed in the same transaction.  The one transaction that commits
a spent token without an effect is `_refuse_email_link`, which does so on
purpose.
-/

namespace TempestSdk

namespace LinkTokens

open Runs ReadCommitted

/-- The token of a link, which `hash_opaque_token` maps to its row. -/
abbrev TokenId := Nat

/-- `UserTokenPurposeEnum`. -/
inductive UserTokenPurpose where
  | activation
  | passwordReset
  | emailVerification
  | emailChange
  deriving DecidableEq

/-- The confirm methods that ask `email_link_refused`. -/
def UserTokenPurpose.asksRefusal : UserTokenPurpose → Bool
  | .activation | .passwordReset => true
  | .emailVerification | .emailChange => false

/-- A token row.  `consumedBy` records the transactions whose `_consume_token`
this version went through; the code has no such column. -/
structure LinkToken where
  userId : UserId
  purpose : UserTokenPurpose
  expiresAt : Int
  payload : Option String
  usedAt : Option Int
  consumedBy : List TxId
  deriving DecidableEq

namespace LinkToken

/-- The row `_store_token` inserts. -/
def draft (userId : UserId) (purpose : UserTokenPurpose) (expiresAt : Int)
    (payload : Option String) : LinkToken :=
  { userId, purpose, expiresAt, payload, usedAt := none, consumedBy := [] }

/-- The `WHERE` of `_burn_pending_tokens`. -/
def pendingFor (userId : UserId) (purpose : UserTokenPurpose) (token : LinkToken) : Bool :=
  decide (token.userId = userId) && decide (token.purpose = purpose) && token.usedAt.isNone

def burn (now : Int) (token : LinkToken) : LinkToken :=
  { token with usedAt := some now }

/-- The `WHERE` of `_consume_token`. -/
def consumable (purpose : UserTokenPurpose) (now : Int) (token : LinkToken) : Bool :=
  decide (token.purpose = purpose) && token.usedAt.isNone && decide (now < token.expiresAt)

def consume (tx : TxId) (now : Int) (token : LinkToken) : LinkToken :=
  { token with
    usedAt := some now, consumedBy := token.consumedBy ++ [tx] }

end LinkToken

/-- The columns of an account the links write.  `applied` records the links
whose effect this version went through; the code has no such column. -/
structure Account where
  isActive : Bool
  hashedPassword : String
  email : String
  emailVerifiedAt : Option Int
  applied : List TokenId
  deriving DecidableEq

/-- The columns one confirmation sets; `none` leaves a column alone. -/
structure Change where
  isActive : Option Bool := none
  hashedPassword : Option String := none
  email : Option String := none
  emailVerifiedAt : Option (Option Int) := none
  deriving DecidableEq

def Change.against (change : Change) (loaded : Account) : Change :=
  { isActive := change.isActive.filter fun value =>
      decide (value ≠ loaded.isActive)
    hashedPassword := change.hashedPassword.filter fun value =>
      decide (value ≠ loaded.hashedPassword)
    email := change.email.filter fun value => decide (value ≠ loaded.email)
    emailVerifiedAt := change.emailVerifiedAt.filter fun value =>
      decide (value ≠ loaded.emailVerifiedAt) }

def Account.apply (change : Change) (link : TokenId) (account : Account) : Account :=
  { isActive := change.isActive.getD account.isActive
    hashedPassword := change.hashedPassword.getD account.hashedPassword
    email := change.email.getD account.email
    emailVerifiedAt := change.emailVerifiedAt.getD account.emailVerifiedAt
    applied := account.applied ++ [link] }

inductive LinkError where
  | invalidToken (message : String)
  | validation (message : String)
  | emailTaken (message : String) (email : String)
  | emailLinkForbidden (messageKey : String)
  deriving DecidableEq

structure LinkSettings where
  /-- `AUTH_SINGLE_ACTIVE_TOKEN`. -/
  singleActiveToken : Bool
  /-- `AUTH_ACTIVATION_TTL_SECONDS` and the like, in ticks of the clock. -/
  ttl : UserTokenPurpose → Int
  /-- `_links_prove_mailbox`. -/
  linksProveMailbox : Bool
  /-- `refuses_email_link`, constantly false when it is not set. -/
  refusesEmailLink : Account → Bool
  /-- `str.strip().lower()`. -/
  normalize : String → String

/-! ## Requests -/

/-- The `request_*` methods.  Those of a logged-in user work on the instance
they are given, which may be of any age. -/
inductive LinkRequest where
  | activation
  | passwordReset
  | emailVerification (user : Account)
  | emailChange (user : Account) (newEmail : String)
  deriving DecidableEq

def LinkRequest.purpose : LinkRequest → UserTokenPurpose
  | .activation => .activation
  | .passwordReset => .passwordReset
  | .emailVerification _ => .emailVerification
  | .emailChange _ _ => .emailChange

/-- How a request method goes on: it answers `None`, raises, or mints a token
with this payload. -/
inductive Answer where
  | nothing
  | raises (error : LinkError)
  | mints (payload : Option String)
  deriving DecidableEq

section Service

variable (settings : LinkSettings)

def mailedAddress (user : Account) : Option String :=
  if settings.linksProveMailbox then some user.email else none

/-- `request_activation`, `request_password_reset`,
`request_email_verification` and `request_email_change`, up to the minting of
the token.  `account` is the row the first two find by its address. -/
def answer (account : Option Account) (emailTaken : String → Bool) : LinkRequest → Answer
  | .activation =>
    match account with
    | none => .nothing
    | some user =>
      if user.isActive || settings.refusesEmailLink user then .nothing
      else .mints (mailedAddress settings user)
  | .passwordReset =>
    match account with
    | none => .nothing
    | some user => if settings.refusesEmailLink user then .nothing else .mints none
  | .emailVerification user => .mints (mailedAddress settings user)
  | .emailChange user newEmail =>
    let normalized := settings.normalize newEmail
    if normalized = user.email then
      .raises (.validation "new email is the same as the current one")
    else if emailTaken normalized then
      .raises (.emailTaken "email already in use" normalized)
    else .mints (some normalized)

/-! ## Confirmations -/

/-- `_lookup_token`, on the row the hash of the token finds. -/
def lookupToken (row : Option LinkToken) (purpose : UserTokenPurpose)
    (now : Int) : Except LinkError LinkToken :=
  match row.filter fun token => decide (token.purpose = purpose) with
  | none => .error (.invalidToken "token not recognized")
  | some token =>
    if token.usedAt.isSome then
      .error (.invalidToken "token already used")
    else if token.expiresAt < now then
      .error (.invalidToken "token expired")
    else .ok token

/-- What `_consume_token` raises when its `UPDATE` found no row. -/
def consumeError (row : Option LinkToken) (purpose : UserTokenPurpose)
    (now : Int) : LinkError :=
  match lookupToken row purpose now with
  | .error error => error
  | .ok _ => .invalidToken "token is no longer valid"

/-- What a confirm method does once it consumed the token. -/
inductive Verdict where
  | raises (error : LinkError)
  | refuses
  | changes (change : Change)
  deriving DecidableEq

def recordEmailProof (token : LinkToken) (account : Account) (now : Int) :
    Option (Option Int) :=
  if token.payload = some account.email ∧ settings.linksProveMailbox then
    some (some now)
  else none

def missingUser : LinkError :=
  .invalidToken "token references a missing user"

/-- `activate`, `confirm_password_reset`, `confirm_email_verification` and
`confirm_email_change`, after `_consume_token`. -/
def verdict (token : LinkToken) (account : Option Account)
    (emailTaken : String → Bool) (now : Int) (newHash : String) : Verdict :=
  match token.purpose, account with
  | .activation, none => .raises missingUser
  | .activation, some account =>
    if settings.refusesEmailLink account then .refuses
    else .changes
      { isActive := some true
        emailVerifiedAt := recordEmailProof settings token account now }
  | .passwordReset, none => .raises missingUser
  | .passwordReset, some account =>
    if settings.refusesEmailLink account then .refuses
    else .changes { hashedPassword := some newHash }
  | .emailVerification, none => .raises missingUser
  | .emailVerification, some account =>
    .changes
      { isActive := some true
        emailVerifiedAt := recordEmailProof settings token account now }
  | .emailChange, account =>
    let newEmail := settings.normalize (token.payload.getD "")
    if newEmail = "" then
      .raises (.invalidToken "email-change token has no target address")
    else if account.isNone then .raises missingUser
    else if emailTaken newEmail then
      .raises (.emailTaken "email already in use" newEmail)
    else .changes
      { email := some newEmail
        emailVerifiedAt :=
          some (if settings.linksProveMailbox then some now else none) }

end Service

/-! ## Transactions -/

inductive LinkPhase where
  | idle
  /-- A token is minted in memory, and its mail may be on the way. -/
  | minted (draft : LinkToken)
  /-- `_store_token`: the burning `UPDATE`, with the pending tokens of its
  snapshot and those it has not reached. -/
  | storing (draft : LinkToken) (now : Int) (seen todo : List TokenId)
  | stored (draft : LinkToken) (seen : List TokenId) (token : TokenId)
  /-- The consuming `UPDATE` found its row and may wait for its lock. -/
  | consuming (token : TokenId) (purpose : UserTokenPurpose) (now : Int)
  /-- It found none, and `_lookup_token` names the reason. -/
  | missed (token : TokenId) (purpose : UserTokenPurpose)
  | consumed (token : TokenId)
  /-- `_refuse_email_link` is about to commit. -/
  | refusing (token : TokenId)
  | applying (token : TokenId) (userId : UserId) (change : Change)
  | applied (token : TokenId) (userId : UserId)
  deriving DecidableEq

/-- Both tables, where each transaction stands, what it raised last, and the
tokens committed by `_refuse_email_link`. -/
structure LinkDb where
  tokens : Rows TxId TokenId LinkToken
  accounts : Rows TxId UserId Account
  phase : TxId → LinkPhase
  raised : TxId → Option LinkError
  refused : List TokenId

inductive LinkAction where
  | request (tx : TxId) (userId : UserId) (request : LinkRequest) (now : Int)
  | burn (tx : TxId) (now : Int)
  | burnRow (tx : TxId) (token : TokenId)
  | store (tx : TxId) (token : TokenId)
  | confirm (tx : TxId) (token : TokenId) (purpose : UserTokenPurpose)
      (now : Int)
  | lockConsume (tx : TxId)
  | lookup (tx : TxId) (now : Int)
  | decide (tx : TxId) (now : Int) (newHash : String)
  | flush (tx : TxId)
  | commit (tx : TxId)
  /-- An exception of the environment, a mail that did not go out included,
  or the end of a request that wrote nothing. -/
  | rollback (tx : TxId)
  deriving DecidableEq

namespace LinkDb

def start (accounts : List Account) : LinkDb :=
  { tokens := .empty
    accounts := .settled (List.range accounts.length)
      (fun userId => accounts[userId]?.map fun account =>
        { account with applied := [] })
      (by simp)
    phase := fun _ => .idle
    raised := fun _ => none
    refused := [] }

def goto (db : LinkDb) (tx : TxId) (phase : LinkPhase) : LinkDb :=
  { db with phase := Function.update db.phase tx phase }

def rollback (db : LinkDb) (tx : TxId) : LinkDb :=
  { db with
    tokens := db.tokens.rollback tx
    accounts := db.accounts.rollback tx
    phase := Function.update db.phase tx .idle }

def commit (db : LinkDb) (tx : TxId) : LinkDb :=
  { db with
    tokens := db.tokens.commit tx
    accounts := db.accounts.commit tx
    phase := Function.update db.phase tx .idle }

def raise (db : LinkDb) (tx : TxId) (error : LinkError) : LinkDb :=
  { db with raised := Function.update db.raised tx (some error) }

def abort (db : LinkDb) (tx : TxId) (error : LinkError) : LinkDb :=
  (db.rollback tx).raise tx error

/-- `_email_taken`: another account has the address. -/
def emailTaken (db : LinkDb) (tx : TxId) (userId : UserId) (email : String) : Bool :=
  db.accounts.keys.any fun other =>
    decide (other ≠ userId) && (db.accounts.visible tx other).any fun account =>
        decide (account.email = email)

variable (settings : LinkSettings)

@[grind =] def step (db : LinkDb) : LinkAction → Option LinkDb
  | .request tx userId request now =>
    if db.phase tx = .idle then
      match answer settings (db.accounts.visible tx userId)
          (db.emailTaken tx userId) request with
      | .nothing => some (db.rollback tx)
      | .raises error => some (db.abort tx error)
      | .mints payload =>
        some (db.goto tx (.minted (.draft userId request.purpose
          (now + settings.ttl request.purpose) payload)))
    else none
  | .burn tx now =>
    match db.phase tx with
    | .minted draft =>
      let pending :=
        if settings.singleActiveToken then
          db.tokens.matching tx (LinkToken.pendingFor draft.userId draft.purpose)
        else []
      some (db.goto tx (.storing draft now pending pending))
    | _ => none
  | .burnRow tx token =>
    match db.phase tx with
    | .storing draft now seen todo =>
      if token ∈ todo then
        (db.tokens.update tx token (LinkToken.pendingFor draft.userId draft.purpose)
            (LinkToken.burn now)).map fun (_, tokens) =>
          { db with tokens }.goto tx
            (.storing draft now seen (todo.erase token))
      else none
    | _ => none
  | .store tx token =>
    match db.phase tx with
    | .storing draft _ seen [] =>
      if token ∉ db.tokens.keys then
        some ({ db with
          tokens := db.tokens.write tx token (some draft) }.goto tx (.stored draft seen token))
      else none
    | _ => none
  | .confirm tx token purpose now =>
    if db.phase tx = .idle then
      if (db.tokens.visible tx token).any (LinkToken.consumable purpose now) then
        some (db.goto tx (.consuming token purpose now))
      else some (db.goto tx (.missed token purpose))
    else none
  | .lockConsume tx =>
    match db.phase tx with
    | .consuming token purpose now =>
      (db.tokens.update tx token (LinkToken.consumable purpose now)
          (LinkToken.consume tx now)).map fun (matched, tokens) =>
        if matched then { db with tokens }.goto tx (.consumed token)
        else db.goto tx (.missed token purpose)
    | _ => none
  | .lookup tx now =>
    match db.phase tx with
    | .missed token purpose =>
      some (db.abort tx (consumeError (db.tokens.visible tx token) purpose now))
    | _ => none
  | .decide tx now newHash =>
    match db.phase tx with
    | .consumed token =>
      match db.tokens.visible tx token with
      | some record =>
        let account := db.accounts.visible tx record.userId
        match verdict settings record account
            (db.emailTaken tx record.userId) now newHash with
        | .raises error => some (db.abort tx error)
        | .refuses => some (db.goto tx (.refusing token))
        | .changes change =>
          some (db.goto tx (.applying token record.userId (account.elim change change.against)))
      | none => none
    | _ => none
  | .flush tx =>
    match db.phase tx with
    | .applying token userId change =>
      -- With no column left to send, this is a write that keeps them all.
      (db.accounts.update tx userId (fun _ => true)
          (Account.apply change token)).map fun (matched, accounts) =>
        if matched then
          { db with accounts }.goto tx (.applied token userId)
        else db.rollback tx
    | _ => none
  | .commit tx =>
    match db.phase tx with
    | .stored _ _ _ | .applied _ _ => some (db.commit tx)
    | .refusing token =>
      some ({ db.commit tx with
        refused := db.refused ++ [token] }.raise tx
          (.emailLinkForbidden "EMAIL_LINK_FORBIDDEN"))
    | _ => none
  | .rollback tx => some (db.rollback tx)

end LinkDb

/-! ## What each transaction holds -/

def Spent (tokens : Rows TxId TokenId LinkToken) (tx : TxId) (key : TokenId)
    (token : LinkToken) : Prop :=
  ∃ now, tokens.committed key = some token ∧ token.usedAt = none ∧
    tokens.Holds tx fun other version =>
      other = key ∧ version = some (token.consume tx now)

def Burnt (tokens : Rows TxId TokenId LinkToken) (key : TokenId)
    (version : Option LinkToken) : Prop :=
  ∃ token now, tokens.committed key = some token ∧ version = some (token.burn now)

def LinkToken.Follows (token later : LinkToken) : Prop :=
  later.userId = token.userId ∧ later.purpose = token.purpose ∧
    (token.usedAt.isSome = true → later.usedAt.isSome = true)

def Reached (tokens : Rows TxId TokenId LinkToken) (tx : TxId)
    (draft : LinkToken) (seen todo : List TokenId) : Prop :=
  ∀ key ∈ seen, ∃ token, tokens.committed key = some token ∧
    token.userId = draft.userId ∧ token.purpose = draft.purpose ∧
    (key ∈ todo ∨ token.usedAt.isSome = true ∨
      ∃ version, tokens.pending key = some (tx, version))

def Held (tokens : Rows TxId TokenId LinkToken)
    (accounts : Rows TxId UserId Account) (tx : TxId) : LinkPhase → Prop
  | .minted draft => tokens.Quiet tx ∧ accounts.Quiet tx ∧
      draft.usedAt = none ∧ draft.consumedBy = []
  | .storing draft _ seen todo => accounts.Quiet tx ∧
      draft.usedAt = none ∧ draft.consumedBy = [] ∧
      (∀ key version, tokens.pending key = some (tx, version) → Burnt tokens key version) ∧
      Reached tokens tx draft seen todo
  | .stored draft seen new => accounts.Quiet tx ∧
      draft.usedAt = none ∧ draft.consumedBy = [] ∧
      tokens.committed new = none ∧
      tokens.pending new = some (tx, some draft) ∧
      (∀ key version, tokens.pending key = some (tx, version) →
        (key = new ∧ version = some draft) ∨ Burnt tokens key version) ∧
      Reached tokens tx draft seen []
  | .consumed key => accounts.Quiet tx ∧ ∃ token, Spent tokens tx key token
  | .refusing key => accounts.Quiet tx ∧
      ∃ token, Spent tokens tx key token ∧ token.purpose.asksRefusal = true
  | .applying key userId _ => accounts.Quiet tx ∧
      ∃ token, Spent tokens tx key token ∧ token.userId = userId
  | .applied key userId =>
    (∃ token, Spent tokens tx key token ∧ token.userId = userId) ∧
    ∃ account change, accounts.committed userId = some account ∧
      accounts.Holds tx fun other version =>
        other = userId ∧ version = some (account.apply change key)
  | _ => tokens.Quiet tx ∧ accounts.Quiet tx

theorem Held.follows {tokens : Rows TxId TokenId LinkToken}
    {accounts : Rows TxId UserId Account} {tx : TxId} {phase : LinkPhase}
    (held : Held tokens accounts tx phase) {key : TokenId}
    {version : Option LinkToken} {token : LinkToken}
    (pending : tokens.pending key = some (tx, version))
    (committed : tokens.committed key = some token) :
    ∃ later, version = some later ∧ token.Follows later := by
  have burnt (burnt : Burnt tokens key version) :
      ∃ later, version = some later ∧ token.Follows later := by
    obtain ⟨old, now, found, rfl⟩ := burnt
    rw [found] at committed
    cases committed
    exact ⟨_, rfl, rfl, rfl, fun _ => rfl⟩
  have spent {spentKey : TokenId} {old : LinkToken} (spent : Spent tokens tx spentKey old) :
      ∃ later, version = some later ∧ token.Follows later := by
    obtain ⟨now, found, _, holds⟩ := spent
    obtain ⟨rfl, rfl⟩ := (holds key version).mp pending
    rw [found] at committed
    cases committed
    exact ⟨_, rfl, rfl, rfl, fun _ => rfl⟩
  cases phase with
  | storing draft now seen todo => exact burnt (held.2.2.2.1 key version pending)
  | stored draft seen new =>
    obtain ⟨_, _, _, absent, _, written, _⟩ := held
    rcases written key version pending with ⟨rfl, _⟩ | old
    · simp [absent] at committed
    · exact burnt old
  | consumed key =>
    obtain ⟨_, old, own⟩ := held
    exact spent own
  | refusing key =>
    obtain ⟨_, old, own, _⟩ := held
    exact spent own
  | applying key userId change =>
    obtain ⟨_, old, own, _⟩ := held
    exact spent own
  | applied key userId =>
    obtain ⟨⟨old, own, _⟩, _⟩ := held
    exact spent own
  | idle => exact absurd pending (held.1 key version)
  | minted draft => exact absurd pending (held.1 key version)
  | consuming token purpose now => exact absurd pending (held.1 key version)
  | missed token purpose => exact absurd pending (held.1 key version)

/-- What another transaction may do around one that stands still. -/
structure Frame (tokens after : Rows TxId TokenId LinkToken)
    (accounts accountsAfter : Rows TxId UserId Account) (other : TxId) :
    Prop where
  ofTokens : Rows.Undisturbed tokens after other
  ofAccounts : Rows.Undisturbed accounts accountsAfter other
  follows : ∀ key token, tokens.committed key = some token →
    ∃ later, after.committed key = some later ∧ token.Follows later

theorem Held.frame {tokens after : Rows TxId TokenId LinkToken}
    {accounts accountsAfter : Rows TxId UserId Account} {other : TxId}
    {phase : LinkPhase} (held : Held tokens accounts other phase)
    (frame : Frame tokens after accounts accountsAfter other) :
    Held after accountsAfter other phase := by
  have spent {key : TokenId} {token : LinkToken}
      (spent : Spent tokens other key token) : Spent after other key token := by
    obtain ⟨now, committed, unused, holds⟩ := spent
    refine ⟨now, ?_, unused, frame.ofTokens.holds holds⟩
    rw [frame.ofTokens.fixed key _ ((holds key _).mpr ⟨rfl, rfl⟩), committed]
  have burnt {key : TokenId} {version : Option LinkToken}
      (pending : tokens.pending key = some (other, version))
      (burnt : Burnt tokens key version) : Burnt after key version := by
    obtain ⟨token, now, committed, rfl⟩ := burnt
    exact ⟨token, now, by rw [frame.ofTokens.fixed key _ pending, committed],
      rfl⟩
  have reached {draft : LinkToken} {seen todo : List TokenId}
      (reached : Reached tokens other draft seen todo) :
      Reached after other draft seen todo := by
    intro key member
    obtain ⟨token, committed, user, purpose, progress⟩ := reached key member
    obtain ⟨later, committedAfter, sameUser, samePurpose, spends⟩ :=
      frame.follows key token committed
    refine ⟨later, committedAfter, by rw [sameUser, user],
      by rw [samePurpose, purpose], ?_⟩
    rcases progress with waiting | gone | ⟨version, pending⟩
    · exact .inl waiting
    · exact .inr (.inl (spends gone))
    · exact .inr (.inr ⟨version, (frame.ofTokens.locks key version).mpr pending⟩)
  cases phase with
  | minted draft =>
    obtain ⟨quietTokens, quiet, unused, unconsumed⟩ := held
    exact ⟨frame.ofTokens.quiet quietTokens, frame.ofAccounts.quiet quiet, unused, unconsumed⟩
  | storing draft now seen todo =>
    obtain ⟨quiet, unused, unconsumed, written, progress⟩ := held
    refine ⟨frame.ofAccounts.quiet quiet, unused, unconsumed, ?_, reached progress⟩
    intro key version pending
    have old := (frame.ofTokens.locks key version).mp pending
    exact burnt old (written key version old)
  | stored draft seen new =>
    obtain ⟨quiet, unused, unconsumed, absent, own, written, progress⟩ :=
      held
    refine ⟨frame.ofAccounts.quiet quiet, unused, unconsumed, ?_,
      (frame.ofTokens.locks new _).mpr own, ?_, reached progress⟩
    · rw [frame.ofTokens.fixed new _ own, absent]
    · intro key version pending
      have old := (frame.ofTokens.locks key version).mp pending
      exact (written key version old).imp id (burnt old)
  | consumed key =>
    obtain ⟨quiet, token, own⟩ := held
    exact ⟨frame.ofAccounts.quiet quiet, token, spent own⟩
  | refusing key =>
    obtain ⟨quiet, token, own, asks⟩ := held
    exact ⟨frame.ofAccounts.quiet quiet, token, spent own, asks⟩
  | applying key userId change =>
    obtain ⟨quiet, token, own, owner⟩ := held
    exact ⟨frame.ofAccounts.quiet quiet, token, spent own, owner⟩
  | applied key userId =>
    obtain ⟨⟨token, own, owner⟩, account, change, found, holds⟩ := held
    refine ⟨⟨token, spent own, owner⟩, account, change, ?_, frame.ofAccounts.holds holds⟩
    rw [frame.ofAccounts.fixed userId _ ((holds userId _).mpr ⟨rfl, rfl⟩), found]
  | idle => exact ⟨frame.ofTokens.quiet held.1, frame.ofAccounts.quiet held.2⟩
  | consuming token purpose now =>
    exact ⟨frame.ofTokens.quiet held.1, frame.ofAccounts.quiet held.2⟩
  | missed token purpose => exact ⟨frame.ofTokens.quiet held.1, frame.ofAccounts.quiet held.2⟩

/-! ## What holds of the tables at every moment -/

/-- The guarantee about the committed rows.  That one pending link at most is
left of an account and purpose is promised only when `strict` holds. -/
structure OneShot (strict : Prop) (db : LinkDb) : Prop where
  once : ∀ key token, db.tokens.committed key = some token → token.consumedBy.length ≤ 1
  consumed : ∀ key token, db.tokens.committed key = some token →
    token.consumedBy ≠ [] → key ∈ db.refused ∨
      ∃ account, db.accounts.committed token.userId = some account ∧ key ∈ account.applied
  /-- An effect comes from a consumed token that was not refused. -/
  applied : ∀ userId account key,
    db.accounts.committed userId = some account → key ∈ account.applied →
      key ∉ db.refused ∧ ∃ token, db.tokens.committed key = some token ∧
        token.userId = userId ∧ token.consumedBy ≠ []
  distinct : ∀ userId account, db.accounts.committed userId = some account →
    account.applied.Nodup
  refused : ∀ key ∈ db.refused, ∃ token,
    db.tokens.committed key = some token ∧ token.consumedBy ≠ [] ∧
      token.purpose.asksRefusal = true
  single : strict → ∀ key token other record, db.tokens.committed key = some token →
    db.tokens.committed other = some record →
    token.userId = record.userId → token.purpose = record.purpose →
    token.usedAt = none → record.usedAt = none → key = other

structure Sound (strict : Prop) (db : LinkDb) : Prop extends
    OneShot strict db where
  unconsumed : ∀ key token, db.tokens.committed key = some token →
    token.usedAt = none → token.consumedBy = []
  held : ∀ tx, Held db.tokens db.accounts tx (db.phase tx)

section Steps

variable {settings : LinkSettings} {strict : Prop} {db : LinkDb} {tx : TxId}
variable {next : LinkDb}

section

variable (sound : Sound strict db)

include sound

theorem Sound.advance {phase : LinkPhase}
    (tokens : next.tokens.committed = db.tokens.committed)
    (accounts : next.accounts.committed = db.accounts.committed)
    (refused : next.refused = db.refused)
    (phases : next.phase = Function.update db.phase tx phase)
    (frame : ∀ other, other ≠ tx → Frame db.tokens next.tokens db.accounts next.accounts other)
    (held : Held next.tokens next.accounts tx phase) :
    Sound strict next where
  once := by
    rw [tokens]
    exact sound.once
  consumed := by
    rw [tokens, accounts, refused]
    exact sound.consumed
  applied := by
    rw [tokens, accounts, refused]
    exact sound.applied
  distinct := by
    rw [accounts]
    exact sound.distinct
  refused := by
    rw [tokens, refused]
    exact sound.refused
  single := by
    rw [tokens]
    exact sound.single
  unconsumed := by
    rw [tokens]
    exact sound.unconsumed
  held := by
    intro other
    rw [phases]
    by_cases same : other = tx
    · subst same
      simpa using held
    · simpa [same] using (sound.held other).frame (frame other same)

theorem Sound.goto {phase : LinkPhase}
    (held : Held db.tokens db.accounts tx phase) :
    Sound strict (db.goto tx phase) :=
  sound.advance rfl rfl rfl rfl (fun _ _ => ⟨.refl _ _, .refl _ _,
      fun _ token committed => ⟨token, committed, rfl, rfl, id⟩⟩) held

theorem Sound.rollback : Sound strict (db.rollback tx) :=
  sound.advance rfl rfl rfl rfl (fun _ different => ⟨Rows.undisturbed_rollback _ different,
      Rows.undisturbed_rollback _ different,
      fun _ token committed => ⟨token, committed, rfl, rfl, id⟩⟩)
    ⟨Rows.quiet_rollback _ _, Rows.quiet_rollback _ _⟩

theorem Sound.raise (error : LinkError) :
    Sound strict (db.raise tx error) where
  once := sound.once
  consumed := sound.consumed
  applied := sound.applied
  distinct := sound.distinct
  refused := sound.refused
  single := sound.single
  unconsumed := sound.unconsumed
  held := sound.held

theorem Sound.abort (error : LinkError) :
    Sound strict (db.abort tx error) :=
  sound.rollback.raise error

end

variable {key : TokenId}

section

variable (sound : Sound strict db)

include sound

theorem Sound.writeToken
    {version : Option LinkToken} {phase : LinkPhase}
    (unlocked : db.tokens.free tx key = true)
    (held : Held (db.tokens.write tx key version) db.accounts tx phase) :
    Sound strict ({ db with tokens := db.tokens.write tx key version }.goto tx phase) :=
  sound.advance rfl rfl rfl rfl
    (fun _ different => ⟨Rows.undisturbed_write unlocked different _,
      .refl _ _, fun _ token committed => ⟨token, committed, rfl, rfl, id⟩⟩) held

theorem Sound.quiet
    (idle : db.phase tx = .idle) : db.tokens.Quiet tx ∧ db.accounts.Quiet tx := by
  have held := sound.held tx
  rw [idle] at held
  exact held

theorem Sound.request {userId : UserId}
    {request : LinkRequest} {now : Int}
    (taken : db.step settings (.request tx userId request now) = some next) :
    Sound strict next := by
  simp only [LinkDb.step, Option.ite_none_right_eq_some] at taken
  obtain ⟨idle, taken⟩ := taken
  obtain ⟨quietTokens, quietAccounts⟩ := sound.quiet idle
  split at taken <;> cases taken
  · exact sound.rollback
  · exact sound.abort _
  · exact sound.goto ⟨quietTokens, quietAccounts, rfl, rfl⟩

theorem Sound.burn {now : Int}
    (taken : db.step settings (.burn tx now) = some next) :
    Sound strict next := by
  simp only [LinkDb.step] at taken
  split at taken
  · next draft phase =>
      simp only [Option.some.injEq] at taken
      subst taken
      obtain ⟨quietTokens, quietAccounts, unused, unconsumed⟩ :
          Held db.tokens db.accounts tx (.minted draft) := by
        rw [← phase]
        exact sound.held tx
      refine sound.goto ⟨quietAccounts, unused, unconsumed,
        fun key version pending => absurd pending (quietTokens key version),
        ?_⟩
      intro key member
      split at member
      · next active =>
          obtain ⟨token, found, pending⟩ := Rows.matching_iff.mp member
          rw [quietTokens.visible] at found
          simp only [LinkToken.pendingFor, Bool.and_eq_true, decide_eq_true_eq] at pending
          exact ⟨token, found, pending.1.1, pending.1.2,
            .inl (by rw [if_pos active]; exact member)⟩
      · simp at member
  · simp at taken

theorem Sound.burnRow {token : TokenId}
    (taken : db.step settings (.burnRow tx token) = some next) :
    Sound strict next := by
  simp only [LinkDb.step] at taken
  split at taken
  · next draft now seen todo phase =>
      simp only [Option.ite_none_right_eq_some] at taken
      obtain ⟨_picked, taken⟩ := taken
      obtain ⟨⟨matched, tokens⟩, ran, rfl⟩ := Option.map_eq_some_iff.mp taken
      obtain ⟨quiet, unused, unconsumed, written, progress⟩ :
          Held db.tokens db.accounts tx (.storing draft now seen todo) := by
        rw [← phase]
        exact sound.held tx
      -- A row this statement already burnt no longer matches its guard.
      have unwritten : ∀ record, db.tokens.visible tx token = some record →
          record.pendingFor draft.userId draft.purpose = true →
            db.tokens.committed token = some record := by
        intro record found picked
        rcases Rows.visible_cases db.tokens tx token with own | ⟨same, _⟩
        · obtain ⟨old, at_, _, burnt⟩ := written token _ own
          rw [found] at burnt
          cases burnt
          simp [LinkToken.pendingFor, LinkToken.burn] at picked
        · rw [← same, found]
      obtain ⟨free, ⟨rfl, record, found, picked, rfl⟩ | ⟨rfl, rfl, passed⟩⟩ :=
        Rows.update_cases ran
      · have committed := unwritten record found picked
        refine sound.writeToken free ⟨quiet, unused, unconsumed, ?_, ?_⟩
        · intro key version pending
          by_cases same : key = token
          · subst same
            rw [Rows.pending_write_self] at pending
            cases pending
            exact ⟨record, now, committed, rfl⟩
          · rw [Rows.pending_write_of_ne _ _ _ same] at pending
            exact written key version pending
        · intro key member
          obtain ⟨old, found, user, purpose, reached⟩ := progress key member
          refine ⟨old, found, user, purpose, ?_⟩
          by_cases same : key = token
          · subst same
            exact .inr (.inr ⟨_, Rows.pending_write_self _ _ _ _⟩)
          · rw [Rows.pending_write_of_ne _ _ _ same]
            simpa [List.mem_erase_of_ne same] using reached
      · refine sound.goto ⟨quiet, unused, unconsumed, written, ?_⟩
        intro key member
        obtain ⟨old, found, user, purpose, reached⟩ := progress key member
        refine ⟨old, found, user, purpose, ?_⟩
        by_cases same : key = token
        · subst same
          rcases Rows.visible_cases db.tokens tx key with own | ⟨same, _⟩
          · exact .inr (.inr ⟨_, own⟩)
          · have spared := passed old (by rw [same, found])
            simp only [LinkToken.pendingFor, user, purpose, decide_true,
              Bool.true_and] at spared
            exact .inr (.inl (by simpa using spared))
        · simpa [List.mem_erase_of_ne same] using reached
  · simp at taken

theorem Sound.store {token : TokenId}
    (taken : db.step settings (.store tx token) = some next) :
    Sound strict next := by
  simp only [LinkDb.step] at taken
  split at taken
  · next draft now seen phase =>
      simp only [Option.ite_none_right_eq_some, Option.some.injEq] at taken
      obtain ⟨fresh, rfl⟩ := taken
      obtain ⟨quiet, unused, unconsumed, written, progress⟩ :
          Held db.tokens db.accounts tx (.storing draft now seen []) := by
        rw [← phase]
        exact sound.held tx
      refine sound.writeToken (Rows.free_of_fresh fresh)
        ⟨quiet, unused, unconsumed, (db.tokens.covered token fresh).1,
          Rows.pending_write_self _ _ _ _, ?_, ?_⟩
      · intro key version pending
        by_cases same : key = token
        · subst same
          rw [Rows.pending_write_self] at pending
          cases pending
          exact .inl ⟨rfl, rfl⟩
        · rw [Rows.pending_write_of_ne _ _ _ same] at pending
          exact .inr (written key version pending)
      · intro key member
        obtain ⟨old, found, user, purpose, reached⟩ := progress key member
        have different : key ≠ token := by
          rintro rfl
          simp [(db.tokens.covered key fresh).1] at found
        exact ⟨old, found, user, purpose, by
          rw [Rows.pending_write_of_ne _ _ _ different]
          exact reached⟩
  · simp at taken

theorem Sound.lockConsume
    (taken : db.step settings (.lockConsume tx) = some next) :
    Sound strict next := by
  simp only [LinkDb.step] at taken
  split at taken
  · next token purpose now phase =>
      obtain ⟨⟨matched, tokens⟩, ran, rfl⟩ := Option.map_eq_some_iff.mp taken
      obtain ⟨quiet, quietAccounts⟩ :
          Held db.tokens db.accounts tx (.consuming token purpose now) := by
        rw [← phase]
        exact sound.held tx
      obtain ⟨free, ⟨rfl, record, found, picked, rfl⟩ | ⟨rfl, rfl, _⟩⟩ :=
        Rows.update_cases ran
      · rw [quiet.visible] at found
        have unused : record.usedAt = none := by
          simp only [LinkToken.consumable, Bool.and_eq_true,
            Option.isNone_iff_eq_none] at picked
          exact picked.1.2
        exact sound.writeToken free ⟨quietAccounts, record, now, found, unused,
          quiet.holds_write token _⟩
      · exact sound.goto ⟨quiet, quietAccounts⟩
  · simp at taken

end

theorem asks_of_refuses {token : LinkToken} {account : Option Account}
    {emailTaken : String → Bool} {now : Int} {newHash : String}
    (refuses : verdict settings token account emailTaken now newHash =
      .refuses) : token.purpose.asksRefusal = true := by
  unfold verdict at refuses
  split at refuses
  · simp at refuses
  · next purpose => simp [purpose, UserTokenPurpose.asksRefusal]
  · simp at refuses
  · next purpose => simp [purpose, UserTokenPurpose.asksRefusal]
  · simp at refuses
  · simp at refuses
  · simp only at refuses
    split_ifs at refuses

theorem Sound.decide (sound : Sound strict db) {now : Int} {newHash : String}
    (taken : db.step settings (.decide tx now newHash) = some next) :
    Sound strict next := by
  simp only [LinkDb.step] at taken
  split at taken
  · next key phase =>
      obtain ⟨quiet, token, consumedAt, found, unused, holds⟩ :
          Held db.tokens db.accounts tx (.consumed key) := by
        rw [← phase]
        exact sound.held tx
      have spent : Spent db.tokens tx key token :=
        ⟨consumedAt, found, unused, holds⟩
      rw [Rows.visible_of_pending ((holds key _).mpr ⟨rfl, rfl⟩)] at taken
      simp only at taken
      split at taken
      · cases taken
        exact sound.abort _
      · next refuses =>
          cases taken
          exact sound.goto ⟨quiet, token, spent, asks_of_refuses refuses⟩
      · cases taken
        exact sound.goto ⟨quiet, token, spent, rfl⟩
  · simp at taken

theorem Sound.flush (sound : Sound strict db)
    (taken : db.step settings (.flush tx) = some next) : Sound strict next := by
  simp only [LinkDb.step] at taken
  split at taken
  · next key userId change phase =>
      obtain ⟨⟨matched, accounts⟩, ran, rfl⟩ := Option.map_eq_some_iff.mp taken
      obtain ⟨quiet, token, spent, owner⟩ :
          Held db.tokens db.accounts tx (.applying key userId change) := by
        rw [← phase]
        exact sound.held tx
      obtain ⟨free, ⟨rfl, account, found, _, rfl⟩ | ⟨rfl, rfl, _⟩⟩ :=
        Rows.update_cases ran
      · rw [quiet.visible] at found
        exact sound.advance rfl rfl rfl rfl (fun _ different => ⟨.refl _ _,
            Rows.undisturbed_write free different _,
            fun _ token committed => ⟨token, committed, rfl, rfl, id⟩⟩)
          ⟨⟨token, spent, owner⟩, account, change, found, quiet.holds_write userId _⟩
      · exact sound.rollback
  · simp at taken

theorem Sound.committed (sound : Sound strict db) {refused : List TokenId}
    (oneShot : OneShot strict { db.commit tx with refused := refused })
    (unconsumed : ∀ key token, (db.tokens.commit tx).committed key = some token →
        token.usedAt = none → token.consumedBy = []) :
    Sound strict { db.commit tx with refused := refused } where
  toOneShot := oneShot
  unconsumed := unconsumed
  held := by
    intro other
    by_cases same : other = tx
    · subst same
      simp only [LinkDb.commit, Function.update_self]
      exact ⟨Rows.quiet_commit _ _, Rows.quiet_commit _ _⟩
    · simp only [LinkDb.commit, Function.update_of_ne same]
      refine (sound.held other).frame ⟨Rows.undisturbed_commit _ same,
        Rows.undisturbed_commit _ same, ?_⟩
      intro key token committed
      rw [Rows.committed_commit]
      rcases Rows.visible_cases db.tokens tx key with own | ⟨unchanged, _⟩
      · exact (sound.held tx).follows own committed
      · exact ⟨token, by rw [unchanged, committed], rfl, rfl, id⟩

theorem Spent.commit {token : LinkToken} (spent : Spent db.tokens tx key token) :
    ∃ now, (db.tokens.commit tx).committed key = some (token.consume tx now) ∧
      ∀ other, other ≠ key →
        (db.tokens.commit tx).committed other = db.tokens.committed other := by
  obtain ⟨now, _, _, holds⟩ := spent
  refine ⟨now, ?_, ?_⟩
  · rw [Rows.committed_commit, Rows.visible_of_pending ((holds key _).mpr ⟨rfl, rfl⟩)]
  · intro other different
    apply Rows.committed_commit_of_other
    intro version pending
    exact different ((holds other version).mp pending).1

structure SpendCommitted (strict : Prop) (db : LinkDb) (tx : TxId)
    (key : TokenId) (token : LinkToken) : Prop where
  self : ∃ now, (db.tokens.commit tx).committed key = some (token.consume tx now) ∧
      (token.consume tx now).consumedBy = [tx]
  others : ∀ other, other ≠ key →
    (db.tokens.commit tx).committed other = db.tokens.committed other
  fresh : ∀ other record, db.tokens.committed other = some record →
    record.consumedBy ≠ [] → other ≠ key
  once : ∀ other record, (db.tokens.commit tx).committed other = some record →
      record.consumedBy.length ≤ 1
  single : strict → ∀ one first two second, (db.tokens.commit tx).committed one = some first →
    (db.tokens.commit tx).committed two = some second →
    first.userId = second.userId → first.purpose = second.purpose →
    first.usedAt = none → second.usedAt = none → one = two
  unconsumed : ∀ other record, (db.tokens.commit tx).committed other = some record →
      record.usedAt = none → record.consumedBy = []

section

variable (sound : Sound strict db)

include sound

theorem Sound.spendCommitted {token : LinkToken}
    (spent : Spent db.tokens tx key token) :
    SpendCommitted strict db tx key token := by
  obtain ⟨_, found, unused, _⟩ := id spent
  obtain ⟨now, self, others⟩ := spent.commit
  have unconsumed := sound.unconsumed key token found unused
  have consumedBy : (token.consume tx now).consumedBy = [tx] := by
    simp [LinkToken.consume, unconsumed]
  -- A token that still reads as unspent is not the one just spent.
  have older : ∀ other record, (db.tokens.commit tx).committed other = some record →
        record.usedAt = none → db.tokens.committed other = some record := by
    intro other record committed free
    by_cases same : other = key
    · subst same
      rw [self] at committed
      cases committed
      simp [LinkToken.consume] at free
    · rw [← others other same, committed]
  refine ⟨⟨now, self, consumedBy⟩, others, ?_, ?_, ?_, ?_⟩
  · rintro other record committed consumed rfl
    rw [found] at committed
    cases committed
    exact consumed unconsumed
  · intro other record committed
    by_cases same : other = key
    · subst same
      rw [self] at committed
      cases committed
      simp [consumedBy]
    · rw [others other same] at committed
      exact sound.once other record committed
  · intro on one first two second committedOne committedTwo user purpose freeOne freeTwo
    exact sound.single on one first two second (older one first committedOne freeOne)
      (older two second committedTwo freeTwo) user purpose freeOne freeTwo
  · intro other record committed free
    exact sound.unconsumed other record (older other record committed free) free

theorem Sound.commitRefusal (phase : db.phase tx = .refusing key) :
    Sound strict { db.commit tx with refused := db.refused ++ [key] } := by
  obtain ⟨quiet, token, spent, asks⟩ : Held db.tokens db.accounts tx (.refusing key) := by
    rw [← phase]
    exact sound.held tx
  have ended := sound.spendCommitted spent
  obtain ⟨now, self, consumedBy⟩ := ended.self
  have accounts := quiet.committed_commit
  refine sound.committed ?_ ended.unconsumed
  refine { once := ended.once, single := ended.single, consumed := ?_
           applied := ?_, distinct := ?_, refused := ?_ }
  · intro other record committed consumed
    by_cases same : other = key
    · exact .inl (by simp [same])
    · have old : db.tokens.committed other = some record := by
        rw [← ended.others other same]
        exact committed
      rcases sound.consumed other record old consumed with
        refused | ⟨account, found, applied⟩
      · exact .inl (List.mem_append_left _ refused)
      · exact .inr ⟨account, (accounts _).trans found, applied⟩
  · intro userId account other found applied
    obtain ⟨open_, record, committed, user, consumed⟩ :=
      sound.applied userId account other ((accounts _).symm.trans found) applied
    have different := ended.fresh other record committed consumed
    refine ⟨?_, record, (ended.others other different).trans committed, user, consumed⟩
    simp [open_, different]
  · intro userId account found
    exact sound.distinct userId account ((accounts _).symm.trans found)
  · intro other member
    rcases List.mem_append.mp member with old | new
    · obtain ⟨record, committed, consumed, asked⟩ := sound.refused other old
      have different := ended.fresh other record committed consumed
      exact ⟨record, (ended.others other different).trans committed, consumed, asked⟩
    · obtain rfl : other = key := by simpa using new
      exact ⟨_, self, by simp [consumedBy], asks⟩

theorem Sound.commitEffect {userId : UserId}
    (phase : db.phase tx = .applied key userId) :
    Sound strict (db.commit tx) := by
  obtain ⟨⟨token, spent, owner⟩, account, change, found, holds⟩ :
      Held db.tokens db.accounts tx (.applied key userId) := by
    rw [← phase]
    exact sound.held tx
  have ended := sound.spendCommitted spent
  obtain ⟨now, self, consumedBy⟩ := ended.self
  have changed : (db.accounts.commit tx).committed userId =
      some (account.apply change key) := by
    rw [Rows.committed_commit, Rows.visible_of_pending ((holds userId _).mpr ⟨rfl, rfl⟩)]
  have others : ∀ other, other ≠ userId → (db.accounts.commit tx).committed other =
        db.accounts.committed other := by
    intro other different
    apply Rows.committed_commit_of_other
    intro version pending
    exact different ((holds other version).mp pending).1
  have spentFound : db.tokens.committed key = some token := by
    obtain ⟨_, committed, _⟩ := spent
    exact committed
  -- The link was not applied before, because it was not consumed before.
  have notApplied : ∀ other record,
      db.accounts.committed other = some record → key ∉ record.applied := by
    intro other record committed member
    obtain ⟨_, old, oldFound, _, consumed⟩ :=
      sound.applied other record key committed member
    exact ended.fresh key old oldFound consumed rfl
  have kept : ∀ other record, db.accounts.committed other = some record →
      ∃ later, (db.accounts.commit tx).committed other = some later ∧
        ∀ link ∈ record.applied, link ∈ later.applied := by
    intro other record committed
    by_cases same : other = userId
    · subst same
      rw [found] at committed
      cases committed
      exact ⟨_, changed, fun link member => by simp [Account.apply, member]⟩
    · exact ⟨record, (others other same).trans committed, fun _ => id⟩
  refine sound.committed ?_ ended.unconsumed
  refine { once := ended.once, single := ended.single, consumed := ?_
           applied := ?_, distinct := ?_, refused := ?_ }
  · intro other record committed consumed
    by_cases same : other = key
    · subst same
      have same := self.symm.trans committed
      cases same
      exact .inr ⟨_, by rw [← changed, ← owner]; rfl, by simp [Account.apply]⟩
    · have old : db.tokens.committed other = some record := by
        rw [← ended.others other same]
        exact committed
      rcases sound.consumed other record old consumed with
        refused | ⟨previous, previousFound, applied⟩
      · exact .inl refused
      · obtain ⟨later, laterFound, contains⟩ := kept _ previous previousFound
        exact .inr ⟨later, laterFound, contains other applied⟩
  · intro other record link committed member
    have split : (∃ previous, db.accounts.committed other = some previous ∧
        link ∈ previous.applied) ∨ (other = userId ∧ link = key) := by
      by_cases same : other = userId
      · subst same
        have same := changed.symm.trans committed
        cases same
        rcases List.mem_append.mp member with old | new
        · exact .inl ⟨account, found, old⟩
        · exact .inr ⟨rfl, by simpa using new⟩
      · exact .inl ⟨record, (others other same).symm.trans committed, member⟩
    rcases split with ⟨previous, previousFound, applied⟩ | ⟨rfl, rfl⟩
    · obtain ⟨open_, old, oldFound, user, consumed⟩ :=
        sound.applied other previous link previousFound applied
      have different := ended.fresh link old oldFound consumed
      exact ⟨open_, old, (ended.others link different).trans oldFound, user, consumed⟩
    · refine ⟨fun refused => ?_, _, self, owner, by simp [consumedBy]⟩
      obtain ⟨old, oldFound, consumed, _⟩ := sound.refused link refused
      exact ended.fresh link old oldFound consumed rfl
  · intro other record committed
    by_cases same : other = userId
    · subst same
      have same := changed.symm.trans committed
      cases same
      exact List.nodup_append.mpr ⟨sound.distinct other account found, by simp, by
          rintro link member _ new rfl
          obtain rfl : link = key := by simpa using new
          exact notApplied other account found member⟩
    · exact sound.distinct other record ((others other same).symm.trans committed)
  · intro other member
    obtain ⟨record, committed, consumed, asked⟩ := sound.refused other member
    have different := ended.fresh other record committed consumed
    exact ⟨record, (ended.others other different).trans committed, consumed, asked⟩

theorem Sound.commitStored {draft : LinkToken}
    {seen : List TokenId} {new : TokenId}
    (phase : db.phase tx = .stored draft seen new)
    (complete : strict → ∀ key token, db.tokens.committed key = some token →
        token.pendingFor draft.userId draft.purpose = true → key ∈ seen) :
    Sound strict (db.commit tx) := by
  obtain ⟨quiet, unused, unconsumed, absent, own, written, progress⟩ :
      Held db.tokens db.accounts tx (.stored draft seen new) := by
    rw [← phase]
    exact sound.held tx
  have accounts := quiet.committed_commit
  -- Every token after the commit is the new one, or an old one that was
  -- burnt or left alone.
  have origin : ∀ key record, (db.tokens.commit tx).committed key = some record →
        (key = new ∧ record = draft) ∨ ∃ old, db.tokens.committed key = some old ∧
            old.userId = record.userId ∧ old.purpose = record.purpose ∧
            old.consumedBy = record.consumedBy ∧
            (record.usedAt = none → old = record ∧
              ∀ version, db.tokens.pending key ≠ some (tx, version)) := by
    intro key record committed
    rcases Rows.committed_commit_cases committed with mine | ⟨old, other⟩
    · rcases written key _ mine with ⟨rfl, same⟩ | ⟨old, now, found, same⟩
      · cases same
        exact .inl ⟨rfl, rfl⟩
      · cases same
        exact .inr ⟨old, found, rfl, rfl, rfl, by simp [LinkToken.burn]⟩
    · exact .inr ⟨record, old, rfl, rfl, rfl, fun _ => ⟨rfl, other⟩⟩
  have kept : ∀ key old, db.tokens.committed key = some old →
      ∃ record, (db.tokens.commit tx).committed key = some record ∧
        record.userId = old.userId ∧ record.purpose = old.purpose ∧
        record.consumedBy = old.consumedBy := by
    intro key old found
    rw [Rows.committed_commit]
    rcases Rows.visible_cases db.tokens tx key with mine | ⟨same, _⟩
    · rcases written key _ mine with ⟨rfl, _⟩ | ⟨record, now, again, burnt⟩
      · simp [absent] at found
      · rw [found] at again
        cases again
        exact ⟨_, burnt, rfl, rfl, rfl⟩
    · exact ⟨old, by rw [same, found], rfl, rfl, rfl⟩
  -- No old pending token of this account and purpose is left.
  have alone : strict → ∀ key record, (db.tokens.commit tx).committed key = some record →
      record.userId = draft.userId → record.purpose = draft.purpose →
      record.usedAt = none → key = new := by
    intro on key record committed user purpose free
    rcases origin key record committed with ⟨rfl, _⟩ | ⟨old, found, _, _, _, left⟩
    · rfl
    · obtain ⟨rfl, untouched⟩ := left free
      have missed := complete on key old found
        (by simp [LinkToken.pendingFor, user, purpose, free])
      obtain ⟨again, foundAgain, _, _, reached⟩ := progress key missed
      rw [found] at foundAgain
      cases foundAgain
      rcases reached with waiting | gone | ⟨version, pending⟩
      · simp at waiting
      · simp [free] at gone
      · exact absurd pending (untouched version)
  refine sound.committed ?_ ?_
  · refine { once := ?_, single := ?_, consumed := ?_, applied := ?_
             distinct := ?_, refused := ?_ }
    · intro key record committed
      rcases origin key record committed with ⟨_, rfl⟩ | ⟨old, found, _, _, same, _⟩
      · simp [unconsumed]
      · rw [← same]
        exact sound.once key old found
    · intro key record committed consumed
      rcases origin key record committed with ⟨_, rfl⟩ | ⟨old, found, user, _, same, _⟩
      · exact absurd unconsumed consumed
      · rw [← same] at consumed
        rcases sound.consumed key old found consumed with
          refused | ⟨account, accountFound, applied⟩
        · exact .inl refused
        · rw [user] at accountFound
          exact .inr ⟨account, (accounts _).trans accountFound, applied⟩
    · intro userId account key found applied
      obtain ⟨open_, old, oldFound, user, consumed⟩ :=
        sound.applied userId account key ((accounts _).symm.trans found) applied
      obtain ⟨record, committed, sameUser, _, same⟩ := kept key old oldFound
      exact ⟨open_, record, committed, sameUser.trans user, by rwa [same]⟩
    · intro userId account found
      exact sound.distinct userId account ((accounts _).symm.trans found)
    · intro key member
      obtain ⟨old, oldFound, consumed, asked⟩ := sound.refused key member
      obtain ⟨record, committed, _, purpose, same⟩ := kept key old oldFound
      exact ⟨record, committed, by rwa [same], by rwa [purpose]⟩
    · intro on one first two second committedOne committedTwo user purpose freeOne freeTwo
      rcases origin one first committedOne with ⟨rfl, rfl⟩ | ⟨old, found, _, _, _, left⟩
      · exact (alone on two second committedTwo user.symm purpose.symm freeTwo).symm
      · rcases origin two second committedTwo with ⟨rfl, rfl⟩ |
          ⟨oldTwo, foundTwo, _, _, _, leftTwo⟩
        · exact alone on one first committedOne user purpose freeOne
        · obtain ⟨rfl, _⟩ := left freeOne
          obtain ⟨rfl, _⟩ := leftTwo freeTwo
          exact sound.single on one old two oldTwo found foundTwo user purpose freeOne freeTwo
  · intro key record committed free
    rcases origin key record committed with ⟨_, rfl⟩ | ⟨old, found, _, _, _, left⟩
    · exact unconsumed
    · obtain ⟨rfl, _⟩ := left free
      exact sound.unconsumed key old found free

end

end Steps

/-- No pending token of the account and purpose is missing from the snapshot
of the burn when the issue commits. -/
def noneMissed (db : LinkDb) : LinkAction → Bool
  | .commit tx =>
    match db.phase tx with
    | .stored draft seen _ => db.tokens.keys.all fun key =>
      (db.tokens.committed key).all fun token =>
        !token.pendingFor draft.userId draft.purpose || seen.contains key
    | _ => true
  | _ => true

theorem Sound.step {settings : LinkSettings} {strict : Prop}
    {db next : LinkDb} {action : LinkAction} (sound : Sound strict db)
    (complete : strict → noneMissed db action = true)
    (taken : db.step settings action = some next) : Sound strict next := by
  cases action with
  | request tx userId request now => exact sound.request taken
  | burn tx now => exact sound.burn taken
  | burnRow tx token => exact sound.burnRow taken
  | store tx token => exact sound.store taken
  | confirm tx token purpose now =>
    simp only [LinkDb.step, Option.ite_none_right_eq_some] at taken
    obtain ⟨idle, taken⟩ := taken
    split at taken <;> cases taken
    · exact sound.goto (sound.quiet idle)
    · exact sound.goto (sound.quiet idle)
  | lockConsume tx => exact sound.lockConsume taken
  | lookup tx now =>
    simp only [LinkDb.step] at taken
    split at taken <;> cases taken
    exact sound.abort _
  | decide tx now newHash => exact sound.decide taken
  | flush tx => exact sound.flush taken
  | commit tx =>
    simp only [LinkDb.step] at taken
    split at taken
    · next draft seen new phase =>
        cases taken
        refine sound.commitStored phase ?_
        intro on key token committed pending
        have listed : key ∈ db.tokens.keys := by
          by_contra absent
          simp [(db.tokens.covered key absent).1] at committed
        have complete := complete on
        simp only [noneMissed, phase, List.all_eq_true] at complete
        simpa [committed, pending] using complete key listed
    · next key userId phase =>
        cases taken
        exact sound.commitEffect phase
    · next key phase =>
        cases taken
        exact (sound.commitRefusal phase).raise _
    · simp at taken
  | rollback tx =>
    cases taken
    exact sound.rollback

theorem sound_start (strict : Prop) (accounts : List Account) :
    Sound strict (.start accounts) := by
  have none : ∀ key token, (LinkDb.start accounts).tokens.committed key ≠ some token := by
    simp [LinkDb.start, Rows.empty, Rows.settled]
  have unapplied : ∀ userId account,
      (LinkDb.start accounts).accounts.committed userId = some account →
        account.applied = [] := by
    intro userId account found
    obtain ⟨original, _, rfl⟩ := Option.map_eq_some_iff.mp found
    rfl
  refine { once := ?_, single := ?_, consumed := ?_, applied := ?_
           distinct := ?_, refused := ?_, unconsumed := ?_, held := ?_ }
  · exact fun key token committed => absurd committed (none key token)
  · exact fun key token committed => absurd committed (none key token)
  · intro userId account key found member
    simp [unapplied userId account found] at member
  · intro userId account found
    simp [unapplied userId account found]
  · simp [LinkDb.start]
  · exact fun _ key token _ _ committed => absurd committed (none key token)
  · exact fun key token committed => absurd committed (none key token)
  · intro tx
    constructor <;> intro key version <;>
      simp [LinkDb.start, Rows.empty, Rows.settled]

/-- In every run a link is consumed at most once, and its effect is committed
exactly when it was consumed and not refused.  With `AUTH_SINGLE_ACTIVE_TOKEN`
one pending link at most is left of an account and purpose, if no burn of the
run missed one. -/
theorem one_shot_links (settings : LinkSettings) (accounts : List Account)
    (schedule : List LinkAction) {final : LinkDb}
    (run : exec (LinkDb.step settings) (.start accounts) schedule = some final) :
    OneShot (settings.singleActiveToken = true ∧ Meets (LinkDb.step settings)
        (fun db action => noneMissed db action = true)
        (.start accounts) schedule) final :=
  (exec_invariant_of_meets (fun _ _ _ sound complete taken => Sound.step sound complete taken)
    (Meets.of_imp And.right) (sound_start _ accounts) run).toOneShot

/-- Links are mailed, superseded by newer ones, and refused to the accounts
of one company. -/
def refusingSettings : LinkSettings :=
  { singleActiveToken := true, ttl := fun _ => 1000, linksProveMailbox := true
    refusesEmailLink := fun account => decide (account.email = "a@corp")
    normalize := fun address => address }

def movedAccount : Account :=
  { isActive := true, hashedPassword := "old", email := "a@b"
    emailVerifiedAt := none, applied := [] }

/-- A reset link is issued, the account moves to an address of the company,
and the reset link is confirmed. -/
def refusedReset : List LinkAction :=
  [.request 0 0 .passwordReset 1, .burn 0 1, .store 0 5, .commit 0,
    .request 1 0 (.emailChange movedAccount "a@corp") 2, .burn 1 2,
    .store 1 6, .commit 1,
    .confirm 2 6 .emailChange 3, .lockConsume 2, .decide 2 3 "", .flush 2,
    .commit 2,
    .confirm 3 5 .passwordReset 4, .lockConsume 3, .decide 3 4 "new",
    .commit 3]

theorem one_shot_links_refused :
    ∃ final, exec (LinkDb.step refusingSettings) (.start [movedAccount])
        refusedReset = some final ∧
      ∀ key token, final.tokens.committed key = some token → token.consumedBy.length ≤ 1 :=
  ⟨_, rfl, (one_shot_links refusingSettings [movedAccount] refusedReset rfl).once⟩

theorem refused_reset_consumed_without_effect : ∃ final token account,
      exec (LinkDb.step refusingSettings) (.start [movedAccount]) refusedReset = some final ∧
      final.tokens.committed 5 = some token ∧ token.consumedBy = [3] ∧
      final.accounts.committed token.userId = some account ∧
      5 ∉ account.applied ∧ account.hashedPassword = "old" :=
  ⟨_, _, _, rfl, rfl, by decide, rfl, by decide, by decide⟩

end LinkTokens

end TempestSdk
