import TempestSdk.Auth.LinkTokens
import TempestSdk.Library.Effects
import TempestSdk.Library.Table

/-!
# The operations of the auth service, one after another

The service methods that create accounts, mail links and spend them, with the
routes that sign an account in, over tables that each operation finds as the
last one left them.  The settings may change between any two operations.

A token records where its link went: the address it was mailed to, and whether
the caller was shown it.
-/

namespace TempestSdk

namespace Mailbox

open Runs
open LinkTokens (UserTokenPurpose Account LinkToken LinkError LinkSettings
  LinkRequest TokenId answer verdict consumeError missingUser mailedAddress)

structure User where
  id : UserId
  account : Account
  /-- `totp_enabled_at` is set. -/
  totpEnabled : Bool
  columns : List (String × String)
  deriving DecidableEq

/-- A token row.  The code has no columns for where the link went. -/
structure Token where
  id : TokenId
  row : LinkToken
  mailedTo : Option String
  surfaced : Bool
  deriving DecidableEq

def Token.mailbox (token : Token) : Option String :=
  if token.surfaced then none else token.mailedTo

structure OAuthAccount where
  userId : UserId
  provider : String
  subject : String
  deriving DecidableEq

structure Tables where
  users : List User
  tokens : List Token
  oauthAccounts : List OAuthAccount
  deriving DecidableEq

structure OAuthUser where
  provider : String
  subject : String
  email : Option String
  emailVerified : Option Bool
  deriving DecidableEq

inductive AuthError where
  | link (error : LinkError)
  | integrationDisabled
  | emailDelivery
  | protectedColumns (columns : List String)
  | unknownColumns (columns : List String)
  | password (message : String)
  | invalidCredentials (message : String)
  | unauthorized (message : String)
  | accountInactive
  /-- The flush of a user row meets another row with its address. -/
  | integrity
  | oauthEmailMissing
  | oauthEmailTaken
  | oauthEmailUnverified
  | oauthRegistrationDisabled
  | oauthAccountInactive
  | oauthAccountNotLinked
  /-- `MultipleResultsFound`. -/
  | multipleResults
  deriving DecidableEq

structure AuthUtils where
  /-- `str.strip().lower()`. -/
  normalize : String → String
  /-- `PasswordUtils.verify`. -/
  verify : String → String → Bool

structure AuthSettings where
  /-- `EmailUtils` is wired, -/
  emailWired : Bool
  emailEnabled : Bool
  /-- `ENV` is `development` or `test`. -/
  development : Bool
  autoActivate : Bool
  returnTokenInResponse : Bool
  singleActiveToken : Bool
  emailChangeNotifyOld : Bool
  revealInactiveAccount : Bool
  mfaEnabled : Bool
  ttl : UserTokenPurpose → Int
  signupEnabled : Bool
  oauthAllowAccountCreation : Option Bool
  oauthLinkByVerifiedEmail : Bool
  refusesEmailLink : Option (User → Bool)
  /-- What `_enforce_password_policy` finds wrong with a password. -/
  passwordPolicy : String → Option String
  columns : List String
  /-- and those it declares in `__secret_columns__`. -/
  secretColumns : List String

namespace Tables

def user (tables : Tables) (id : UserId) : Option User :=
  Table.find User.id id tables.users

def userByEmail (tables : Tables) (email : String) : Option User :=
  tables.users.find? fun user => decide (user.account.email = email)

def emailTaken (tables : Tables) (exclude : UserId) (email : String) : Bool :=
  tables.users.any fun user =>
    decide (user.account.email = email) && decide (user.id ≠ exclude)

def token (tables : Tables) (id : TokenId) : Option Token :=
  Table.find Token.id id tables.tokens

/-- `_forget_proof_of_previous_email`, before the `UPDATE` of a row. -/
def forgetProofOfPreviousEmail (loaded target : User) : User :=
  if target.account.email = loaded.account.email then target
  else if target.account.emailVerifiedAt ≠ loaded.account.emailVerifiedAt then
    target
  else { target with account := { target.account with emailVerifiedAt := none } }

/-- A user instance is flushed; `email` is unique. -/
def flushUser (tables : Tables) (target : User) : Except AuthError Tables :=
  if tables.emailTaken target.id target.account.email then .error .integrity
  else
    let written :=
      match tables.user target.id with
      | some loaded => forgetProofOfPreviousEmail loaded target
      | none => target
    .ok { tables with users := Table.put User.id written tables.users }

end Tables

section Service

variable (utils : AuthUtils) (settings : AuthSettings)

def linksProveMailbox : Bool :=
  if !settings.emailWired then false
  else if settings.autoActivate then false
  else !settings.returnTokenInResponse

/-- The `_maybe_send_*` methods of the links send a mail. -/
def mailsLinks : Bool :=
  !(!settings.emailWired || settings.returnTokenInResponse)

def surfacesLinks : Bool :=
  settings.returnTokenInResponse || !settings.emailWired

def linksSurfaceInProduction : Bool :=
  if settings.development then false else surfacesLinks settings

def requireMailDelivery (carriesToken : Bool) : Except AuthError Unit :=
  if carriesToken && linksSurfaceInProduction settings then
    .error .integrationDisabled
  else if !settings.emailWired || settings.emailEnabled then .ok ()
  else if carriesToken && settings.returnTokenInResponse then .ok ()
  else .error .integrationDisabled

def emailLinkRefused (user : User) : Bool :=
  match settings.refusesEmailLink with
  | none => false
  | some predicate => predicate user

def links (user : Option User) : LinkSettings where
  singleActiveToken := settings.singleActiveToken
  ttl := settings.ttl
  linksProveMailbox := linksProveMailbox settings
  refusesEmailLink := fun account =>
    user.any fun user => emailLinkRefused settings { user with account }
  normalize := utils.normalize

def enforcePasswordPolicy (password : String) : Except AuthError Unit :=
  match settings.passwordPolicy password with
  | some message => .error (.password message)
  | none => .ok ()

def isMfaEnrolled (user : User) : Bool :=
  settings.mfaEnabled && user.totpEnabled

def mintToken (id : TokenId) (userId : UserId) (purpose : UserTokenPurpose)
    (payload : Option String) (address : String) (now : Int) : Token where
  id := id
  row := .draft userId purpose (now + settings.ttl purpose) payload
  mailedTo := if mailsLinks settings then some address else none
  surfaced := surfacesLinks settings

def storeToken (tables : Tables) (token : Token) (now : Int) : Tables :=
  let burned :=
    if settings.singleActiveToken then
      tables.tokens.map fun pending =>
        if LinkToken.pendingFor token.row.userId token.row.purpose pending.row
        then { pending with row := pending.row.burn now }
        else pending
    else tables.tokens
  { tables with tokens := Table.put Token.id token burned }

def signupProtectedFields : List String :=
  ["id", "email", "hashed_password", "is_active", "is_admin",
    "email_verified_at", "totp_secret", "totp_enabled_at", "totp_last_step",
    "last_login_at", "created_at", "updated_at", "deleted_at", "created_by",
    "updated_by"]

/-- `signup_protected_fields`. -/
def protectedFields : List String :=
  signupProtectedFields ++ settings.secretColumns

def checkSignupFields (fields : List (String × String)) : Except AuthError Unit :=
  let keys := fields.map Prod.fst
  let refused := keys.filter fun key => decide (key ∈ protectedFields settings)
  let unknown := keys.filter fun key =>
    decide (key ∉ settings.columns) || decide (key ∈ protectedFields settings)
  if refused ≠ [] then .error (.protectedColumns refused)
  else if unknown ≠ [] then .error (.unknownColumns unknown)
  else .ok ()

inductive Activation where
  | bornActive
  | withheld
  | pending (token : TokenId)
  deriving DecidableEq

/-- The row that `signup` inserts; `hashed` is the hash of the password. -/
def signupUser (id : UserId) (email hashed : String)
    (fields : List (String × String)) : User where
  id := id
  account :=
    { isActive := settings.autoActivate, hashedPassword := hashed, email
      emailVerifiedAt := none, applied := [] }
  totpEnabled := false
  columns := fields

/-- `signup`, up to the insert. -/
def insertSignup (tables : Tables) (id : UserId)
    (email password hashed : String) (fields : List (String × String)) :
    Except AuthError (Tables × User) := do
  (if settings.autoActivate then .ok () else requireMailDelivery settings true)
  checkSignupFields settings fields
  enforcePasswordPolicy settings password
  let normalized := utils.normalize email
  if (tables.userByEmail normalized).isSome then
    .error (.link (.emailTaken "email already in use" normalized))
  else
    let user := signupUser settings id normalized hashed fields
    let tables ← tables.flushUser user
    return (tables, user)

/-- `signup`, from the insert on. -/
def issueActivation (tables : Tables) (user : User) (tokenId : TokenId)
    (mailFails : Bool) (now : Int) : Except AuthError (Tables × Activation) :=
  if settings.autoActivate then .ok (tables, .bornActive)
  else if emailLinkRefused settings user then .ok (tables, .withheld)
  else if mailsLinks settings && mailFails then .error .emailDelivery
  else
    let token := mintToken settings tokenId user.id .activation
      (mailedAddress (links utils settings (some user)) user.account)
      user.account.email now
    .ok (storeToken settings tables token now, .pending tokenId)

def signup (tables : Tables) (id : UserId) (tokenId : TokenId)
    (email password hashed : String) (fields : List (String × String))
    (mailFails : Bool) (now : Int) :
    Except AuthError (Tables × User × Activation) := do
  let (tables, user) ← insertSignup utils settings tables id email password hashed fields
  let (tables, activation) ← issueActivation utils settings tables user tokenId mailFails now
  return (tables, user, activation)

def recipient (user : User) (payload : Option String) : LinkRequest → String
  | .emailChange _ _ => payload.getD ""
  | _ => user.account.email

/-- What the `request_*` methods share: they mint a token of the user, mail it
and store it.  The link the caller is shown is returned. -/
def request (tables : Tables) (tokenId : TokenId) (user : User)
    (request : LinkRequest) (mailFails : Bool) (now : Int) :
    Except AuthError (Tables × Option TokenId) :=
  match answer (links utils settings (some user)) (some user.account)
      (tables.emailTaken user.id) request with
  | .nothing => .ok (tables, none)
  | .raises error => .error (.link error)
  | .mints payload =>
    if mailsLinks settings && mailFails then
      match request with
      -- `_issue_token_after_mail` answers as for an unknown address.
      | .activation | .passwordReset => .ok (tables, none)
      | _ => .error .emailDelivery
    else
      let token := mintToken settings tokenId user.id request.purpose payload
        (recipient user payload request) now
      .ok (storeToken settings tables token now,
        if surfacesLinks settings then some tokenId else none)

def requestActivation (tables : Tables) (tokenId : TokenId) (email : String)
    (mailFails : Bool) (now : Int) :
    Except AuthError (Tables × Option TokenId) := do
  requireMailDelivery settings true
  match tables.userByEmail (utils.normalize email) with
  | none => .ok (tables, none)
  | some user => request utils settings tables tokenId user .activation mailFails now

def requestPasswordReset (tables : Tables) (tokenId : TokenId)
    (email : String) (mailFails : Bool) (now : Int) :
    Except AuthError (Tables × Option TokenId) := do
  requireMailDelivery settings true
  match tables.userByEmail (utils.normalize email) with
  | none => .ok (tables, none)
  | some user => request utils settings tables tokenId user .passwordReset mailFails now

def requestEmailVerification (tables : Tables) (tokenId : TokenId)
    (user : User) (mailFails : Bool) (now : Int) :
    Except AuthError (Tables × Option TokenId) := do
  requireMailDelivery settings true
  request utils settings tables tokenId user (.emailVerification user.account) mailFails now

def requestEmailChange (tables : Tables) (tokenId : TokenId) (user : User)
    (currentPassword newEmail : String) (mailFails : Bool) (now : Int) :
    Except AuthError (Tables × Option TokenId) := do
  requireMailDelivery settings true
  if utils.verify currentPassword user.account.hashedPassword then
    request utils settings tables tokenId user
      (.emailChange user.account newEmail) mailFails now
  else .error (.unauthorized "current password is incorrect")

/-- How the second factor of `request_email_recovery` comes out. -/
inductive MfaCode where
  | missing
  | unverifiable
  | wrong
  | right
  deriving DecidableEq

/-- `request_email_recovery`; `throttled` says that a budget is spent. -/
def requestEmailRecovery (tables : Tables) (tokenId : TokenId)
    (email newEmail currentPassword : String) (throttled : Bool)
    (code : MfaCode) (mailFails : Bool) (now : Int) :
    Except AuthError (Tables × Option TokenId) := do
  requireMailDelivery settings true
  match tables.userByEmail (utils.normalize email) with
  | none => .ok (tables, none)
  | some user =>
    if throttled then .ok (tables, none)
    else if !utils.verify currentPassword user.account.hashedPassword then
      .ok (tables, none)
    else
      match isMfaEnrolled settings user, code with
      | true, .missing | true, .wrong => .ok (tables, none)
      | true, .unverifiable =>
        .error (.link (.validation "recovery_code_model is required to verify MFA"))
      | _, _ =>
        request utils settings tables tokenId user
          (.emailChange user.account newEmail) mailFails now

def consumeToken (tables : Tables) (id : TokenId) (purpose : UserTokenPurpose)
    (now : Int) : Except AuthError (Tables × Token) :=
  match tables.token id with
  | none => .error (.link (consumeError none purpose now))
  | some token =>
    if LinkToken.consumable purpose now token.row then
      let spent := { token with row := token.row.consume id now }
      .ok ({ tables with tokens := Table.put Token.id spent tables.tokens }, spent)
    else .error (.link (consumeError (some token.row) purpose now))

/-- What a confirm method returns; `refused` is raised once
`_refuse_email_link` has committed. -/
inductive Confirmed where
  | refused
  | user (user : User)
  deriving DecidableEq

def confirm (purpose : UserTokenPurpose) (tables : Tables) (id : TokenId)
    (newHash : String) (now : Int) : Except AuthError (Tables × Confirmed) := do
  let (tables, token) ← consumeToken tables id purpose now
  let user := tables.user token.row.userId
  match verdict (links utils settings user) token.row (user.map User.account)
      (tables.emailTaken token.row.userId) now newHash, user with
  | .raises error, _ => throw (.link error)
  | .refuses, _ => return (tables, .refused)
  | .changes _, none => throw (.link missingUser)
  | .changes change, some user =>
    let target := { user with account := user.account.apply change id }
    let tables ← tables.flushUser target
    return (tables, .user ((tables.user user.id).getD target))

def activate (tables : Tables) (id : TokenId) (now : Int) :
    Except AuthError (Tables × Confirmed) :=
  confirm utils settings .activation tables id "" now

def confirmPasswordReset (tables : Tables) (id : TokenId)
    (newPassword newHash : String) (now : Int) :
    Except AuthError (Tables × Confirmed) := do
  enforcePasswordPolicy settings newPassword
  confirm utils settings .passwordReset tables id newHash now

def confirmEmailVerification (tables : Tables) (id : TokenId) (now : Int) :
    Except AuthError (Tables × Confirmed) :=
  confirm utils settings .emailVerification tables id "" now

/-- `confirm_email_change`, whose notice to the old address may fail. -/
def confirmEmailChange (tables : Tables) (id : TokenId) (noticeFails : Bool)
    (now : Int) : Except AuthError (Tables × Confirmed) := do
  (if settings.emailChangeNotifyOld then requireMailDelivery settings false else .ok ())
  let changed ← confirm utils settings .emailChange tables id "" now
  if settings.emailWired && settings.emailChangeNotifyOld && noticeFails then
    .error .emailDelivery
  else .ok changed

/-- `inactive_account_error` or the generic refusal. -/
def inactiveRefusal : AuthError :=
  if settings.revealInactiveAccount then .accountInactive
  else .invalidCredentials "invalid email or password"

def login (tables : Tables) (email password : String) : Except AuthError User :=
  match tables.userByEmail (utils.normalize email) with
  | none => .error (.invalidCredentials "invalid email or password")
  | some user =>
    if !utils.verify password user.account.hashedPassword then
      .error (.invalidCredentials "invalid email or password")
    else if !user.account.isActive then .error (inactiveRefusal settings)
    else .ok user

def loadLinkedUser (tables : Tables) (id : UserId) : Except AuthError User :=
  match (tables.user id).filter fun user => user.account.isActive with
  | none => .error .oauthAccountInactive
  | some user => .ok user

def oauthCreationAllowed (override : Option Bool) : Bool :=
  override.getD (settings.oauthAllowAccountCreation.getD settings.signupEnabled)

/-- `_create_oauth_user`; `hashed` is the hash of the generated password. -/
def createOAuthUser (tables : Tables) (id : UserId) (email hashed : String)
    (now : Int) : Except AuthError (Tables × User) := do
  let user : User :=
    { id
      account :=
        { isActive := true, hashedPassword := hashed, email
          emailVerifiedAt := some now, applied := [] }
      totpEnabled := false
      columns := [] }
  let tables ← tables.flushUser user
  return (tables, user)

/-- `(profile.email or "").strip().lower()`. -/
def profileEmail (profile : OAuthUser) : String :=
  (profile.email.map utils.normalize).getD ""

def resolveOAuthUser (tables : Tables) (id : UserId) (profile : OAuthUser)
    (hashed : String) (linkByVerifiedEmail allowAccountCreation : Bool)
    (now : Int) : Except AuthError (Tables × User) :=
  let email := profileEmail utils profile
  if email = "" then .error .oauthEmailMissing
  else
    match tables.userByEmail email with
    | some existing =>
      if !linkByVerifiedEmail then .error .oauthEmailTaken
      else if profile.emailVerified ≠ some true then
        .error .oauthEmailUnverified
      else if existing.account.emailVerifiedAt.isNone then
        .error .oauthEmailTaken
      else if !existing.account.isActive then .error .oauthAccountInactive
      else .ok (tables, existing)
    | none =>
      if !allowAccountCreation then .error .oauthRegistrationDisabled
      else if profile.emailVerified ≠ some true then
        .error .oauthEmailUnverified
      else createOAuthUser tables id email hashed now

def authenticateOAuth (tables : Tables) (id : UserId) (profile : OAuthUser)
    (hashed : String) (linkByVerifiedEmail allowAccountCreation : Option Bool)
    (now : Int) : Except AuthError (Tables × User) := do
  let linked := tables.oauthAccounts.find? fun account =>
    decide (account.provider = profile.provider) && decide (account.subject = profile.subject)
  match linked with
  | some account =>
    let user ← loadLinkedUser tables account.userId
    return (tables, user)
  | none =>
    let (tables, user) ← resolveOAuthUser utils tables id profile hashed
      (linkByVerifiedEmail.getD settings.oauthLinkByVerifiedEmail)
      (oauthCreationAllowed settings allowAccountCreation) now
    let account : OAuthAccount :=
      { userId := user.id, provider := profile.provider
        subject := profile.subject }
    return ({ tables with
      oauthAccounts := tables.oauthAccounts ++ [account] }, user)

def unlinkOAuthAccount (tables : Tables) (user : UserId) (provider : String) :
    Except AuthError Tables :=
  let linked := fun account : OAuthAccount =>
    decide (account.userId = user) && decide (account.provider = provider)
  match tables.oauthAccounts.filter linked with
  | [] => .error .oauthAccountNotLinked
  | [_] =>
    .ok { tables with
      oauthAccounts := tables.oauthAccounts.filter fun account =>
        !linked account }
  | _ => .error .multipleResults

/-- `change_password`.  An instance of another session is merged, with every
column it was loaded with. -/
def changePassword (tables : Tables) (user : User)
    (currentPassword newPassword hashed : String) :
    Except AuthError Tables :=
  if utils.verify currentPassword user.account.hashedPassword then do
    enforcePasswordPolicy settings newPassword
    tables.flushUser { user with
      account := { user.account with hashedPassword := hashed } }
  else .error (.unauthorized "current password is incorrect")

end Service

/-- What an operation is called with.  `id` and `tokenId` are what a row it
creates will have. -/
inductive AuthAction where
  /-- The settings, the predicate and the environment are changed. -/
  | configure (settings : AuthSettings)
  /-- A row is changed by the rest of the application, which leaves
  `email_verified_at` alone. -/
  | edit (target : User)
  | remove (id : UserId)
  | signup (id : UserId) (tokenId : TokenId) (email password hashed : String)
      (fields : List (String × String)) (mailFails : Bool) (now : Int)
  | requestActivation (tokenId : TokenId) (email : String) (mailFails : Bool)
      (now : Int)
  | activate (token : TokenId) (now : Int)
  | login (email password : String)
  | authenticateOAuth (id : UserId) (profile : OAuthUser) (hashed : String)
      (linkByVerifiedEmail allowAccountCreation : Option Bool) (now : Int)
  | unlinkOAuthAccount (user : UserId) (provider : String)
  | requestPasswordReset (tokenId : TokenId) (email : String)
      (mailFails : Bool) (now : Int)
  | confirmPasswordReset (token : TokenId) (newPassword newHash : String)
      (now : Int)
  | changePassword (user : User) (currentPassword newPassword hashed : String)
  | requestEmailChange (tokenId : TokenId) (user : User)
      (currentPassword newEmail : String) (mailFails : Bool) (now : Int)
  | requestEmailRecovery (tokenId : TokenId)
      (email newEmail currentPassword : String) (throttled : Bool)
      (code : MfaCode) (mailFails : Bool) (now : Int)
  | confirmEmailChange (token : TokenId) (noticeFails : Bool) (now : Int)
  | requestEmailVerification (tokenId : TokenId) (user : User)
      (mailFails : Bool) (now : Int)
  | confirmEmailVerification (token : TokenId) (now : Int)

def AuthAction.presents : AuthAction → Option TokenId
  | .activate token _ => some token
  | .confirmPasswordReset token _ _ _ => some token
  | .confirmEmailChange token _ _ => some token
  | .confirmEmailVerification token _ => some token
  | _ => none

/-- The tables between two operations, and what the outside knows: the
versions a row has had, the mailboxes somebody has proved to control, and the
accounts that were given tokens or an MFA challenge. -/
structure AuthState where
  settings : AuthSettings
  tables : Tables
  past : List User
  proofs : List (UserId × String)
  signIns : List UserId

namespace AuthState

def start (settings : AuthSettings) : AuthState where
  settings := settings
  tables := { users := [], tokens := [], oauthAccounts := [] }
  past := []
  proofs := []
  signIns := []

def store (state : AuthState) (tables : Tables) : AuthState :=
  { state with tables, past := state.past ++ tables.users }

def settle {α : Type} (state : AuthState) (result : Except AuthError (Tables × α))
    (done : AuthState → α → AuthState) : AuthState :=
  match result with
  | .error _ => state
  | .ok (tables, value) => done (state.store tables) value

def signIn (state : AuthState) (user : UserId) : AuthState :=
  { state with signIns := state.signIns ++ [user] }

def present (state : AuthState) (id : TokenId) : AuthState :=
  match state.tables.token id with
  | none => state
  | some token =>
    { state with
      proofs := state.proofs ++ (token.mailbox.map fun address =>
          (token.row.userId, address)).toList }

def vouch (state : AuthState) (user : UserId) (profile : OAuthUser) : AuthState :=
  if profile.emailVerified = some true then
    { state with
      proofs := state.proofs ++ (profile.email.map fun address => (user, address)).toList }
  else state

/-- The routes of `activate` and `confirm_password_reset` sign in. -/
def signInConfirmed (state : AuthState) : Confirmed → AuthState
  | .refused => state
  | .user user => state.signIn user.id

def signInActivated (state : AuthState) : User × Activation → AuthState
  | (user, .bornActive) => state.signIn user.id
  | _ => state

def freshUser (state : AuthState) (id : UserId) : Bool :=
  decide (∀ user ∈ state.past, user.id ≠ id)

def freshToken (state : AuthState) (id : TokenId) : Bool :=
  (state.tables.token id).isNone

variable (utils : AuthUtils)

def step (state : AuthState) (action : AuthAction) : Option AuthState :=
  match action with
  | .configure settings => some { state with settings }
  | .edit target =>
    (state.tables.user target.id).map fun loaded =>
      state.settle ((state.tables.flushUser { target with
          account := { target.account with
            emailVerifiedAt := loaded.account.emailVerifiedAt } }).map
              fun tables => (tables, ()))
        fun state _ => state
  | .remove id =>
    some { state with
      tables := { state.tables with
        users := state.tables.users.filter fun user =>
          decide (user.id ≠ id) } }
  | .signup id tokenId email password hashed fields mailFails now =>
    if state.freshUser id && state.freshToken tokenId then
      some (state.settle (signup utils state.settings state.tables id tokenId email password
          hashed fields mailFails now) signInActivated)
    else none
  | .requestActivation tokenId email mailFails now =>
    if state.freshToken tokenId then
      some (state.settle (requestActivation utils state.settings state.tables
        tokenId email mailFails now) fun state _ => state)
    else none
  | .activate token now =>
    some ((state.present token).settle
      (activate utils state.settings state.tables token now) signInConfirmed)
  | .login email password =>
    match login utils state.settings state.tables email password with
    | .error _ => some state
    | .ok user => some (state.signIn user.id)
  | .authenticateOAuth id profile hashed link create now =>
    if state.freshUser id then
      some (state.settle (authenticateOAuth utils state.settings state.tables id profile
          hashed link create now)
        fun state user => (state.vouch user.id profile).signIn user.id)
    else none
  | .unlinkOAuthAccount user provider =>
    some (state.settle ((unlinkOAuthAccount state.tables user provider).map
        fun tables => (tables, ())) fun state _ => state)
  | .requestPasswordReset tokenId email mailFails now =>
    if state.freshToken tokenId then
      some (state.settle (requestPasswordReset utils state.settings
        state.tables tokenId email mailFails now) fun state _ => state)
    else none
  | .confirmPasswordReset token newPassword newHash now =>
    some ((state.present token).settle
      (confirmPasswordReset utils state.settings state.tables token
        newPassword newHash now) signInConfirmed)
  | .changePassword user currentPassword newPassword hashed =>
    if user ∈ state.past then
      some (state.settle ((changePassword utils state.settings state.tables user
          currentPassword newPassword hashed).map
            fun tables => (tables, ())) fun state _ => state)
    else none
  | .requestEmailChange tokenId user currentPassword newEmail mailFails now =>
    if state.freshToken tokenId && decide (user ∈ state.past) then
      some (state.settle (requestEmailChange utils state.settings
        state.tables tokenId user currentPassword newEmail mailFails now) fun state _ => state)
    else none
  | .requestEmailRecovery tokenId email newEmail currentPassword throttled code
      mailFails now =>
      if state.freshToken tokenId then
        some (state.settle (requestEmailRecovery utils state.settings
          state.tables tokenId email newEmail currentPassword throttled code
          mailFails now) fun state _ => state)
      else none
  | .confirmEmailChange token noticeFails now =>
    some ((state.present token).settle
      (confirmEmailChange utils state.settings state.tables token
        noticeFails now) fun state _ => state)
  | .requestEmailVerification tokenId user mailFails now =>
    if state.freshToken tokenId && decide (user ∈ state.past) then
      some (state.settle (requestEmailVerification utils state.settings
        state.tables tokenId user mailFails now) fun state _ => state)
    else none
  | .confirmEmailVerification token now =>
    some ((state.present token).settle
      (confirmEmailVerification utils state.settings state.tables token now)
        fun state _ => state)

end AuthState

end Mailbox

end TempestSdk
