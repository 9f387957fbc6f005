import TempestSdk.Auth.Mailbox

/-!
# What `email_verified_at` says about the mailbox

A row with `email_verified_at` belongs to somebody who controls the mailbox of
its address.  A link that stamps the column was bound to that mailbox when it
was issued, except for the link of an e-mail change, whose confirmation only
asks how links travel by then.  The runs are those in which that makes no
difference.
-/

namespace TempestSdk

namespace Mailbox

open Runs
open LinkTokens (UserTokenPurpose Account Change LinkToken LinkError LinkSettings
  LinkRequest TokenId answer verdict consumeError missingUser mailedAddress
  recordEmailProof)

variable {utils : AuthUtils} {settings : AuthSettings}

/-- Somebody proved to control the mailbox of this address, which the service
may have normalized since. -/
def Proven (utils : AuthUtils) (proofs : List (UserId × String))
    (user : UserId) (email : String) : Prop :=
  ∃ address, (user, address) ∈ proofs ∧ (email = address ∨ email = utils.normalize address)

def Vouched (utils : AuthUtils) (proofs : List (UserId × String)) (user : User) : Prop :=
  user.account.emailVerifiedAt ≠ none → Proven utils proofs user.id user.account.email

/-- What the payload of a token says about the mailbox it went to. -/
structure Bound (token : Token) : Prop where
  mailed : token.row.purpose = .activation ∨ token.row.purpose = .emailVerification →
    ∀ address, token.row.payload = some address → token.mailbox = some address
  target : token.row.purpose = .emailChange →
    ∀ address, token.mailbox = some address → token.row.payload = some address

structure Sound (utils : AuthUtils) (proofs : List (UserId × String))
    (tables : Tables) : Prop where
  users : ∀ user ∈ tables.users, Vouched utils proofs user
  tokens : ∀ token ∈ tables.tokens, Bound token

section Proofs

variable {proofs more : List (UserId × String)}

section

variable (grows : ∀ proof ∈ proofs, proof ∈ more)

include grows

theorem Proven.mono {user : UserId} {email : String} (proven : Proven utils proofs user email) :
    Proven utils more user email := by
  obtain ⟨address, member, same⟩ := proven
  exact ⟨address, grows _ member, same⟩

theorem Vouched.mono {user : User}
    (vouched : Vouched utils proofs user) : Vouched utils more user :=
  fun stamped => (vouched stamped).mono grows

theorem Sound.mono {tables : Tables}
    (sound : Sound utils proofs tables) : Sound utils more tables :=
  ⟨fun user member => (sound.users user member).mono grows, sound.tokens⟩

end

theorem Vouched.of_same {user other : User}
    (vouched : Vouched utils proofs user) (id : other.id = user.id)
    (email : other.account.email = user.account.email)
    (stamp : other.account.emailVerifiedAt = user.account.emailVerifiedAt) :
    Vouched utils proofs other := by
  intro stamped
  rw [id, email]
  exact vouched (by rw [← stamp]; exact stamped)

theorem vouched_of_none {user : User} (unstamped : user.account.emailVerifiedAt = none) :
    Vouched utils proofs user :=
  fun stamped => absurd unstamped stamped

theorem id_forgetProof (loaded target : User) :
    (Tables.forgetProofOfPreviousEmail loaded target).id = target.id := by
  unfold Tables.forgetProofOfPreviousEmail
  split
  · rfl
  · split <;> rfl

theorem vouched_forgetProof {loaded target : User} (vouched : Vouched utils proofs target) :
    Vouched utils proofs (Tables.forgetProofOfPreviousEmail loaded target) := by
  unfold Tables.forgetProofOfPreviousEmail
  split
  · exact vouched
  · split
    · exact vouched
    · exact vouched_of_none rfl

theorem vouched_forgetProof_edit {loaded target : User}
    (vouched : Vouched utils proofs loaded) (id : target.id = loaded.id)
    (stamp : target.account.emailVerifiedAt = loaded.account.emailVerifiedAt) :
    Vouched utils proofs (Tables.forgetProofOfPreviousEmail loaded target) := by
  unfold Tables.forgetProofOfPreviousEmail
  split
  · rename_i email
    exact vouched.of_same id email stamp
  · rw [if_neg (by simpa using stamp)]
    exact vouched_of_none rfl

end Proofs

theorem flushUser_cases {tables left : Tables} {target : User}
    (flushed : tables.flushUser target = .ok left) :
    ∃ written, left = { tables with
        users := Table.put User.id written tables.users } ∧
      ((tables.user target.id = none ∧ written = target) ∨
        ∃ loaded, tables.user target.id = some loaded ∧
          written = Tables.forgetProofOfPreviousEmail loaded target) := by
  unfold Tables.flushUser at flushed
  split at flushed
  · contradiction
  · cases found : tables.user target.id with
    | none =>
      rw [found] at flushed
      cases flushed
      exact ⟨target, rfl, .inl ⟨rfl, rfl⟩⟩
    | some loaded =>
      rw [found] at flushed
      cases flushed
      exact ⟨_, rfl, .inr ⟨loaded, rfl, rfl⟩⟩

section Steps

variable {proofs : List (UserId × String)} {tables left : Tables}

section

variable (sound : Sound utils proofs tables)

include sound

theorem Sound.put {row : User} (vouched : Vouched utils proofs row) :
    Sound utils proofs { tables with users := Table.put User.id row tables.users } := by
  refine ⟨?_, sound.tokens⟩
  intro user member
  rcases Table.mem_put member with rfl | stored
  · exact vouched
  · exact sound.users user stored

theorem Sound.flushUser {target : User} (vouched : Vouched utils proofs target)
    (flushed : tables.flushUser target = .ok left) :
    Sound utils proofs left := by
  obtain ⟨written, rfl, ⟨_, rfl⟩ | ⟨loaded, _, rfl⟩⟩ := flushUser_cases flushed
  · exact sound.put vouched
  · exact sound.put (vouched_forgetProof vouched)

theorem Sound.edit {loaded target : User} (found : tables.user target.id = some loaded)
    (stamp : target.account.emailVerifiedAt = loaded.account.emailVerifiedAt)
    (flushed : tables.flushUser target = .ok left) :
    Sound utils proofs left := by
  obtain ⟨written, rfl, ⟨missing, _⟩ | ⟨other, same, rfl⟩⟩ :=
    flushUser_cases flushed
  · simp [missing] at found
  · rw [found] at same
    cases same
    have id : target.id = loaded.id := (Table.key_of_find found).symm
    have vouched := sound.users loaded (Table.mem_of_find found)
    exact sound.put (vouched_forgetProof_edit vouched id stamp)

end

variable {now : Int}

theorem Sound.storeToken {token : Token} (sound : Sound utils proofs tables)
    (bound : Bound token) :
    Sound utils proofs (storeToken settings tables token now) := by
  refine ⟨sound.users, ?_⟩
  intro stored member
  rcases Table.mem_put member with rfl | pending
  · exact bound
  · split at pending
    · obtain ⟨row, earlier, rfl⟩ := List.mem_map.mp pending
      have kept := sound.tokens row earlier
      split
      · exact ⟨kept.mailed, kept.target⟩
      · exact kept
    · exact sound.tokens stored pending

theorem mailbox_mintToken (id : TokenId) (user : UserId)
    (purpose : UserTokenPurpose) (payload : Option String) (address : String)
    (now : Int) :
    (mintToken settings id user purpose payload address now).mailbox =
      if mailsLinks settings then some address else none := by
  unfold Token.mailbox mintToken mailsLinks surfacesLinks
  cases settings.emailWired <;> cases settings.returnTokenInResponse <;> rfl

theorem mails_of_prove (prove : linksProveMailbox settings = true) :
    mailsLinks settings = true := by
  unfold linksProveMailbox at prove
  unfold mailsLinks
  cases wired : settings.emailWired <;>
    cases returned : settings.returnTokenInResponse <;> simp_all

theorem bound_mailedAddress {id : TokenId} {user : User}
    {purpose : UserTokenPurpose} (other : purpose ≠ .emailChange) :
    Bound (mintToken settings id user.id purpose
      (mailedAddress (links utils settings (some user)) user.account)
      user.account.email now) := by
  constructor
  · intro _ address payload
    change mailedAddress (links utils settings (some user)) user.account =
      some address at payload
    unfold mailedAddress at payload
    split at payload
    · rename_i prove
      rw [mailbox_mintToken, if_pos (mails_of_prove prove)]
      exact payload
    · contradiction
  · intro change
    exact absurd change other

theorem bound_emailChange {id : TokenId} {user : UserId} {address : String} :
    Bound (mintToken settings id user .emailChange (some address) address now) := by
  constructor
  · intro purpose
    rcases purpose with change | change <;> cases change
  · intro _ mailed went
    rw [mailbox_mintToken] at went
    split at went
    · exact went
    · contradiction

theorem bound_passwordReset {id : TokenId} {user : UserId}
    {payload : Option String} {address : String} :
    Bound (mintToken settings id user .passwordReset payload address now) := by
  constructor
  · intro purpose
    rcases purpose with change | change <;> cases change
  · intro change
    cases change

theorem bound_request {id : TokenId} {user : User} {payload : Option String}
    {taken : String → Bool} {request : LinkRequest}
    (own : ∀ account, request = .emailVerification account → account = user.account)
    (mints : answer (links utils settings (some user)) (some user.account)
      taken request = .mints payload) :
    Bound (mintToken settings id user.id request.purpose payload
      (recipient user payload request) now) := by
  cases request with
  | activation =>
    simp only [answer] at mints
    split at mints
    · contradiction
    · cases mints
      exact bound_mailedAddress nofun
  | passwordReset => exact bound_passwordReset
  | emailVerification account =>
    cases own account rfl
    cases mints
    exact bound_mailedAddress nofun
  | emailChange account newEmail =>
    simp only [answer] at mints
    split at mints
    · contradiction
    · split at mints
      · contradiction
      · cases mints
        exact bound_emailChange

theorem Sound.request {tokenId : TokenId} {user : User} {asked : LinkRequest}
    {mailFails : Bool} {shown : Option TokenId}
    (sound : Sound utils proofs tables)
    (own : ∀ account, asked = .emailVerification account → account = user.account)
    (done : request utils settings tables tokenId user asked mailFails now =
      .ok (left, shown)) : Sound utils proofs left := by
  unfold Mailbox.request at done
  split at done
  · cases done
    exact sound
  · contradiction
  · rename_i payload mints
    split at done
    · split at done
      · cases done
        exact sound
      · cases done
        exact sound
      · contradiction
    · cases done
      exact sound.storeToken (bound_request own mints)

end Steps

variable {purpose : UserTokenPurpose}

theorem purpose_of_consumable {now : Int} {row : LinkToken}
    (consumable : LinkToken.consumable purpose now row = true) :
    row.purpose = purpose := by
  simp only [LinkToken.consumable, Bool.and_eq_true, decide_eq_true_eq] at consumable
  exact consumable.1.1

theorem purpose_consumed {id : TokenId} {now : Int} {row : LinkToken}
    (consumable : LinkToken.consumable purpose now row = true) :
    (row.consume id now).purpose = purpose := by
  have same := purpose_of_consumable consumable
  exact same

def spend (tables : Tables) (token : Token) (now : Int) : Tables :=
  { tables with
    tokens := Table.put Token.id
      { token with row := token.row.consume token.id now } tables.tokens }

theorem consumeToken_cases {tables left : Tables} {id : TokenId} {now : Int} {spent : Token}
    (consumed : consumeToken tables id purpose now = .ok (left, spent)) :
    ∃ token, tables.token id = some token ∧ LinkToken.consumable purpose now token.row = true ∧
      left = spend tables token now ∧
      spent = { token with row := token.row.consume token.id now } := by
  unfold consumeToken at consumed
  split at consumed
  · contradiction
  · rename_i token found
    split at consumed
    · rename_i consumable
      cases consumed
      have same : token.id = id := Table.key_of_find found
      subst same
      exact ⟨token, found, consumable, rfl, rfl⟩
    · contradiction

theorem confirm_cases {tables left : Tables} {id : TokenId} {newHash : String}
    {now : Int} {outcome : Confirmed}
    (done : confirm utils settings purpose tables id newHash now = .ok (left, outcome)) :
    ∃ token, tables.token id = some token ∧ LinkToken.consumable purpose now token.row = true ∧
      ((verdict (links utils settings (tables.user token.row.userId))
            (token.row.consume token.id now)
            ((tables.user token.row.userId).map User.account)
            (tables.emailTaken token.row.userId) now newHash = .refuses ∧
          outcome = .refused ∧ left = spend tables token now) ∨
        ∃ user change target, tables.user token.row.userId = some user ∧
          verdict (links utils settings (some user))
            (token.row.consume token.id now) (some user.account)
            (tables.emailTaken token.row.userId) now newHash = .changes change ∧
          target = { user with account := user.account.apply change id } ∧
          (spend tables token now).flushUser target = .ok left ∧
          outcome = .user ((left.user user.id).getD target)) := by
  unfold confirm at done
  cases consumed : consumeToken tables id purpose now with
  | error error =>
    rw [consumed] at done
    contradiction
  | ok pair =>
    obtain ⟨marked, spent⟩ := pair
    obtain ⟨token, found, consumable, rfl, rfl⟩ := consumeToken_cases consumed
    refine ⟨token, found, consumable, ?_⟩
    rw [consumed] at done
    have same_user : (spend tables token now).user token.row.userId =
        tables.user token.row.userId := rfl
    have same_taken : (spend tables token now).emailTaken token.row.userId =
        tables.emailTaken token.row.userId := rfl
    have same_owner : (token.row.consume token.id now).userId = token.row.userId := rfl
    simp only [bind, Except.bind, same_owner, same_user, same_taken] at done
    cases account : tables.user token.row.userId with
    | none =>
      rw [account] at done
      split at done
      · contradiction
      · rename_i refuses
        cases done
        exact .inl ⟨refuses, rfl, rfl⟩
      · contradiction
      · contradiction
    | some user =>
      rw [account] at done
      split at done
      · contradiction
      · rename_i refuses
        cases done
        exact .inl ⟨refuses, rfl, rfl⟩
      · contradiction
      · rename_i change other changes same
        cases same
        right
        cases flushed : (spend tables token now).flushUser
            { user with account := user.account.apply change id } with
        | error error =>
          rw [flushed] at done
          contradiction
        | ok written =>
          rw [flushed] at done
          cases done
          exact ⟨user, change, _, rfl, changes, rfl, flushed, rfl⟩

section Confirmations

variable {proofs : List (UserId × String)} {tables left : Tables}

theorem Sound.spend {token : Token} {now : Int}
    (sound : Sound utils proofs tables) (stored : token ∈ tables.tokens) :
    Sound utils proofs (spend tables token now) := by
  refine ⟨sound.users, ?_⟩
  intro other member
  rcases Table.mem_put member with rfl | earlier
  · have kept := sound.tokens token stored
    exact ⟨kept.mailed, kept.target⟩
  · exact sound.tokens other earlier

theorem vouched_recordEmailProof {token : Token} {user : User} {now : Int}
    {change : Change} {link : TokenId}
    (vouched : Vouched utils proofs user)
    (own : user.id = token.row.userId)
    (presented : ∀ address, token.mailbox = some address → (token.row.userId, address) ∈ proofs)
    (mailed : ∀ address, token.row.payload = some address → token.mailbox = some address)
    (email : change.email = none)
    (stamp : change.emailVerifiedAt = recordEmailProof
      (links utils settings (some user)) (token.row.consume token.id now)
      user.account now) :
    Vouched utils proofs { user with account := user.account.apply change link } := by
  by_cases proves : token.row.payload = some user.account.email ∧
      linksProveMailbox settings = true
  · intro _
    refine ⟨user.account.email, ?_, .inl ?_⟩
    · change (user.id, user.account.email) ∈ proofs
      rw [own]
      exact presented _ (mailed _ proves.1)
    · simp [Account.apply, email]
  · have kept : change.emailVerifiedAt = none := by
      rw [stamp]
      exact if_neg proves
    refine vouched.of_same rfl ?_ ?_
    · simp [Account.apply, email]
    · simp [Account.apply, kept]

theorem Sound.confirm {purpose : UserTokenPurpose} {id : TokenId}
    {newHash : String} {now : Int} {outcome : Confirmed}
    (sound : Sound utils proofs tables)
    (presented : ∀ token, tables.token id = some token →
      ∀ address, token.mailbox = some address → (token.row.userId, address) ∈ proofs)
    (proved : purpose = .emailChange → linksProveMailbox settings = true →
      ∀ token, tables.token id = some token →
        LinkToken.consumable .emailChange now token.row = true →
        token.mailbox ≠ none)
    (done : confirm utils settings purpose tables id newHash now = .ok (left, outcome)) :
    Sound utils proofs left := by
  obtain ⟨token, found, consumable, ⟨_, _, rfl⟩ |
    ⟨user, change, target, account, changes, rfl, flushed, _⟩⟩ :=
    confirm_cases done
  · exact sound.spend (Table.mem_of_find found)
  · have stored := Table.mem_of_find found
    have own : user.id = token.row.userId := Table.key_of_find account
    have vouched := sound.users user (Table.mem_of_find account)
    have bound := sound.tokens token stored
    refine (sound.spend stored).flushUser ?_ flushed
    have same := purpose_of_consumable consumable
    have spent : (token.row.consume token.id now).purpose = purpose :=
      purpose_consumed consumable
    cases purpose with
    | activation =>
      simp only [verdict, spent] at changes
      split at changes
      · contradiction
      · cases changes
        exact vouched_recordEmailProof vouched own (presented token found)
          (bound.mailed (.inl same)) rfl rfl
    | emailVerification =>
      simp only [verdict, spent] at changes
      cases changes
      exact vouched_recordEmailProof vouched own (presented token found)
        (bound.mailed (.inr same)) rfl rfl
    | passwordReset =>
      simp only [verdict, spent] at changes
      split at changes
      · contradiction
      · cases changes
        exact vouched.of_same rfl rfl rfl
    | emailChange =>
      simp only [verdict, spent] at changes
      split at changes
      · contradiction
      · split at changes
        · contradiction
        · split at changes
          · contradiction
          · cases changes
            intro stamped
            have prove : linksProveMailbox settings = true := by
              simp only [Account.apply, Option.getD_some, ne_eq,
                ite_eq_right_iff, reduceCtorEq, imp_false,
                Decidable.not_not] at stamped
              exact stamped
            obtain ⟨address, mailbox⟩ := Option.ne_none_iff_exists'.mp
              (proved rfl prove token found consumable)
            have payload := bound.target same address mailbox
            refine ⟨address, ?_, .inr ?_⟩
            · change (user.id, address) ∈ proofs
              rw [own]
              exact presented token found address mailbox
            · change utils.normalize (token.row.payload.getD "") = _
              rw [payload]
              rfl

end Confirmations

section Operations

variable {proofs : List (UserId × String)} {tables left : Tables}
variable {user : User}

theorem insertSignup_flushes {id : UserId} {email password hashed : String}
    {fields : List (String × String)}
    (done : insertSignup utils settings tables id email password hashed
      fields = .ok (left, user)) :
    user = signupUser settings id (utils.normalize email) hashed fields ∧
      tables.flushUser user = .ok left := by
  obtain ⟨_, _, done⟩ := Effects.ok_of_bind done
  obtain ⟨_, _, done⟩ := Effects.ok_of_bind done
  obtain ⟨_, _, done⟩ := Effects.ok_of_bind done
  dsimp only at done
  split at done
  · contradiction
  · obtain ⟨written, flushed, done⟩ := Effects.ok_of_bind done
    cases done
    exact ⟨rfl, flushed⟩

variable {tokenId : TokenId} {mailFails : Bool} {now : Int}

theorem Sound.issueActivation {activation : Activation} (sound : Sound utils proofs tables)
    (done : issueActivation utils settings tables user tokenId mailFails now =
      .ok (left, activation)) : Sound utils proofs left := by
  unfold Mailbox.issueActivation at done
  split at done
  · cases done
    exact sound
  · split at done
    · cases done
      exact sound
    · split at done
      · contradiction
      · cases done
        exact sound.storeToken (bound_mailedAddress nofun)

theorem Sound.signup {id : UserId} {email password hashed : String}
    {fields : List (String × String)} {activation : Activation}
    (sound : Sound utils proofs tables)
    (done : signup utils settings tables id tokenId email password hashed
      fields mailFails now = .ok (left, user, activation)) :
    Sound utils proofs left := by
  obtain ⟨⟨inserted, row⟩, insert, done⟩ := Effects.ok_of_bind done
  obtain ⟨⟨issued, how⟩, issue, done⟩ := Effects.ok_of_bind done
  cases done
  obtain ⟨rfl, flushed⟩ := insertSignup_flushes insert
  have written := sound.flushUser (vouched_of_none rfl) flushed
  exact written.issueActivation issue

variable {shown : Option TokenId}

section

variable (sound : Sound utils proofs tables)

include sound

theorem Sound.requestActivation {email : String}
    (done : requestActivation utils settings tables tokenId email mailFails
      now = .ok (left, shown)) : Sound utils proofs left := by
  obtain ⟨_, _, done⟩ := Effects.ok_of_bind done
  split at done
  · cases done
    exact sound
  · exact sound.request (fun _ same => by cases same) done

theorem Sound.requestPasswordReset {email : String}
    (done : requestPasswordReset utils settings tables tokenId email
      mailFails now = .ok (left, shown)) : Sound utils proofs left := by
  obtain ⟨_, _, done⟩ := Effects.ok_of_bind done
  split at done
  · cases done
    exact sound
  · exact sound.request (fun _ same => by cases same) done

theorem Sound.requestEmailVerification
    (done : requestEmailVerification utils settings tables tokenId user
      mailFails now = .ok (left, shown)) : Sound utils proofs left := by
  obtain ⟨_, _, done⟩ := Effects.ok_of_bind done
  refine sound.request ?_ done
  intro account same
  cases same
  rfl

theorem Sound.requestEmailChange {currentPassword newEmail : String}
    (done : requestEmailChange utils settings tables tokenId user
      currentPassword newEmail mailFails now = .ok (left, shown)) :
    Sound utils proofs left := by
  obtain ⟨_, _, done⟩ := Effects.ok_of_bind done
  split at done
  · exact sound.request (fun _ same => by cases same) done
  · contradiction

theorem Sound.requestEmailRecovery {email newEmail currentPassword : String}
    {throttled : Bool} {code : MfaCode}
    (done : requestEmailRecovery utils settings tables tokenId email newEmail
      currentPassword throttled code mailFails now = .ok (left, shown)) :
    Sound utils proofs left := by
  obtain ⟨_, _, done⟩ := Effects.ok_of_bind done
  split at done
  · cases done
    exact sound
  · split at done
    · cases done
      exact sound
    · split at done
      · cases done
        exact sound
      · split at done
        · cases done
          exact sound
        · cases done
          exact sound
        · contradiction
        · exact sound.request (fun _ same => by cases same) done

end

theorem authenticateOAuth_cases {id : UserId} {profile : OAuthUser}
    {hashed : String} {link create : Option Bool}
    (done : authenticateOAuth utils settings tables id profile hashed link
      create now = .ok (left, user)) :
    (left.users = tables.users ∧ left.tokens = tables.tokens) ∨
      ∃ written address, profile.emailVerified = some true ∧ profile.email = some address ∧
        user.account.email = utils.normalize address ∧
        tables.flushUser user = .ok written ∧
        left.users = written.users ∧ left.tokens = written.tokens := by
  unfold authenticateOAuth at done
  dsimp only at done
  split at done
  · obtain ⟨loaded, _, done⟩ := Effects.ok_of_bind done
    cases done
    exact .inl ⟨rfl, rfl⟩
  · obtain ⟨⟨resolved, found⟩, resolve, done⟩ := Effects.ok_of_bind done
    cases done
    unfold resolveOAuthUser at resolve
    dsimp only at resolve
    split at resolve
    · contradiction
    · rename_i given
      split at resolve
      · repeat' split at resolve
        all_goals try contradiction
        cases resolve
        exact .inl ⟨rfl, rfl⟩
      · split at resolve
        · contradiction
        · split at resolve
          · contradiction
          · rename_i verified
            obtain ⟨written, flushed, done⟩ := Effects.ok_of_bind resolve
            cases done
            cases email : profile.email with
            | none => simp [profileEmail, email] at given
            | some address =>
              refine .inr ⟨_, address, by simpa using verified, rfl, ?_,
                flushed, rfl, rfl⟩
              simp [profileEmail, email]

theorem Sound.of_same (sound : Sound utils proofs tables)
    (users : left.users = tables.users) (tokens : left.tokens = tables.tokens) :
    Sound utils proofs left := by
  constructor
  · rw [users]
    exact sound.users
  · rw [tokens]
    exact sound.tokens

end Operations

/-- Every row there is, or was, that says so belongs to the holder of its
mailbox. -/
structure Lawful (utils : AuthUtils) (state : AuthState) : Prop where
  tables : Sound utils state.proofs state.tables
  past : ∀ user ∈ state.past, Vouched utils state.proofs user

/-- A confirmation of an e-mail change, made while the links prove the mailbox,
spends a link that was mailed and nothing else. -/
def spendsMailedLink (state : AuthState) : AuthAction → Bool
  | .confirmEmailChange id _ now =>
    !linksProveMailbox state.settings || (state.tables.token id).all fun token =>
        !LinkToken.consumable .emailChange now token.row || token.mailbox.isSome
  | _ => true

section Runs

variable {state : AuthState}

section

variable (lawful : Lawful utils state)

include lawful

theorem Lawful.store {left : Tables} (sound : Sound utils state.proofs left) :
    Lawful utils (state.store left) := by
  refine ⟨sound, ?_⟩
  intro user member
  rcases List.mem_append.mp member with earlier | now
  · exact lawful.past user earlier
  · exact sound.users user now

theorem Lawful.settle {α : Type} {result : Except AuthError (Tables × α)}
    {done : AuthState → α → AuthState}
    (kept : ∀ left value, result = .ok (left, value) → Sound utils state.proofs left)
    (next : ∀ later value, Lawful utils later → Lawful utils (done later value)) :
    Lawful utils (state.settle result done) := by
  cases result with
  | error error => exact lawful
  | ok pair =>
    apply next
    exact lawful.store (kept pair.1 pair.2 rfl)

theorem Lawful.grow {more : List (UserId × String)}
    (grows : ∀ proof ∈ state.proofs, proof ∈ more) :
    Lawful utils { state with proofs := more } :=
  ⟨lawful.tables.mono grows, fun user member =>
    (lawful.past user member).mono grows⟩

theorem Lawful.signIn (user : UserId) : Lawful utils (state.signIn user) :=
  ⟨lawful.tables, lawful.past⟩

theorem Lawful.signInConfirmed
    (outcome : Confirmed) : Lawful utils (state.signInConfirmed outcome) := by
  cases outcome with
  | refused => exact lawful
  | user user => exact lawful.signIn user.id

theorem Lawful.present (id : TokenId) : Lawful utils (state.present id) := by
  unfold AuthState.present
  split
  · exact lawful
  · apply lawful.grow
    intro proof member
    exact List.mem_append_left _ member

end

@[simp] theorem present_tables (id : TokenId) :
    (state.present id).tables = state.tables := by
  unfold AuthState.present
  split <;> rfl

theorem present_proofs {id : TokenId} {token : Token} {address : String}
    (found : state.tables.token id = some token)
    (mailbox : token.mailbox = some address) :
    (token.row.userId, address) ∈ (state.present id).proofs := by
  simp [AuthState.present, found, mailbox]

theorem Lawful.confirmed {purpose : UserTokenPurpose} {id : TokenId}
    {newHash : String} {now : Int} {left : Tables} {outcome : Confirmed}
    (lawful : Lawful utils state)
    (proved : purpose = .emailChange → linksProveMailbox state.settings = true →
      ∀ token, state.tables.token id = some token →
        LinkToken.consumable .emailChange now token.row = true →
        token.mailbox ≠ none)
    (done : confirm utils state.settings purpose state.tables id newHash now =
      .ok (left, outcome)) :
    Sound utils (state.present id).proofs left := by
  have presented := (lawful.present id).tables
  rw [present_tables] at presented
  exact presented.confirm (fun token found _ => present_proofs found) proved done

theorem Lawful.authenticated {id : UserId} {profile : OAuthUser}
    {hashed : String} {link create : Option Bool} {now : Int} {left : Tables}
    {user : User} (lawful : Lawful utils state)
    (done : authenticateOAuth utils state.settings state.tables id profile
      hashed link create now = .ok (left, user)) :
    Lawful utils (((state.store left).vouch user.id profile).signIn user.id) := by
  apply Lawful.signIn
  rcases authenticateOAuth_cases done with
    ⟨users, tokens⟩ | ⟨written, address, verified, given, email, flushed, users, tokens⟩
  · have stored := lawful.store (lawful.tables.of_same users tokens)
    unfold AuthState.vouch
    split
    · apply stored.grow
      intro proof member
      exact List.mem_append_left _ member
    · exact stored
  · have grows : ∀ proof ∈ state.proofs, proof ∈ state.proofs ++ [(user.id, address)] :=
      fun proof member => List.mem_append_left _ member
    have vouched : Vouched utils (state.proofs ++ [(user.id, address)]) user := by
      intro _
      exact ⟨address, List.mem_append_right _ List.mem_cons_self, .inr email⟩
    have sound := (lawful.tables.mono grows).flushUser vouched flushed
    have stored := (lawful.grow grows).store (sound.of_same users tokens)
    simpa [AuthState.vouch, verified, given, AuthState.store] using stored

theorem Lawful.step {next : AuthState} {action : AuthAction} (lawful : Lawful utils state)
    (mailed : spendsMailedLink state action = true)
    (taken : state.step utils action = some next) : Lawful utils next := by
  cases action with
  | configure settings =>
    cases taken
    exact ⟨lawful.tables, lawful.past⟩
  | edit target =>
    obtain ⟨loaded, found, rfl⟩ := Option.map_eq_some_iff.mp taken
    refine lawful.settle ?_ fun later _ kept => kept
    intro left _ done
    obtain ⟨written, flushed, same⟩ := Effects.ok_of_map done
    cases same
    exact lawful.tables.edit (by exact found) (by rfl) flushed
  | remove id =>
    cases taken
    refine ⟨⟨?_, lawful.tables.tokens⟩, lawful.past⟩
    intro user member
    exact lawful.tables.users user (List.mem_of_mem_filter member)
  | signup id tokenId email password hashed fields mailFails now =>
    simp only [AuthState.step] at taken
    split at taken
    · cases taken
      refine lawful.settle ?_ ?_
      · intro left value done
        exact lawful.tables.signup done
      · intro later value kept
        obtain ⟨user, activation⟩ := value
        cases activation with
        | bornActive => exact kept.signIn user.id
        | withheld => exact kept
        | pending token => exact kept
    · contradiction
  | requestActivation tokenId email mailFails now =>
    simp only [AuthState.step] at taken
    split at taken
    · cases taken
      refine lawful.settle ?_ fun later _ kept => kept
      intro left shown done
      exact lawful.tables.requestActivation done
    · contradiction
  | activate token now =>
    cases taken
    refine (lawful.present token).settle ?_ fun later outcome kept =>
      kept.signInConfirmed outcome
    intro left outcome done
    exact lawful.confirmed (fun change => by cases change) done
  | login email password =>
    simp only [AuthState.step] at taken
    split at taken
    · cases taken
      exact lawful
    · cases taken
      exact lawful.signIn _
  | authenticateOAuth id profile hashed link create now =>
    simp only [AuthState.step] at taken
    split at taken
    · cases taken
      unfold AuthState.settle
      split
      · exact lawful
      · rename_i left user done
        exact lawful.authenticated done
    · contradiction
  | unlinkOAuthAccount user provider =>
    cases taken
    refine lawful.settle ?_ fun later _ kept => kept
    intro left _ done
    obtain ⟨written, unlinked, same⟩ := Effects.ok_of_map done
    cases same
    unfold Mailbox.unlinkOAuthAccount at unlinked
    dsimp only at unlinked
    split at unlinked
    · contradiction
    · cases unlinked
      exact lawful.tables.of_same rfl rfl
    · contradiction
  | requestPasswordReset tokenId email mailFails now =>
    simp only [AuthState.step] at taken
    split at taken
    · cases taken
      refine lawful.settle ?_ fun later _ kept => kept
      intro left shown done
      exact lawful.tables.requestPasswordReset done
    · contradiction
  | confirmPasswordReset token newPassword newHash now =>
    cases taken
    refine (lawful.present token).settle ?_ fun later outcome kept =>
      kept.signInConfirmed outcome
    intro left outcome done
    obtain ⟨_, _, done⟩ := Effects.ok_of_bind done
    exact lawful.confirmed (fun change => by cases change) done
  | changePassword user currentPassword newPassword hashed =>
    simp only [AuthState.step] at taken
    split at taken
    · rename_i was
      cases taken
      refine lawful.settle ?_ fun later _ kept => kept
      intro left _ done
      obtain ⟨written, changed, same⟩ := Effects.ok_of_map done
      cases same
      unfold Mailbox.changePassword at changed
      split at changed
      · obtain ⟨_, _, flushed⟩ := Effects.ok_of_bind changed
        have vouched : Vouched utils state.proofs { user with
            account := { user.account with hashedPassword := hashed } } :=
          (lawful.past user was).of_same rfl rfl rfl
        exact lawful.tables.flushUser vouched flushed
      · contradiction
    · contradiction
  | requestEmailChange tokenId user currentPassword newEmail mailFails now =>
    simp only [AuthState.step] at taken
    split at taken
    · cases taken
      refine lawful.settle ?_ fun later _ kept => kept
      intro left shown done
      exact lawful.tables.requestEmailChange done
    · contradiction
  | requestEmailRecovery tokenId email newEmail currentPassword throttled code
      mailFails now =>
      simp only [AuthState.step] at taken
      split at taken
      · cases taken
        refine lawful.settle ?_ fun later _ kept => kept
        intro left shown done
        exact lawful.tables.requestEmailRecovery done
      · contradiction
  | confirmEmailChange token noticeFails now =>
    cases taken
    refine (lawful.present token).settle ?_ fun later _ kept => kept
    intro left outcome done
    obtain ⟨_, _, done⟩ := Effects.ok_of_bind done
    obtain ⟨changed, confirmed, done⟩ := Effects.ok_of_bind done
    split at done
    · contradiction
    · cases done
      refine lawful.confirmed ?_ confirmed
      intro _ prove spent found consumable
      simpa [spendsMailedLink, prove, found, consumable, Option.isSome_iff_ne_none] using mailed
  | requestEmailVerification tokenId user mailFails now =>
    simp only [AuthState.step] at taken
    split at taken
    · cases taken
      refine lawful.settle ?_ fun later _ kept => kept
      intro left shown done
      exact lawful.tables.requestEmailVerification done
    · contradiction
  | confirmEmailVerification token now =>
    cases taken
    refine (lawful.present token).settle ?_ fun later _ kept => kept
    intro left outcome done
    exact lawful.confirmed (fun change => by cases change) done

theorem lawful_start (settings : AuthSettings) : Lawful utils (.start settings) := by
  refine ⟨⟨?_, ?_⟩, ?_⟩ <;> exact nofun

/-- In every run whose confirmations of an e-mail change spend mailed links
while the links prove the mailbox, a row with `email_verified_at` belongs to
the holder of the mailbox of its address. -/
theorem verified_means_proven {settings : AuthSettings}
    {actions : List AuthAction} {final : AuthState}
    (mailed : Meets (AuthState.step utils)
      (fun state action => spendsMailedLink state action = true)
      (.start settings) actions)
    (run : exec (AuthState.step utils) (.start settings) actions = some final)
    {user : User} (stored : user ∈ final.tables.users)
    (verified : user.account.emailVerifiedAt ≠ none) :
    Proven utils final.proofs user.id user.account.email := by
  have lawful : Lawful utils final :=
    exec_invariant_of_meets (fun state action next lawful met taken =>
      Lawful.step lawful met taken) mailed (lawful_start settings) run
  exact lawful.tables.users user stored verified

theorem stamps_without_proof {id : TokenId} {now : Int} {left : Tables}
    {outcome : Confirmed} {token : Token} {user : User}
    (found : state.tables.token id = some token)
    (unmailed : token.mailbox = none)
    (prove : linksProveMailbox state.settings = true)
    (owner : state.tables.user token.row.userId = some user)
    (earlier : user.account.emailVerifiedAt ≠ some now)
    (done : confirm utils state.settings .emailChange state.tables id "" now =
      .ok (left, outcome)) :
    (state.present id).proofs = state.proofs ∧ ∃ changed ∈ left.users, changed.id = user.id ∧
        changed.account.emailVerifiedAt = some now := by
  refine ⟨by simp [AuthState.present, found, unmailed], ?_⟩
  obtain ⟨other, same, consumable, ⟨refuses, _, _⟩ |
    ⟨account, change, target, owns, changes, rfl, flushed, _⟩⟩ :=
    confirm_cases done
  · rw [found] at same
    cases same
    have purpose : (token.row.consume token.id now).purpose = .emailChange :=
      purpose_consumed consumable
    simp only [verdict, purpose] at refuses
    repeat' split at refuses
    all_goals contradiction
  · rw [found] at same
    cases same
    rw [owner] at owns
    cases owns
    have purpose : (token.row.consume token.id now).purpose = .emailChange :=
      purpose_consumed consumable
    have stamp : (user.account.apply change id).emailVerifiedAt = some now := by
      simp only [verdict, purpose] at changes
      split at changes
      · contradiction
      · split at changes
        · contradiction
        · split at changes
          · contradiction
          · cases changes
            exact if_pos prove
    have own : user.id = token.row.userId := Table.key_of_find owner
    obtain ⟨written, rfl, ⟨missing, _⟩ | ⟨loaded, stored, rfl⟩⟩ :=
      flushUser_cases flushed
    · have absent : state.tables.user user.id = none := missing
      rw [own, owner] at absent
      contradiction
    · have same : loaded = user := by
        have found : state.tables.user user.id = some loaded := stored
        rw [own, owner] at found
        exact (Option.some.inj found).symm
      subst same
      refine ⟨_, Table.mem_put_self _ _, id_forgetProof _ _, ?_⟩
      unfold Tables.forgetProofOfPreviousEmail
      split
      · exact stamp
      · rw [if_pos (by rw [stamp]; exact earlier.symm)]
        exact stamp

end Runs

def sampleSettings (shown : Bool) : AuthSettings where
  emailWired := true
  emailEnabled := true
  development := true
  autoActivate := false
  returnTokenInResponse := shown
  singleActiveToken := true
  emailChangeNotifyOld := true
  revealInactiveAccount := false
  mfaEnabled := true
  ttl := fun _ => 60
  signupEnabled := true
  oauthAllowAccountCreation := none
  oauthLinkByVerifiedEmail := false
  refusesEmailLink := none
  passwordPolicy := fun _ => none
  columns := ["id", "email", "name"]
  secretColumns := []

def sampleUtils : AuthUtils where
  normalize := id
  verify := fun password hashed => decide (password = hashed)

def sampleUser (email : String) (verified : Option Int) (applied : List TokenId) : User where
  id := 0
  account :=
    { isActive := !applied.isEmpty, hashedPassword := "secret", email
      emailVerifiedAt := verified, applied }
  totpEnabled := false
  columns := []

def mailedChange : List AuthAction :=
  [.signup 0 0 "old" "secret" "secret" [] false 0, .activate 0 1,
    .requestEmailChange 1 (sampleUser "old" (some 1) [0]) "secret" "new" false 2,
    .confirmEmailChange 1 false 3]

theorem verified_means_proven_changed :
    ∃ final, exec (AuthState.step sampleUtils) (.start (sampleSettings false))
        mailedChange = some final ∧
      sampleUser "new" (some 3) [0, 1] ∈ final.tables.users ∧
      Proven sampleUtils final.proofs 0 "new" := by
  have mailed : Meets (AuthState.step sampleUtils)
      (fun state action => spendsMailedLink state action = true)
      (.start (sampleSettings false)) mailedChange := by decide
  obtain ⟨final, run, stored⟩ : ∃ final,
      exec (AuthState.step sampleUtils) (.start (sampleSettings false))
        mailedChange = some final ∧
      sampleUser "new" (some 3) [0, 1] ∈ final.tables.users :=
    ⟨_, rfl, by decide⟩
  exact ⟨final, run, stored, verified_means_proven mailed run stored (by decide)⟩

theorem shown_link_verifies :
    ∃ final, exec (AuthState.step sampleUtils) (.start (sampleSettings true))
        [.signup 0 0 "old" "secret" "secret" [] false 0, .activate 0 1,
          .requestEmailChange 1 (sampleUser "old" none [0]) "secret" "new" false 2,
          .configure (sampleSettings false),
          .confirmEmailChange 1 false 3] = some final ∧
      sampleUser "new" (some 3) [0, 1] ∈ final.tables.users ∧
      final.proofs = [] :=
  ⟨_, rfl, by decide, by decide⟩

end Mailbox

end TempestSdk
