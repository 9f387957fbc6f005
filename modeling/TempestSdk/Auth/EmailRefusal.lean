import TempestSdk.Auth.EmailProof

/-!
# What a mailed link does to an account that refuses links

`refuses_email_link` closes the links of an account.  Each confirm method is
shown a token that may be older than the refusal: those that ask the predicate
spend it and leave the account alone, the one of an e-mail change only moves
the address, and the one of an e-mail verification makes the account active.
The runs are those in which the account is active already.
-/

namespace TempestSdk

namespace Mailbox

open Runs
open LinkTokens (UserTokenPurpose Account LinkToken TokenId verdict)

variable {utils : AuthUtils} {settings : AuthSettings}

/-- The confirmation of an e-mail verification meets no mailed link of an
inactive account that refuses links. -/
def sparesRefused (state : AuthState) : AuthAction → Bool
  | .confirmEmailVerification id now =>
    (state.tables.token id).all fun token =>
      !LinkToken.consumable .emailVerification now token.row || token.mailedTo.isNone ||
        (state.tables.user token.row.userId).all fun user =>
          !emailLinkRefused state.settings user || user.account.isActive
  | _ => true

def Closed (user : User) (tables : Tables) : Prop :=
  ∃ left, tables.user user.id = some left ∧ left.account.isActive = user.account.isActive ∧
    left.account.hashedPassword = user.account.hashedPassword

section Rows

variable {tables left : Tables}

theorem closed_of_same {user : User} (users : left.users = tables.users)
    (owner : tables.user user.id = some user) : Closed user left := by
  refine ⟨user, ?_, rfl, rfl⟩
  unfold Tables.user
  rw [users]
  exact owner

theorem flushed_row {target : User} (flushed : tables.flushUser target = .ok left) :
    ∃ written, left.user target.id = some written ∧
      written.account.isActive = target.account.isActive ∧
      written.account.hashedPassword = target.account.hashedPassword := by
  obtain ⟨written, rfl, ⟨_, rfl⟩ | ⟨loaded, _, rfl⟩⟩ := flushUser_cases flushed
  · exact ⟨written, Table.find_put_self _ _, rfl, rfl⟩
  · refine ⟨Tables.forgetProofOfPreviousEmail loaded target, ?_, ?_⟩
    · rw [← id_forgetProof loaded target]
      exact Table.find_put_self _ _
    · unfold Tables.forgetProofOfPreviousEmail
      split
      · exact ⟨rfl, rfl⟩
      · split <;> exact ⟨rfl, rfl⟩

theorem closed_flushUser {user target : User} (flushed : tables.flushUser target = .ok left)
    (id : target.id = user.id)
    (active : target.account.isActive = user.account.isActive)
    (password : target.account.hashedPassword = user.account.hashedPassword) :
    Closed user left := by
  obtain ⟨written, found, same, kept⟩ := flushed_row flushed
  rw [id] at found
  exact ⟨written, found, same.trans active, kept.trans password⟩

end Rows

theorem refuses_of_asks {purpose : UserTokenPurpose} {token : LinkToken}
    {user : User} {taken : String → Bool} {now : Int} {newHash : String}
    (asks : purpose.asksRefusal = true) (same : token.purpose = purpose)
    (refused : emailLinkRefused settings user = true) :
    verdict (links utils settings (some user)) token (some user.account)
      taken now newHash = .refuses := by
  have refuses : (links utils settings (some user)).refusesEmailLink
      user.account = true := refused
  subst same
  cases purpose : token.purpose with
  | activation => simp [verdict, purpose, refuses]
  | passwordReset => simp [verdict, purpose, refuses]
  | emailVerification => simp [purpose, UserTokenPurpose.asksRefusal] at asks
  | emailChange => simp [purpose, UserTokenPurpose.asksRefusal] at asks

section Confirmations

variable {tables left : Tables} {id : TokenId} {token : Token} {user : User}
  {outcome : Confirmed} {newHash : String} {now : Int}

theorem confirm_refused {purpose : UserTokenPurpose} (asks : purpose.asksRefusal = true)
    (found : tables.token id = some token)
    (owner : tables.user token.row.userId = some user)
    (refused : emailLinkRefused settings user = true)
    (done : confirm utils settings purpose tables id newHash now = .ok (left, outcome)) :
    outcome = .refused ∧ left.users = tables.users := by
  obtain ⟨other, same, consumable, ⟨_, rfl, rfl⟩ |
    ⟨account, change, target, owns, changes, _⟩⟩ := confirm_cases done
  · exact ⟨rfl, rfl⟩
  · rw [found] at same
    cases same
    rw [owner] at owns
    cases owns
    have purposed : (token.row.consume token.id now).purpose = purpose :=
      purpose_consumed consumable
    rw [refuses_of_asks asks purposed refused] at changes
    contradiction

theorem closed_emailChange (found : tables.token id = some token)
    (owner : tables.user token.row.userId = some user)
    (done : confirm utils settings .emailChange tables id newHash now = .ok (left, outcome)) :
    Closed user left := by
  have own : user.id = token.row.userId := Table.key_of_find owner
  obtain ⟨other, same, consumable, ⟨_, _, rfl⟩ |
    ⟨account, change, target, owns, changes, rfl, flushed, _⟩⟩ :=
    confirm_cases done
  · apply closed_of_same rfl
    rw [own]
    exact owner
  · rw [found] at same
    cases same
    rw [owner] at owns
    cases owns
    have purposed : (token.row.consume token.id now).purpose = .emailChange :=
      purpose_consumed consumable
    simp only [verdict, purposed] at changes
    split at changes
    · contradiction
    · split at changes
      · contradiction
      · split at changes
        · contradiction
        · cases changes
          exact closed_flushUser flushed rfl rfl rfl

theorem closed_emailVerification (found : tables.token id = some token)
    (owner : tables.user token.row.userId = some user)
    (active : LinkToken.consumable .emailVerification now token.row = true →
      user.account.isActive = true)
    (done : confirm utils settings .emailVerification tables id newHash now =
      .ok (left, outcome)) :
    Closed user left := by
  have own : user.id = token.row.userId := Table.key_of_find owner
  obtain ⟨other, same, consumable, ⟨_, _, rfl⟩ |
    ⟨account, change, target, owns, changes, rfl, flushed, _⟩⟩ :=
    confirm_cases done
  · apply closed_of_same rfl
    rw [own]
    exact owner
  · rw [found] at same
    cases same
    rw [owner] at owns
    cases owns
    have purposed : (token.row.consume token.id now).purpose =
        .emailVerification := purpose_consumed consumable
    simp only [verdict, purposed] at changes
    cases changes
    exact closed_flushUser flushed rfl (active consumable).symm rfl

end Confirmations

section Runs

variable {state next : AuthState} {id : TokenId} {token : Token} {user : User}

@[simp] theorem present_signIns (id : TokenId) :
    (state.present id).signIns = state.signIns := by
  unfold AuthState.present
  split <;> rfl

theorem closed_settle {result : Except AuthError (Tables × Confirmed)}
    {done : AuthState → Confirmed → AuthState}
    (owner : state.tables.user token.row.userId = some user)
    (kept : ∀ left outcome, result = .ok (left, outcome) → Closed user left ∧
        ∀ later : AuthState, done later outcome = later) :
    ((state.present id).settle result done).signIns = state.signIns ∧
      Closed user ((state.present id).settle result done).tables := by
  have own : user.id = token.row.userId := Table.key_of_find owner
  cases result with
  | error error =>
    refine ⟨present_signIns id, ?_⟩
    apply closed_of_same (by rw [AuthState.settle, present_tables])
    rw [own]
    exact owner
  | ok pair =>
    obtain ⟨left, outcome⟩ := pair
    obtain ⟨closed, quiet⟩ := kept left outcome rfl
    simp only [AuthState.settle, quiet]
    exact ⟨present_signIns id, closed⟩

theorem step_refused {action : AuthAction} (spared : sparesRefused state action = true)
    (taken : state.step utils action = some next)
    (presented : action.presents = some id)
    (found : state.tables.token id = some token)
    (mailed : token.mailedTo ≠ none)
    (owner : state.tables.user token.row.userId = some user)
    (refused : emailLinkRefused state.settings user = true) :
    next.signIns = state.signIns ∧ Closed user next.tables := by
  have own : user.id = token.row.userId := Table.key_of_find owner
  have asked : ∀ {purpose : UserTokenPurpose} {left : Tables}
      {outcome : Confirmed} {newHash : String} {now : Int},
      purpose.asksRefusal = true →
      confirm utils state.settings purpose state.tables id newHash now = .ok (left, outcome) →
      Closed user left ∧ ∀ later : AuthState, later.signInConfirmed outcome = later := by
    intro purpose left outcome newHash now asks done
    obtain ⟨rfl, users⟩ := confirm_refused asks found owner refused done
    refine ⟨closed_of_same users ?_, fun later => rfl⟩
    rw [own]
    exact owner
  cases action with
  | activate link now =>
    cases presented
    cases taken
    apply closed_settle owner
    intro left outcome done
    exact asked rfl done
  | confirmPasswordReset link newPassword newHash now =>
    cases presented
    cases taken
    apply closed_settle owner
    intro left outcome done
    obtain ⟨_, _, done⟩ := Effects.ok_of_bind done
    exact asked rfl done
  | confirmEmailChange link noticeFails now =>
    cases presented
    cases taken
    apply closed_settle owner
    intro left outcome done
    obtain ⟨_, _, done⟩ := Effects.ok_of_bind done
    obtain ⟨changed, confirmed, done⟩ := Effects.ok_of_bind done
    split at done
    · contradiction
    · cases done
      exact ⟨closed_emailChange found owner confirmed, fun later => rfl⟩
  | confirmEmailVerification link now =>
    cases presented
    cases taken
    apply closed_settle owner
    intro left outcome done
    refine ⟨closed_emailVerification found owner ?_ done, fun later => rfl⟩
    intro consumable
    simpa [sparesRefused, found, consumable, mailed, owner, refused] using spared
  | _ => contradiction

/-- In every run that spares inactive accounts, no mailed link activates an
account while it refuses links, signs it in or changes its password. -/
theorem refused_unreachable_by_mail {settings : AuthSettings}
    {before after : List AuthAction} {action : AuthAction}
    (spared : Meets (AuthState.step utils)
      (fun state action => sparesRefused state action = true)
      (.start settings) (before ++ action :: after))
    (reached : exec (AuthState.step utils) (.start settings) before = some state)
    (taken : state.step utils action = some next)
    (presented : action.presents = some id)
    (found : state.tables.token id = some token)
    (mailed : token.mailedTo ≠ none)
    (owner : state.tables.user token.row.userId = some user)
    (refused : emailLinkRefused state.settings user = true) :
    next.signIns = state.signIns ∧ ∃ left, next.tables.user user.id = some left ∧
        left.account.isActive = user.account.isActive ∧
        left.account.hashedPassword = user.account.hashedPassword :=
  step_refused (spared.of_append.2 state reached).1 taken presented found mailed owner refused

theorem activates_refused {now : Int} {left : Tables} {outcome : Confirmed}
    (found : state.tables.token id = some token)
    (owner : state.tables.user token.row.userId = some user)
    (done : confirmEmailVerification utils state.settings state.tables id now =
      .ok (left, outcome)) :
    ∃ changed, left.user user.id = some changed ∧ changed.account.isActive = true := by
  obtain ⟨other, same, consumable, ⟨refuses, _, _⟩ |
    ⟨account, change, target, owns, changes, rfl, flushed, _⟩⟩ :=
    confirm_cases done
  · rw [found] at same
    cases same
    rw [owner] at refuses
    have purposed : (token.row.consume token.id now).purpose =
        .emailVerification := purpose_consumed consumable
    simp only [verdict, Option.map_some, purposed] at refuses
    contradiction
  · rw [found] at same
    cases same
    rw [owner] at owns
    cases owns
    have purposed : (token.row.consume token.id now).purpose =
        .emailVerification := purpose_consumed consumable
    simp only [verdict, purposed] at changes
    cases changes
    obtain ⟨written, stored, active, _⟩ := flushed_row flushed
    exact ⟨written, stored, active⟩

end Runs

/-- The settings of an operator who refuses the links of one address. -/
def closedSettings : AuthSettings :=
  { sampleSettings false with
    refusesEmailLink := some fun user => decide (user.account.email = "old") }

theorem refused_unreachable_by_mail_activation : ∃ state next token,
      exec (AuthState.step sampleUtils) (.start (sampleSettings false))
        [.signup 0 0 "old" "secret" "secret" [] false 0,
          .configure closedSettings] = some state ∧
      state.step sampleUtils (.activate 0 1) = some next ∧
      state.tables.token 0 = some token ∧ token.mailedTo = some "old" ∧
      next.signIns = [] ∧
      ∃ left, next.tables.user 0 = some left ∧ left.account.isActive = false ∧
        left.account.hashedPassword = "secret" := by
  have spared : Meets (AuthState.step sampleUtils)
      (fun state action => sparesRefused state action = true)
      (.start (sampleSettings false))
      ([.signup 0 0 "old" "secret" "secret" [] false 0,
        .configure closedSettings] ++ .activate 0 1 :: []) := by decide
  obtain ⟨state, reached, next, taken, token, found, mailed, owner, refused,
    quiet⟩ : ∃ state, exec (AuthState.step sampleUtils) (.start (sampleSettings false))
        [.signup 0 0 "old" "secret" "secret" [] false 0,
          .configure closedSettings] = some state ∧
      ∃ next, state.step sampleUtils (.activate 0 1) = some next ∧
      ∃ token, state.tables.token 0 = some token ∧ token.mailedTo = some "old" ∧
        state.tables.user token.row.userId = some (sampleUser "old" none []) ∧
        emailLinkRefused state.settings (sampleUser "old" none []) = true ∧
        state.signIns = [] :=
    ⟨_, rfl, _, rfl, _, rfl, rfl, rfl, rfl, rfl⟩
  have closed := refused_unreachable_by_mail spared reached taken rfl found
    (by rw [mailed]; exact nofun) owner refused
  exact ⟨state, next, token, reached, taken, found, mailed, closed.1.trans quiet, closed.2⟩

theorem verification_activates_refused : ∃ state next,
      exec (AuthState.step sampleUtils) (.start (sampleSettings false))
        [.signup 0 0 "old" "secret" "secret" [] false 0, .activate 0 1,
          .requestEmailVerification 1 (sampleUser "old" (some 1) [0]) false 2,
          .configure closedSettings,
          .edit (sampleUser "old" (some 1) [])] = some state ∧
      state.step sampleUtils (.confirmEmailVerification 1 3) = some next ∧
      (state.tables.token 1).map Token.mailedTo = some (some "old") ∧
      state.tables.user 0 = some (sampleUser "old" (some 1) []) ∧
      emailLinkRefused state.settings (sampleUser "old" (some 1) []) = true ∧
      (sampleUser "old" (some 1) []).account.isActive = false ∧
      (next.tables.user 0).map (fun user => user.account.isActive) = some true :=
  ⟨_, _, rfl, rfl, rfl, rfl, rfl, rfl, rfl⟩

end Mailbox

end TempestSdk
