import Mathlib.Data.List.Infix
import Mathlib.Data.List.Nodup
import TempestSdk.Auth.Webauthn
import TempestSdk.Library.Entries
import TempestSdk.Library.Runs

/-!
# Single use and signature counters

A challenge id completes no more ceremonies than it was drawn times, whatever
the interleaving.  The counters a row accepts advance as long as a zero is only
accepted after a zero, and no other ceremony stores a counter that is not below
the reported one between the read and the write of its row.
-/

namespace TempestSdk.WebAuthn

variable {State Response : Type} {service : WebAuthnService State Response}

/-- The counters are strictly increasing, up to zeros after nothing but zeros,
and the row stores the last one. -/
structure Credential.Advancing (row : Credential) : Prop where
  stored : row.reported.head? = some row.sign_count
  increasing : row.reported.Pairwise fun later earlier =>
    earlier < later ∨ earlier = 0 ∧ later = 0

def Phase.isCompleted : Phase State → Bool
  | .completed => true
  | _ => false

def Phase.stands : Phase State → Bool
  | .failed _ => false
  | _ => true

def Phase.accepted : Phase State → Option (Nat × Credential × Nat)
  | .identifying place read counter => some (place, read, counter)
  | .flushing place read counter => some (place, read, counter)
  | _ => none

namespace Ceremonies

variable (ceremonies : Ceremonies service)

def completions (challenge_id : String) : Nat :=
  ceremonies.requests.countP fun request =>
    decide (request.challenge_id = challenge_id) && request.phase.isCompleted

def Advancing : Prop :=
  ∀ row ∈ ceremonies.credentials, row.Advancing

/-- A flush that meets this writes a zero only when it read a zero, and
otherwise a counter above what is stored by now, if that is not what it
read. -/
def Undisturbed (ceremonies : Ceremonies service) : Action State Response → Prop
  | .resume request => ∀ waiting place read counter row,
      ceremonies.requests[request]? = some waiting →
      waiting.phase = .flushing place read counter →
      ceremonies.credentials[place]? = some row → row.deleted = false →
        (counter = 0 → read.sign_count = 0) ∧
          (row.sign_count ≠ read.sign_count → row.sign_count < counter)
  | _ => True

variable {ceremonies next : Ceremonies service}

def standing (ceremonies : Ceremonies service) (challenge_id : String) : Nat :=
  ceremonies.requests.countP fun request =>
    decide (request.challenge_id = challenge_id) && request.phase.stands

def SingleUse (ceremonies : Ceremonies service) : Prop :=
  ∀ challenge_id, ceremonies.standing challenge_id +
    (if service.challenge_store.holds ceremonies.challenges challenge_id then 1
      else 0) ≤ ceremonies.drawn.count challenge_id

theorem completions_le_standing (ceremonies : Ceremonies service) (challenge_id : String) :
    ceremonies.completions challenge_id ≤ ceremonies.standing challenge_id := by
  apply List.countP_mono_left
  intro request _ counts
  rw [Bool.and_eq_true] at counts ⊢
  refine ⟨counts.1, ?_⟩
  cases phase : request.phase with
  | failed error =>
    rw [phase] at counts
    cases counts.2
  | finding => rfl
  | identifying => rfl
  | flushing => rfl
  | comparing => rfl
  | inserting => rfl
  | completed => rfl

variable {waiting : Request State} {request : Nat}

theorem standing_move (found : ceremonies.requests[request]? = some waiting)
    (stands : waiting.phase.stands = true) (phase : Phase State)
    (challenge_id : String) :
    (ceremonies.move request phase).standing challenge_id ≤
      ceremonies.standing challenge_id := by
  have counted := Entries.countP_modify
    (fun other => decide (other.challenge_id = challenge_id) && other.phase.stands)
    (fun moved : Request State => { moved with phase }) found
  have less : (decide (waiting.challenge_id = challenge_id) && phase.stands) →
      (decide (waiting.challenge_id = challenge_id) && waiting.phase.stands) := by
    intro both
    rw [Bool.and_eq_true] at both ⊢
    exact ⟨both.1, stands⟩
  unfold standing move
  dsimp only
  by_cases after : (decide (waiting.challenge_id = challenge_id) && phase.stands) = true
  · rw [if_pos (less after), if_pos after] at counted
    omega
  · rw [if_neg after] at counted
    split at counted
    next => omega
    next => omega

variable {phase : Phase State}

theorem resume_requests (resumed : ceremonies.resume request phase = some next) :
    phase.stands = true ∧ next.challenges = ceremonies.challenges ∧
      next.drawn = ceremonies.drawn ∧
      ∃ after, next.requests = (ceremonies.move request after).requests := by
  cases phase with
  | finding state parsed =>
    cases resumed
    exact ⟨rfl, rfl, rfl, _, rfl⟩
  | identifying place read counter =>
    cases resumed
    exact ⟨rfl, rfl, rfl, _, rfl⟩
  | flushing place read counter =>
    cases resumed
    unfold flush
    split
    next => exact ⟨rfl, rfl, rfl, _, rfl⟩
    next =>
      split
      next => exact ⟨rfl, rfl, rfl, _, rfl⟩
      next => exact ⟨rfl, rfl, rfl, _, rfl⟩
  | comparing user_id credential counter =>
    cases resumed
    exact ⟨rfl, rfl, rfl, _, rfl⟩
  | inserting user_id credential counter =>
    cases resumed
    unfold insert
    split
    next => exact ⟨rfl, rfl, rfl, _, rfl⟩
    next => exact ⟨rfl, rfl, rfl, _, rfl⟩
  | completed => cases resumed
  | failed error => cases resumed

theorem interrupt_spec (taken : ceremonies.step (.interrupt request) = some next) :
    ∃ waiting, ceremonies.requests[request]? = some waiting ∧ waiting.phase.stands = true ∧
      next = ceremonies.move request (.failed .interrupted) := by
  obtain ⟨waiting, found, stopped⟩ := Option.bind_eq_some_iff.mp taken
  refine ⟨waiting, found, ?_⟩
  cases phase : waiting.phase with
  | completed =>
    rw [phase] at stopped
    cases stopped
  | failed error =>
    rw [phase] at stopped
    cases stopped
  | finding =>
    rw [phase] at stopped
    cases stopped
    exact ⟨rfl, rfl⟩
  | identifying =>
    rw [phase] at stopped
    cases stopped
    exact ⟨rfl, rfl⟩
  | flushing =>
    rw [phase] at stopped
    cases stopped
    exact ⟨rfl, rfl⟩
  | comparing =>
    rw [phase] at stopped
    cases stopped
    exact ⟨rfl, rfl⟩
  | inserting =>
    rw [phase] at stopped
    cases stopped
    exact ⟨rfl, rfl⟩

theorem SingleUse.move (once : ceremonies.SingleUse)
    (found : ceremonies.requests[request]? = some waiting)
    (stands : waiting.phase.stands = true)
    (challenges : next.challenges = ceremonies.challenges)
    (drawn : next.drawn = ceremonies.drawn)
    (requests : next.requests = (ceremonies.move request phase).requests) :
    next.SingleUse := by
  intro challenge_id
  have before := once challenge_id
  have less := standing_move found stands phase challenge_id
  have same : next.standing challenge_id =
      (ceremonies.move request phase).standing challenge_id := by
    unfold standing
    rw [requests]
  rw [challenges, drawn, same]
  omega

theorem SingleUse.store_state (once : ceremonies.SingleUse)
    (challenge_id : String) (state : State) :
    (ceremonies.store_state challenge_id state).SingleUse := by
  intro other
  have before := once other
  have grown : (ceremonies.store_state challenge_id state).drawn.count other =
      ceremonies.drawn.count other + if challenge_id == other then 1 else 0 :=
    List.count_cons
  change ceremonies.standing other + _ ≤ _
  rw [grown]
  split
  next held =>
    rcases service.challenge_store.holds_put _ _ _ _ _ _ held with
      rfl | earlier
    · rw [beq_self_eq_true, if_pos rfl]
      split at before
      next => omega
      next => omega
    · rw [if_pos earlier] at before
      omega
  next =>
    split at before
    next => omega
    next => omega

theorem SingleUse.pop_state (once : ceremonies.SingleUse)
    (challenge_id : String) (goesOn : State → Phase State) :
    (ceremonies.pop_state challenge_id goesOn).SingleUse := by
  intro other
  have before := once other
  have left := service.challenge_store.holds_pop ceremonies.now
    ceremonies.challenges challenge_id other
  have found := service.challenge_store.holds_of_pop ceremonies.now
    ceremonies.challenges challenge_id
  unfold Ceremonies.pop_state standing
  dsimp only
  rw [List.countP_append, List.countP_singleton]
  change ceremonies.standing other + _ + _ ≤ ceremonies.drawn.count other
  generalize service.challenge_store.pop ceremonies.now ceremonies.challenges
    challenge_id = popped at left found
  obtain ⟨state, challenges⟩ := popped
  dsimp only at left found ⊢
  cases state with
  | none =>
    have failed : ∀ error : CeremonyError,
        (Phase.failed error : Phase State).stands = false := fun _ => rfl
    rw [failed, Bool.and_false, if_neg Bool.false_ne_true]
    split
    next held =>
      rw [if_pos (left held).2] at before
      omega
    next =>
      split at before
      next => omega
      next => omega
  | some state =>
    have held := found state rfl
    split
    next same =>
      have here := of_decide_eq_true (Bool.and_eq_true_iff.mp same).1
      subst here
      rw [if_pos held] at before
      rw [if_neg fun again => (left again).1 rfl]
      omega
    next =>
      split
      next again =>
        rw [if_pos (left again).2] at before
        omega
      next =>
        split at before
        next => omega
        next => omega

variable {action : Action State Response}

theorem SingleUse.step (once : ceremonies.SingleUse)
    (taken : ceremonies.step action = some next) : next.SingleUse := by
  cases action with
  | elapse seconds =>
    cases taken
    exact once
  | change_user user_id user =>
    cases taken
    exact once
  | store_state challenge_id state =>
    cases taken
    exact once.store_state challenge_id state
  | register_complete user_id challenge_id response =>
    cases taken
    exact once.pop_state _ _
  | authenticate_complete challenge_id response =>
    cases taken
    exact once.pop_state _ _
  | resume request =>
    obtain ⟨waiting, found, resumed⟩ := Option.bind_eq_some_iff.mp taken
    obtain ⟨stands, challenges, drawn, after, requests⟩ :=
      resume_requests resumed
    exact once.move found stands challenges drawn requests
  | interrupt request =>
    obtain ⟨waiting, found, stands, rfl⟩ := interrupt_spec taken
    exact once.move found stands rfl rfl rfl
  | delete_credential user_id credential_id =>
    cases taken
    exact once

/-- The counter of the row is at least what was read, which the accepted
counter is above unless it is zero. -/
def Read (credentials : List Credential) : Nat × Credential × Nat → Prop
  | (place, read, counter) =>
    (∃ row : Credential, credentials[place]? = some row ∧ read.sign_count ≤ row.sign_count) ∧
    (counter = 0 ∨ read.sign_count < counter)

def Reads (ceremonies : Ceremonies service) : Prop :=
  ∀ waiting ∈ ceremonies.requests, ∀ accepted, waiting.phase.accepted = some accepted →
      Read ceremonies.credentials accepted

def Grown (after before : List Credential) : Prop :=
  ∀ (place : Nat) (row : Credential), before[place]? = some row → ∃ later : Credential,
      after[place]? = some later ∧ row.sign_count ≤ later.sign_count

theorem Read.grown {before after : List Credential}
    {accepted : Nat × Credential × Nat} (read : Read before accepted)
    (grown : Grown after before) : Read after accepted := by
  obtain ⟨place, seen, counter⟩ := accepted
  obtain ⟨⟨row, found, le⟩, above⟩ := read
  obtain ⟨later, there, le'⟩ := grown place row found
  exact ⟨⟨later, there, Nat.le_trans le le'⟩, above⟩

theorem Grown.refl (credentials : List Credential) : Grown credentials credentials :=
  fun _ row found => ⟨row, found, Nat.le_refl _⟩

theorem Reads.move (reads : ceremonies.Reads) (request : Nat)
    (fresh : ∀ accepted, phase.accepted = some accepted →
      Read ceremonies.credentials accepted) :
    (ceremonies.move request phase).Reads := by
  intro waiting member accepted taken
  rcases Entries.mem_modify member with before | ⟨old, -, rfl⟩
  · exact reads waiting before accepted taken
  · exact fresh accepted taken

theorem Reads.quiet (reads : ceremonies.Reads) (request : Nat)
    (none : phase.accepted = none) : (ceremonies.move request phase).Reads := by
  apply reads.move
  intro accepted present
  rw [none] at present
  cases present

theorem Reads.grow (reads : ceremonies.Reads) {credentials : List Credential}
    (grown : Grown credentials ceremonies.credentials) :
    Reads { ceremonies with credentials } :=
  fun waiting member accepted taken =>
    (reads waiting member accepted taken).grown grown

theorem credential_by_id_spec {credential_id : Bytes} {place : Nat} {row : Credential}
    (found : ceremonies.credential_by_id credential_id = some (place, row)) :
    ceremonies.credentials[place]? = some row := by
  obtain ⟨⟨other, index⟩, listed, same⟩ := Option.map_eq_some_iff.mp found
  cases same
  exact List.mem_zipIdx_iff_getElem?.mp (List.mem_of_find?_eq_some listed)

theorem checkCounter_accepted {state : State} {parsed : AuthenticationResponse}
    {accepted : Nat × Credential × Nat}
    (goesOn : (ceremonies.checkCounter state parsed).accepted = some accepted) :
    Read ceremonies.credentials accepted := by
  unfold checkCounter at goesOn
  split at goesOn
  next => cases goesOn
  next place record found =>
    split at goesOn
    next => cases goesOn
    next =>
      split at goesOn
      next => cases goesOn
      next advanced =>
        cases goesOn
        refine ⟨⟨record, credential_by_id_spec found, Nat.le_refl _⟩, ?_⟩
        omega

theorem advancing_write_iff {row read : Credential} {counter : Nat}
    (advancing : row.Advancing) (le : read.sign_count ≤ row.sign_count)
    (above : counter = 0 ∨ read.sign_count < counter) :
    (counter = 0 → read.sign_count = 0) ∧
        (row.sign_count ≠ read.sign_count → row.sign_count < counter) ↔
      Credential.Advancing { row with
        sign_count :=
          if counter = read.sign_count then row.sign_count else counter
        reported := counter :: row.reported } := by
  obtain ⟨rest, reported⟩ : ∃ rest, row.reported = row.sign_count :: rest := by
    cases shape : row.reported with
    | nil =>
      have stored := advancing.stored
      rw [shape] at stored
      cases stored
    | cons first rest =>
      have stored := advancing.stored
      rw [shape] at stored
      cases stored
      exact ⟨rest, rfl⟩
  have increasing := advancing.increasing
  rw [reported] at increasing
  have below := (List.pairwise_cons.mp increasing).1
  constructor
  · rintro ⟨zero, raced⟩
    have advances : row.sign_count < counter ∨ row.sign_count = 0 ∧ counter = 0 := by
      by_cases same : row.sign_count = read.sign_count
      · omega
      · exact .inl (raced same)
    refine ⟨?_, ?_⟩
    · change some counter = some (if counter = read.sign_count then row.sign_count else counter)
      congr 1
      split
      next => omega
      next => rfl
    · change (counter :: row.reported).Pairwise _
      rw [reported]
      refine List.pairwise_cons.mpr ⟨?_, increasing⟩
      intro earlier member
      rcases List.mem_cons.mp member with rfl | older
      · exact advances
      · have before := below earlier older
        omega
  · intro after
    have advances : row.sign_count < counter ∨ row.sign_count = 0 ∧ counter = 0 := by
      apply (List.pairwise_cons.mp after.increasing).1
      rw [reported]
      exact List.mem_cons_self
    omega

theorem flush_spec (ceremonies : Ceremonies service) (request place : Nat)
    (read : Credential) (counter : Nat) :
    ((∀ row : Credential, ceremonies.credentials[place]? = some row → row.deleted = true) ∧
      ceremonies.flush request place read counter =
        ceremonies.move request (.failed .interrupted)) ∨
      ∃ row : Credential, ceremonies.credentials[place]? = some row ∧ row.deleted = false ∧
        ceremonies.flush request place read counter = { ceremonies.move request .completed with
            credentials := ceremonies.credentials.set place { row with
                sign_count :=
                  if counter = read.sign_count then row.sign_count else counter
                reported := counter :: row.reported } } := by
  unfold flush
  cases found : ceremonies.credentials[place]? with
  | none =>
    refine .inl ⟨?_, rfl⟩
    intro row absent
    cases absent
  | some row =>
    dsimp only
    by_cases deleted : row.deleted = true
    · rw [if_pos deleted]
      refine .inl ⟨?_, rfl⟩
      intro other same
      cases same
      exact deleted
    · rw [if_neg deleted]
      exact .inr ⟨row, rfl, (Bool.not_eq_true _).mp deleted, rfl⟩

theorem advancing_set_iff {place : Nat} {row changed : Credential}
    (advancing : ceremonies.Advancing)
    (found : ceremonies.credentials[place]? = some row) :
    changed.Advancing ↔ ∀ other ∈ ceremonies.credentials.set place changed,
        other.Advancing := by
  constructor
  · intro good other member
    rcases List.mem_or_eq_of_mem_set member with before | rfl
    · exact advancing other before
    · exact good
  · intro all
    exact all changed (List.mem_set (List.getElem?_eq_some_iff.mp found).1 changed)

theorem flush_iff {request place : Nat} {read : Credential} {counter : Nat}
    (reads : ceremonies.Reads) (advancing : ceremonies.Advancing)
    (found : ceremonies.requests[request]? = some waiting)
    (flushing : waiting.phase = .flushing place read counter) :
    ceremonies.Undisturbed (.resume request) ↔
      (ceremonies.flush request place read counter).Advancing := by
  obtain ⟨⟨seen, there, le⟩, above⟩ := reads waiting
    (List.mem_of_getElem? found) (place, read, counter) (by
      rw [flushing]
      rfl)
  rcases flush_spec ceremonies request place read counter with
    ⟨gone, failed⟩ | ⟨row, stored, kept, written⟩
  · rw [failed]
    refine iff_of_true ?_ advancing
    intro other place' read' counter' row found' flushing' stored kept
    rw [found] at found'
    cases found'
    rw [flushing] at flushing'
    cases flushing'
    rw [gone row stored] at kept
    cases kept
  · rw [written]
    have same : row = seen := Option.some.inj (stored.symm.trans there)
    subst same
    have exact := advancing_write_iff (advancing row (List.mem_of_getElem? stored)) le above
    have whole := exact.trans (advancing_set_iff advancing stored)
    constructor
    · intro undisturbed
      exact whole.mp (undisturbed waiting place read counter row found flushing stored kept)
    · intro after other place' read' counter' row' found' flushing' stored' _
      rw [found] at found'
      cases found'
      rw [flushing] at flushing'
      cases flushing'
      rw [stored] at stored'
      cases stored'
      exact whole.mpr after

theorem insert_advancing (advancing : ceremonies.Advancing) (request : Nat)
    (user_id : UserId) (credential : AttestedCredentialData) (counter : Nat) :
    (ceremonies.insert request user_id credential counter).Advancing := by
  unfold insert
  split
  next => exact advancing
  next =>
    intro row member
    rcases List.mem_append.mp member with before | added
    · exact advancing row before
    · rw [List.mem_singleton.mp added]
      exact ⟨rfl, List.pairwise_singleton _ _⟩

theorem delete_advancing (advancing : ceremonies.Advancing) (user_id : UserId)
    (credential_id : Bytes) :
    (ceremonies.delete_credential user_id credential_id).Advancing := by
  intro row member
  obtain ⟨old, before, rfl⟩ := List.mem_map.mp member
  have good := advancing old before
  split
  next => exact ⟨good.stored, good.increasing⟩
  next => exact good

theorem undisturbed_resume (found : ceremonies.requests[request]? = some waiting)
    (other : ∀ place read counter, waiting.phase ≠ .flushing place read counter) :
    ceremonies.Undisturbed (.resume request) := by
  intro waiting' place read counter row found' flushing
  rw [found] at found'
  cases found'
  exact absurd flushing (other place read counter)

theorem step_iff (reads : ceremonies.Reads) (advancing : ceremonies.Advancing)
    (taken : ceremonies.step action = some next) :
    ceremonies.Undisturbed action ↔ next.Advancing := by
  cases action with
  | elapse seconds =>
    cases taken
    exact iff_of_true trivial advancing
  | change_user user_id user =>
    cases taken
    exact iff_of_true trivial advancing
  | store_state challenge_id state =>
    cases taken
    exact iff_of_true trivial advancing
  | register_complete user_id challenge_id response =>
    cases taken
    exact iff_of_true trivial advancing
  | authenticate_complete challenge_id response =>
    cases taken
    exact iff_of_true trivial advancing
  | resume request =>
    obtain ⟨waiting, found, resumed⟩ := Option.bind_eq_some_iff.mp taken
    cases phase : waiting.phase with
    | flushing place read counter =>
      rw [phase] at resumed
      cases resumed
      exact flush_iff reads advancing found phase
    | finding state parsed =>
      have quiet := undisturbed_resume found (by simp [phase])
      rw [phase] at resumed
      cases resumed
      exact iff_of_true quiet advancing
    | identifying place read counter =>
      have quiet := undisturbed_resume found (by simp [phase])
      rw [phase] at resumed
      cases resumed
      exact iff_of_true quiet advancing
    | comparing user_id credential counter =>
      have quiet := undisturbed_resume found (by simp [phase])
      rw [phase] at resumed
      cases resumed
      exact iff_of_true quiet advancing
    | inserting user_id credential counter =>
      have quiet := undisturbed_resume found (by simp [phase])
      rw [phase] at resumed
      cases resumed
      exact iff_of_true quiet (insert_advancing advancing _ _ _ _)
    | completed =>
      rw [phase] at resumed
      cases resumed
    | failed error =>
      rw [phase] at resumed
      cases resumed
  | interrupt request =>
    obtain ⟨waiting, found, stands, rfl⟩ := interrupt_spec taken
    exact iff_of_true trivial advancing
  | delete_credential user_id credential_id =>
    cases taken
    exact iff_of_true trivial (delete_advancing advancing _ _)

theorem sign_count_le {row changed : Credential} {counter : Nat}
    (before : row.Advancing) (after : changed.Advancing)
    (reported : changed.reported = counter :: row.reported) :
    row.sign_count ≤ changed.sign_count := by
  have stored := after.stored
  have increasing := after.increasing
  rw [reported] at stored increasing
  have last : counter = changed.sign_count := Option.some.inj stored
  have known : row.sign_count ∈ row.reported :=
    List.mem_of_mem_head? before.stored
  have advances := (List.pairwise_cons.mp increasing).1 _ known
  omega

theorem flush_reads {request place : Nat} {read : Credential} {counter : Nat}
    (reads : ceremonies.Reads) (advancing : ceremonies.Advancing)
    (after : (ceremonies.flush request place read counter).Advancing) :
    (ceremonies.flush request place read counter).Reads := by
  rcases flush_spec ceremonies request place read counter with
    ⟨-, failed⟩ | ⟨row, stored, -, written⟩
  · rw [failed]
    exact reads.quiet request rfl
  · rw [written] at after ⊢
    have inside := (List.getElem?_eq_some_iff.mp stored).1
    have moved : (ceremonies.move request .completed).Reads :=
      reads.quiet request rfl
    apply moved.grow
    intro other kept found
    rw [List.getElem?_set]
    split
    next same =>
      subst same
      have here : kept = row := Option.some.inj (found.symm.trans stored)
      subst here
      refine ⟨_, rfl, ?_⟩
      exact sign_count_le (advancing kept (List.mem_of_getElem? stored))
        (after _ (List.mem_set inside _)) rfl
    next => exact ⟨kept, found, Nat.le_refl _⟩

theorem insert_reads (reads : ceremonies.Reads) (request : Nat)
    (user_id : UserId) (credential : AttestedCredentialData) (counter : Nat) :
    (ceremonies.insert request user_id credential counter).Reads := by
  unfold insert
  split
  next => exact reads.quiet request rfl
  next =>
    have moved : (ceremonies.move request .completed).Reads :=
      reads.quiet request rfl
    apply moved.grow
    intro place row found
    have inside := (List.getElem?_eq_some_iff.mp found).1
    exact ⟨row, (List.getElem?_append_left inside).trans found, Nat.le_refl _⟩

theorem delete_grown (user_id : UserId) (credential_id : Bytes) :
    Grown (ceremonies.delete_credential user_id credential_id).credentials
      ceremonies.credentials := by
  intro place row found
  refine ⟨_, List.getElem?_map.trans (congrArg _ found), ?_⟩
  dsimp only
  split
  next => exact Nat.le_refl _
  next => exact Nat.le_refl _

theorem pop_state_reads (reads : ceremonies.Reads) (challenge_id : String)
    {goesOn : State → Phase State}
    (fresh : ∀ state, (goesOn state).accepted = none) :
    (ceremonies.pop_state challenge_id goesOn).Reads := by
  intro waiting member accepted taken
  rcases List.mem_append.mp member with before | last
  · exact reads waiting before accepted taken
  · rw [List.mem_singleton.mp last] at taken
    dsimp only at taken
    split at taken
    next => cases taken
    next state _ =>
      rw [fresh state] at taken
      cases taken

theorem step_reads (reads : ceremonies.Reads) (advancing : ceremonies.Advancing)
    (taken : ceremonies.step action = some next) (after : next.Advancing) :
    next.Reads := by
  cases action with
  | elapse seconds =>
    cases taken
    exact reads
  | change_user user_id user =>
    cases taken
    exact reads
  | store_state challenge_id state =>
    cases taken
    exact reads
  | register_complete user_id challenge_id response =>
    cases taken
    apply pop_state_reads reads
    intro state
    unfold registered
    split
    next => rfl
    next =>
      split
      next => rfl
      next => rfl
  | authenticate_complete challenge_id response =>
    cases taken
    apply pop_state_reads reads
    intro state
    unfold authenticated
    split
    next => rfl
    next => rfl
  | resume request =>
    obtain ⟨waiting, found, resumed⟩ := Option.bind_eq_some_iff.mp taken
    cases phase : waiting.phase with
    | finding state parsed =>
      rw [phase] at resumed
      cases resumed
      apply reads.move
      intro accepted goesOn
      exact checkCounter_accepted goesOn
    | identifying place read counter =>
      have known := reads waiting (List.mem_of_getElem? found)
        (place, read, counter) (by rw [phase]; rfl)
      rw [phase] at resumed
      cases resumed
      apply reads.move
      intro accepted goesOn
      split at goesOn
      next =>
        cases goesOn
        exact known
      next => cases goesOn
    | flushing place read counter =>
      rw [phase] at resumed
      cases resumed
      exact flush_reads reads advancing after
    | comparing user_id credential counter =>
      rw [phase] at resumed
      cases resumed
      apply reads.quiet
      split
      next => rfl
      next => rfl
    | inserting user_id credential counter =>
      rw [phase] at resumed
      cases resumed
      exact insert_reads reads _ _ _ _
    | completed =>
      rw [phase] at resumed
      cases resumed
    | failed error =>
      rw [phase] at resumed
      cases resumed
  | interrupt request =>
    obtain ⟨waiting, found, stands, rfl⟩ := interrupt_spec taken
    exact reads.quiet request rfl
  | delete_credential user_id credential_id =>
    cases taken
    exact reads.grow (delete_grown user_id credential_id)

theorem undisturbed_of_disabled (disabled : ceremonies.step action = none) :
    ceremonies.Undisturbed action := by
  cases action with
  | resume request =>
    intro waiting place read counter row found phase
    unfold step at disabled
    dsimp only at disabled
    rw [found, Option.bind_some, phase] at disabled
    cases disabled
  | elapse => trivial
  | change_user => trivial
  | store_state => trivial
  | register_complete => trivial
  | authenticate_complete => trivial
  | interrupt => trivial
  | delete_credential => trivial

end Ceremonies

open Ceremonies

/-- In every state of a schedule an id has completed at most as many ceremonies
as it was drawn times, so at most one when no id was drawn twice; and the
counters of all rows advance in every state exactly when no flush of the
schedule is disturbed. -/
theorem ceremonies_iff (service : WebAuthnService State Response)
    (schedule : List (Action State Response)) :
    (∀ final, Runs.exec step (initial : Ceremonies service) schedule =
        some final → ∀ challenge_id,
          final.completions challenge_id ≤ final.drawn.count challenge_id ∧
          (final.drawn.Nodup → final.completions challenge_id ≤ 1)) ∧
      (Runs.Meets step Undisturbed (initial : Ceremonies service) schedule ↔
        ∀ front, front <+: schedule → ∀ reached,
          Runs.exec step (initial : Ceremonies service) front =
            some reached → reached.Advancing) := by
  constructor
  · intro final run challenge_id
    have begun : (initial : Ceremonies service).SingleUse := by
      intro other
      change 0 + _ ≤ _
      rw [if_neg (by
        rw [show (initial : Ceremonies service).challenges =
            service.challenge_store.empty from rfl,
          service.challenge_store.holds_empty]
        exact Bool.false_ne_true)]
      exact Nat.zero_le _
    have once : final.SingleUse :=
      Runs.exec_invariant (fun _ _ _ once taken => once.step taken) begun run
    have standing := completions_le_standing final challenge_id
    have drawn := once challenge_id
    refine ⟨by omega, ?_⟩
    intro distinct
    have single := List.nodup_iff_count_le_one.mp distinct challenge_id
    omega
  · have exact : ∀ (state : Ceremonies service)
        (action : Action State Response) (next : Ceremonies service),
        state.Reads → state.Advancing → state.step action = some next →
          (state.Undisturbed action ↔ next.Advancing) :=
      fun _ _ _ reads advancing taken => step_iff reads advancing taken
    have kept : ∀ (state : Ceremonies service)
        (action : Action State Response) (next : Ceremonies service),
        state.Reads → state.Advancing → state.step action = some next →
          next.Advancing → next.Reads :=
      fun _ _ _ reads advancing taken after =>
        step_reads reads advancing taken after
    apply Runs.meets_iff_well exact kept
    · intro state action disabled
      exact undisturbed_of_disabled disabled
    · intro waiting member
      cases member
    · intro row member
      cases member

def honest : WebAuthnService Unit AuthenticationResponse where
  server :=
    { register_complete := fun _ response =>
        some ⟨some ⟨response.raw_id, []⟩, response.counter⟩
      from_dict := some
      authenticate_complete := fun _ _ _ => true }
  challenge_store := MemoryWebAuthnChallengeStore
  ttl := 300

def registration : List (Action Unit AuthenticationResponse) :=
  [.change_user 0 (some ⟨true⟩), .store_state "a" (),
    .register_complete 0 "a" ⟨[1], 5⟩, .resume 0, .resume 0]

def zeroAssertion : List (Action Unit AuthenticationResponse) :=
  [.store_state "b" (), .authenticate_complete "b" ⟨[1], 0⟩, .resume 1, .resume 1, .resume 1]

/-- Two assertions with one counter that read the row before either of them
writes it. -/
def racingAssertions : List (Action Unit AuthenticationResponse) :=
  [.store_state "b" (), .store_state "c" (),
    .authenticate_complete "b" ⟨[1], 6⟩, .authenticate_complete "c" ⟨[1], 6⟩,
    .resume 1, .resume 2, .resume 1, .resume 2, .resume 1, .resume 2]

theorem not_advancing {row : Credential} (first second : Nat)
    {rest : List Nat} (reported : row.reported = first :: second :: rest)
    (falls : ¬(second < first ∨ second = 0 ∧ first = 0)) : ¬row.Advancing := by
  intro advancing
  have increasing := advancing.increasing
  rw [reported] at increasing
  exact falls ((List.pairwise_cons.mp increasing).1 second List.mem_cons_self)

theorem counters_do_not_advance : (∃ final : Ceremonies honest,
      Runs.exec step initial (registration ++ zeroAssertion) = some final ∧
        ∃ row ∈ final.credentials, row.sign_count = 0 ∧
          row.reported = [0, 5] ∧ ¬row.Advancing) ∧
      ∃ final : Ceremonies honest,
        Runs.exec step initial (registration ++ racingAssertions) = some final ∧
        ∃ row ∈ final.credentials, row.sign_count = 6 ∧
          row.reported = [6, 6, 5] ∧ ¬row.Advancing :=
  ⟨⟨_, rfl, _, .head _, rfl, rfl, not_advancing 0 5 rfl (by omega)⟩,
    ⟨_, rfl, _, .head _, rfl, rfl, not_advancing 6 6 rfl (by omega)⟩⟩

end TempestSdk.WebAuthn
