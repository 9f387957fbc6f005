import TempestSdk.Library.UriText
import TempestSdk.Utils.HttpClient

/-!
# What a call tells the circuit breaker

`HTTPClient` over all hosts: the key a call is filed under, and what `request`
and `stream` record of their attempts.
-/

namespace TempestSdk.HttpClient

abbrev Host := List Char

/-- What the client uses of `httpx`: a URL is taken apart as in RFC 3986 and
its host is normalized, an absolute URL is sent to as it is, and another one is
put behind the path of the base URL. -/
structure Httpx where
  /-- Otherwise `URL(text)` raises `InvalidURL`. -/
  accepts : List Char → Bool
  hostOf : List Char → Host
  hostOf_nil : hostOf [] = []
  /-- Where a client with a base URL sends a URL, if it sends it. -/
  sentTo : List Char → List Char → Option Host
  sentTo_absolute : ∀ base text host, sentTo base text = some host →
    UriText.scheme text ≠ [] → hostOf (UriText.authority text) ≠ [] →
      host = hostOf (UriText.authority text)
  sentTo_relative : ∀ base text host, sentTo base text = some host →
    ¬(UriText.scheme text ≠ [] ∧ hostOf (UriText.authority text) ≠ []) →
      host = hostOf (UriText.authority base) ∧ host ≠ []

structure RetryPolicy where
  max_attempts : Nat
  retry_statuses : List Nat
  retry_on_read_timeout : Bool

structure HTTPClient where
  httpx : Httpx
  base_url : List Char
  retry_policy : RetryPolicy
  config : Config

inductive Failure where
  | connectError
  | readTimeout
  /-- Another failure of the network, or another timeout. -/
  | transport
  | other
deriving DecidableEq

structure Body where
  yielded : Bool
  failure : Option Failure
deriving DecidableEq

inductive Answer where
  | failed (failure : Failure)
  /-- The body only matters to `stream`. -/
  | response (status_code : Nat) (body : Body)
deriving DecidableEq

/-- A call: what its attempts are answered, by their number. -/
structure Call where
  streamed : Bool
  url : List Char
  /-- `_body_is_replayable`. -/
  replayable : Bool
  answers : Nat → Answer

def Failure.caught : Failure → Bool
  | .connectError => true
  | .readTimeout => true
  | .transport => false
  | .other => false

def RetryPolicy.should_retry_error (policy : RetryPolicy) : Failure → Bool
  | .readTimeout => policy.retry_on_read_timeout
  | _ => true

def isSuccess (status_code : Nat) : Bool :=
  decide (200 ≤ status_code ∧ status_code ≤ 299)

def isServerError (status_code : Nat) : Bool :=
  decide (500 ≤ status_code ∧ status_code ≤ 599)

/-- What an attempt leads to: what it records, and whether another one
follows. -/
structure Settled where
  records : List Bool
  again : Bool
deriving DecidableEq

/-- An attempt of `request`. -/
def requestAttempt (policy : RetryPolicy) (last : Bool) : Answer → Settled
  | .failed failure =>
    if failure.caught then
      if last || !policy.should_retry_error failure then ⟨[true], false⟩
      else ⟨[], true⟩
    else ⟨[], false⟩
  | .response status_code _ =>
    if status_code ∈ policy.retry_statuses then
      if last then ⟨[true], false⟩ else ⟨[], true⟩
    else ⟨[false], false⟩

/-- An attempt of `stream`. -/
def streamAttempt (policy : RetryPolicy) (last : Bool) : Answer → Settled
  | .failed failure =>
    if failure.caught then
      if last || !policy.should_retry_error failure then ⟨[true], false⟩
      else ⟨[], true⟩
    else ⟨[], false⟩
  | .response status_code body =>
    if status_code ∈ policy.retry_statuses ∧ last = false then ⟨[], true⟩
    else if ¬isSuccess status_code then ⟨[true], false⟩
    else
      match body.failure with
      | none => ⟨[false], false⟩
      | some failure =>
        if failure.caught then
          if body.yielded || last || !policy.should_retry_error failure then
            ⟨[false, true], false⟩
          else ⟨[false], true⟩
        else ⟨[false], false⟩

def attempts (attempt : Bool → Answer → Settled) (answers : Nat → Answer) :
    Nat → Nat → List Answer × List Bool
  | 0, _ => ([], [])
  | left + 1, number =>
    let answer := answers number
    let settled := attempt (left == 0) answer
    if settled.again then
      let later := attempts attempt answers left (number + 1)
      (answer :: later.1, settled.records ++ later.2)
    else ([answer], settled.records)

def Call.run (call : Call) (policy : RetryPolicy) : List Answer × List Bool :=
  attempts (if call.streamed then streamAttempt policy else requestAttempt policy)
    call.answers (if call.replayable then policy.max_attempts else 1) 1

namespace HTTPClient

variable (client : HTTPClient)

/-- `"://" in url`. -/
def hasSeparator (text : List Char) : Bool :=
  decide ([':', '/', '/'] <:+: text)

/-- `URL(text).host`. -/
def hostIn (text : List Char) : Host :=
  client.httpx.hostOf (UriText.authority text)

/-- The text that `_host_of` parses. -/
def parsedText (text : List Char) : List Char :=
  if hasSeparator text then text else client.base_url ++ text

/-- `_host_of`; none when it raises. -/
def host_of (text : List Char) : Option Host :=
  if client.httpx.accepts (client.parsedText text) then
    some (if client.hostIn (client.parsedText text) = [] then
        "_unknown_".toList
      else client.hostIn (client.parsedText text))
  else none

/-- `_breakers`: a host that was never seen has a closed breaker. -/
abbrev Breakers := Host → BreakerState

def update (breakers : Breakers) (host : Host) (state : BreakerState) : Breakers :=
  Function.update breakers host state

/-- `_breaker_check` of a host. -/
def check (breakers : Breakers) (now : ℚ) (host : Host) : Option Breakers :=
  (breakerCheck client.config (breakers host) now).map (update breakers host)

/-- `_breaker_record` of a host, as often as a call does it. -/
def record (breakers : Breakers) (now : ℚ) (host : Host) (records : List Bool) : Breakers :=
  update breakers host (records.foldl (fun state failed =>
      breakerRecord client.config state now failed) (breakers host))

def admitted (breakers : Breakers) (now : ℚ) (call : Call) : Option Breakers :=
  (client.host_of call.url).bind fun key => client.check breakers now key

def settled (breakers : Breakers) (now : ℚ) (call : Call) : Breakers :=
  match client.host_of call.url with
  | none => breakers
  | some key => client.record breakers now key (call.run client.retry_policy).2

end HTTPClient

/-- What the answer a call ends with says of the host: a failure of the server
or of the network, an answer of another kind, or nothing. -/
def verdict (streamed : Bool) : Answer → List Bool
  | .failed failure => if failure = .other then [] else [true]
  | .response status_code body =>
    if isServerError status_code then [true]
    else if streamed && isSuccess status_code &&
        body.failure.any fun failure => failure ≠ .other then [true]
    else [false]

def Call.verdict (call : Call) (policy : RetryPolicy) : List Bool :=
  match (call.run policy).1.getLast? with
  | none => []
  | some answer => HttpClient.verdict call.streamed answer

/-- A call is filed under the host it is sent to, and only what it ended with
counts. -/
structure HTTPClient.Uniform (client : HTTPClient) (call : Call)
    (host : Host) : Prop where
  checked : ∀ breakers now, client.admitted breakers now call = client.check breakers now host
  counted : ∀ breakers now, client.settled breakers now call =
      client.record breakers now host (call.verdict client.retry_policy)

/-- A success that `stream` records before it reads the body. -/
def Answer.opened (policy : RetryPolicy) : Answer → Bool
  | .failed _ => false
  | .response status_code _ =>
    isSuccess status_code && !decide (status_code ∈ policy.retry_statuses)

def Answer.Plain (policy : RetryPolicy) (streamed : Bool) (front : List Answer) : Answer → Prop
  | .failed failure => failure ≠ .transport ∧
      (streamed = true → ∀ answer ∈ front, answer.opened policy = false)
  | .response status_code body =>
    if streamed then
      if isSuccess status_code then
        body.failure = none ∨ body.failure = some .other
      else
        isServerError status_code = true ∧ ∀ answer ∈ front, answer.opened policy = false
    else
      status_code ∈ policy.retry_statuses ↔ isServerError status_code = true

/-- No attempt ends with a failure of the network that the loops do not catch;
a response counts as a failure just when it is one of the server; and `stream`
has not recorded a success before the call fails. -/
def Call.Plain (call : Call) (policy : RetryPolicy) : Prop :=
  ∀ front last, (call.run policy).1 = front ++ [last] → last.Plain policy call.streamed front

def fileUnder (host : Host) : Host :=
  if host = [] then "_unknown_".toList else host

/-- The url is absolute, or what it adds to the authority of the base URL
leaves its host as it is; a relative url with `://` in it is not read behind
the base URL. -/
def HTTPClient.Named (client : HTTPClient) (text : List Char) : Prop :=
  if hasSeparator text then
    (UriText.scheme text ≠ [] ∧ client.hostIn text ≠ []) ∨
      fileUnder (client.hostIn text) = client.hostIn client.base_url
  else
    fileUnder (client.httpx.hostOf (UriText.authority client.base_url ++
      UriText.glued client.base_url text)) = client.hostIn client.base_url

namespace HTTPClient

variable {client : HTTPClient} {text : List Char} {host : Host}

theorem host_of_eq (readable : client.httpx.accepts (client.parsedText text)) :
    client.host_of text = some (fileUnder (client.hostIn (client.parsedText text))) := by
  unfold host_of fileUnder
  rw [if_pos readable]

theorem key_iff (sent : client.httpx.sentTo client.base_url text = some host)
    (readable : client.httpx.accepts (client.parsedText text)) :
    client.host_of text = some host ↔ client.Named text := by
  rw [host_of_eq readable, Option.some_inj]
  unfold Named parsedText
  by_cases separated : hasSeparator text = true
  · rw [if_pos separated, if_pos separated]
    by_cases absolute : UriText.scheme text ≠ [] ∧ client.hostIn text ≠ []
    · have here := client.httpx.sentTo_absolute _ _ _ sent absolute.1 absolute.2
      have same : fileUnder (client.hostIn text) = host := by
        rw [fileUnder, if_neg absolute.2]
        exact here.symm
      exact iff_of_true same (.inl absolute)
    · have there := (client.httpx.sentTo_relative _ _ _ sent absolute).1
      rw [there]
      constructor
      · exact .inr
      · rintro (named | named)
        · exact absurd named absolute
        · exact named
  · rw [if_neg separated, if_neg separated]
    have relative : ¬(UriText.scheme text ≠ [] ∧ client.hostIn text ≠ []) := by
      rintro ⟨named, hosted⟩
      apply separated
      unfold hasSeparator
      rw [decide_eq_true_eq]
      cases found : UriText.behindSlashes text with
      | none =>
        apply absurd client.httpx.hostOf_nil
        unfold hostIn UriText.authority at hosted
        rwa [found] at hosted
      | some rest => exact UriText.infix_of_absolute named found
    obtain ⟨there, hosted⟩ :=
      client.httpx.sentTo_relative _ _ _ sent relative
    obtain ⟨rest, found⟩ : ∃ rest, UriText.behindSlashes client.base_url = some rest := by
      cases found : UriText.behindSlashes client.base_url with
      | none =>
        rw [there] at hosted
        apply absurd client.httpx.hostOf_nil
        unfold UriText.authority at hosted
        rwa [found] at hosted
      | some rest => exact ⟨rest, rfl⟩
    have whole : client.hostIn (client.base_url ++ text) =
        client.httpx.hostOf (UriText.authority client.base_url ++
          UriText.glued client.base_url text) := by
      unfold hostIn
      rw [UriText.authority_append found]
    rw [whole, there]
    rfl

end HTTPClient

section Attempts

variable {attempt : Bool → Answer → Settled} {answers : Nat → Answer}

theorem attempts_ne_nil (left number : Nat) :
    (attempts attempt answers (left + 1) number).1 ≠ [] := by
  unfold attempts
  dsimp only
  split
  next => exact List.cons_ne_nil _ _
  next => exact List.cons_ne_nil _ _

theorem attempts_spec (ends : ∀ answer, (attempt true answer).again = false)
    {left number : Nat} {front : List Answer} {last : Answer}
    (answered : (attempts attempt answers left number).1 = front ++ [last]) :
    (∀ answer ∈ front, (attempt false answer).again = true) ∧
      ∃ final, (attempt final last).again = false ∧ (attempts attempt answers left number).2 =
          front.flatMap (fun answer => (attempt false answer).records) ++
            (attempt final last).records := by
  induction left generalizing number front with
  | zero =>
    cases front with
    | nil => cases answered
    | cons first front => cases answered
  | succ left induction =>
    unfold attempts at answered ⊢
    dsimp only at answered ⊢
    by_cases again : (attempt (left == 0) (answers number)).again = true
    · rw [if_pos again] at answered ⊢
      cases left with
      | zero =>
        change (attempt true (answers number)).again = true at again
        rw [ends] at again
        cases again
      | succ left =>
        cases front with
        | nil =>
          have rest := (List.cons.inj answered).2
          exact absurd rest (attempts_ne_nil left (number + 1))
        | cons first front =>
          obtain ⟨same, rest⟩ := List.cons.inj answered
          obtain ⟨all, final, ended, records⟩ := induction rest
          subst same
          refine ⟨?_, final, ended, ?_⟩
          · intro answer member
            rcases List.mem_cons.mp member with rfl | later
            · exact again
            · exact all answer later
          · rw [records, List.flatMap_cons, List.append_assoc]
            rfl
    · rw [if_neg again] at answered ⊢
      cases front with
      | nil =>
        cases answered
        refine ⟨?_, left == 0, (Bool.not_eq_true _).mp again, rfl⟩
        intro answer member
        cases member
      | cons first front =>
        have rest := (List.cons.inj answered).2
        cases front with
        | nil => cases rest
        | cons => cases rest

end Attempts

section Records

variable {policy : RetryPolicy} {final : Bool} {answer : Answer}

theorem request_ends (answer : Answer) : (requestAttempt policy true answer).again = false := by
  cases answer with
  | failed failure =>
    unfold requestAttempt
    dsimp only
    split
    next => rfl
    next => rfl
  | response status_code body =>
    unfold requestAttempt
    dsimp only
    split
    next => rfl
    next => rfl

theorem request_again (again : (requestAttempt policy final answer).again = true) :
    (requestAttempt policy final answer).records = [] := by
  cases answer with
  | failed failure =>
    unfold requestAttempt at again ⊢
    dsimp only at again ⊢
    split
    next caught =>
      rw [if_pos caught] at again
      split
      next last =>
        rw [if_pos last] at again
        cases again
      next => rfl
    next => rfl
  | response status_code body =>
    unfold requestAttempt at again ⊢
    dsimp only at again ⊢
    split
    next retried =>
      rw [if_pos retried] at again
      split
      next last =>
        rw [if_pos last] at again
        cases again
      next => rfl
    next retried =>
      rw [if_neg retried] at again
      cases again

/-- What the last attempt of `request` records. -/
def requestRecords (policy : RetryPolicy) : Answer → List Bool
  | .failed failure => if failure.caught then [true] else []
  | .response status_code _ => [decide (status_code ∈ policy.retry_statuses)]

theorem request_over (ended : (requestAttempt policy final answer).again = false) :
    (requestAttempt policy final answer).records = requestRecords policy answer := by
  cases answer with
  | failed failure =>
    unfold requestAttempt at ended ⊢
    unfold requestRecords
    dsimp only at ended ⊢
    split
    next caught =>
      rw [if_pos caught] at ended
      split
      next => rfl
      next last =>
        rw [if_neg last] at ended
        cases ended
    next => rfl
  | response status_code body =>
    unfold requestAttempt at ended ⊢
    unfold requestRecords
    dsimp only at ended ⊢
    split
    next retried =>
      rw [if_pos retried] at ended
      split
      next => rw [decide_eq_true retried]
      next last =>
        rw [if_neg last] at ended
        cases ended
    next retried => rw [decide_eq_false retried]

theorem stream_ends (answer : Answer) : (streamAttempt policy true answer).again = false := by
  cases answer with
  | failed failure =>
    unfold streamAttempt
    dsimp only
    split
    next => rfl
    next => rfl
  | response status_code body =>
    unfold streamAttempt
    dsimp only
    rw [if_neg (fun both => Bool.noConfusion both.2)]
    split
    next => rfl
    next =>
      split
      next => rfl
      next =>
        split
        next => rw [Bool.or_true, Bool.true_or, if_pos rfl]
        next => rfl

theorem stream_again (again : (streamAttempt policy false answer).again = true) :
    (streamAttempt policy false answer).records =
      if answer.opened policy then [false] else [] := by
  cases answer with
  | failed failure =>
    have closed : (Answer.failed failure).opened policy = false := rfl
    rw [closed, if_neg Bool.false_ne_true]
    unfold streamAttempt at again ⊢
    dsimp only at again ⊢
    split
    next caught =>
      rw [if_pos caught] at again
      split
      next last =>
        rw [if_pos last] at again
        cases again
      next => rfl
    next => rfl
  | response status_code body =>
    by_cases retried : status_code ∈ policy.retry_statuses
    · have closed : (Answer.response status_code body).opened policy =
          false := by simp [Answer.opened, retried]
      rw [closed, if_neg Bool.false_ne_true]
      unfold streamAttempt
      dsimp only
      rw [if_pos ⟨retried, rfl⟩]
    · unfold streamAttempt at again ⊢
      dsimp only at again ⊢
      rw [if_neg (fun both => retried both.1)] at again ⊢
      by_cases success : isSuccess status_code = true
      · have opened : (Answer.response status_code body).opened policy =
            true := by simp [Answer.opened, retried, success]
        rw [opened, if_pos rfl]
        rw [if_neg (not_not_intro success)] at again ⊢
        split at again
        next => cases again
        next failure _ =>
          split at again
          next caught =>
            split at again
            next => cases again
            next more => rw [if_pos caught, if_neg more]
          next => cases again
      · rw [if_pos success] at again
        cases again

/-- What the last attempt of `stream` records. -/
def streamRecords : Answer → List Bool
  | .failed failure => if failure.caught then [true] else []
  | .response status_code body =>
    if isSuccess status_code then
      if body.failure.any Failure.caught then [false, true] else [false]
    else [true]

theorem stream_over (ended : (streamAttempt policy final answer).again = false) :
    (streamAttempt policy final answer).records = streamRecords answer := by
  cases answer with
  | failed failure =>
    unfold streamAttempt at ended ⊢
    unfold streamRecords
    dsimp only at ended ⊢
    split
    next caught =>
      rw [if_pos caught] at ended
      split
      next => rfl
      next last =>
        rw [if_neg last] at ended
        cases ended
    next => rfl
  | response status_code body =>
    unfold streamAttempt at ended ⊢
    unfold streamRecords
    dsimp only at ended ⊢
    split at ended
    next => cases ended
    next kept =>
      rw [if_neg kept]
      by_cases success : isSuccess status_code = true
      · rw [if_neg (not_not_intro success)] at ended ⊢
        rw [if_pos success]
        split at ended
        next whole => rw [whole]; rfl
        next failure broken =>
          rw [broken, Option.any_some]
          split at ended
          next caught =>
            rw [if_pos caught]
            split at ended
            next last => rw [if_pos caught, if_pos last]
            next => cases ended
          next missed =>
            rw [if_neg missed]
            dsimp only
            rw [if_neg missed]
      · rw [if_pos success, if_neg success]

end Records

section Alike

variable (config : Config)

def fold (now : ℚ) (state : BreakerState) (records : List Bool) : BreakerState :=
  records.foldl (fun state failed => breakerRecord config state now failed) state

def Alike (first second : List Bool) : Prop :=
  ∀ now state, fold config now state first = fold config now state second

def counted (failures : Nat) (records : List Bool) : Nat :=
  records.foldl (fun failures failed => if failed then failures + 1 else 0) failures

variable {config} {first second closings : List Bool}

theorem fold_counted (enabled : 0 < config.failureThreshold) (now : ℚ)
    (state : BreakerState) (records : List Bool) :
    (fold config now state records).consecutiveFailures =
      counted state.consecutiveFailures records := by
  have on : ¬config.failureThreshold ≤ 0 := not_le.mpr enabled
  unfold fold counted
  induction records generalizing state with
  | nil => rfl
  | cons failed rest induction =>
    rw [List.foldl_cons, List.foldl_cons, induction]
    congr 1
    unfold breakerRecord
    rw [if_neg on]
    cases failed with
    | false => rfl
    | true =>
      rw [if_pos rfl, if_pos rfl]
      dsimp only
      split
      next => rfl
      next => rfl

theorem Alike.counted (alike : Alike config first second)
    (enabled : 0 < config.failureThreshold) (failures : Nat) :
    counted failures first = HttpClient.counted failures second := by
  have same := congrArg BreakerState.consecutiveFailures (alike 0 ⟨failures, 0⟩)
  rw [fold_counted enabled, fold_counted enabled] at same
  exact same

theorem fold_disabled (disabled : config.failureThreshold ≤ 0) (now : ℚ)
    (state : BreakerState) (records : List Bool) :
    fold config now state records = state := by
  unfold fold
  induction records generalizing state with
  | nil => rfl
  | cons failed rest induction =>
    rw [List.foldl_cons, induction]
    exact if_pos disabled

theorem alike_success (records : List Bool) : Alike config (records ++ [false]) [false] := by
  rcases lt_or_ge 0 config.failureThreshold with enabled | disabled
  · intro now state
    have on : ¬config.failureThreshold ≤ 0 := not_le.mpr enabled
    have reset : ∀ state, breakerRecord config state now false = ⟨0, 0⟩ :=
      fun state => if_neg on
    unfold fold
    rw [List.foldl_append, List.foldl_cons, List.foldl_nil, List.foldl_cons,
      List.foldl_nil, reset, reset]
  · intro now state
    rw [fold_disabled disabled, fold_disabled disabled]

theorem counted_closings (closing : ∀ failed ∈ closings, failed = false) :
    counted 1 closings = if closings = [] then 1 else 0 := by
  have zero : ∀ closings : List Bool,
      (∀ failed ∈ closings, failed = false) → counted 0 closings = 0 := by
    intro closings
    induction closings with
    | nil => exact fun _ => rfl
    | cons failed rest induction =>
      intro closing
      have first := closing failed List.mem_cons_self
      subst first
      exact induction fun other member =>
        closing other (List.mem_cons_of_mem _ member)
  cases closings with
  | nil => rfl
  | cons failed rest =>
    have first := closing failed List.mem_cons_self
    subst first
    exact zero rest fun other member =>
      closing other (List.mem_cons_of_mem _ member)

theorem counted_append (failures : Nat) (first second : List Bool) :
    counted failures (first ++ second) = counted (counted failures first) second :=
  List.foldl_append

end Alike

section Exact

variable {config : Config} {policy : RetryPolicy}
  (enabled : 0 < config.failureThreshold)

include enabled

theorem not_alike {first second : List Bool} (differ : counted 1 first ≠ counted 1 second) :
    ¬Alike config first second :=
  fun alike => differ (alike.counted enabled 1)

theorem request_exact (front : List Answer) (last : Answer) :
    Alike config (requestRecords policy last) (verdict false last) ↔
      last.Plain policy false front := by
  cases last with
  | failed failure =>
    have plain : (Answer.failed failure).Plain policy false front ↔ failure ≠ .transport :=
      ⟨And.left, fun other =>
        ⟨other, fun streamed => Bool.noConfusion streamed⟩⟩
    rw [plain]
    cases failure with
    | connectError => exact iff_of_true (fun _ _ => rfl) (by decide)
    | readTimeout => exact iff_of_true (fun _ _ => rfl) (by decide)
    | transport =>
      have differ : counted 1 [] ≠ counted 1 [true] := by decide
      exact iff_of_false (not_alike enabled differ) (by decide)
    | other => exact iff_of_true (fun _ _ => rfl) (by decide)
  | response status_code body =>
    have said : verdict false (.response status_code body) = [isServerError status_code] := by
      unfold verdict
      dsimp only
      cases isServerError status_code with
      | true => rfl
      | false => rfl
    change Alike config [decide (status_code ∈ policy.retry_statuses)] _ ↔
      (status_code ∈ policy.retry_statuses ↔ _)
    rw [said]
    by_cases retried : status_code ∈ policy.retry_statuses
    · rw [decide_eq_true retried, iff_true_left retried]
      cases isServerError status_code with
      | true => exact iff_of_true (fun _ _ => rfl) rfl
      | false =>
        exact iff_of_false (not_alike enabled (by decide))
          Bool.false_ne_true
    · rw [decide_eq_false retried, iff_false_left retried]
      cases isServerError status_code with
      | true =>
        exact iff_of_false (not_alike enabled (by decide))
          (not_not_intro rfl)
      | false => exact iff_of_true (fun _ _ => rfl) Bool.false_ne_true

theorem stream_exact {closings : List Bool} {front : List Answer}
    (closing : ∀ failed ∈ closings, failed = false)
    (opened : closings = [] ↔ ∀ answer ∈ front, answer.opened policy = false)
    (last : Answer) :
    Alike config (closings ++ streamRecords last) (verdict true last) ↔
      last.Plain policy true front := by
  have counts : ∀ records, counted 1 (closings ++ records) =
      counted (if closings = [] then 1 else 0) records := by
    intro records
    rw [counted_append, counted_closings closing]
  cases last with
  | failed failure =>
    have plain : (Answer.failed failure).Plain policy true front ↔
        failure ≠ .transport ∧ closings = [] := by
      rw [opened]
      exact ⟨fun both => ⟨both.1, both.2 rfl⟩, fun both => ⟨both.1, fun _ => both.2⟩⟩
    rw [plain]
    by_cases none_before : closings = []
    · subst none_before
      cases failure with
      | connectError => exact iff_of_true (fun _ _ => rfl) ⟨by decide, rfl⟩
      | readTimeout => exact iff_of_true (fun _ _ => rfl) ⟨by decide, rfl⟩
      | transport =>
        have differ : counted 1 [] ≠ counted 1 [true] := by decide
        exact iff_of_false (not_alike enabled differ) (fun both => both.1 rfl)
      | other => exact iff_of_true (fun _ _ => rfl) ⟨by decide, rfl⟩
    · refine iff_of_false (not_alike enabled ?_) (fun both => none_before both.2)
      rw [counts, if_neg none_before]
      cases failure with
      | connectError => decide
      | readTimeout => decide
      | transport => decide
      | other => decide
  | response status_code body =>
    unfold verdict streamRecords Answer.Plain
    dsimp only
    rw [if_pos rfl, ← opened]
    by_cases success : isSuccess status_code = true
    · have kind : isServerError status_code = false := by
        unfold isSuccess at success
        unfold isServerError
        rw [decide_eq_true_eq] at success
        rw [decide_eq_false_iff_not]
        omega
      rw [if_pos success, if_pos success, kind, success, if_neg Bool.false_ne_true]
      cases broken : body.failure with
      | none => exact iff_of_true (alike_success _) (.inl rfl)
      | some failure =>
        cases failure with
        | connectError =>
          refine iff_of_false (not_alike enabled ?_) (by simp)
          rw [counts]
          exact Nat.ne_of_beq_eq_false rfl
        | readTimeout =>
          refine iff_of_false (not_alike enabled ?_) (by simp)
          rw [counts]
          exact Nat.ne_of_beq_eq_false rfl
        | transport =>
          refine iff_of_false (not_alike enabled ?_) (by simp)
          rw [counts]
          exact Nat.ne_of_beq_eq_false rfl
        | other => exact iff_of_true (alike_success _) (.inr rfl)
    · rw [if_neg success, if_neg success, (Bool.not_eq_true _).mp success]
      by_cases none_before : closings = []
      · subst none_before
        cases isServerError status_code with
        | true => exact iff_of_true (fun _ _ => rfl) ⟨rfl, rfl⟩
        | false =>
          have differ : counted 1 [true] ≠ counted 1 [false] := by decide
          exact iff_of_false (not_alike enabled differ) (fun both => Bool.false_ne_true both.1)
      · refine iff_of_false (not_alike enabled ?_) (fun both => none_before both.2)
        rw [counts, if_neg none_before]
        cases isServerError status_code with
        | true => exact Nat.ne_of_beq_eq_false rfl
        | false => exact Nat.ne_of_beq_eq_false rfl

end Exact

theorem run_records {call : Call} {policy : RetryPolicy} {front : List Answer}
    {last : Answer} (answered : (call.run policy).1 = front ++ [last]) :
    (call.streamed = false ∧ (call.run policy).2 = requestRecords policy last) ∨
      call.streamed = true ∧ ∃ closings : List Bool,
        (call.run policy).2 = closings ++ streamRecords last ∧
          (∀ failed ∈ closings, failed = false) ∧
          (closings = [] ↔ ∀ answer ∈ front, answer.opened policy = false) := by
  unfold Call.run at answered ⊢
  cases streamed : call.streamed with
  | false =>
    rw [streamed, if_neg Bool.false_ne_true] at answered
    rw [if_neg Bool.false_ne_true]
    obtain ⟨again, final, ended, records⟩ :=
      attempts_spec request_ends answered
    refine .inl ⟨rfl, ?_⟩
    rw [records, request_over ended]
    have silent : front.flatMap
        (fun answer => (requestAttempt policy false answer).records) = [] := by
      rw [List.flatMap_eq_nil_iff]
      intro answer member
      exact request_again (again answer member)
    rw [silent, List.nil_append]
  | true =>
    rw [streamed, if_pos rfl] at answered
    rw [if_pos rfl]
    obtain ⟨again, final, ended, records⟩ :=
      attempts_spec stream_ends answered
    refine .inr ⟨rfl, _, records.trans (by rw [stream_over ended]), ?_, ?_⟩
    · intro failed member
      obtain ⟨answer, inside, recorded⟩ := List.mem_flatMap.mp member
      rw [stream_again (again answer inside)] at recorded
      split at recorded
      next => exact List.mem_singleton.mp recorded
      next => cases recorded
    · rw [List.flatMap_eq_nil_iff]
      constructor
      · intro silent answer member
        have none := silent answer member
        rw [stream_again (again answer member)] at none
        by_contra opened
        rw [if_pos ((Bool.not_eq_false _).mp opened)] at none
        cases none
      · intro closed answer member
        rw [stream_again (again answer member), closed answer member]
        rfl

theorem run_nil {call : Call} {policy : RetryPolicy}
    (unanswered : (call.run policy).1 = []) : (call.run policy).2 = [] := by
  unfold Call.run at unanswered ⊢
  generalize (if call.replayable then policy.max_attempts else 1) = left at *
  cases left with
  | zero => rfl
  | succ left => exact absurd unanswered (attempts_ne_nil left 1)

theorem plain_iff {config : Config} {policy : RetryPolicy}
    (enabled : 0 < config.failureThreshold) (call : Call) :
    Alike config (call.run policy).2 (call.verdict policy) ↔ call.Plain policy := by
  rcases List.eq_nil_or_concat' (call.run policy).1 with
    unanswered | ⟨front, last, answered⟩
  · have silent : call.verdict policy = [] := by
      unfold Call.verdict
      rw [unanswered]
      rfl
    rw [run_nil unanswered, silent]
    refine iff_of_true (fun _ _ => rfl) ?_
    intro front last answered
    rw [unanswered] at answered
    exact absurd answered.symm (by simp)
  · have said : call.verdict policy = verdict call.streamed last := by
      unfold Call.verdict
      rw [answered, List.getLast?_append_of_ne_nil _ (List.cons_ne_nil _ _)]
      rfl
    have plain : call.Plain policy ↔ last.Plain policy call.streamed front := by
      constructor
      · intro plain
        exact plain front last answered
      · intro plain front' last' answered'
        obtain ⟨same, ends⟩ :=
          List.append_inj' (answered.symm.trans answered') rfl
        cases same
        cases ends
        exact plain
    rw [said, plain]
    rcases run_records answered with
      ⟨streamed, records⟩ | ⟨streamed, closings, records, closing, opened⟩
    · rw [records, streamed]
      exact request_exact enabled front last
    · rw [records, streamed]
      exact stream_exact enabled closing opened last

namespace HTTPClient

variable {client : HTTPClient} {host key : Host} {call : Call}

theorem record_iff {first second : List Bool} :
    (∀ breakers now, client.record breakers now host first =
        client.record breakers now host second) ↔
      Alike client.config first second := by
  constructor
  · intro same now state
    have here := congrFun (same (fun _ => state) now) host
    unfold record update at here
    rwa [Function.update_self, Function.update_self] at here
  · intro alike breakers now
    exact congrArg (update breakers host) (alike now (breakers host))

theorem check_disabled (disabled : client.config.failureThreshold ≤ 0)
    (breakers : Breakers) (now : ℚ) (host : Host) :
    client.check breakers now host = some breakers := by
  unfold check breakerCheck update
  rw [if_pos disabled, Option.map_some, Function.update_eq_self]

theorem record_disabled (disabled : client.config.failureThreshold ≤ 0)
    (breakers : Breakers) (now : ℚ) (host : Host) (records : List Bool) :
    client.record breakers now host records = breakers := by
  have same := fold_disabled disabled now (breakers host) records
  unfold fold at same
  unfold record update
  rw [same, Function.update_eq_self]

theorem check_closed {breakers : Breakers} (closed : breakers host = .closed)
    (now : ℚ) : client.check breakers now host = some breakers := by
  have zero : (breakers host).openedAt = 0 := by
    rw [closed]
    rfl
  have passed : breakerCheck client.config (breakers host) now = some (breakers host) := by
    unfold breakerCheck
    rw [if_pos zero, ite_self]
  unfold check update
  rw [passed, Option.map_some, Function.update_eq_self]

theorem key_of_checked (enabled : 0 < client.config.failureThreshold) (same : ∀ breakers now,
      client.check breakers now key = client.check breakers now host) :
    key = host := by
  have on : ¬client.config.failureThreshold ≤ 0 := not_le.mpr enabled
  by_contra differ
  let recovered : Breakers := update (fun _ => .closed) host ⟨0, 1⟩
  let now := 1 + client.config.recoverySeconds
  have here : client.check recovered now host = some (update recovered host ⟨0, 0⟩) := by
    have state : recovered host = ⟨0, 1⟩ := Function.update_self ..
    have late : ¬now - 1 < client.config.recoverySeconds := by
      simp [now]
    unfold check breakerCheck
    rw [state, if_neg on, if_neg one_ne_zero, if_neg late]
    rfl
  have there : client.check recovered now key = some recovered :=
    check_closed (Function.update_of_ne differ ..) now
  have both := (there.symm.trans (same recovered now)).trans here
  have states := congrFun (Option.some.inj both) host
  have opened : recovered host = ⟨0, 1⟩ := Function.update_self ..
  have closed : update recovered host ⟨0, 0⟩ host = ⟨0, 0⟩ :=
    Function.update_self ..
  rw [opened, closed] at states
  cases states

end HTTPClient

/-- A call tells the breaker of the host it is sent to what it ended with, and
no other breaker anything, exactly when the url can be read behind the base URL
and, unless there is no breaker, is named and the call plain. -/
theorem breaker_accounting_iff (client : HTTPClient) (call : Call) {host : Host}
    (sent : client.httpx.sentTo client.base_url call.url = some host) :
    client.Uniform call host ↔ client.httpx.accepts (client.parsedText call.url) = true ∧
        (client.config.failureThreshold ≤ 0 ∨
          client.Named call.url ∧ call.Plain client.retry_policy) := by
  by_cases readable : client.httpx.accepts (client.parsedText call.url) = true
  · have filed := HTTPClient.host_of_eq readable
    have named := HTTPClient.key_iff sent readable
    rw [filed] at named
    generalize fileUnder _ = key at filed named
    have checks : ∀ breakers now, client.admitted breakers now call =
        client.check breakers now key := by
      intro breakers now
      unfold HTTPClient.admitted
      rw [filed]
      rfl
    have records : ∀ breakers now, client.settled breakers now call =
        client.record breakers now key (call.run client.retry_policy).2 := by
      intro breakers now
      unfold HTTPClient.settled
      rw [filed]
    rcases lt_or_ge 0 client.config.failureThreshold with enabled | disabled
    · have on : ¬client.config.failureThreshold ≤ 0 := not_le.mpr enabled
      constructor
      · intro uniform
        have same : key = host := HTTPClient.key_of_checked enabled fun breakers now =>
            (checks breakers now).symm.trans (uniform.checked breakers now)
        refine ⟨readable, .inr ⟨named.mp (congrArg some same), ?_⟩⟩
        subst same
        rw [← plain_iff enabled, ← HTTPClient.record_iff]
        intro breakers now
        exact (records breakers now).symm.trans (uniform.counted breakers now)
      · rintro ⟨-, absurd | ⟨isNamed, plain⟩⟩
        · exact (on absurd).elim
        · have same : key = host := Option.some.inj (named.mpr isNamed)
          subst same
          refine ⟨checks, ?_⟩
          intro breakers now
          rw [records]
          exact HTTPClient.record_iff.mpr ((plain_iff enabled call).mpr plain) breakers now
    · refine iff_of_true ⟨?_, ?_⟩ ⟨readable, .inl disabled⟩
      · intro breakers now
        rw [checks, HTTPClient.check_disabled disabled, HTTPClient.check_disabled disabled]
      · intro breakers now
        rw [records, HTTPClient.record_disabled disabled, HTTPClient.record_disabled disabled]
  · refine iff_of_false ?_ (fun both => readable both.1)
    intro uniform
    have raised : client.host_of call.url = none := if_neg readable
    have started := uniform.checked (fun _ => .closed) 0
    unfold HTTPClient.admitted at started
    rw [raised, HTTPClient.check_closed rfl] at started
    cases started

namespace Httpx

def plainHost (authority : List Char) : Host :=
  authority.takeWhile fun character => character != ':'

def plainSentTo (base text : List Char) : Option Host :=
  if UriText.scheme text ≠ [] ∧ plainHost (UriText.authority text) ≠ [] then
    some (plainHost (UriText.authority text))
  else if plainHost (UriText.authority base) = [] then none
  else some (plainHost (UriText.authority base))

theorem plain_absolute (base text : List Char) (host : Host)
    (sent : plainSentTo base text = some host)
    (named : UriText.scheme text ≠ [])
    (hosted : plainHost (UriText.authority text) ≠ []) :
    host = plainHost (UriText.authority text) := by
  unfold plainSentTo at sent
  rw [if_pos ⟨named, hosted⟩] at sent
  exact (Option.some.inj sent).symm

theorem plain_relative (base text : List Char) (host : Host)
    (sent : plainSentTo base text = some host)
    (relative : ¬(UriText.scheme text ≠ [] ∧ plainHost (UriText.authority text) ≠ [])) :
    host = plainHost (UriText.authority base) ∧ host ≠ [] := by
  unfold plainSentTo at sent
  rw [if_neg relative] at sent
  split at sent
  next => cases sent
  next hosted =>
    cases sent
    exact ⟨rfl, hosted⟩

theorem plain_nil : plainHost [] = [] := rfl

def plain : Httpx where
  accepts := fun _ => true
  hostOf := plainHost
  hostOf_nil := plain_nil
  sentTo := plainSentTo
  sentTo_absolute := plain_absolute
  sentTo_relative := plain_relative

end Httpx

/-- The defaults, and a base URL without a slash at its end. -/
def defaults : HTTPClient where
  httpx := .plain
  base_url := "https://api.test".toList
  retry_policy := ⟨3, [429, 500, 502, 503, 504], true⟩
  config := ⟨5, 30⟩

def answeredBy (streamed : Bool) (url : String) (answer : Answer) : Call where
  streamed := streamed
  url := url.toList
  replayable := true
  answers := fun _ => answer

theorem breaker_accounting_iff_slash :
    let call := answeredBy false "/users" (.response 503 ⟨false, none⟩)
    defaults.Uniform call "api.test".toList ↔
      defaults.httpx.accepts (defaults.parsedText call.url) = true ∧
        (defaults.config.failureThreshold ≤ 0 ∨
          defaults.Named call.url ∧ call.Plain defaults.retry_policy) :=
  breaker_accounting_iff defaults _ (by decide)

/-- A path without a slash is filed under another host; a url with another one
in its query is filed under no host; `stream` records a 404 as a failure, and
`request` a 429; neither records a connection that times out. -/
theorem calls_counted_otherwise :
    (defaults.httpx.sentTo defaults.base_url "users".toList = some "api.test".toList ∧
      defaults.host_of "users".toList = some "api.testusers".toList) ∧
    (defaults.httpx.sentTo defaults.base_url "/go?to=https://x".toList =
        some "api.test".toList ∧
      defaults.host_of "/go?to=https://x".toList = some "_unknown_".toList) ∧
    ((answeredBy true "/" (.response 404 ⟨false, none⟩)).run defaults.retry_policy).2 = [true] ∧
    ((answeredBy false "/" (.response 429 ⟨false, none⟩)).run
      defaults.retry_policy).2 = [true] ∧
    ((answeredBy false "/" (.failed .transport)).run defaults.retry_policy).2 = [] := by
  decide

end TempestSdk.HttpClient
