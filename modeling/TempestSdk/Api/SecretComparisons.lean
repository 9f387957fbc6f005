import Mathlib.Algebra.Order.Ring.Rat
import TempestSdk.Api.Webhooks

/-!
# Comparisons of secrets

The double-submit check and the webhook verifiers compare what a client sent
with what they expect.  `compare_digest` raises on a text that is not ASCII,
and a number too large for a float raises when the window is checked.
-/

namespace TempestSdk.SecretComparisons

open PyDecimal (strip)
open PyStrings (Text partition removePrefix)
open Webhooks (Bytes WebhookSignatureVerifier compareDigest compareDigest_ascii
  isAscii)

inductive Outcome where
  | accepted
  | rejected
  | typeError
  | overflowError
deriving DecidableEq

def Outcome.of (accepts : Bool) : Outcome :=
  if accepts then .accepted else .rejected

theorem of_ne {accepts : Bool} : Outcome.of accepts ≠ .overflowError := by
  cases accepts <;> simp [Outcome.of]

def compared : Option Bool → Outcome
  | some equal => .of equal
  | none => .typeError

/-- `dispatch` on an unsafe method and a path that is not excluded. -/
def csrf (cookie_token header_token : Option Text) : Outcome :=
  match cookie_token, header_token with
  | some cookie, some header =>
    if cookie = [] ∨ header = [] then .rejected
    else compared (compareDigest cookie header)
  | _, _ => .rejected

def csrfAccepts : Option Text → Option Text → Bool
  | some cookie, some header => cookie ≠ [] && cookie == header
  | _, _ => false

theorem csrf_iff (cookie_token header_token : Option Text) :
    csrf cookie_token header_token = .of (csrfAccepts cookie_token header_token) ↔
      ∀ cookie header, cookie_token = some cookie →
        header_token = some header → cookie ≠ [] → header ≠ [] →
          cookie.all isAscii = true ∧ header.all isAscii = true := by
  cases cookie_token with
  | none => simp [csrf, csrfAccepts, Outcome.of]
  | some cookie =>
    cases header_token with
    | none => simp [csrf, csrfAccepts, Outcome.of]
    | some header =>
      by_cases empty : cookie = [] ∨ header = []
      · rcases empty with rfl | rfl
        · simp [csrf, csrfAccepts, Outcome.of]
        · cases cookie <;> simp [csrf, csrfAccepts, Outcome.of]
      · have given := not_or.mp empty
        have named : (∀ first second, some cookie = some first →
            some header = some second → first ≠ [] → second ≠ [] →
              first.all isAscii = true ∧ second.all isAscii = true) ↔
            cookie.all isAscii = true ∧ header.all isAscii = true := by
          constructor
          · exact fun all => all cookie header rfl rfl given.1 given.2
          · intro plain first second one two _ _
            cases one
            cases two
            exact plain
        rw [named]
        simp only [csrf, csrfAccepts, if_neg empty, compareDigest]
        cases cookie.all isAscii <;> cases header.all isAscii <;>
          cases cookie == header <;> simp [compared, Outcome.of, given.1]

/-- `float(raw)`: nothing for a ValueError, and no number for an infinity or
NaN. -/
abbrev ReadFloat := Text → Option (Option ℚ)

def timestampIsFresh (readFloat : ReadFloat) (now : ℚ) (raw : Text)
    (max_age_seconds : Int) : Bool :=
  match if raw = [] then none else readFloat raw with
  | some (some sent_at) => decide (|now - sent_at| ≤ max_age_seconds)
  | _ => false

def isFresh (readFloat : ReadFloat) (now : ℚ) (max_age_seconds : Int)
    (timestamp : Option Text) : Bool :=
  timestamp.all fun raw => timestampIsFresh readFloat now raw max_age_seconds

/-- `_verify` of the dependency. -/
def dependency (verifier : WebhookSignatureVerifier) (body : Bytes)
    (signature : Text) (fresh : Bool) : Outcome :=
  if signature = [] then .rejected
  else
    match compared (verifier.verify body signature) with
    | .accepted => .of fresh
    | other => other

def dependencyAccepts (verifier : WebhookSignatureVerifier) (body : Bytes)
    (signature : Text) (fresh : Bool) : Bool :=
  signature ≠ [] && (verifier.expected body ==
    removePrefix verifier.fixedPrefix signature && fresh)

theorem dependency_iff (verifier : WebhookSignatureVerifier) (body : Bytes)
    (signature : Text) (fresh : Bool) :
    dependency verifier body signature fresh =
        .of (dependencyAccepts verifier body signature fresh) ↔
      signature = [] ∨ (removePrefix verifier.fixedPrefix signature).all isAscii = true := by
  unfold dependency dependencyAccepts
  by_cases empty : signature = []
  · simp [empty, Outcome.of]
  · have ascii := verifier.expected_ascii body
    simp only [empty, WebhookSignatureVerifier.verify, compareDigest_ascii ascii, false_or]
    cases (removePrefix verifier.fixedPrefix signature).all isAscii <;>
      cases verifier.expected body == removePrefix verifier.fixedPrefix signature <;>
          cases fresh <;> simp [compared, Outcome.of, empty]

/-- The MAC, as hex, of a stamped body under a secret. -/
structure StampedMac where
  expected : Text → Int → Bytes → Text
  expected_ascii : ∀ secret timestamp body, (expected secret timestamp body).all isAscii = true

/-- A provider's `t=...,v1=...` header. -/
structure Provider extends StampedMac where
  takesEmpty : Bool

/-- `parse_signature_header`; `int` is nothing where Python's raises. -/
def Provider.parse_signature_header (provider : Provider)
    (int : Text → Option Int) (header : Text) : Option Int × List Text :=
  (header.splitOn ',').foldl (fun (timestamp, signatures) part =>
    let cut := partition '=' (strip part)
    if cut.before = ['t'] then (int cut.after, signatures)
    else if cut.before = ['v', '1'] ∧ (provider.takesEmpty ∨ cut.after ≠ []) then
      (timestamp, signatures ++ [cut.after])
    else (timestamp, signatures)) (none, [])

/-- Integers from here on do not fit into a float. -/
@[irreducible] def floatLimit : Int := 2 ^ 1024 - 2 ^ 970

/-- `any(hmac.compare_digest(expected, candidate) ...)`. -/
def anyDigest (expected : Text) : List Text → Option Bool
  | [] => some false
  | candidate :: rest =>
    match compareDigest expected candidate with
    | none => none
    | some true => some true
    | some false => anyDigest expected rest

def Provider.verify_signature (provider : Provider) (int : Text → Option Int)
    (body : Bytes) (header secret : Text) (tolerance_seconds : Int) (now : ℚ) :
    Outcome :=
  if strip secret = [] then .rejected
  else
    match provider.parse_signature_header int header with
    | (none, _) => .rejected
    | (some timestamp, signatures) =>
      let checked := compared (anyDigest (provider.expected secret timestamp body) signatures)
      if signatures = [] then .rejected
      else if 0 < tolerance_seconds then
        if floatLimit ≤ |timestamp| then .overflowError
        else if (tolerance_seconds : ℚ) < |now - timestamp| then .rejected
        else checked
      else checked

/-- The secret is set, the timestamp is in the window, and one of the
signatures is the expected one. -/
def Provider.accepts (provider : Provider) (int : Text → Option Int)
    (body : Bytes) (header secret : Text) (tolerance_seconds : Int) (now : ℚ) :
    Bool :=
  match provider.parse_signature_header int header with
  | (none, _) => false
  | (some timestamp, signatures) =>
    strip secret ≠ [] && !(decide (0 < tolerance_seconds) &&
        decide ((tolerance_seconds : ℚ) < |now - timestamp|)) &&
      signatures.contains (provider.expected secret timestamp body)

def readable (expected : Text) : List Text → Bool
  | [] => true
  | candidate :: rest =>
    candidate.all isAscii && (candidate == expected || readable expected rest)

theorem anyDigest_iff {expected : Text} (ascii : expected.all isAscii = true)
    (candidates : List Text) :
    compared (anyDigest expected candidates) = .of (candidates.contains expected) ↔
      readable expected candidates = true := by
  induction candidates with
  | nil => simp [anyDigest, compared, readable]
  | cons candidate rest induction =>
    rw [anyDigest, compareDigest_ascii ascii, readable, List.contains_cons]
    cases plain : candidate.all isAscii with
    | false =>
      cases expected == candidate || rest.contains expected <;>
        simp [compared, Outcome.of]
    | true =>
      by_cases same : candidate = expected
      · simp [same, compared]
      · have differs : (expected == candidate) = false := by
          simpa using Ne.symm same
        simp only [differs, if_true, Bool.false_or, Bool.true_and]
        rw [show (candidate == expected) = false by simpa using same,
          Bool.false_or]
        exact induction

def Provider.InRange (provider : Provider) (int : Text → Option Int)
    (body : Bytes) (header secret : Text) (tolerance_seconds : Int) (now : ℚ) :
    Prop :=
  ∀ timestamp signatures, strip secret ≠ [] → signatures ≠ [] →
    provider.parse_signature_header int header = (some timestamp, signatures) →
      (0 < tolerance_seconds → |timestamp| < floatLimit) ∧
      (¬ (0 < tolerance_seconds ∧ (tolerance_seconds : ℚ) < |now - timestamp|) →
        readable (provider.expected secret timestamp body) signatures = true)

theorem verify_signature_iff (provider : Provider) (int : Text → Option Int)
    (body : Bytes) (header secret : Text) (tolerance_seconds : Int) (now : ℚ) :
    provider.verify_signature int body header secret tolerance_seconds now =
        .of (provider.accepts int body header secret tolerance_seconds now) ↔
      provider.InRange int body header secret tolerance_seconds now := by
  unfold Provider.verify_signature Provider.accepts Provider.InRange
  by_cases blank : strip secret = []
  case pos =>
    rw [if_pos blank]
    refine iff_of_true ?_ fun _ _ set => absurd blank set
    split <;> simp [blank, Outcome.of]
  case neg =>
  rw [if_neg blank]
  cases parsed : provider.parse_signature_header int header with
  | mk stamp signatures =>
  cases stamp with
  | none => exact iff_of_true rfl fun _ _ _ _ same => by cases same
  | some timestamp =>
  have ascii := provider.expected_ascii secret timestamp body
  have stated : (∀ moment candidates, strip secret ≠ [] → candidates ≠ [] →
        ((some timestamp, signatures) : Option Int × List Text) = (some moment, candidates) →
        (0 < tolerance_seconds → |moment| < floatLimit) ∧
        (¬ (0 < tolerance_seconds ∧ (tolerance_seconds : ℚ) < |now - moment|) →
          readable (provider.expected secret moment body) candidates = true)) ↔
      (signatures ≠ [] → (0 < tolerance_seconds → |timestamp| < floatLimit) ∧
        (¬ (0 < tolerance_seconds ∧ (tolerance_seconds : ℚ) < |now - timestamp|) →
          readable (provider.expected secret timestamp body) signatures = true)) := by
    constructor
    · exact fun all some_signature => all _ _ blank some_signature rfl
    · intro range moment candidates _ some_signature same
      cases same
      exact range some_signature
  rw [stated]
  by_cases unsigned : signatures = []
  · simp [unsigned, Outcome.of]
  have answer := anyDigest_iff ascii signatures
  by_cases bounded : 0 < tolerance_seconds
  · by_cases large : floatLimit ≤ |timestamp|
    · simp [unsigned, bounded, large, not_lt.mpr large, of_ne.symm]
    · by_cases outside : (tolerance_seconds : ℚ) < |now - timestamp|
      · simp [unsigned, bounded, large, outside, Outcome.of, not_le.mp large]
      · simpa [blank, unsigned, bounded, large, outside, not_le.mp large] using answer
  · simpa [blank, unsigned, bounded] using answer

def stripe (mac : StampedMac) : Provider := ⟨mac, true⟩

def revenueCat (mac : StampedMac) : Provider := ⟨mac, false⟩

/-- Each comparison answers as it should exactly when all it compares is ASCII
and the signed timestamp fits into a float. -/
theorem comparisons_total_iff (cookie_token header_token : Option Text)
    (verifier : WebhookSignatureVerifier) (body : Bytes)
    (signature : Text) (timestamp : Option Text) (readFloat : ReadFloat)
    (max_age_seconds : Int) (mac : StampedMac) (int : Text → Option Int)
    (header secret : Text) (tolerance_seconds : Int) (now : ℚ) :
    (csrf cookie_token header_token = .of (csrfAccepts cookie_token header_token) ↔
      ∀ cookie header, cookie_token = some cookie →
        header_token = some header → cookie ≠ [] → header ≠ [] →
          cookie.all isAscii = true ∧ header.all isAscii = true) ∧
    (dependency verifier body signature (isFresh readFloat now max_age_seconds timestamp) =
        .of (dependencyAccepts verifier body signature
          (isFresh readFloat now max_age_seconds timestamp)) ↔
      signature = [] ∨ (removePrefix verifier.fixedPrefix signature).all isAscii = true) ∧
    ∀ provider ∈ [stripe mac, revenueCat mac],
      (provider.verify_signature int body header secret tolerance_seconds now =
          .of (provider.accepts int body header secret tolerance_seconds now) ↔
        provider.InRange int body header secret tolerance_seconds now) :=
  ⟨csrf_iff _ _, dependency_iff _ _ _ _,
    fun provider _ => verify_signature_iff provider _ _ _ _ _ _⟩

theorem comparisons_raise : csrf (some ['t']) (some ['é']) = .typeError ∧
    dependency Webhooks.sampleSigner [] ['é'] true = .typeError ∧
    (stripe ⟨fun _ _ _ => ['a'], fun _ _ _ => rfl⟩).verify_signature
      (fun text => if text = ['1'] then some 1 else none) []
      "t=1,v1=é".toList ['s'] 0 0 = .typeError := by
  refine ⟨by decide, by decide, by decide⟩

end TempestSdk.SecretComparisons
