import Mathlib.Data.Prod.Lex
import Mathlib.Data.String.Basic
import Mathlib.Order.Lex
import TempestSdk.Library.Base64
import TempestSdk.Library.Datetime
import TempestSdk.Library.StableSort
import TempestSdk.Library.UriQuote

/-!
# Signed URLs

The path of a route and the second until which it may be asked for, under a MAC
whose key is derived from the secret and the purpose.  The MAC of the standard
library is a parameter, as is the float that `timestamp()` makes of an instant.
Instants and durations are microseconds.
-/

namespace TempestSdk.SignedUrl

open UriQuote (Text encode quote unquote urlencode)

/-- `hmac.new(key, message, hashlib.sha256).digest()`. -/
abbrev Hmac := List UInt8 → List UInt8 → List UInt8

inductive SigningError where
  | value (message : String)
  | path (got : Text)
  | overflow
  | invalidSignedUrl
  | expiredSignedUrl
deriving DecidableEq

def expiresParam : Text := "expires".toList

def signatureParam : Text := "signature".toList

def keyDerivationLabel : List UInt8 :=
  encode "tempest-fastapi-sdk.signed-url.v1".toList ++ [0]

def requireMaterial (secret purpose : Text) : Except SigningError Unit :=
  if secret = [] then .error (.value "secret must be a non-empty string")
  else if purpose = [] then
    .error (.value "purpose must be a non-empty string")
  else .ok ()

def intText (number : Int) : Text :=
  if number < 0 then '-' :: Numerals.natural number.natAbs
  else Numerals.natural number.natAbs

def derivation (purpose : Text) : List UInt8 :=
  keyDerivationLabel ++ encode purpose

def message (path : Text) (expires : Int) : List UInt8 :=
  encode (intText expires ++ '\n' :: path)

def signature (hmac : Hmac) (path : Text) (expires : Int) (secret purpose : Text) : Text :=
  let key := hmac (encode secret) (derivation purpose)
  Base64.unpadded (hmac key (message path expires))

/-- A datetime: what it shows, and its offset when it is aware. -/
structure Moment where
  wall : Int
  offset : Option Int

/-- `to_utc`; `none` is an `OverflowError`. -/
def toUtc (moment : Moment) : Option Int :=
  match moment.offset with
  | none => some moment.wall
  | some offset => PyDatetime.shift moment.wall (-offset)

def instant (clock : Int) (now : Option Moment) : Option Int :=
  match now with
  | some moment => toUtc moment
  | none => some clock

/-- `int(number)`. -/
def truncate (number : ℚ) : Int :=
  if 0 ≤ number then number.floor else number.ceil

def signPath (hmac : Hmac) (timestamp : Int → ℚ) (clock : Int) (path : Text)
    (secret : Text) (expiresIn : Int) (purpose : Text) (now : Option Moment) :
    Except SigningError Text :=
  match requireMaterial secret purpose with
  | .error error => .error error
  | .ok () =>
    if path.head? ≠ some '/' then .error (.path path)
    else if expiresIn ≤ 0 then
      .error (.value "expires_in must be positive")
    else
      match (instant clock now).bind fun issuedAt =>
          PyDatetime.shift issuedAt expiresIn with
      | none => .error .overflow
      | some expiry =>
        let expires := truncate (timestamp expiry)
        let query := urlencode [(expiresParam, intText expires),
          (signatureParam, signature hmac path expires secret purpose)]
        .ok (quote ['/'] path ++ '?' :: query)

def verifyPath (hmac : Hmac) (timestamp : Int → ℚ) (clock : Int) (path : Text)
    (expires : Int) (presented secret purpose : Text) (now : Option Moment) :
    Except SigningError Unit :=
  match requireMaterial secret purpose with
  | .error error => .error error
  | .ok () =>
    let expected := signature hmac path expires secret purpose
    if encode expected ≠ encode presented then .error .invalidSignedUrl
    else
      match instant clock now with
      | none => .error .overflow
      | some checkedAt =>
        if (expires : ℚ) ≤ timestamp checkedAt then .error .expiredSignedUrl
        else .ok ()

/-- `bound_purpose`: the parameters of a link, sorted, behind a NUL. -/
def boundPurpose (purpose : Text) (params : List (Text × Text)) : Text :=
  if params = [] then purpose
  else purpose ++ Char.ofNat 0 ::
    urlencode (StableSort.sortBy (fun param => toLex param) params)

def readInt : Text → Option Int
  | '-' :: digits => (Numerals.read 10 digits).map fun number : Nat => -(number : Int)
  | digits => (Numerals.read 10 digits).map Int.ofNat

def parameter (name : Text) (query : Text) : Option Text :=
  (UriQuote.parseQsl query).findSome? fun field =>
    field.bind fun pair => if pair.1 = name then some pair.2 else none

structure Seen where
  path : Text
  expires : Int
  signature : Text

def split (url : Text) : Option Seen :=
  let cut := PyStrings.partition '?' url
  (unquote cut.before).bind fun path =>
    ((parameter expiresParam cut.after).bind readInt).bind fun expires =>
      (parameter signatureParam cut.after).map fun signature =>
        ⟨path, expires, signature⟩

theorem encode_injective : Function.Injective encode := by
  intro text other same
  have read := UriQuote.decode_encode_text text
  rw [same, UriQuote.decode_encode_text] at read
  exact (Option.some.inj read).symm

theorem natural_digit {number : Nat} {char : Char} (member : char ∈ Numerals.natural number) :
    char ≠ '-' ∧ char ≠ '\n' := by
  have digit := PyText.Decimal.isDigit_natural member
  constructor
  · rintro rfl
    cases digit
  · rintro rfl
    cases digit

theorem readInt_intText (number : Int) : readInt (intText number) = some number := by
  have read := Numerals.read_natural number.natAbs
  unfold intText
  split
  case isTrue negative =>
    change (Numerals.read 10 (Numerals.natural number.natAbs)).map
      (fun value : Nat => -(value : Int)) = some number
    rw [read, Option.map_some, Option.some.injEq]
    omega
  case isFalse positive =>
    have plain : readInt (Numerals.natural number.natAbs) =
        (Numerals.read 10 (Numerals.natural number.natAbs)).map Int.ofNat := by
      cases digits : Numerals.natural number.natAbs with
      | nil => rfl
      | cons first rest =>
        have member : first ∈ Numerals.natural number.natAbs := by
          rw [digits]
          exact List.mem_cons_self
        have sign := (natural_digit member).1
        unfold readInt
        split
        next same => exact (sign (List.cons.inj same).1).elim
        next => rfl
    rw [plain, read, Option.map_some, Option.some.injEq, Int.ofNat_eq_natCast]
    omega

theorem intText_injective : Function.Injective intText := by
  intro number other same
  have read := readInt_intText number
  rw [same, readInt_intText] at read
  exact (Option.some.inj read).symm

theorem newline_not_mem_intText (number : Int) : '\n' ∉ intText number := by
  unfold intText
  intro member
  split at member
  · rcases List.mem_cons.mp member with sign | digit
    · cases sign
    · exact (natural_digit digit).2 rfl
  · exact (natural_digit member).2 rfl

theorem message_inj {path other : Text} {expires another : Int}
    (same : message path expires = message other another) :
    path = other ∧ expires = another := by
  obtain ⟨numbers, paths⟩ := PyStrings.cut_unique
    (newline_not_mem_intText expires) (newline_not_mem_intText another)
    (encode_injective same)
  exact ⟨paths, intText_injective numbers⟩

theorem derivation_injective : Function.Injective derivation := by
  intro purpose other same
  exact encode_injective (List.append_cancel_left same)

/-- The MAC taken as injective: in the message under every key, and in the key
among those that were derived. -/
structure Injective (hmac : Hmac) : Prop where
  message : ∀ key message other, hmac key message = hmac key other → message = other
  derived : ∀ secret material another message other,
    hmac (hmac secret material) message = hmac (hmac secret another) other →
      hmac secret material = hmac secret another

theorem signature_inj {hmac : Hmac} (injective : Injective hmac)
    {path other secret purpose another : Text} {expires later : Int}
    (same : signature hmac path expires secret purpose =
      signature hmac other later secret another) :
    path = other ∧ expires = later ∧ purpose = another := by
  have macs := Base64.unpadded_injective same
  have keys := injective.derived _ _ _ _ _ macs
  have purposes := derivation_injective (injective.message _ _ _ keys)
  subst purposes
  obtain ⟨paths, moments⟩ := message_inj (injective.message _ _ _ macs)
  exact ⟨paths, moments, rfl⟩

theorem boundPurpose_inj {purpose : Text} {params others : List (Text × Text)}
    (same : boundPurpose purpose params = boundPurpose purpose others) :
    params.Perm others := by
  unfold boundPurpose at same
  split at same
  case isTrue empty =>
    split at same
    case isTrue other_empty => rw [empty, other_empty]
    case isFalse some_other =>
      have lengths := congrArg List.length same
      simp at lengths
  case isFalse some_param =>
    split at same
    case isTrue other_empty =>
      have lengths := congrArg List.length same
      simp at lengths
    case isFalse some_other =>
      have queries := List.append_cancel_left same
      have sorted := UriQuote.urlencode_inj (List.cons.inj queries).2
      exact (StableSort.sortBy_perm params).symm.trans (sorted ▸ StableSort.sortBy_perm others)

section

variable {hmac : Hmac} {timestamp : Int → ℚ} {clock : Int}
variable {path secret purpose url : Text} {expiresIn expires : Int}
variable {now : Option Moment}

theorem verifyPath_ok {presented : Text} :
    verifyPath hmac timestamp clock path expires presented secret purpose now = .ok () ↔
      requireMaterial secret purpose = .ok () ∧
        presented = signature hmac path expires secret purpose ∧
        ∃ checkedAt, instant clock now = some checkedAt ∧ timestamp checkedAt < expires := by
  unfold verifyPath
  cases material : requireMaterial secret purpose with
  | error error => simp
  | ok given =>
    dsimp only
    by_cases same : encode (signature hmac path expires secret purpose) = encode presented
    · rw [if_neg (not_not.mpr same)]
      have texts := encode_injective same
      cases moment : instant clock now with
      | none => simp
      | some checkedAt =>
        dsimp only
        by_cases late : (expires : ℚ) ≤ timestamp checkedAt
        · rw [if_pos late]
          simp [not_lt.mpr late]
        · rw [if_neg late]
          simp [texts, not_le.mp late]
    · rw [if_pos same]
      have apart : presented ≠ signature hmac path expires secret purpose := by
        rintro rfl
        exact same rfl
      simp [apart]

theorem signPath_ok :
    signPath hmac timestamp clock path secret expiresIn purpose now = .ok url ↔
      requireMaterial secret purpose = .ok () ∧ path.head? = some '/' ∧
        0 < expiresIn ∧ ∃ issuedAt expiry, instant clock now = some issuedAt ∧
          PyDatetime.shift issuedAt expiresIn = some expiry ∧
          url = quote ['/'] path ++ '?' :: urlencode
            [(expiresParam, intText (truncate (timestamp expiry))),
              (signatureParam, signature hmac path
                (truncate (timestamp expiry)) secret purpose)] := by
  unfold signPath
  cases material : requireMaterial secret purpose with
  | error error => simp
  | ok given =>
    dsimp only
    by_cases slash : path.head? = some '/'
    · rw [if_neg (not_not.mpr slash)]
      by_cases short : expiresIn ≤ 0
      · rw [if_pos short]
        simp [not_lt.mpr short]
      · rw [if_neg short]
        cases moment : instant clock now with
        | none => simp
        | some issuedAt =>
          rw [Option.bind_some]
          cases shifted : PyDatetime.shift issuedAt expiresIn with
          | none => simp [shifted]
          | some expiry => simp [shifted, slash, not_le.mp short, eq_comm]
    · rw [if_pos slash]
      simp [slash]

theorem split_signed (signature : Text) : split (quote ['/'] path ++ '?' :: urlencode
        [(expiresParam, intText expires), (signatureParam, signature)]) =
      some ⟨path, expires, signature⟩ := by
  have absent : '?' ∉ quote ['/'] path :=
    UriQuote.not_mem_quote (by decide) (by decide) (by decide)
  have named : expiresParam ≠ signatureParam := by decide
  unfold split
  rw [PyStrings.partition_cut absent]
  dsimp only
  rw [UriQuote.unquote_quote (List.forall_mem_singleton.mpr (by decide)),
    Option.bind_some]
  unfold parameter
  rw [UriQuote.parseQsl_urlencode (List.cons_ne_nil _ _)]
  simp [named, readInt_intText]

end

/-- A signed URL is seen by the route as it was signed, and verified as long as
the instant is before its expiry.  Its signature is accepted with no other
path, expiry or purpose, nor with other parameters bound to the purpose. -/
theorem signed_urls_bind {hmac : Hmac} (injective : Injective hmac)
    {timestamp : Int → ℚ} {clock : Int} {path secret purpose url : Text}
    {expiresIn : Int} {now : Option Moment}
    (signed : signPath hmac timestamp clock path secret expiresIn purpose now = .ok url) :
    (∀ purpose path expires another other later, derivation purpose = derivation another →
      message path expires = message other later →
      purpose = another ∧ path = other ∧ expires = later) ∧
    ∃ expires signature issuedAt expiry, instant clock now = some issuedAt ∧
      PyDatetime.shift issuedAt expiresIn = some expiry ∧
      expires = truncate (timestamp expiry) ∧
      split url = some ⟨path, expires, signature⟩ ∧
      (∀ later checked checkedAt, instant later checked = some checkedAt →
        verifyPath hmac timestamp later path expires signature secret purpose checked =
          if timestamp checkedAt < expires then .ok ()
          else .error .expiredSignedUrl) ∧
      (∀ other another label later checked,
        verifyPath hmac timestamp later other another signature secret label checked = .ok () →
          other = path ∧ another = expires ∧ label = purpose) ∧
      ∀ base params others other another later checked, purpose = boundPurpose base params →
        verifyPath hmac timestamp later other another signature secret
            (boundPurpose base others) checked = .ok () →
          params.Perm others := by
  obtain ⟨material, _slash, _positive, issuedAt, expiry, moment, shifted, rfl⟩ :=
    (signPath_ok).mp signed
  have only : ∀ other another label later checked, verifyPath hmac timestamp later other another
          (signature hmac path (truncate (timestamp expiry)) secret purpose)
          secret label checked = .ok () →
        other = path ∧ another = truncate (timestamp expiry) ∧ label = purpose := by
    intro other another label later checked accepted
    obtain ⟨_, same, _⟩ := (verifyPath_ok).mp accepted
    exact signature_inj injective same.symm
  refine ⟨?_, truncate (timestamp expiry),
    signature hmac path (truncate (timestamp expiry)) secret purpose,
    issuedAt, expiry, moment, shifted, rfl, split_signed _, ?_, only, ?_⟩
  · intro label route seconds another other later labels messages
    obtain ⟨routes, moments⟩ := message_inj messages
    exact ⟨derivation_injective labels, routes, moments⟩
  · intro later checked checkedAt reached
    unfold verifyPath
    rw [material]
    dsimp only
    rw [if_neg (not_not.mpr rfl), reached]
    dsimp only
    by_cases early : timestamp checkedAt < truncate (timestamp expiry)
    · rw [if_pos early, if_neg (not_le.mpr early)]
    · rw [if_neg early, if_pos (not_lt.mp early)]
  · intro base params others other another later checked bound accepted
    obtain ⟨_, _, labels⟩ := only _ _ _ _ _ accepted
    rw [bound] at labels
    exact (boundPurpose_inj labels).symm

/-- The key and the message, each byte of the key behind a one. -/
def framed : List UInt8 → List UInt8 → List UInt8
  | [], message => 0 :: message
  | byte :: key, message => 1 :: byte :: framed key message

theorem framed_inj {key other message another : List UInt8}
    (same : framed key message = framed other another) :
    key = other ∧ message = another := by
  induction key generalizing other with
  | nil =>
    cases other with
    | nil => exact ⟨rfl, (List.cons.inj same).2⟩
    | cons byte other => exact absurd (List.cons.inj same).1 (by decide)
  | cons byte key induction =>
    cases other with
    | nil => exact absurd (List.cons.inj same).1 (by decide)
    | cons first other =>
      obtain ⟨bytes, behind⟩ := List.cons.inj (List.cons.inj same).2
      obtain ⟨keys, messages⟩ := induction behind
      exact ⟨by rw [bytes, keys], messages⟩

def sampleSecret : Text := "app-secret".toList

def samplePurpose : Text := "files".toList

def samplePath : Text := "/files/a b".toList

/-- The HMAC-SHA256 of the purpose under the secret. -/
def sampleKey : List UInt8 :=
  [200, 169, 32, 153, 145, 97, 26, 141, 99, 218, 55, 124, 21, 251, 0, 75, 150,
    173, 213, 84, 165, 244, 208, 153, 165, 45, 143, 236, 133, 98, 119, 213]

/-- The HMAC-SHA256 of the message under the derived key. -/
def sampleTag : List UInt8 :=
  [8, 167, 197, 61, 28, 120, 150, 182, 139, 15, 251, 251, 43, 225, 45, 172, 19,
    127, 5, 185, 61, 159, 189, 133, 51, 102, 200, 192, 115, 61, 171, 211]

/-- The MAC at two points, and longer values everywhere else. -/
def sampleHmac : Hmac := fun key text =>
  if key = encode sampleSecret ∧ text = derivation samplePurpose then sampleKey
  else if key = sampleKey ∧ text = message samplePath 1790856300 then sampleTag
  else List.replicate 32 2 ++ framed key text

theorem sampleHmac_inj {key other text another : List UInt8}
    (same : sampleHmac key text = sampleHmac other another) :
    key = other ∧ text = another := by
  have long : ∀ key text, 32 < (List.replicate 32 2 ++ framed key text).length := by
    intro key text
    cases key with
    | nil => simp [framed]
    | cons byte key => simp [framed]
  unfold sampleHmac at same
  split at same
  case isTrue first =>
    split at same
    case isTrue other_first =>
      exact ⟨first.1.trans other_first.1.symm, first.2.trans other_first.2.symm⟩
    case isFalse =>
      split at same
      case isTrue => exact absurd same (by decide)
      case isFalse =>
        have bound := long other another
        rw [← same] at bound
        exact absurd bound (by decide)
  case isFalse =>
    split at same
    case isTrue second =>
      split at same
      case isTrue => exact absurd same (by decide)
      case isFalse =>
        split at same
        case isTrue other_second =>
          exact ⟨second.1.trans other_second.1.symm, second.2.trans other_second.2.symm⟩
        case isFalse =>
          have bound := long other another
          rw [← same] at bound
          exact absurd bound (by decide)
    case isFalse =>
      have bound := long key text
      split at same
      case isTrue =>
        rw [same] at bound
        exact absurd bound (by decide)
      case isFalse =>
        split at same
        case isTrue =>
          rw [same] at bound
          exact absurd bound (by decide)
        case isFalse => exact framed_inj (List.append_cancel_left same)

theorem sampleHmac_injective : Injective sampleHmac where
  message _ _ _ same := (sampleHmac_inj same).2
  derived _ _ _ _ _ same := (sampleHmac_inj same).1

def microseconds (instant : Int) : ℚ := instant / 1000000

def sampleUrl : Text :=
  ("/files/a%20b?expires=1790856300" ++
    "&signature=CKfFPRx4lraLD_v7K-EtrBN_Bbk9n72FM2bIwHM9q9M").toList

theorem last_second : truncate (microseconds 1790856300000000) = 1790856300 := by
  with_unfolding_all decide

theorem sample_url_binds :
    signPath sampleHmac microseconds 1790856000000000 samplePath sampleSecret
        300000000 samplePurpose none = .ok sampleUrl ∧
      ∃ signature, split sampleUrl = some ⟨samplePath, 1790856300, signature⟩ ∧
        verifyPath sampleHmac microseconds 1790856299000000 samplePath 1790856300
          signature sampleSecret samplePurpose none = .ok () ∧
        ∀ other later checked,
          verifyPath sampleHmac microseconds later other 1790856300 signature
              sampleSecret samplePurpose checked = .ok () →
            other = samplePath := by
  have signed : signPath sampleHmac microseconds 1790856000000000 samplePath
      sampleSecret 300000000 samplePurpose none = .ok sampleUrl := by
    apply (signPath_ok).mpr
    refine ⟨rfl, by decide, by decide, 1790856000000000, 1790856300000000, rfl,
      by decide, ?_⟩
    rw [last_second]
    decide
  obtain ⟨_, expires, signature, issuedAt, expiry, moment, shifted, told, seen,
    verified, only, _⟩ := signed_urls_bind sampleHmac_injective signed
  cases moment
  cases shifted
  have second : expires = 1790856300 := told.trans last_second
  subst second
  refine ⟨signed, signature, seen, ?_, ?_⟩
  · rw [verified 1790856299000000 none 1790856299000000 rfl]
    exact if_pos (by with_unfolding_all decide)
  · intro other later checked accepted
    exact (only other 1790856300 samplePurpose later checked accepted).1

end TempestSdk.SignedUrl
