import TempestSdk.Library.PyStrings
import TempestSdk.Library.Table

/-!
# Signed webhooks

The sender signs the body and merges its headers over those of the caller; the
receiver finds a header without regard to case and verifies the signature with
the same verifier.
-/

namespace TempestSdk.Webhooks

open PyStrings (Text removePrefix)

abbrev Bytes := List UInt8

def isAscii (char : Char) : Bool := char.toNat < 128

/-- `compare_digest` of two texts raises when one is not ASCII. -/
def compareDigest (expected presented : Text) : Option Bool :=
  if expected.all isAscii && presented.all isAscii then
    some (expected == presented)
  else none

structure WebhookSignatureVerifier where
  header_name : Text
  fixedPrefix : Text
  /-- The MAC of a body under the secret, as hex or base64. -/
  expected : Bytes → Text
  expected_ascii : ∀ body, (expected body).all isAscii = true

def WebhookSignatureVerifier.verify (verifier : WebhookSignatureVerifier)
    (body : Bytes) (signature : Text) : Option Bool :=
  compareDigest (verifier.expected body) (removePrefix verifier.fixedPrefix signature)

theorem compareDigest_ascii {expected presented : Text}
    (ascii : expected.all isAscii = true) : compareDigest expected presented =
      if presented.all isAscii then some (expected == presented) else none := by
  simp [compareDigest, ascii]

theorem WebhookSignatureVerifier.verify_own
    (verifier : WebhookSignatureVerifier) (body : Bytes) :
    verifier.verify body (verifier.fixedPrefix ++ verifier.expected body) = some true := by
  have bare : removePrefix verifier.fixedPrefix
      (verifier.fixedPrefix ++ verifier.expected body) = verifier.expected body := by
    simp [removePrefix]
  rw [verify, bare, compareDigest_ascii (verifier.expected_ascii body),
    if_pos (verifier.expected_ascii body)]
  simp

def fold (name : Text) : Text := name.map Char.toLower

abbrev Header := Text × Text

structure Headers where
  rows : List Header
  distinct : (rows.map Prod.fst).Nodup

def Headers.set (headers : Headers) (header : Header) : Headers where
  rows := Table.put Prod.fst header headers.rows
  distinct := Table.nodup_put headers.distinct

def Headers.names (headers : Headers) : List Text := headers.rows.map Prod.fst

def Headers.all (headers : Headers) (name : Text) : List Header :=
  headers.rows.filter fun header => fold header.1 == fold name

def Headers.get (headers : Headers) (name : Text) : Option Text :=
  (headers.rows.find? fun header => fold header.1 == fold name).map Prod.snd

theorem Headers.names_set (headers : Headers) (header : Header) (name : Text) :
    name ∈ (headers.set header).names ↔ name = header.1 ∨ name ∈ headers.names :=
  Table.mem_keys_put

/-- A name has one value exactly when it is not spelt in a second way. -/
theorem Headers.all_single_iff (headers : Headers) {name : Text}
    (there : name ∈ headers.names) : (headers.all name).length = 1 ↔
      ∀ other ∈ headers.names, fold other = fold name → other = name := by
  obtain ⟨row, member, rfl⟩ := List.mem_map.mp there
  have kept : row ∈ headers.all row.1 :=
    List.mem_filter.mpr ⟨member, by simp⟩
  constructor
  · intro single other spelt same
    obtain ⟨twin, twin_member, rfl⟩ := List.mem_map.mp spelt
    have twin_kept : twin ∈ headers.all row.1 :=
      List.mem_filter.mpr ⟨twin_member, by simpa using same⟩
    obtain ⟨only, alone⟩ := List.length_eq_one_iff.mp single
    rw [alone, List.mem_singleton] at kept twin_kept
    rw [kept, twin_kept]
  · intro unspelt
    have names : (headers.all row.1).map Prod.fst =
        List.replicate (headers.all row.1).length row.1 := by
      rw [List.eq_replicate_iff, List.length_map]
      refine ⟨rfl, ?_⟩
      intro other spelt
      obtain ⟨twin, twin_kept, rfl⟩ := List.mem_map.mp spelt
      obtain ⟨twin_member, same⟩ := List.mem_filter.mp twin_kept
      exact unspelt _ (List.mem_map_of_mem twin_member) (by simpa using same)
    have distinct : ((headers.all row.1).map Prod.fst).Nodup :=
      headers.distinct.sublist (List.filter_sublist.map _)
    rw [names, List.nodup_replicate] at distinct
    have nonempty := List.length_pos_of_mem kept
    omega

theorem Headers.get_of_single {headers : Headers} {header : Header}
    (member : header ∈ headers.rows)
    (single : (headers.all header.1).length = 1) :
    headers.get header.1 = some header.2 := by
  have kept : header ∈ headers.all header.1 :=
    List.mem_filter.mpr ⟨member, by simp⟩
  obtain ⟨only, alone⟩ := List.length_eq_one_iff.mp single
  rw [alone, List.mem_singleton] at kept
  unfold Headers.all at alone
  rw [get, ← List.head?_filter, alone, kept]
  rfl

structure WebhookSender where
  signer : Option WebhookSignatureVerifier
  max_attempts : Int
  event_header : Text
  id_header : Text
  timestamp_header : Text

structure Metadata where
  event : Text
  delivery_id : Text
  timestamp : Text

/-- The rows of `_headers`. -/
def WebhookSender.rows (sender : WebhookSender) (metadata : Metadata)
    (body : Bytes) : List Header :=
  [("content-type".toList, "application/json".toList), (sender.event_header, metadata.event),
    (sender.id_header, metadata.delivery_id),
    (sender.timestamp_header, metadata.timestamp)] ++
  sender.signer.toList.map fun signer =>
    (signer.header_name, signer.fixedPrefix ++ signer.expected body)

/-- `{**(headers or {}), **self._headers(...)}`. -/
def WebhookSender.request_headers (sender : WebhookSender)
    (metadata : Metadata) (body : Bytes) (extra : Headers) : Headers :=
  (sender.rows metadata body).foldl Headers.set extra

def WebhookSender.names (sender : WebhookSender) : List Text :=
  [sender.event_header, sender.id_header, sender.timestamp_header] ++
    sender.signer.toList.map WebhookSignatureVerifier.header_name

/-- What comes of a POST: a transport error, a status, or another exception. -/
inductive Answer where
  | failed (error : String)
  | status (code : Nat)
  | raised

structure WebhookDelivery where
  delivered : Bool
  status_code : Option Nat
  attempts : Nat
  error : Option String

/-- The POSTs that were made; no delivery when an exception left. -/
structure Sent where
  posts : Nat
  delivery : Option WebhookDelivery

/-- The loop of `send`, with the attempts that are left after this one. -/
def attempts (answers : Nat → Answer) : Nat → Nat → Sent
  | left, attempt =>
    match answers attempt with
    | .raised => ⟨attempt, none⟩
    | .failed error =>
      match left with
      | 0 => ⟨attempt, some ⟨false, none, attempt, some error⟩⟩
      | left + 1 => attempts answers left (attempt + 1)
    | .status code =>
      if 200 ≤ code ∧ code < 300 then
        ⟨attempt, some ⟨true, some code, attempt, none⟩⟩
      else
        let error := some ("HTTP " ++ toString code)
        if ¬ (500 ≤ code ∨ code = 429) then
          ⟨attempt, some ⟨false, some code, attempt, error⟩⟩
        else
          match left with
          | 0 => ⟨attempt, some ⟨false, some code, attempt, error⟩⟩
          | left + 1 => attempts answers left (attempt + 1)

def WebhookSender.send (sender : WebhookSender) (answers : Nat → Answer) : Sent :=
  attempts answers ((max 1 sender.max_attempts).toNat - 1) 1

/-- A request may be repeated after this answer. -/
def Answer.Transient : Answer → Prop
  | .failed _ => True
  | .status code => ¬ (200 ≤ code ∧ code < 300) ∧ (500 ≤ code ∨ code = 429)
  | .raised => False

theorem attempts_spec (answers : Nat → Answer) (left attempt : Nat) :
    (attempts answers left attempt).posts ≤ attempt + left ∧
      ∀ earlier, attempt ≤ earlier → earlier < (attempts answers left attempt).posts →
          (answers earlier).Transient := by
  induction left generalizing attempt with
  | zero =>
    have last : (attempts answers 0 attempt).posts = attempt := by
      unfold attempts
      split
      · rfl
      · rfl
      · split
        · rfl
        · dsimp only
          split <;> rfl
    rw [last]
    exact ⟨Nat.le_refl _, fun earlier _ _ => by omega⟩
  | succ left induction =>
    have stop : ∀ posts, posts = attempt → posts ≤ attempt + (left + 1) ∧
        ∀ earlier, attempt ≤ earlier → earlier < posts → (answers earlier).Transient := by
      rintro posts rfl
      exact ⟨Nat.le_add_right _ _, fun earlier _ _ => by omega⟩
    have again : (answers attempt).Transient →
        (attempts answers left (attempt + 1)).posts ≤ attempt + (left + 1) ∧
        ∀ earlier, attempt ≤ earlier → earlier < (attempts answers left (attempt + 1)).posts →
            (answers earlier).Transient := by
      intro transient
      obtain ⟨bound, before⟩ := induction (attempt + 1)
      refine ⟨by omega, ?_⟩
      intro earlier after made
      rcases Nat.eq_or_lt_of_le after with rfl | later
      · exact transient
      · exact before earlier later made
    unfold attempts
    split
    case h_1 => exact stop _ rfl
    case h_2 error answered => exact again (answered ▸ trivial)
    case h_3 code answered =>
      split
      case isTrue => exact stop _ rfl
      case isFalse refused =>
        dsimp only
        split
        case isTrue => exact stop _ rfl
        case isFalse retried => exact again (answered ▸ ⟨refused, Decidable.of_not_not retried⟩)

/-- The request and its attempts are as they should be. -/
structure Proper (sender : WebhookSender) (sent : Headers) (body : Bytes)
    (answers : Nat → Answer) : Prop where
  single : ∀ name ∈ sender.names, (sent.all name).length = 1
  verifies : ∀ signer, sender.signer = some signer →
    (sent.get signer.header_name).bind (signer.verify body) = some true
  bounded : (sender.send answers).posts ≤ (max 1 sender.max_attempts).toNat
  stops : ∀ attempt, 1 ≤ attempt → attempt < (sender.send answers).posts →
    ∀ code, answers attempt = .status code →
      ¬ (200 ≤ code ∧ code < 300) ∧ (400 ≤ code ∧ code < 500 → code = 429)

theorem names_foldl (rows : List Header) (headers : Headers) (name : Text) :
    name ∈ (rows.foldl Headers.set headers).names ↔
      name ∈ rows.map Prod.fst ∨ name ∈ headers.names := by
  induction rows generalizing headers with
  | nil => simp
  | cons row rows induction =>
    rw [List.foldl_cons, induction, Headers.names_set, List.map_cons,
      List.mem_cons, or_left_comm, or_assoc]

/-- Every request is proper exactly when no extra header, nor another header
of the sender, spells one of its names in a second way. -/
theorem sent_webhooks_verify_iff (sender : WebhookSender) (metadata : Metadata)
    (body : Bytes) (extra : Headers) (answers : Nat → Answer) :
    Proper sender (sender.request_headers metadata body extra) body answers ↔
      ∀ name ∈ sender.names, ∀ other ∈ extra.names ++ "content-type".toList :: sender.names,
          fold other = fold name → other = name := by
  have spelt : ∀ name, name ∈ (sender.request_headers metadata body extra).names ↔
        name ∈ extra.names ++ "content-type".toList :: sender.names := by
    intro name
    unfold WebhookSender.request_headers
    rw [names_foldl, List.mem_append, or_comm]
    simp [WebhookSender.rows, WebhookSender.names, Function.comp_def]
  have single : ∀ name ∈ sender.names,
      (((sender.request_headers metadata body extra).all name).length = 1 ↔
        ∀ other ∈ extra.names ++ "content-type".toList :: sender.names,
          fold other = fold name → other = name) := by
    intro name member
    have there := (spelt name).mpr (List.mem_append_right _ (List.mem_cons_of_mem _ member))
    rw [Headers.all_single_iff _ there]
    simp only [spelt]
  constructor
  · intro proper name member
    exact (single name member).mp (proper.single name member)
  · intro unambiguous
    have once : ∀ name ∈ sender.names,
        ((sender.request_headers metadata body extra).all name).length = 1 :=
      fun name member => (single name member).mpr (unambiguous name member)
    obtain ⟨bound, before⟩ := attempts_spec answers ((max 1 sender.max_attempts).toNat - 1) 1
    refine ⟨once, ?_, ?_, ?_⟩
    · intro signer signs
      have named : signer.header_name ∈ sender.names := by
        simp [WebhookSender.names, signs]
      have written : (signer.header_name, signer.fixedPrefix ++ signer.expected body) ∈
            (sender.request_headers metadata body extra).rows := by
        simp only [WebhookSender.request_headers, WebhookSender.rows, signs,
          Option.toList_some, List.map_cons, List.map_nil, List.foldl_append,
          List.foldl_cons, List.foldl_nil]
        exact Table.mem_put_self _ _
      rw [Headers.get_of_single written (once _ named)]
      exact signer.verify_own body
    · unfold WebhookSender.send
      omega
    · intro attempt first made code answered
      have transient := before attempt first made
      rw [answered] at transient
      exact ⟨transient.1, fun client => by
        rcases transient.2 with server | same
        · omega
        · exact same⟩

/-- A signer of empty MACs under the usual header. -/
def sampleSigner : WebhookSignatureVerifier :=
  ⟨"X-Signature".toList, "sha256=".toList, fun _ => [], fun _ => rfl⟩

theorem signature_shadowed : let sender : WebhookSender := ⟨some sampleSigner, 3,
      "X-Webhook-Event".toList, "X-Webhook-Id".toList,
      "X-Webhook-Timestamp".toList⟩
    let extra : Headers := ⟨[("x-signature".toList, ['0'])], by simp⟩
    let sent := sender.request_headers ⟨[], [], []⟩ [] extra
    (sent.all "X-Signature".toList).length = 2 ∧
      (sent.get "X-Signature".toList).bind (sampleSigner.verify []) = some false := by
  decide

end TempestSdk.Webhooks
