import TempestSdk.Utils.ClientIp

/-!
# Two resolvers

The address of a client from a request and from the raw scope of it.  The one
takes the first header of the name, and the other skips those that are empty
and does not look at the case of the names.
-/

namespace TempestSdk.ClientIp

open PyStrings (Text)

abbrev Bytes := List UInt8

/-- A scope of ASGI: names and values of the headers in their order, and host
and port of the transport peer. -/
structure Scope where
  headers : List (Bytes × Bytes)
  client : Option (Text × Int)

/-- `UnicodeEncodeError`. -/
inductive EncodeError where
  | unicode
deriving DecidableEq

/-- `text.encode("latin-1")`. -/
def encode (text : Text) : Except EncodeError Bytes :=
  if text.all fun char => char.toNat < 256 then
    .ok (text.map fun char => UInt8.ofNat char.toNat)
  else .error .unicode

/-- `raw.decode("latin-1")`. -/
def decode (raw : Bytes) : Text := raw.map fun byte => Char.ofNat byte.toNat

/-- `raw.lower()`. -/
def lowerBytes (raw : Bytes) : Bytes :=
  raw.map fun byte => if 65 ≤ byte ∧ byte ≤ 90 then byte + 32 else byte

/-- What is used of `str` and of Starlette. -/
structure Platform where
  /-- `str.lower`. -/
  lower : Text → Text
  /-- `Headers.get` for a name that was lowered and encoded. -/
  get : List (Bytes × Bytes) → Bytes → Option Bytes
  get_first : ∀ headers name, get headers name =
    (headers.find? fun header => header.1 == name).map Prod.snd

def unknown : Text := ['u', 'n', 'k', 'n', 'o', 'w', 'n']

/-- `request.client.host if request.client else "unknown"`. -/
def requestPeer (scope : Scope) : Text :=
  match scope.client with
  | some (host, _) => host
  | none => unknown

def scopePeer (scope : Scope) : Text :=
  match scope.client with
  | some (host, _) => if host ≠ [] then host else unknown
  | none => unknown

/-- `if trusted_header`: the header to look for. -/
def trusts : Option Text → Option Text
  | some name => if name ≠ [] then some name else none
  | none => none

def address (raw : Bytes) : Option Text :=
  if raw ≠ [] then parseClientIp (decode raw) else none

section

variable (platform : Platform)

def getClientIp (scope : Scope) (trustedHeader : Option Text) : Except EncodeError Text := do
  match trusts trustedHeader with
  | some name =>
    let wanted ← encode (platform.lower name)
    let value := platform.get scope.headers wanted
    match value.bind address with
    | some parsed => return parsed
    | none => return requestPeer scope
  | none => return requestPeer scope

def scanHeaders (wanted : Bytes) : List (Bytes × Bytes) → Option Text
  | [] => none
  | (key, raw) :: headers =>
    if lowerBytes key = wanted ∧ raw ≠ [] then parseClientIp (decode raw)
    else scanHeaders wanted headers

def getClientIpFromScope (scope : Scope) (trustedHeader : Option Text) :
    Except EncodeError Text := do
  match trusts trustedHeader with
  | some name =>
    let wanted ← encode (platform.lower name)
    match scanHeaders wanted scope.headers with
    | some parsed => return parsed
    | none => return scopePeer scope
  | none => return scopePeer scope

def firstAddress (scope : Scope) (wanted : Bytes) : Option Text :=
  ((scope.headers.find? fun header => header.1 == wanted).map Prod.snd).bind address

/-- The address in the first header of the name, in any case, that is not
empty. -/
def filledAddress (scope : Scope) (wanted : Bytes) : Option Text :=
  ((scope.headers.find? fun header =>
    lowerBytes header.1 == wanted && header.2 != []).map Prod.snd).bind address

def PeerNamed (scope : Scope) : Prop :=
  ∀ peer ∈ scope.client, peer.1 ≠ []

/-- Both headers give one address, or none of them does and the peer has a
host; or only one gives an address, which is that of the peer. -/
def SameAddress (scope : Scope) (wanted : Bytes) : Prop :=
  match firstAddress scope wanted, filledAddress scope wanted with
  | some one, some other => one = other
  | none, none => PeerNamed scope
  | some one, none => one = scopePeer scope
  | none, some other => other = requestPeer scope

def Agrees (scope : Scope) (trustedHeader : Option Text) : Prop :=
  match trusts trustedHeader with
  | none => PeerNamed scope
  | some name => ∀ wanted, encode (platform.lower name) = .ok wanted →
      SameAddress scope wanted

end

section

variable {platform : Platform} {scope : Scope} {wanted : Bytes}
variable {trustedHeader : Option Text}

theorem peers_agree : requestPeer scope = scopePeer scope ↔ PeerNamed scope := by
  unfold requestPeer scopePeer PeerNamed
  cases scope.client with
  | none => simp
  | some peer =>
    by_cases host : peer.1 = []
    · have known : unknown ≠ [] := by decide
      simp [host, known.symm]
    · simp [host]

theorem scanHeaders_eq (scope : Scope) (wanted : Bytes) :
    scanHeaders wanted scope.headers = filledAddress scope wanted := by
  unfold filledAddress
  induction scope.headers with
  | nil => rfl
  | cons header headers induction =>
    obtain ⟨key, raw⟩ := header
    unfold scanHeaders
    by_cases found : lowerBytes key = wanted ∧ raw ≠ []
    · have test : (lowerBytes key == wanted && raw != []) = true := by
        simpa using found
      rw [if_pos found, List.find?_cons]
      simp [test, address, found.2]
    · have test : (lowerBytes key == wanted && raw != []) = false := by
        simpa using found
      rw [if_neg found, List.find?_cons, test]
      exact induction

theorem firstAddress_eq_filled
    (lowered : ∀ header ∈ scope.headers, lowerBytes header.1 = header.1)
    (filled : ∀ header, (scope.headers.find? fun header =>
      header.1 == wanted) = some header → header.2 ≠ []) :
    firstAddress scope wanted = filledAddress scope wanted := by
  unfold firstAddress filledAddress
  generalize scope.headers = headers at *
  induction headers with
  | nil => rfl
  | cons header headers induction =>
    have same := lowered header List.mem_cons_self
    rw [List.find?_cons, List.find?_cons, same]
    cases named : header.1 == wanted with
    | true =>
      have some_value := filled header (by rw [List.find?_cons, named])
      have test : (header.2 != []) = true := by simpa using some_value
      rw [test]
      rfl
    | false =>
      apply induction
      · exact fun other member => lowered other (List.mem_cons_of_mem _ member)
      · intro other found
        apply filled other
        rw [List.find?_cons, named]
        exact found

theorem sameAddress_iff : (firstAddress scope wanted).getD (requestPeer scope) =
        (filledAddress scope wanted).getD (scopePeer scope) ↔
      SameAddress scope wanted := by
  unfold SameAddress
  cases firstAddress scope wanted with
  | none =>
    cases filledAddress scope wanted with
    | none => exact peers_agree
    | some other => exact eq_comm
  | some one =>
    cases filledAddress scope wanted with
    | none => exact Iff.rfl
    | some other => exact Iff.rfl

theorem getClientIp_eq {name : Text} (trusted : trusts trustedHeader = some name)
    (encoded : encode (platform.lower name) = .ok wanted) :
    getClientIp platform scope trustedHeader =
      .ok ((firstAddress scope wanted).getD (requestPeer scope)) := by
  unfold getClientIp firstAddress
  rw [trusted]
  dsimp only
  rw [encoded, ← platform.get_first]
  dsimp only [bind, Except.bind]
  cases (platform.get scope.headers wanted).bind address <;> rfl

theorem getClientIpFromScope_eq {name : Text} (trusted : trusts trustedHeader = some name)
    (encoded : encode (platform.lower name) = .ok wanted) :
    getClientIpFromScope platform scope trustedHeader =
      .ok ((filledAddress scope wanted).getD (scopePeer scope)) := by
  unfold getClientIpFromScope
  rw [trusted]
  dsimp only
  rw [encoded, ← scanHeaders_eq]
  dsimp only [bind, Except.bind]
  cases scanHeaders wanted scope.headers <;> rfl

end

/-- The resolvers give the same result exactly when the two headers that they
read, and the peer, do. -/
theorem resolvers_agree_iff (platform : Platform) (scope : Scope)
    (trustedHeader : Option Text) :
    getClientIp platform scope trustedHeader =
        getClientIpFromScope platform scope trustedHeader ↔
      Agrees platform scope trustedHeader := by
  unfold Agrees
  cases trusted : trusts trustedHeader with
  | none =>
    have one : getClientIp platform scope trustedHeader = .ok (requestPeer scope) := by
      unfold getClientIp
      rw [trusted]
      rfl
    have other : getClientIpFromScope platform scope trustedHeader = .ok (scopePeer scope) := by
      unfold getClientIpFromScope
      rw [trusted]
      rfl
    rw [one, other, Except.ok.injEq]
    exact peers_agree
  | some name =>
    dsimp only
    cases encoded : encode (platform.lower name) with
    | error error =>
      have one : getClientIp platform scope trustedHeader = .error error := by
        unfold getClientIp
        rw [trusted]
        dsimp only
        rw [encoded]
        rfl
      have other : getClientIpFromScope platform scope trustedHeader = .error error := by
        unfold getClientIpFromScope
        rw [trusted]
        dsimp only
        rw [encoded]
        rfl
      rw [one, other]
      apply iff_of_true rfl
      intro wanted absent
      cases absent
    | ok wanted =>
      rw [getClientIp_eq trusted encoded,
        getClientIpFromScope_eq trusted encoded, Except.ok.injEq,
        sameAddress_iff]
      constructor
      · intro same other known
        rw [← Except.ok.inj known]
        exact same
      · exact fun same => same wanted rfl

theorem resolvers_agree_of_tidy (platform : Platform) (scope : Scope)
    (trustedHeader : Option Text) (peer : PeerNamed scope)
    (lowered : ∀ header ∈ scope.headers, lowerBytes header.1 = header.1)
    (filled : ∀ wanted header, (scope.headers.find? fun header =>
      header.1 == wanted) = some header → header.2 ≠ []) :
    getClientIp platform scope trustedHeader =
      getClientIpFromScope platform scope trustedHeader := by
  have same := peers_agree.mpr peer
  cases trusted : trusts trustedHeader with
  | none =>
    unfold getClientIp getClientIpFromScope
    rw [trusted]
    exact congrArg Except.ok same
  | some name =>
    cases encoded : encode (platform.lower name) with
    | error error =>
      unfold getClientIp getClientIpFromScope
      rw [trusted]
      dsimp only
      rw [encoded]
      rfl
    | ok wanted =>
      rw [getClientIp_eq trusted encoded, getClientIpFromScope_eq trusted encoded,
        firstAddress_eq_filled lowered (filled wanted), same]

def cpython : Platform where
  lower text := text.map Char.toLower
  get headers name :=
    (headers.find? fun header => header.1 == name).map Prod.snd
  get_first _ _ := rfl

/-- `x-real-ip`. -/
def realIp : Text := ['x', '-', 'r', 'e', 'a', 'l', '-', 'i', 'p']

/-- `x-real-ip` is sent twice, the first time without a value. -/
def emptyFirst : Scope where
  headers := [([120, 45, 114, 101, 97, 108, 45, 105, 112], []),
    ([120, 45, 114, 101, 97, 108, 45, 105, 112], [57, 46, 57, 46, 57, 46, 57])]
  client := some (['1', '.', '2', '.', '3', '.', '4'], 5000)

theorem resolvers_differ : ∃ platform scope trustedHeader,
      getClientIp platform scope trustedHeader = .ok ['1', '.', '2', '.', '3', '.', '4'] ∧
        getClientIpFromScope platform scope trustedHeader =
          .ok ['9', '.', '9', '.', '9', '.', '9'] :=
  ⟨cpython, emptyFirst, some realIp, by decide, by decide⟩

end TempestSdk.ClientIp
