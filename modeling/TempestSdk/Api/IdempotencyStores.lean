import TempestSdk.Api.Idempotency
import TempestSdk.Library.PyJsonRoundTrip
import TempestSdk.Library.UriQuote

/-!
# Responses kept in Redis

`RedisIdempotencyStore` writes a response as JSON with its body in base64, and
`get` reads what `set` has written.  So a store of a run may be the responses
themselves, as `MemoryIdempotencyStore` keeps them.
-/

namespace TempestSdk.Idempotency

namespace RedisStore

open PyJson

variable {floats : FloatTexts}

/-- `base64.b64encode` as ASCII text, and `base64.b64decode`. -/
structure Base64 where
  encode : List UInt8 → List Char
  decode : List Char → Option (List UInt8)

def optionalText : Option String → Json floats
  | none => .none
  | some text => .str text.toList

def headerItems : List (String × String) → Items floats
  | [] => .nil
  | (name, value) :: rest =>
    .cons (.list (.cons (.str name.toList) (.cons (.str value.toList) .nil))) (headerItems rest)

/-- What `set` writes for a response with this body. -/
def payload (base64 : Base64) (cached : CachedResponse) (body : List UInt8) : Members floats :=
  .cons (.str "status_code".toList) (.int cached.status_code)
    (.cons (.str "headers".toList) (.list (headerItems cached.headers))
      (.cons (.str "body_b64".toList) (.str (base64.encode body))
        (.cons (.str "media_type".toList) (optionalText cached.media_type)
          (.cons (.str "fingerprint".toList) (.str cached.fingerprint.toList) .nil))))

/-- `payload.get(name)`. -/
def get (name : List Char) : Members floats → Option (Json floats)
  | .nil => none
  | .cons key value rest => if key.text = name then some value else get name rest

/-- `tuple(h)` of each header. -/
def readHeaders : Items floats → Option (List (String × String))
  | .nil => some []
  | .cons (.list (.cons (.str name) (.cons (.str value) .nil))) rest =>
    (readHeaders rest).map ((String.ofList name, String.ofList value) :: ·)
  | .cons _ _ => none

def readText : Option (Json floats) → Option String
  | some (.str text) => some (String.ofList text)
  | _ => none

/-- What `get` makes of the entries it has read. -/
def ofPayload (base64 : Base64) (members : Members floats) : Option CachedResponse :=
  match get "status_code".toList members, get "headers".toList members,
      get "body_b64".toList members with
  | some (.int (.ofNat status_code)), some (.list headers),
      some (.str body) => do
        let headers ← readHeaders headers
        let body ← base64.decode body
        some
          { status_code
            headers
            body := .bytes body
            media_type := readText (get "media_type".toList members)
            fingerprint :=
              (readText (get "fingerprint".toList members)).getD "" }
  | _, _, _ => none

/-- What `get` makes of the stored text. -/
def read (floats : FloatTexts) (base64 : Base64) (raw : List Char) : Option CachedResponse :=
  match loads floats raw with
  | some (.dict members) => ofPayload base64 members
  | _ => none

theorem canon_optionalText (given : Option String) :
    (optionalText given : Json floats).canon = optionalText given := by
  cases given <;> rfl

theorem canon_headerItems (headers : List (String × String)) :
    (headerItems headers : Items floats).canon = headerItems headers := by
  induction headers with
  | nil => rfl
  | cons header rest induction =>
    rw [headerItems, Items.canon, induction]
    rfl

theorem readHeaders_headerItems (headers : List (String × String)) :
    readHeaders (headerItems headers : Items floats) = some headers := by
  induction headers with
  | nil => rfl
  | cons header rest induction =>
    rw [headerItems, readHeaders, induction, String.ofList_toList, String.ofList_toList]
    rfl

theorem canon_payload (base64 : Base64) (cached : CachedResponse) (body : List UInt8) :
    (Json.dict (payload base64 cached body) : Json floats).canon =
      .dict (payload base64 cached body) := by
  simp only [payload, Json.canon, Members.canon, canon_optionalText, canon_headerItems]
  rfl

theorem readText_optionalText (given : Option String) :
    readText (some (optionalText given : Json floats)) = given := by
  cases given with
  | none => rfl
  | some text => exact congrArg some String.ofList_toList

theorem readText_str (text : String) :
    readText (some (.str text.toList : Json floats)) = some text :=
  congrArg some String.ofList_toList

theorem ofPayload_payload {base64 : Base64}
    (decodes : ∀ body, base64.decode (base64.encode body) = some body)
    {cached : CachedResponse} {body : List UInt8}
    (bytes : cached.body = .bytes body) :
    ofPayload base64 (payload base64 cached body : Members floats) = some cached := by
  have status : get "status_code".toList (payload base64 cached body : Members floats) =
        some (.int (.ofNat cached.status_code)) := rfl
  have headers : get "headers".toList (payload base64 cached body : Members floats) =
        some (.list (headerItems cached.headers)) := rfl
  have encoded : get "body_b64".toList (payload base64 cached body : Members floats) =
        some (.str (base64.encode body)) := rfl
  have media : get "media_type".toList (payload base64 cached body : Members floats) =
        some (optionalText cached.media_type) := rfl
  have digest : get "fingerprint".toList (payload base64 cached body : Members floats) =
        some (.str cached.fingerprint.toList) := rfl
  obtain ⟨status_code, list, content, media_type, fingerprint⟩ := cached
  obtain rfl := bytes
  simp only [ofPayload, status, headers, encoded, media, digest,
    readHeaders_headerItems, decodes, readText_optionalText, readText_str]
  rfl

/-- What is set in Redis is got from it as it was. -/
theorem read_set (lawful : floats.Lawful) {base64 : Base64}
    (decodes : ∀ body, base64.decode (base64.encode body) = some body)
    {cached : CachedResponse} {body : List UInt8}
    (bytes : cached.body = .bytes body) :
    read floats base64 (Json.dict (payload base64 cached body) : Json floats).dumps =
      some cached := by
  rw [read, loads_dumps lawful, canon_payload]
  exact ofPayload_payload decodes bytes

theorem read_set_empty : ∃ (floats : FloatTexts) (base64 : Base64) (cached : CachedResponse),
    read floats base64 (Json.dict (payload base64 cached []) : Json floats).dumps =
      some cached := by
  let floats : FloatTexts := ⟨Empty, Empty.elim, fun _ => none⟩
  let base64 : Base64 :=
    { encode := List.map fun byte => Char.ofNat byte.toNat
      decode := fun text => some (text.map fun char => UInt8.ofNat char.toNat) }
  have lawful : floats.Lawful := by
    constructor <;> rintro ⟨⟩
  have decodes : ∀ body, base64.decode (base64.encode body) = some body := by
    intro body
    have same : ∀ byte : UInt8, UInt8.ofNat (Char.ofNat byte.toNat).toNat = byte := by
      intro byte
      rw [UriQuote.ofNat_toNat_byte, UInt8.ofNat_toNat]
    simp [base64, Function.comp_def, same]
  exact ⟨floats, base64, ⟨204, [("x-id", "7")], .bytes [], none, "f"⟩,
    read_set lawful decodes rfl⟩

end RedisStore

end TempestSdk.Idempotency
