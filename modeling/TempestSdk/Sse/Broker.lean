import TempestSdk.Library.PyBytes
import TempestSdk.Library.PyJsonRoundTrip
import TempestSdk.Sse.ServerSentEvent

/-!
# Publishing through the broker

An event goes to the streams of this process at once, or through Redis as the
JSON text of an envelope.  Both ways end in the same encoder, but the second
has the payload written, read and written again.
-/

namespace TempestSdk.Sse

open PyJson

variable {floats : FloatTexts}

inductive SSEData (floats : FloatTexts) where
  | bytes (content : List UInt8)
  | value (json : Json floats)

namespace SSEData

/-- The payload of `encode`; none when the bytes are no UTF-8. -/
def render : SSEData floats → Option (List Char)
  | .bytes content => PyBytes.decode content
  | .value (.str text) => some text
  | .value json => some json.dumps

/-- What `json.dumps` sees; bytes go through the default hook. -/
def asJson : SSEData floats → Json floats
  | .bytes content => .other (PyBytes.literal content)
  | .value json => json

end SSEData

/-- `encode` on a frame whose data may have no payload. -/
def wire (frame : ServerSentEvent (SSEData floats)) : Option (List Char) :=
  frame.data.render.map fun payload =>
    ServerSentEvent.encode (fun payload => payload)
      { data := payload
        event := frame.event
        id := frame.id
        retry := frame.retry
        comment := frame.comment }

def broadcastChannel : List Char := "__broadcast__".toList

namespace Broker

def optionalText : Option (List Char) → Json floats
  | none => .none
  | some text => .str text

def optionalInt : Option Int → Json floats
  | none => .none
  | some number => .int number

def envelope (channelPrefix : List Char)
    (frame : ServerSentEvent (SSEData floats)) : List Char :=
  (Json.dict (.cons (.str "data".toList) frame.data.asJson
      (.cons (.str "event".toList) (optionalText frame.event)
        (.cons (.str "id".toList) (optionalText frame.id)
          (.cons (.str "retry".toList) (optionalInt frame.retry)
            (.cons (.str "prefix".toList) (.str channelPrefix) .nil)))))).dumps

def key (channelPrefix channel : List Char) : List Char :=
  channelPrefix ++ ':' :: channel

def get (name : List Char) : Members floats → Option (Json floats)
  | .nil => none
  | .cons key value rest => if key.text = name then some value else get name rest

def textField : Option (Json floats) → Option (Option (List Char))
  | none | some .none => some none
  | some (.str text) => some (some text)
  | some _ => none

def intField : Option (Json floats) → Option (Option Int)
  | none | some .none => some none
  | some (.int number) => some (some number)
  | some _ => none

inductive Dispatched (floats : FloatTexts) where
  | error
  | dropped
  | everywhere (frame : ServerSentEvent (SSEData floats))
  | oneChannel (channel : List Char) (frame : ServerSentEvent (SSEData floats))

def frameOf (payload : Members floats) : Option (ServerSentEvent (SSEData floats)) :=
  (textField (get "event".toList payload)).bind fun event =>
    (textField (get "id".toList payload)).bind fun id =>
      (intField (get "retry".toList payload)).map fun retry =>
        { data := .value ((get "data".toList payload).getD (.str []))
          event := event
          id := id
          retry := retry
          comment := none }

def dispatchRaw (channelPrefix channelKey raw : List Char) : Dispatched floats :=
  let channel :=
    if (channelPrefix ++ [':']).isPrefixOf channelKey then
      channelKey.drop (channelPrefix.length + 1)
    else channelKey
  match loads floats raw with
  | some (.dict payload) =>
    match get "prefix".toList payload with
    | none | some .none => deliver channel payload
    | some (.str sender) => if sender = channelPrefix then deliver channel payload else .dropped
    | some _ => .dropped
  | _ => .error
where
  deliver (channel : List Char) (payload : Members floats) : Dispatched floats :=
    match frameOf payload with
    | none => .error
    | some frame =>
      if channel = broadcastChannel then .everywhere frame
      else .oneChannel channel frame

def receivedLocally (frame : ServerSentEvent (SSEData floats)) : Option (List Char) :=
  wire frame

def receivedThroughRedis (channelPrefix channel : List Char)
    (frame : ServerSentEvent (SSEData floats)) : Option (List Char) :=
  match (dispatchRaw channelPrefix (key channelPrefix channel)
    (envelope channelPrefix frame) : Dispatched floats) with
  | .everywhere delivered => wire delivered
  | .oneChannel target delivered => if target = channel then wire delivered else none
  | .dropped | .error => none

def fields (channelPrefix : List Char)
    (frame : ServerSentEvent (SSEData floats)) (data : Json floats) :
    Members floats :=
  .cons (.str "data".toList) data (.cons (.str "event".toList) (optionalText frame.event)
      (.cons (.str "id".toList) (optionalText frame.id)
        (.cons (.str "retry".toList) (optionalInt frame.retry)
          (.cons (.str "prefix".toList) (.str channelPrefix) .nil))))

theorem loads_envelope (lawful : floats.Lawful) (channelPrefix : List Char)
    (frame : ServerSentEvent (SSEData floats)) :
    loads floats (envelope channelPrefix frame) =
      some (.dict (fields channelPrefix frame frame.data.asJson.canon)) := by
  have text : ∀ given : Option (List Char),
      (optionalText given : Json floats).canon = optionalText given := by
    intro given
    cases given <;> rfl
  have int : ∀ given : Option Int,
      (optionalInt given : Json floats).canon = optionalInt given := by
    intro given
    cases given <;> rfl
  unfold envelope
  rw [loads_dumps lawful]
  simp only [Json.canon, Members.canon, text, int, Members.gather, Members.set, Key.text]
  rfl

theorem textField_optionalText (given : Option (List Char)) :
    textField (some (optionalText given : Json floats)) = some given := by
  cases given <;> rfl

theorem intField_optionalInt (given : Option Int) :
    intField (some (optionalInt given : Json floats)) = some given := by
  cases given <;> rfl

theorem frameOf_fields (channelPrefix : List Char)
    (frame : ServerSentEvent (SSEData floats)) (data : Json floats) :
    frameOf (fields channelPrefix frame data) =
      some { data := .value data
             event := frame.event
             id := frame.id
             retry := frame.retry
             comment := none } := by
  have atEvent : get "event".toList (fields channelPrefix frame data) =
      some (optionalText frame.event) := rfl
  have atId : get "id".toList (fields channelPrefix frame data) =
      some (optionalText frame.id) := rfl
  have atRetry : get "retry".toList (fields channelPrefix frame data) =
      some (optionalInt frame.retry) := rfl
  unfold frameOf
  rw [atEvent, atId, atRetry, textField_optionalText, textField_optionalText,
    intField_optionalInt]
  rfl

theorem dispatchRaw_envelope (lawful : floats.Lawful)
    {channelPrefix channel : List Char} (unreserved : channel ≠ broadcastChannel)
    (frame : ServerSentEvent (SSEData floats)) :
    dispatchRaw channelPrefix (key channelPrefix channel)
        (envelope channelPrefix frame) =
      .oneChannel channel
        { data := .value frame.data.asJson.canon
          event := frame.event
          id := frame.id
          retry := frame.retry
          comment := none } := by
  have begins : (channelPrefix ++ [':']).isPrefixOf (key channelPrefix channel) = true := by
    simp [key, List.isPrefixOf_iff_prefix]
  have rest : (key channelPrefix channel).drop (channelPrefix.length + 1) = channel := by
    simp [key, List.drop_append]
  have sender : get "prefix".toList (fields channelPrefix frame frame.data.asJson.canon) =
        some (.str channelPrefix) := rfl
  unfold dispatchRaw
  rw [loads_envelope lawful, if_pos begins, rest]
  simp only [sender, if_true]
  rw [dispatchRaw.deliver, frameOf_fields]
  simp only [if_neg unreserved]

theorem receivedThroughRedis_eq (lawful : floats.Lawful)
    {channelPrefix channel : List Char} (unreserved : channel ≠ broadcastChannel)
    {frame : ServerSentEvent (SSEData floats)} (plain : frame.comment = none) :
    receivedThroughRedis channelPrefix channel frame =
      wire { frame with data := .value frame.data.asJson.canon } := by
  unfold receivedThroughRedis
  rw [dispatchRaw_envelope lawful unreserved]
  simp only [if_true]
  rw [← plain]

end Broker

/-- The data reaches the stream the same in both modes. -/
def Alike : SSEData floats → Prop
  | .bytes _ => False
  | .value (.other _) => False
  | .value json => json.Distinct

theorem isBoundary_of_printable {text : List Char} (printable : Printable text) :
    ∀ char ∈ text, TextLines.isBoundary char = false := by
  intro char member
  obtain ⟨low, high⟩ := printable char member
  cases boundary : TextLines.isBoundary char with
  | false => rfl
  | true =>
    simp only [TextLines.isBoundary, decide_eq_true_eq, List.mem_cons,
      List.not_mem_nil, or_false] at boundary
    rcases boundary with
      rfl | rfl | rfl | rfl | rfl | rfl | rfl | rfl | rfl | rfl
    all_goals revert low high; decide

theorem printable_byteText {quote : Char}
    (plain : 32 ≤ quote.toNat ∧ quote.toNat ≤ 126) (byte : UInt8) :
    Printable (PyBytes.byteText quote byte) := by
  have numeral : Printable (Numerals.fixed 16 2 byte.toNat) := by
    intro char member
    obtain ⟨value, small, rfl⟩ := Numerals.mem_fixed (by decide) member
    interval_cases value <;> decide
  unfold PyBytes.byteText
  simp only
  split
  · next escaped =>
      refine .cons (by decide) (.cons ?_ printable_nil)
      rcases escaped with same | same
      · rw [same]
        exact plain
      · rw [same]
        decide
  split
  · exact .cons (by decide) (.cons (by decide) printable_nil)
  split
  · exact .cons (by decide) (.cons (by decide) printable_nil)
  split
  · exact .cons (by decide) (.cons (by decide) printable_nil)
  split
  · next shown =>
      have valid : byte.toNat.isValidChar := Or.inl (by omega)
      have value : (Char.ofNat byte.toNat).toNat = byte.toNat := by
        rw [Char.ofNat, dif_pos valid]
        rfl
      refine .cons ?_ printable_nil
      rw [value]
      exact shown
  · exact .cons (by decide) (.cons (by decide) numeral)

theorem printable_literal (bytes : List UInt8) : Printable (PyBytes.literal bytes) := by
  have plain : 32 ≤ (PyBytes.quoteFor bytes).toNat ∧ (PyBytes.quoteFor bytes).toNat ≤ 126 := by
    unfold PyBytes.quoteFor
    split <;> decide
  have body : Printable (bytes.flatMap (PyBytes.byteText (PyBytes.quoteFor bytes))) := by
    intro char member
    obtain ⟨byte, -, inside⟩ := List.mem_flatMap.mp member
    exact printable_byteText plain byte char inside
  exact .cons (by decide) (.append (.cons plain body)
    (.cons plain printable_nil))

theorem wire_ne {frame : ServerSentEvent (SSEData floats)}
    {data : SSEData floats} {short long : List Char}
    (shortGiven : data.render = some short)
    (longGiven : frame.data.render = some long)
    (printable : Printable long) (longer : short.length < long.length) :
    wire { frame with data := data } ≠ wire frame := by
  intro same
  unfold wire at same
  simp only [shortGiven, longGiven, Option.map_some, Option.some.injEq] at same
  have nonempty : long ≠ [] := by
    intro empty
    simp [empty] at longer
  have least : long.length ≤ short.length :=
    @ServerSentEvent.length_le_of_encode _ (fun payload => payload)
      ⟨long, frame.event, frame.id, frame.retry, frame.comment⟩ short
      nonempty (isBoundary_of_printable printable) same
  omega

theorem length_quoted (text : List Char) : text.length < (quoted text).length := by
  have longer := length_flatMap_escape text
  simp only [quoted, List.length_append, List.length_cons]
  omega

theorem render_json {json : Json floats} (other : ∀ text, json ≠ .str text) :
    (SSEData.value json).render = some json.dumps := by
  cases json with
  | str text => exact (other text rfl).elim
  | _ => rfl

theorem canon_ne_str {json : Json floats} (notText : ∀ text, json ≠ .str text)
    (notOther : ∀ text, json ≠ .other text) (text : List Char) :
    json.canon ≠ .str text := by
  cases json with
  | str text => exact (notText text rfl).elim
  | other text => exact (notOther text rfl).elim
  | none => simp [Json.canon]
  | bool truth => simp [Json.canon]
  | int number => simp [Json.canon]
  | float number => simp [Json.canon]
  | list items => simp [Json.canon]
  | dict members => simp [Json.canon]

theorem alike_iff_distinct {json : Json floats} (notOther : ∀ text, json ≠ .other text) :
    Alike (.value json) ↔ json.Distinct := by
  cases json with
  | other text => exact (notOther text rfl).elim
  | _ => exact Iff.rfl

theorem bytes_differ {frame : ServerSentEvent (SSEData floats)}
    {content : List UInt8} (given : frame.data = .bytes content) :
    wire { frame with
      data := .value (SSEData.bytes content : SSEData floats).asJson.canon } ≠ wire frame := by
  have long : (SSEData.value (.str (PyBytes.literal content)) :
      SSEData floats).render = some (PyBytes.literal content) := rfl
  cases decoded : PyBytes.decode content with
  | none => simp [wire, SSEData.render, given, decoded, SSEData.asJson, Json.canon]
  | some text =>
    have short : frame.data.render = some text := by
      rw [given]
      exact decoded
    have longer := Nat.lt_of_le_of_lt (PyBytes.length_decode decoded)
      (PyBytes.length_literal content)
    exact (@wire_ne floats { frame with data := .value (.str (PyBytes.literal content)) }
      frame.data text _ short long (printable_literal content) longer).symm

/-- A subscriber gets the same through Redis as in single-process mode exactly
when the data are not bytes, no object that only the default hook can write, and
no dictionary in them has two keys with the same text. -/
theorem received_alike_iff (lawful : floats.Lawful)
    {channelPrefix channel : List Char} (unreserved : channel ≠ broadcastChannel)
    (frame : ServerSentEvent (SSEData floats)) (plain : frame.comment = none) :
    Broker.receivedThroughRedis channelPrefix channel frame =
        Broker.receivedLocally frame ↔ Alike frame.data := by
  rw [Broker.receivedThroughRedis_eq lawful unreserved plain]
  unfold Broker.receivedLocally
  cases given : frame.data with
  | bytes content =>
    refine iff_of_false ?_ (fun alike => alike)
    exact bytes_differ given
  | value json =>
    by_cases isText : ∃ text, json = .str text
    · obtain ⟨text, rfl⟩ := isText
      refine iff_of_true ?_ trivial
      unfold wire
      simp only [given, SSEData.asJson, Json.canon]
    by_cases isOther : ∃ text, json = .other text
    · obtain ⟨text, rfl⟩ := isOther
      refine iff_of_false ?_ (fun alike => alike)
      have long : frame.data.render = some (quoted text) := by
        rw [given]
        rfl
      have longer := length_quoted text
      exact wire_ne rfl long (printable_quoted text) longer
    · have notText : ∀ text, json ≠ .str text :=
        fun text same => isText ⟨text, same⟩
      have notOther : ∀ text, json ≠ .other text :=
        fun text same => isOther ⟨text, same⟩
      have short := render_json (canon_ne_str notText notOther)
      have long := render_json notText
      obtain ⟨kept, lost⟩ := json.canon_shrinks lawful
      rw [alike_iff_distinct notOther]
      constructor
      · intro same
        by_contra collision
        refine wire_ne short ?_ (json.printable lawful) (lost collision) same
        rw [given]
        exact long
      · intro distinct
        unfold wire
        simp only [SSEData.asJson, given, short, long, kept distinct]

/-- The one float whose text is `0.5`. -/
def half : FloatTexts where
  Float := Unit
  text := fun _ => ['0', '.', '5']
  parse := fun text => if text = ['0', '.', '5'] then some () else none

theorem half_lawful : half.Lawful where
  parse_text := fun _ => rfl
  numeral := by
    intro _
    show ∀ char ∈ ['0', '.', '5'], isNumeral char = true
    simp [isNumeral]
  begins := fun _ => ⟨'0', ['.', '5'], rfl, Or.inl rfl⟩
  marked := by
    intro _
    exact ⟨'.', List.mem_cons_of_mem _ List.mem_cons_self, rfl, by decide⟩

/-- The event `paid` with the data `{"total": [1, 0.5]}`. -/
def paid : ServerSentEvent (SSEData half) where
  data := .value (.dict (.cons (.str "total".toList)
    (.list (.cons (.int 1) (.cons (.float (.finite () : PyFloat half)) .nil)))
    .nil))
  event := some "paid".toList
  id := none
  retry := none
  comment := none

theorem paid_received_alike :
    Broker.receivedThroughRedis "tempest:sse".toList "orders".toList paid =
      Broker.receivedLocally paid := by
  refine (received_alike_iff half_lawful (by decide) paid rfl).mpr ?_
  simp [paid, Alike, Json.Distinct, Members.Distinct, Items.Distinct, Members.keys]

/-- The data `b"hi"`. -/
def greeting : ServerSentEvent (SSEData half) where
  data := .bytes [104, 105]
  event := none
  id := none
  retry := none
  comment := none

theorem greeting_received_otherwise :
    Broker.receivedThroughRedis "tempest:sse".toList "orders".toList greeting ≠
      Broker.receivedLocally greeting := by
  rw [Broker.receivedThroughRedis_eq half_lawful (by decide) rfl]
  exact bytes_differ rfl

end TempestSdk.Sse
