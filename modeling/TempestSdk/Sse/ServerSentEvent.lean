import TempestSdk.Library.EventSource

/-!
# Frames of an event stream

How one event is written, and what a browser reads.  The encoder cuts the
payload into lines by Python's rules, and it writes the comment as it is.
-/

namespace TempestSdk.Sse

open TextLines EventSource

structure ServerSentEvent (Data : Type) where
  data : Data
  event : Option (List Char)
  id : Option (List Char)
  retry : Option Int
  comment : Option (List Char)
deriving DecidableEq

namespace ServerSentEvent

variable {Data : Type} (render : Data → List Char)

def labelled (label content : List Char) : List Char :=
  label ++ ':' :: ' ' :: content

def commentLines (frame : ServerSentEvent Data) : List (List Char) :=
  frame.comment.toList.map (labelled [])

def eventLines (frame : ServerSentEvent Data) : List (List Char) :=
  frame.event.toList.map (labelled "event".toList)

def idLines (frame : ServerSentEvent Data) : List (List Char) :=
  frame.id.toList.map (labelled "id".toList)

def retryLines (frame : ServerSentEvent Data) : List (List Char) :=
  frame.retry.toList.map fun retry =>
    labelled "retry".toList retry.repr.toList

def isControlFrame (frame : ServerSentEvent Data) : Bool :=
  render frame.data = [] && frame.event.isNone &&
    (frame.comment.isSome || frame.id.isSome || frame.retry.isSome)

/-- `payload.splitlines() or [""]`. -/
def chunks (payload : List Char) : List (List Char) :=
  if splitlines payload = [] then [[]] else splitlines payload

def dataLines (frame : ServerSentEvent Data) : List (List Char) :=
  if frame.isControlFrame render then []
  else (chunks (render frame.data)).map (labelled "data".toList)

def encode (frame : ServerSentEvent Data) : List Char :=
  join (frame.commentLines ++ frame.eventLines ++ frame.idLines ++
    frame.retryLines ++ frame.dataLines render) ++ ['\n', '\n']

structure OneLine (frame : ServerSentEvent Data) : Prop where
  event : ∀ event ∈ frame.event, ∀ char ∈ event, isBreak char = false
  id : ∀ id ∈ frame.id, ∀ char ∈ id, isBreak char = false

def given (frame : ServerSentEvent Data) : List (List Char × List Char) :=
  frame.event.toList.map (fun event => ("event".toList, event)) ++
    frame.id.toList.map (fun id => ("id".toList, id)) ++
    frame.retry.toList.map (fun retry => ("retry".toList, retry.repr.toList))

def messages (frame : ServerSentEvent Data) (idBuffer : List Char) : List Message :=
  if frame.isControlFrame render then []
  else [{ type := frame.event.getD "message".toList
          data := lineFeeds (render frame.data)
          lastEventId := frame.id.getD idBuffer }]

/-- What a browser reads between two other frames is what was given, and no
part of it comes from another attribute. -/
structure RoundTrips (frame : ServerSentEvent Data) : Prop where
  dispatched : ∀ source : Source, source.Idle →
    (interpret source (frame.encode render)).dispatched =
      source.dispatched ++ frame.messages render source.idBuffer
  id : ∀ source : Source, source.Idle →
    (interpret source (frame.encode render)).lastEventId = frame.id.getD source.idBuffer
  retry : ∀ source : Source, source.Idle →
    (interpret source (frame.encode render)).retry.map Int.ofNat =
      frame.retry.or (source.retry.map Int.ofNat)
  idle : ∀ source : Source, source.Idle → (interpret source (frame.encode render)).Idle
  others : (fields (frame.encode render)).filter
    (fun field => field.1 != "data".toList) = frame.given
  comment : ∀ comment ∈ frame.comment, fields (frame.encode render) =
      fields (({ frame with comment := some [] }).encode render)

def Contained (comment : List Char) : Prop :=
  ∀ line ∈ (closed isBreak (comment ++ ['\n'])).tail, line = [] ∨ line.head? = some ':'

structure Framed (frame : ServerSentEvent Data) : Prop where
  comment : ∀ comment ∈ frame.comment, Contained comment
  event : frame.event ≠ some []
  id : ∀ id ∈ frame.id, '\x00' ∉ id
  retry : ∀ retry ∈ frame.retry, 0 ≤ retry
  breaksOnly : BreaksOnly (render frame.data)
  endsInside : EndsInside (render frame.data)

variable {render} {frame : ServerSentEvent Data}

theorem isDigit_toDigits {number : Nat} : (Nat.toDigits 10 number).all Char.isDigit = true := by
  rw [List.all_eq_true]
  intro char member
  exact Nat.isDigit_of_mem_toDigits (by omega) (by omega) member

theorem repr_natCast (number : Nat) : (number : Int).repr.toList = Nat.toDigits 10 number := by
  show number.repr.toList = _
  exact Nat.toList_repr

theorem repr_negSucc (number : Nat) : (Int.negSucc number).repr.toList =
      '-' :: Nat.toDigits 10 (number + 1) := by
  show ("-" ++ (number + 1).repr).toList = _
  rw [String.toList_append, Nat.toList_repr]
  rfl

variable {char : Char}

theorem isBreak_of_isDigit (digit : char.isDigit = true) : isBreak char = false := by
  cases ended : isBreak char with
  | false => rfl
  | true =>
    simp only [isBreak, Bool.or_eq_true, beq_iff_eq] at ended
    rcases ended with rfl | rfl <;> simp at digit

theorem isBreak_repr {retry : Int} (member : char ∈ retry.repr.toList) :
    isBreak char = false := by
  cases retry with
  | ofNat number =>
    rw [Int.ofNat_eq_natCast, repr_natCast] at member
    exact isBreak_of_isDigit (Nat.isDigit_of_mem_toDigits (by omega) (by omega) member)
  | negSucc number =>
    rw [repr_negSucc] at member
    rcases List.mem_cons.mp member with sign | digit
    · rw [sign]
      rfl
    · exact isBreak_of_isDigit (Nat.isDigit_of_mem_toDigits (by omega) (by omega) digit)

theorem chunks_ne_nil (payload : List Char) : chunks payload ≠ [] := by
  unfold chunks
  split
  · simp
  · assumption

theorem join_chunks (payload : List Char) :
    join (chunks payload) = join (splitlines payload) := by
  unfold chunks
  split
  · next empty => rw [empty]; rfl
  · rfl

theorem isBreak_chunks {payload chunk : List Char}
    (member : chunk ∈ chunks payload) (inside : char ∈ chunk) :
    isBreak char = false := by
  unfold chunks at member
  split at member
  · rw [List.mem_singleton.mp member] at inside
    cases inside
  · cases ended : isBreak char with
    | false => rfl
    | true =>
      have := not_boundary_of_mem_splitlines member inside
      rw [isBoundary_of_isBreak ended] at this
      cases this

theorem isBreak_labelled {label content : List Char}
    (labelClean : ∀ char ∈ label, isBreak char = false)
    (clean : ∀ char ∈ content, isBreak char = false)
    (member : char ∈ labelled label content) : isBreak char = false := by
  simp only [labelled, List.mem_append, List.mem_cons] at member
  rcases member with inLabel | colon | space | inContent
  · exact labelClean char inLabel
  · rw [colon]
    rfl
  · rw [space]
    rfl
  · exact clean char inContent

def plainLines (render : Data → List Char) (frame : ServerSentEvent Data) : List (List Char) :=
  frame.eventLines ++ frame.idLines ++ frame.retryLines ++ frame.dataLines render

theorem isBreak_plainLines (oneLine : frame.OneLine) {line : List Char}
    (member : line ∈ frame.plainLines render) (inside : char ∈ line) :
    isBreak char = false := by
  simp only [plainLines, eventLines, idLines, retryLines, List.mem_append,
    List.mem_map, Option.mem_toList] at member
  rcases member with
    ((⟨event, given, rfl⟩ | ⟨id, given, rfl⟩) | ⟨retry, given, rfl⟩) | inData
  · exact isBreak_labelled (by simp [isBreak]) (oneLine.event event given) inside
  · exact isBreak_labelled (by simp [isBreak]) (oneLine.id id given) inside
  · exact isBreak_labelled (by simp [isBreak]) (fun _ => isBreak_repr) inside
  · unfold dataLines at inData
    split at inData
    · cases inData
    · obtain ⟨chunk, found, rfl⟩ := List.mem_map.mp inData
      exact isBreak_labelled (by simp [isBreak])
        (fun _ => isBreak_chunks found) inside

theorem lines_ne_nil (frame : ServerSentEvent Data) :
    frame.commentLines ++ frame.plainLines render ≠ [] := by
  intro empty
  simp only [plainLines, List.append_eq_nil_iff, dataLines] at empty
  obtain ⟨noComment, ⟨⟨noEvent, noId⟩, noRetry⟩, noData⟩ := empty
  split at noData
  · next control =>
      simp only [commentLines, idLines, retryLines, List.map_eq_nil_iff,
        Option.toList_eq_nil_iff] at noComment noId noRetry
      simp [isControlFrame, noComment, noId, noRetry] at control
  · exact chunks_ne_nil _ (List.map_eq_nil_iff.mp noData)

theorem encode_eq (frame : ServerSentEvent Data) : frame.encode render =
      frame.commentLines.flatMap (· ++ ['\n']) ++
        ((frame.plainLines render).flatMap (· ++ ['\n']) ++ ['\n']) := by
  have written : frame.encode render =
      join (frame.commentLines ++ frame.plainLines render) ++ ['\n'] ++ ['\n'] := by
    simp [encode, plainLines]
  rw [written, join_append_lineFeed (lines_ne_nil frame)]
  simp

theorem dataLines_of_encode {data : Data}
    (same : ({ frame with data := data } : ServerSentEvent Data).encode render =
      frame.encode render) :
    dataLines render { frame with data := data } = frame.dataLines render := by
  have clean : ∀ frame : ServerSentEvent Data, closed isBreak
      ((frame.dataLines render).flatMap (· ++ ['\n'])) =
        frame.dataLines render := by
    intro frame
    have lines : ∀ line ∈ frame.dataLines render, ∀ char ∈ line, isBreak char = false := by
      intro line member char inside
      unfold dataLines at member
      split at member
      · cases member
      · obtain ⟨chunk, found, rfl⟩ := List.mem_map.mp member
        exact isBreak_labelled (by simp [isBreak])
          (fun _ => isBreak_chunks found) inside
    simpa [closed, pieces, crlf] using closed_flatMap lines []
  rw [encode_eq, encode_eq] at same
  have sameLines := List.append_cancel_right (List.append_cancel_left same)
  simp only [plainLines, List.flatMap_append] at sameLines
  have sameData := List.append_cancel_left sameLines
  rw [← clean { frame with data := data }, ← clean frame]
  exact congrArg _ sameData

theorem length_le_of_encode {payload : Data} (nonempty : render frame.data ≠ [])
    (plain : ∀ char ∈ render frame.data, isBoundary char = false)
    (same : ({ frame with data := payload } :
      ServerSentEvent Data).encode render = frame.encode render) :
    (render frame.data).length ≤ (render payload).length := by
  have lines := dataLines_of_encode same
  have one : chunks (render frame.data) = [render frame.data] := by
    rw [chunks, splitlines_plain nonempty plain]
    rfl
  have written : frame.dataLines render = [labelled "data".toList (render frame.data)] := by
    have dispatches : frame.isControlFrame render = false := by
      simp [isControlFrame, nonempty]
    rw [dataLines, dispatches, one]
    rfl
  rw [written] at lines
  unfold dataLines at lines
  split at lines
  · cases lines
  · have single : chunks (render payload) = [render frame.data] := by
      obtain ⟨chunk, only, labelledSame⟩ := List.map_eq_singleton_iff.mp lines
      rw [only]
      unfold labelled at labelledSame
      have := List.append_cancel_left labelledSame
      simpa using this
    have joined := join_chunks (render payload)
    have shorter := length_join_splitlines (render payload)
    rw [← joined, single] at shorter
    simpa [join] using shorter

def commentRead (frame : ServerSentEvent Data) : List (List Char) :=
  frame.comment.toList.flatMap fun comment =>
    closed isBreak (labelled [] comment ++ ['\n'])

theorem closed_encode (oneLine : frame.OneLine) : closed isBreak (frame.encode render) =
      frame.commentRead ++ (frame.plainLines render ++ [[]]) := by
  have rest : closed isBreak ((frame.plainLines render).flatMap (· ++ ['\n']) ++ ['\n']) =
        frame.plainLines render ++ [[]] := by
    rw [closed_flatMap]
    · rfl
    · exact fun line member char => isBreak_plainLines oneLine member
  rw [encode_eq]
  unfold commentLines commentRead
  cases frame.comment with
  | none => simpa using rest
  | some comment =>
    simp only [Option.toList_some, List.map_cons, List.map_nil,
      List.flatMap_cons, List.flatMap_nil, List.append_nil,
      List.append_assoc, List.singleton_append]
    rw [closed_append rfl, rest]

theorem contained_iff (comment : List Char) : Contained comment ↔
      ∀ line ∈ closed isBreak (labelled [] comment ++ ['\n']),
        (parseLine line).field? = none := by
  have read : closed isBreak (labelled [] comment ++ ['\n']) =
      ((closed isBreak (comment ++ ['\n'])).modifyHead (' ' :: ·)).modifyHead (':' :: ·) := by
    unfold labelled
    rw [List.nil_append, closed_cons rfl (by decide) rfl,
      closed_cons rfl (by decide) rfl]
  have quiet : ∀ line : List Char,
      (parseLine line).field? = none ↔ line = [] ∨ line.head? = some ':' := by
    intro line
    unfold parseLine
    split
    · simp [Line.field?]
    · simp [Line.field?]
    · next notBlank notComment =>
        constructor
        · intro none
          simp [Line.field?] at none
        · intro other
          rcases other with blank | colon
          · exact (notBlank blank).elim
          · cases line with
            | nil => cases colon
            | cons first rest =>
              have same : first = ':' := by simpa using colon
              exact (notComment rest (by rw [same])).elim
  rw [read]
  unfold Contained
  cases closed isBreak (comment ++ ['\n']) with
  | nil => simp
  | cons first rest => simp [quiet]

def written (render : Data → List Char) (frame : ServerSentEvent Data) :
    List (List Char × List Char) :=
  frame.given ++ if frame.isControlFrame render then []
    else (chunks (render frame.data)).map fun chunk => ("data".toList, chunk)

theorem parseLine_labelled {name value : List Char} (nonempty : name ≠ [])
    (plain : ':' ∉ name) :
    parseLine (labelled name value) = .field name value :=
  parseLine_field nonempty plain

theorem map_parseLine_plainLines (frame : ServerSentEvent Data) :
    (frame.plainLines render).map parseLine =
      (frame.written render).map fun field => .field field.1 field.2 := by
  have event : ∀ value, parseLine (labelled "event".toList value) =
      .field "event".toList value :=
    fun _ => parseLine_labelled (by decide) (by decide)
  have id : ∀ value, parseLine (labelled "id".toList value) = .field "id".toList value :=
    fun _ => parseLine_labelled (by decide) (by decide)
  have retry : ∀ value, parseLine (labelled "retry".toList value) =
      .field "retry".toList value :=
    fun _ => parseLine_labelled (by decide) (by decide)
  have data : ∀ value, parseLine (labelled "data".toList value) = .field "data".toList value :=
    fun _ => parseLine_labelled (by decide) (by decide)
  unfold plainLines eventLines idLines retryLines dataLines written given
  split
  · simp only [List.map_append, List.map_map, Function.comp_def, event, id,
      retry, List.append_nil]
  · simp only [List.map_append, List.map_map, Function.comp_def, event, id, retry, data]

theorem withoutMark_encode (frame : ServerSentEvent Data) :
    withoutMark (frame.encode render) = frame.encode render := by
  have first : ∀ line ∈ frame.commentLines ++ frame.plainLines render,
      ∃ char rest, line = char :: rest ∧ char ≠ '\uFEFF' := by
    intro line member
    simp only [commentLines, plainLines, eventLines, idLines, retryLines,
      dataLines, List.mem_append, List.mem_map] at member
    rcases member with ⟨_, _, rfl⟩ | (((⟨_, _, rfl⟩ | ⟨_, _, rfl⟩) | ⟨_, _, rfl⟩) | inData)
    · exact ⟨_, _, rfl, by decide⟩
    · exact ⟨_, _, rfl, by decide⟩
    · exact ⟨_, _, rfl, by decide⟩
    · exact ⟨_, _, rfl, by decide⟩
    · split at inData
      · cases inData
      · obtain ⟨_, _, rfl⟩ := List.mem_map.mp inData
        exact ⟨_, _, rfl, by decide⟩
  obtain ⟨line, rest, parts⟩ :=
    List.exists_cons_of_ne_nil (@lines_ne_nil _ render frame)
  obtain ⟨char, tail, shape, plain⟩ :=
    first line (parts ▸ List.mem_cons_self)
  have begun : frame.encode render = char :: (tail ++ '\n' ::
        (rest.flatMap (· ++ ['\n']) ++ ['\n'])) := by
    rw [encode_eq, ← List.append_assoc, ← List.flatMap_append, parts, shape]
    simp
  rw [begun]
  unfold withoutMark
  split
  · next marked =>
      exact (plain (List.cons.inj marked).1).elim
  · rfl

theorem streamLines_encode (oneLine : frame.OneLine) :
    streamLines (frame.encode render) = frame.commentRead.map parseLine ++
        ((frame.written render).map (fun field => .field field.1 field.2) ++ [.blank]) := by
  unfold streamLines
  rw [withoutMark_encode, closed_encode oneLine, List.map_append,
    List.map_append, map_parseLine_plainLines]
  rfl

def commentFields (frame : ServerSentEvent Data) : List (List Char × List Char) :=
  (frame.commentRead.map parseLine).filterMap Line.field?

theorem fields_encode (oneLine : frame.OneLine) : fields (frame.encode render) =
      frame.commentFields ++ frame.written render := by
  have kept : ((frame.written render).map fun field =>
      Line.field field.1 field.2).filterMap Line.field? = frame.written render := by
    rw [List.filterMap_map]
    exact List.filterMap_some
  unfold fields
  rw [streamLines_encode oneLine, List.filterMap_append, List.filterMap_append, kept]
  simp [commentFields, Line.field?]

theorem commentFields_eq_nil : frame.commentFields = [] ↔
      ∀ comment ∈ frame.comment, Contained comment := by
  unfold commentFields commentRead
  rw [List.filterMap_eq_nil_iff]
  cases frame.comment with
  | none => simp
  | some comment => simp [contained_iff]

def heardId (frame : ServerSentEvent Data) (source : Source) : List Char :=
  frame.id.elim source.idBuffer fun id =>
    if '\x00' ∈ id then source.idBuffer else id

def heardRetry (frame : ServerSentEvent Data) (source : Source) : Option Nat :=
  frame.retry.elim source.retry fun retry =>
    if 0 ≤ retry then some retry.toNat else source.retry

def heardMessages (render : Data → List Char) (frame : ServerSentEvent Data)
    (source : Source) : List Message :=
  if frame.isControlFrame render then []
  else [{ type :=
            if frame.event.getD [] = [] then "message".toList
            else frame.event.getD []
          data := join (splitlines (render frame.data))
          lastEventId := frame.heardId source }]

theorem field_retry (source : Source) (retry : Int) :
    source.field "retry".toList retry.repr.toList = { source with
        retry := if 0 ≤ retry then some retry.toNat else source.retry } := by
  cases retry with
  | ofNat number =>
    have read := @Nat.ofDigitChars_ten_toDigits number
    have digits := @isDigit_toDigits number
    rw [Int.ofNat_eq_natCast, repr_natCast]
    unfold Source.field
    rw [if_neg (by decide), if_neg (by decide), if_neg (by decide),
      if_pos rfl, if_pos ⟨Nat.toDigits_ne_nil, digits⟩, read]
    simp
  | negSucc number =>
    rw [repr_negSucc]
    simp [Source.field]

theorem foldl_given (frame : ServerSentEvent Data) (source : Source) :
    (frame.given.map fun field => Line.field field.1 field.2).foldl Source.step source =
      { source with
        eventType := frame.event.getD source.eventType
        idBuffer := frame.heardId source
        retry := frame.heardRetry source } := by
  have event : ∀ (source : Source) (value : List Char),
      source.step (.field "event".toList value) =
        { source with eventType := value } := fun _ _ => rfl
  have id : ∀ (source : Source) (value : List Char),
      source.step (.field "id".toList value) = { source with
          idBuffer := if '\x00' ∈ value then source.idBuffer else value } := by
    intro source value
    show source.field _ _ = _
    unfold Source.field
    rw [if_neg (by decide), if_neg (by decide), if_pos rfl]
    split <;> rfl
  have retry : ∀ (source : Source) (value : Int),
      source.step (.field "retry".toList value.repr.toList) = { source with
          retry := if 0 ≤ value then some value.toNat else source.retry } :=
    fun source value => field_retry source value
  unfold given heardId heardRetry
  rw [List.map_append, List.map_append, List.foldl_append, List.foldl_append]
  cases frame.event <;> cases frame.id <;> cases frame.retry <;>
    simp only [Option.toList_none, Option.toList_some, List.map_nil,
      List.map_cons, List.foldl_nil, List.foldl_cons, Option.getD_none,
      Option.getD_some, Option.elim_none, Option.elim_some, event, id, retry]

theorem flatMap_chunks (payload : List Char) : (chunks payload).flatMap (· ++ ['\n']) =
      join (splitlines payload) ++ ['\n'] := by
  rw [← join_chunks, join_append_lineFeed (chunks_ne_nil payload)]

theorem interpret_encode (oneLine : frame.OneLine)
    (contained : ∀ comment ∈ frame.comment, Contained comment)
    {source : Source} (idle : source.Idle) :
    interpret source (frame.encode render) = { source with
        idBuffer := frame.heardId source
        retry := frame.heardRetry source
        lastEventId := frame.heardId source
        dispatched := source.dispatched ++ frame.heardMessages render source } := by
  have quiet : ∀ line ∈ frame.commentRead.map parseLine, line.field? = none :=
    List.filterMap_eq_nil_iff.mp ((commentFields_eq_nil).mpr contained)
  obtain ⟨id, passed⟩ := foldl_quiet idle quiet
  unfold interpret
  rw [streamLines_encode oneLine, List.foldl_append, passed, List.foldl_append,
    written, List.map_append, List.foldl_append, foldl_given]
  unfold heardMessages
  split
  · simp only [List.map_nil, List.foldl_nil, List.foldl_cons, Source.step,
      Source.dispatch, if_pos idle.data, List.append_nil, heardId, heardRetry,
      idle.type]
  · have data := foldl_data { source with
        lastEventId := id
        eventType := frame.event.getD source.eventType
        idBuffer := frame.heardId { source with lastEventId := id }
        retry := frame.heardRetry { source with lastEventId := id } }
      (chunks (render frame.data))
    rw [List.map_map, Function.comp_def, data, flatMap_chunks]
    simp only [List.foldl_nil, List.foldl_cons, Source.step, idle.data,
      idle.type, List.nil_append]
    rw [Source.dispatch, if_neg (by simp), List.dropLast_concat]
    rfl

theorem contained_nil : Contained [] := by
  intro line member
  cases member

theorem roundTrips_of_framed (oneLine : frame.OneLine)
    (framed : frame.Framed render) : frame.RoundTrips render := by
  have read : ∀ source : Source, source.Idle → interpret source (frame.encode render) = _ :=
    fun source idle => interpret_encode oneLine framed.comment idle
  have sameId : ∀ source, frame.heardId source = frame.id.getD source.idBuffer := by
    intro source
    have clean := framed.id
    unfold heardId
    cases given : frame.id with
    | none => rfl
    | some id => simp [clean id given]
  have noFields : frame.commentFields = [] :=
    (commentFields_eq_nil).mpr framed.comment
  constructor
  · intro source idle
    rw [read source idle]
    unfold heardMessages messages
    split
    · rfl
    · have data := (join_splitlines (render frame.data)).mpr
        ⟨framed.breaksOnly, framed.endsInside⟩
      have named := framed.event
      rw [data, sameId]
      cases given : frame.event with
      | none => rfl
      | some event =>
        have nonempty : event ≠ [] := by
          intro empty
          exact named (by rw [given, empty])
        rw [Option.getD_some, Option.getD_some, if_neg nonempty]
  · intro source idle
    rw [read source idle, ← sameId]
  · intro source idle
    have positive := framed.retry
    rw [read source idle]
    unfold heardRetry
    cases given : frame.retry with
    | none => rfl
    | some retry => simp [positive retry given, Int.toNat_of_nonneg (positive retry given)]
  · intro source idle
    rw [read source idle]
    exact ⟨idle.data, idle.type⟩
  · have others : frame.given.filter (fun field => field.1 != "data".toList) = frame.given := by
      rw [List.filter_eq_self]
      intro field member
      simp only [given, List.mem_append, List.mem_map] at member
      rcases member with (⟨_, _, rfl⟩ | ⟨_, _, rfl⟩) | ⟨_, _, rfl⟩
      · rfl
      · rfl
      · rfl
    rw [fields_encode oneLine, noFields, List.nil_append, written, List.filter_append, others]
    split
    · simp
    · rw [List.filter_eq_nil_iff.mpr, List.append_nil]
      intro field member
      obtain ⟨chunk, _, rfl⟩ := List.mem_map.mp member
      simp
  · intro comment given
    have oneLineToo : OneLine { frame with comment := some [] } :=
      ⟨oneLine.event, oneLine.id⟩
    rw [fields_encode oneLine, fields_encode oneLineToo, noFields, (commentFields_eq_nil).mpr]
    · simp [written, ServerSentEvent.given, isControlFrame, Option.mem_def.mp given]
    · intro comment empty
      cases Option.some.inj empty
      exact contained_nil

theorem framed_of_roundTrips (oneLine : frame.OneLine)
    (roundTrips : frame.RoundTrips render) : frame.Framed render := by
  have contained : ∀ comment ∈ frame.comment, Contained comment := by
    intro comment given
    have oneLineToo : OneLine { frame with comment := some [] } :=
      ⟨oneLine.event, oneLine.id⟩
    have same := roundTrips.comment comment given
    have sameWritten : written render { frame with comment := some [] } =
        frame.written render := by
      simp [written, ServerSentEvent.given, isControlFrame, Option.mem_def.mp given]
    have nothing : commentFields { frame with comment := some [] } = [] := by
      apply (commentFields_eq_nil).mpr
      intro comment empty
      cases Option.some.inj empty
      exact contained_nil
    rw [fields_encode oneLine, fields_encode oneLineToo, nothing, sameWritten,
      List.nil_append, List.append_left_eq_self] at same
    exact (commentFields_eq_nil).mp same comment given
  let fresh : Source := ⟨[], [], [], none, [], []⟩
  have idle : fresh.Idle := ⟨rfl, rfl⟩
  have read := @interpret_encode _ render _ oneLine contained fresh idle
  have message := roundTrips.dispatched fresh idle
  have id := roundTrips.id fresh idle
  have retry := roundTrips.retry fresh idle
  rw [read] at message id retry
  have data : join (splitlines (render frame.data)) = lineFeeds (render frame.data) := by
    simp only [heardMessages, messages] at message
    split at message
    · next control =>
        have empty : render frame.data = [] := by
          simp only [isControlFrame, Bool.and_eq_true, decide_eq_true_eq] at control
          exact control.1.1
        rw [empty]
        rfl
    · simp only [List.append_cancel_left_eq, List.cons.injEq, Message.mk.injEq] at message
      exact message.1.2.1
  have payload := (join_splitlines _).mp data
  refine ⟨contained, ?_, ?_, ?_, payload.1, payload.2⟩
  · intro empty
    have dispatches : frame.isControlFrame render = false := by
      simp [isControlFrame, empty]
    simp [heardMessages, messages, dispatches, empty] at message
  · intro value given null
    have ignored : frame.heardId fresh = [] := by
      simp [heardId, Option.mem_def.mp given, null, fresh]
    rw [ignored, Option.mem_def.mp given] at id
    simp only [Option.getD_some] at id
    rw [← id] at null
    cases null
  · intro value given
    by_contra negative
    simp [heardRetry, Option.mem_def.mp given, negative, fresh] at retry

/-- The frame is read as it was given exactly when the comment stays a comment,
the event has a name, the ID has no null, the delay is no negative number, and
the payload has no boundary that only Python knows and ends in no break. -/
theorem roundTrips_iff (render : Data → List Char)
    (frame : ServerSentEvent Data) (oneLine : frame.OneLine) :
    frame.RoundTrips render ↔ frame.Framed render :=
  ⟨framed_of_roundTrips oneLine, roundTrips_of_framed oneLine⟩

theorem progress_roundTrips : RoundTrips (fun payload => payload)
      ⟨"half\ndone".toList, some "progress".toList, some "7".toList, some 3000, none⟩ := by
  refine (roundTrips_iff _ _ ⟨?_, ?_⟩).mpr ⟨?_, ?_, ?_, ?_, ?_, ?_⟩
  · simp [isBreak]
  · simp [isBreak]
  · intro comment none
    cases none
  · decide
  · simp
  · simp
  · simp [BreaksOnly, isBoundary, isBreak]
  · simp [EndsInside, isBreak]

theorem last_break_lost : OneLine (⟨"done\n".toList, none, none, none, none⟩ :
        ServerSentEvent (List Char)) ∧
      ¬ RoundTrips (fun payload => payload) ⟨"done\n".toList, none, none, none, none⟩ := by
  have oneLine : OneLine (⟨"done\n".toList, none, none, none, none⟩ :
      ServerSentEvent (List Char)) := by
    constructor <;> simp
  refine ⟨oneLine, ?_⟩
  intro roundTrips
  have framed := framed_of_roundTrips oneLine roundTrips
  have ended := framed.endsInside '\n' (by simp)
  cases ended

end ServerSentEvent

end TempestSdk.Sse
