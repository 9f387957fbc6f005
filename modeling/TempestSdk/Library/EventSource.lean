import TempestSdk.Library.TextLines

/-!
# The event stream interpreter of browsers

A stream of server-sent events is read line by line.  Fields fill the buffers
of the event that comes next, a blank line dispatches it, and an event without
data is not dispatched.  The last event ID outlives the event, and so does the
reconnection time.
-/

namespace EventSource

structure Message where
  type : List Char
  data : List Char
  lastEventId : List Char
deriving DecidableEq

structure Source where
  dataBuffer : List Char
  eventType : List Char
  idBuffer : List Char
  /-- The reconnection time, when the stream has set it. -/
  retry : Option Nat
  lastEventId : List Char
  dispatched : List Message
deriving DecidableEq

inductive Line where
  | blank
  | comment
  | field (name value : List Char)
deriving DecidableEq

def withoutSpace : List Char → List Char
  | ' ' :: rest => rest
  | value => value

/-- A line without a colon is a field with an empty value. -/
def parseLine : List Char → Line
  | [] => .blank
  | ':' :: _ => .comment
  | line =>
    .field (line.takeWhile (· != ':'))
      (withoutSpace ((line.dropWhile (· != ':')).drop 1))

namespace Source

def dispatch (source : Source) : Source :=
  if source.dataBuffer = [] then
    { source with eventType := [], lastEventId := source.idBuffer }
  else
    { source with
      dataBuffer := []
      eventType := []
      lastEventId := source.idBuffer
      dispatched := source.dispatched ++
        [{ type :=
             if source.eventType = [] then "message".toList
             else source.eventType
           data := source.dataBuffer.dropLast
           lastEventId := source.idBuffer }] }

def field (source : Source) (name value : List Char) : Source :=
  if name = "event".toList then { source with eventType := value }
  else if name = "data".toList then
    { source with dataBuffer := source.dataBuffer ++ value ++ ['\n'] }
  else if name = "id".toList then
    if '\x00' ∈ value then source else { source with idBuffer := value }
  else if name = "retry".toList then
    if value ≠ [] ∧ value.all Char.isDigit then
      { source with retry := some (Nat.ofDigitChars 10 value 0) }
    else source
  else source

def step (source : Source) : Line → Source
  | .blank => source.dispatch
  | .comment => source
  | .field name value => source.field name value

structure Idle (source : Source) : Prop where
  data : source.dataBuffer = []
  type : source.eventType = []

def fresh : Source where
  dataBuffer := []
  eventType := []
  idBuffer := []
  retry := none
  lastEventId := []
  dispatched := []

end Source

def withoutMark : List Char → List Char
  | '\uFEFF' :: rest => rest
  | stream => stream

def streamLines (stream : List Char) : List Line :=
  (TextLines.closed TextLines.isBreak (withoutMark stream)).map parseLine

def Line.field? : Line → Option (List Char × List Char)
  | .field name value => some (name, value)
  | _ => none

def fields (stream : List Char) : List (List Char × List Char) :=
  (streamLines stream).filterMap Line.field?

def interpret (source : Source) (stream : List Char) : Source :=
  (streamLines stream).foldl Source.step source

/-- Two streams behind each other, where the first ends a line and the second
has no mark to lose. -/
theorem interpret_append (source : Source) (text : List Char) {rest : List Char}
    (unmarked : withoutMark rest = rest) :
    interpret source (text ++ '\n' :: rest) =
      interpret (interpret source (text ++ ['\n'])) rest := by
  have cut : ∀ rest, withoutMark (text ++ '\n' :: rest) = withoutMark text ++ '\n' :: rest := by
    intro rest
    cases text with
    | nil => rfl
    | cons char text =>
      unfold withoutMark
      split <;> simp_all
  unfold interpret streamLines
  rw [cut, cut, unmarked, TextLines.closed_append rfl, List.map_append, List.foldl_append]

theorem parseLine_field {name value : List Char} (nonempty : name ≠ []) (plain : ':' ∉ name) :
    parseLine (name ++ ':' :: ' ' :: value) = .field name value := by
  cases name with
  | nil => exact (nonempty rfl).elim
  | cons first rest =>
    have firstPlain : first ≠ ':' := by
      intro same
      simp [same] at plain
    have inside : ∀ char ∈ first :: rest, (char != ':') = true := by
      intro char member
      simp only [bne_iff_ne]
      intro same
      exact plain (same ▸ member)
    have taken : (first :: rest ++ ':' :: ' ' :: value).takeWhile (· != ':') =
          first :: rest := by
      rw [List.takeWhile_append_of_pos inside]
      simp
    have dropped : (first :: rest ++ ':' :: ' ' :: value).dropWhile (· != ':') =
          ':' :: ' ' :: value := by
      rw [List.dropWhile_append_of_pos inside]
      simp
    unfold parseLine
    split
    · next empty => simp at empty
    · next colon => simp [firstPlain] at colon
    · rw [taken, dropped]
      rfl

theorem foldl_data (source : Source) (chunks : List (List Char)) :
    (chunks.map (Line.field "data".toList)).foldl Source.step source = { source with
        dataBuffer := source.dataBuffer ++ chunks.flatMap (· ++ ['\n']) } := by
  induction chunks generalizing source with
  | nil => simp
  | cons chunk chunks induction =>
    have one : source.step (.field "data".toList chunk) = { source with
          dataBuffer := source.dataBuffer ++ chunk ++ ['\n'] } := by
      simp [Source.step, Source.field]
    rw [List.map_cons, List.foldl_cons, one, induction]
    simp

theorem foldl_quiet {source : Source} (idle : source.Idle) {lines : List Line}
    (quiet : ∀ line ∈ lines, line.field? = none) :
    ∃ id, lines.foldl Source.step source = { source with lastEventId := id } := by
  induction lines generalizing source with
  | nil => exact ⟨source.lastEventId, rfl⟩
  | cons line lines induction =>
    have later : ∀ line ∈ lines, line.field? = none :=
      fun line member => quiet line (List.mem_cons_of_mem _ member)
    rw [List.foldl_cons]
    cases line with
    | blank =>
      have dispatched : source.step .blank =
          { source with lastEventId := source.idBuffer } := by
        simp [Source.step, Source.dispatch, idle.data, idle.type]
      rw [dispatched]
      exact induction ⟨idle.data, idle.type⟩ later
    | comment => exact induction idle later
    | field name value =>
      have := quiet _ List.mem_cons_self
      simp [Line.field?] at this

end EventSource
