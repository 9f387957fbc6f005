import TempestSdk.Db.Tenant
import TempestSdk.Library.Keyset

/-!
# Following the cursor

A client asks for the first page of `cursor_paginate` and follows `next_cursor`
until there is none.  A cursor travels as text: it is encoded from the last row
of a page, decoded, and rehydrated for the columns it is compared with.
-/

namespace TempestSdk.CursorPages

open OwnedRows Tenancy

variable {Value Text : Type}

/-- What makes text of the value and the id of a row, and what a text stands
for. -/
structure Codec (Value Text : Type) where
  encode : Value × Value → Text
  decode : Text → Cursor Value

/-- The arguments of `cursor_paginate`, but for the cursor. -/
structure Request (Value : Type) where
  start : Query Value
  filters : Option (List (Tenancy.Filter Value))
  limit : Nat
  orderBy : String
  ascending : Bool

/-- `BaseRepository` itself replaces no hook. -/
def plainHooks : Hooks Value where
  applyFilters := BaseRepository.applyFilters
  prepareInsert := fun model => model
  prepareInsertRows := fun rows => rows
  upsertConflictWhere := none
  checkInstanceWrite := fun _ instances _ => pure instances

section

variable [DecidableEq Value] (model : Model Value) (hooks : Hooks Value)
  (codec : Codec Value Text) (request : Request Value)

def schema : Schema (Row Value) Unit where
  owner := fun _ => ()
  clash := model.clash
  clash_comm := model.clash_comm

/-- What `cursor_paginate` answers to the client. -/
def page (rows : List (Row Value)) (cursor : Option Text) : Except Error (CursorPage Value) :=
  ((BaseRepository.cursorPaginate model hooks request.start request.filters
    (cursor.map codec.decode) request.limit request.orderBy
    request.ascending).run (schema model) rows).map Prod.fst

/-- The rows of all pages from a cursor on, when a last page is reached. -/
inductive Walk (rows : List (Row Value)) :
    Option Text → List (Row Value) → Prop where
  | last {cursor : Option Text} {answer : CursorPage Value}
      (answered : page model hooks codec request rows cursor = .ok answer)
      (ends : answer.nextCursor = none) : Walk rows cursor answer.items
  | next {cursor : Option Text} {answer : CursorPage Value}
      {last : Value × Value} {rest : List (Row Value)}
      (answered : page model hooks codec request rows cursor = .ok answer)
      (more : answer.nextCursor = some last)
      (walked : Walk rows (some (codec.encode last)) rest) :
      Walk rows cursor (answer.items ++ rest)

def ahead (left right : Value) : Bool :=
  if request.ascending then model.less left right else model.less right left

/-- One row is listed before the other, by `(order_by, id)`. -/
def precedes (left right : Row Value) : Bool :=
  ahead model request (left request.orderBy) (right request.orderBy) ||
    decide (left request.orderBy = right request.orderBy) &&
      ahead model request (left "id") (right "id")

/-- Each matching row exactly once, in `(order_by, id)` order. -/
def Enumerates (query : Query Value) (rows : List (Row Value)) : Prop :=
  ∃ listed, Walk model hooks codec request rows none listed ∧ listed.Perm (rows.filter query) ∧
    listed.Pairwise fun left right => precedes model request left right = true

def EndsPage (chosen : List (Row Value)) (last : Row Value) : Prop :=
  let upTo := chosen.countP fun row => !precedes model request last row
  request.limit ∣ upTo ∧ upTo < chosen.length

/-- The cursor of the row is taken, and the condition made of it holds of the
rows after it and of no others. -/
def Continues (chosen : List (Row Value)) (last : Row Value) : Prop :=
  ∃ cut, codec.decode (codec.encode (last request.orderBy, last "id")) = .ok cut ∧
    (model.isNull cut.1 = false ∧ model.isNull cut.2 = false) ∧
    ∀ row ∈ chosen, BaseRepository.afterCursor model request.orderBy request.ascending
        cut row = precedes model request last row

instance (chosen : List (Row Value)) (last : Row Value) :
    Decidable (EndsPage model request chosen last) := by
  unfold EndsPage
  infer_instance

instance (chosen : List (Row Value)) (last : Row Value) :
    Decidable (Continues model codec request chosen last) :=
  match decoded : codec.decode
      (codec.encode (last request.orderBy, last "id")) with
  | .ok cut =>
    decidable_of_iff ((model.isNull cut.1 = false ∧ model.isNull cut.2 = false) ∧
        ∀ row ∈ chosen, BaseRepository.afterCursor model request.orderBy request.ascending
            cut row = precedes model request last row)
      (by simp [Continues, decoded])
  | .error error => .isFalse (by simp [Continues, decoded])

structure LinearlyOrdered : Prop where
  irrefl : ∀ value, model.less value value = false
  trans : ∀ low middle high, model.less low middle = true →
    model.less middle high = true → model.less low high = true
  total : ∀ left right, left ≠ right →
    model.less left right = true ∨ model.less right left = true

/-- `id` is the primary key. -/
structure Keyed (rows : List (Row Value)) : Prop where
  distinct : rows.Pairwise fun left right => left "id" ≠ right "id"
  not_null : ∀ row ∈ rows, model.isNull (row "id") = false

/-- The repository accepts the request, and `query` is what it filters by. -/
structure Accepted (query : Query Value) : Prop where
  size : BaseRepository.checkPageSize model request.limit = .ok ()
  positive : 0 < request.limit
  column : BaseRepository.resolveOrderColumn model request.orderBy = .ok request.orderBy
  filters : BaseRepository.applyGiven hooks request.start request.filters = .ok query

end

section

variable [DecidableEq Value] {model : Model Value} {hooks : Hooks Value}
  {codec : Codec Value Text} {request : Request Value} {query : Query Value}
  {rows : List (Row Value)}

def answer (request : Request Value) (ordered : List (Row Value)) : CursorPage Value where
  items := ordered.take request.limit
  nextCursor :=
    if request.limit < ordered.length then
      (ordered.take request.limit).getLast?.map fun last =>
        (last request.orderBy, last "id")
    else none
  hasMore := decide (request.limit < ordered.length)
  limit := request.limit

omit [DecidableEq Value] in
theorem take_page (limit : Nat) (ordered : List (Row Value)) :
    (ordered.take (limit + 1)).take limit = ordered.take limit ∧
      (limit < (ordered.take (limit + 1)).length ↔ limit < ordered.length) := by
  constructor
  · rw [List.take_take, Nat.min_eq_left (Nat.le_succ limit)]
  · rw [List.length_take]
    omega

theorem page_eq (accepted : Accepted model hooks request query) (cursor : Option Text) :
    page model hooks codec request rows cursor =
      (BaseRepository.applyCursor model query request.orderBy request.ascending
        (cursor.map codec.decode)).map fun narrowed =>
          answer request (sorted (some (BaseRepository.cursorOrder model request.orderBy
              request.ascending)) (rows.filter narrowed)) := by
  unfold page BaseRepository.cursorPaginate
  rw [accepted.size, accepted.column, accepted.filters]
  simp only [Program.ofExcept, Program.done_bind]
  cases BaseRepository.applyCursor model query request.orderBy request.ascending
      (cursor.map codec.decode) with
  | error error => rfl
  | ok narrowed =>
    obtain ⟨items, more⟩ := take_page request.limit
      (sorted (some (BaseRepository.cursorOrder model request.orderBy
        request.ascending)) (rows.filter narrowed))
    simp only [Program.query, Program.done_bind, Program.send_bind,
      Program.pure_eq, Program.run, Statement.perform, Option.getD_some,
      Except.map, answer, items, more, decide_eq_true_eq]

section

variable (order : LinearlyOrdered model)

include order

omit [DecidableEq Value] in
theorem ahead_irrefl (value : Value) : ahead model request value value = false := by
  simp [ahead, order.irrefl]

omit [DecidableEq Value] in
theorem ahead_trans {low middle high : Value} (first : ahead model request low middle = true)
    (second : ahead model request middle high = true) :
    ahead model request low high = true := by
  unfold ahead at first second ⊢
  split at first
  next up =>
      rw [if_pos up] at second ⊢
      exact order.trans _ _ _ first second
  next down =>
      rw [if_neg down] at second ⊢
      exact order.trans _ _ _ second first

omit [DecidableEq Value] in
theorem ahead_total {left right : Value} (apart : left ≠ right) :
    ahead model request left right = true ∨ ahead model request right left = true := by
  unfold ahead
  split
  · exact order.total _ _ apart
  · exact (order.total _ _ apart).symm

omit [DecidableEq Value] in
theorem less_iff_not {left right : Value} (apart : left ≠ right) :
    model.less left right = true ↔ model.less right left = false := by
  constructor
  · intro less
    cases turned : model.less right left with
    | false => rfl
    | true =>
      have same := order.trans left right left less turned
      rw [order.irrefl] at same
      cases same
  · intro turned
    rcases order.total left right apart with less | less
    · exact less
    · rw [less] at turned
      cases turned

end

theorem precedes_iff {left right : Row Value} : precedes model request left right = true ↔
      ahead model request (left request.orderBy) (right request.orderBy) = true ∨
        left request.orderBy = right request.orderBy ∧
          ahead model request (left "id") (right "id") = true := by
  simp [precedes]

section

variable (order : LinearlyOrdered model)

include order

theorem precedes_trans {low middle high : Row Value}
    (first : precedes model request low middle = true)
    (second : precedes model request middle high = true) :
    precedes model request low high = true := by
  rw [precedes_iff] at first second ⊢
  rcases first with first | ⟨same, first⟩
  · rcases second with second | ⟨equal, second⟩
    · exact .inl (ahead_trans order first second)
    · exact .inl (equal ▸ first)
  · rcases second with second | ⟨equal, second⟩
    · exact .inl (same ▸ second)
    · exact .inr ⟨same.trans equal, ahead_trans order first second⟩

theorem precedes_asymm {left right : Row Value}
    (first : precedes model request left right = true) :
    precedes model request right left = false := by
  cases second : precedes model request right left with
  | false => rfl
  | true =>
    have same := precedes_trans order first second
    simp [precedes, ahead_irrefl order] at same

theorem precedes_total (request : Request Value) (left right : Row Value) :
    precedes model request left right = true ∨ precedes model request right left = true ∨
      left request.orderBy = right request.orderBy ∧ left "id" = right "id" := by
  simp only [precedes_iff]
  by_cases same : left request.orderBy = right request.orderBy
  · by_cases key : left "id" = right "id"
    · exact .inr (.inr ⟨same, key⟩)
    · rcases ahead_total order key with before | before
      · exact .inl (.inr ⟨same, before⟩)
      · exact .inr (.inl (.inr ⟨same.symm, before⟩))
  · rcases ahead_total order same with before | before
    · exact .inl (.inl before)
    · exact .inr (.inl (.inl before))

theorem precedes_weak {low middle high : Row Value}
    (first : precedes model request middle low = false)
    (second : precedes model request high middle = false) :
    precedes model request high low = false := by
  cases turned : precedes model request high low with
  | false => rfl
  | true =>
    rcases precedes_total order request low middle with
      before | before | ⟨same, key⟩
    · rw [precedes_trans order turned before] at second
      cases second
    · rw [before] at first
      cases first
    · simp only [precedes, same, key] at turned
      simp only [precedes, turned] at second
      cases second

theorem sorted_eq (chosen : List (Row Value)) :
    sorted (some (BaseRepository.cursorOrder model request.orderBy request.ascending)) chosen =
      chosen.mergeSort fun left right =>
        !precedes model request right left := by
  simp only [sorted, BaseRepository.cursorOrder]
  congr 1
  funext left right
  rw [Bool.eq_iff_iff]
  by_cases same : left request.orderBy = right request.orderBy
  · cases direction : request.ascending <;>
      simp [precedes, ahead, direction, same, order.irrefl]
  · have turned : ¬right request.orderBy = left request.orderBy :=
      fun equal => same equal.symm
    have up := less_iff_not order same
    have down := less_iff_not order turned
    cases direction : request.ascending <;>
      simp [precedes, ahead, direction, same, turned, up, down]

theorem sorted_perm (request : Request Value) (chosen : List (Row Value)) :
    (sorted (some (BaseRepository.cursorOrder model request.orderBy
      request.ascending)) chosen).Perm chosen := by
  rw [sorted_eq order]
  exact List.mergeSort_perm _ _

end

variable {chosen : List (Row Value)}

theorem sorted_precedes (order : LinearlyOrdered model) (request : Request Value)
    (distinct : chosen.Pairwise fun left right => left "id" ≠ right "id") :
    (sorted (some (BaseRepository.cursorOrder model request.orderBy
        request.ascending)) chosen).Pairwise
      fun left right => precedes model request left right = true := by
  have keys := distinct.perm (sorted_perm order request chosen).symm (fun apart => apart.symm)
  rw [sorted_eq order] at keys ⊢
  have weak : (chosen.mergeSort fun left right =>
      !precedes model request right left).Pairwise
        fun left right => (!precedes model request right left) = true := by
    apply List.pairwise_mergeSort
    · intro low middle high first second
      simp only [Bool.not_eq_true'] at first second ⊢
      exact precedes_weak order first second
    · intro left right
      cases turned : precedes model request right left with
      | false => simp
      | true => simp [precedes_asymm order turned]
  refine (weak.and keys).imp ?_
  rintro left right ⟨up, apart⟩
  simp only [Bool.not_eq_true'] at up
  rcases precedes_total order request left right with before | before | same
  · exact before
  · rw [up] at before
    cases before
  · exact absurd same.2 apart

abbrev Cut (model : Model Value) :=
  { cut : Value × Value //
    model.isNull cut.1 = false ∧ model.isNull cut.2 = false }

def taken (model : Model Value) : Cursor Value → Option (Cut model)
  | .ok cut =>
    if given : model.isNull cut.1 = false ∧ model.isNull cut.2 = false then
      some ⟨cut, given⟩
    else none
  | .error _ => none

def paging (model : Model Value) (codec : Codec Value Text)
    (request : Request Value) : Keyset.Paging (Row Value) (Cut model) where
  before := precedes model request
  past := fun cut =>
    BaseRepository.afterCursor model request.orderBy request.ascending cut.1
  mark := fun row =>
    taken model (codec.decode (codec.encode (row request.orderBy, row "id")))

omit [DecidableEq Value] in
theorem taken_eq_some {cursor : Cursor Value} {cut : Cut model} :
    taken model cursor = some cut ↔ cursor = .ok cut.1 := by
  cases cursor with
  | error error => simp [taken]
  | ok given =>
    simp only [taken, Except.ok.injEq]
    split
    next here => simp [Subtype.ext_iff]
    next absent =>
        constructor
        · exact nofun
        · rintro rfl
          exact absurd cut.2 absent

theorem past_iff (codec : Codec Value Text) (request : Request Value)
    (cut : Cut model) {row : Row Value}
    (key : model.isNull (row "id") = false) :
    (paging model codec request).past cut row = true ↔
      model.isNull (row request.orderBy) = false ∧
        (ahead model request cut.1.1 (row request.orderBy) = true ∨
          row request.orderBy = cut.1.1 ∧ ahead model request cut.1.2 (row "id") = true) := by
  obtain ⟨cut, value, id⟩ := cut
  simp only [paging, BaseRepository.afterCursor, ahead, Model.below]
  by_cases same : row request.orderBy = cut.1
  · cases request.ascending <;> simp [same, value, id, key]
  · cases request.ascending <;> simp [same, value]

theorem paging_lawful (order : LinearlyOrdered model)
    (keys : ∀ row ∈ chosen, model.isNull (row "id") = false) :
    (paging model codec request).Lawful chosen where
  asymm := fun _ _ first => precedes_asymm order first
  upward := by
    intro cut other first first_member second second_member past before reached
    have key := keys second second_member
    obtain ⟨-, past⟩ := (past_iff _ _ _ (keys first first_member)).mp past
    refine (past_iff _ _ _ key).mpr ⟨((past_iff _ _ _ key).mp reached).1, ?_⟩
    rcases (precedes_iff).mp before with later | ⟨same, later⟩
    · rcases past with past | ⟨equal, -⟩
      · exact .inl (ahead_trans order past later)
      · exact .inl (equal ▸ later)
    · rcases past with past | ⟨equal, past⟩
      · exact .inl (same ▸ past)
      · exact .inr ⟨same.symm.trans equal, ahead_trans order past later⟩

theorem continues_iff_separates {last : Row Value} : Continues model codec request chosen last ↔
      Keyset.Separates (paging model codec request) chosen last := by
  constructor
  · rintro ⟨cut, decoded, given, apart⟩
    exact ⟨⟨cut, given⟩, (taken_eq_some).mpr decoded, apart⟩
  · rintro ⟨cut, marked, apart⟩
    exact ⟨cut.1, (taken_eq_some).mp marked, cut.2, apart⟩

def listing (model : Model Value) (request : Request Value)
    (query : Query Value) (rows : List (Row Value)) : List (Row Value) :=
  sorted (some (BaseRepository.cursorOrder model request.orderBy
    request.ascending)) (rows.filter query)

def Reads (codec : Codec Value Text) : Option Text → Option (Cut model) → Prop
  | none, none => True
  | some text, some cut => codec.decode text = .ok cut.1
  | _, _ => False

omit [DecidableEq Value] in
theorem Keyed.filter (keyed : Keyed model rows) (query : Query Value) :
    Keyed model (rows.filter query) where
  distinct := keyed.distinct.filter query
  not_null := fun row member =>
    keyed.not_null row (List.mem_of_mem_filter member)

theorem sorted_filter (order : LinearlyOrdered model)
    (request : Request Value) (keyed : Keyed model rows)
    (query past : Query Value) :
    sorted (some (BaseRepository.cursorOrder model request.orderBy
        request.ascending)) (rows.filter (narrow query past)) =
      (listing model request query rows).filter past := by
  have parted : rows.filter (narrow query past) = (rows.filter query).filter past := by
    rw [List.filter_filter]
    congr 1
    funext row
    simp [narrow, Bool.and_comm]
  have up := sorted_precedes order request (keyed.filter (narrow query past)).distinct
  have all := (sorted_precedes order request (keyed.filter query).distinct).filter past
  have same : (sorted (some (BaseRepository.cursorOrder model request.orderBy
      request.ascending)) (rows.filter (narrow query past))).Perm
        ((listing model request query rows).filter past) := by
    refine (sorted_perm order request _).trans ?_
    rw [parted]
    exact ((sorted_perm order request (rows.filter query)).filter past).symm
  refine List.Perm.eq_of_pairwise ?_ up all same
  intro left right _ _ first second
  rw [precedes_asymm order first] at second
  cases second

theorem page_of_reads (order : LinearlyOrdered model)
    (keyed : Keyed model rows) (accepted : Accepted model hooks request query)
    {cursor : Option Text} {cut : Option (Cut model)}
    (reads : Reads codec cursor cut) :
    page model hooks codec request rows cursor =
      .ok (answer request (Keyset.selected (paging model codec request)
        (listing model request query rows) cut)) := by
  rw [page_eq accepted]
  cases cursor with
  | none =>
    cases cut with
    | none => rfl
    | some cut => exact reads.elim
  | some text =>
    cases cut with
    | none => exact reads.elim
    | some cut =>
      have decoded : codec.decode text = .ok cut.1 := reads
      have past := sorted_filter order request keyed query
        (BaseRepository.afterCursor model request.orderBy request.ascending cut.1)
      simp only [Option.map_some, decoded, BaseRepository.applyCursor,
        Except.bind, cut.2, Bool.or_self, Bool.false_eq_true, if_false,
        Except.map, past]
      rfl

theorem reads_of_page (accepted : Accepted model hooks request query)
    {cursor : Option Text} {given : CursorPage Value}
    (answered : page model hooks codec request rows cursor = .ok given) :
    ∃ cut : Option (Cut model), Reads codec cursor cut := by
  rw [page_eq accepted] at answered
  cases cursor with
  | none => exact ⟨none, trivial⟩
  | some text =>
    cases decoded : codec.decode text with
    | error error =>
      simp [decoded, BaseRepository.applyCursor, Except.bind, Except.map] at answered
    | ok cut =>
      cases applied : BaseRepository.applyCursor model query
          request.orderBy request.ascending (some (.ok cut)) with
      | error error => simp [decoded, applied, Except.map] at answered
      | ok narrowed =>
        have given := (BaseRepository.applyCursor_ok model applied).1
        exact ⟨some ⟨cut, given⟩, decoded⟩

omit [DecidableEq Value] in
theorem answer_next (positive : 0 < request.limit) (ordered : List (Row Value)) :
    (answer request ordered).nextCursor = none ∧ ordered.length ≤ request.limit ∨
      ∃ last, (ordered.take request.limit).getLast? = some last ∧
        (answer request ordered).nextCursor = some (last request.orderBy, last "id") ∧
        request.limit < ordered.length := by
  by_cases more : request.limit < ordered.length
  · right
    have some_item : ordered.take request.limit ≠ [] := by
      intro empty
      have count := congrArg List.length empty
      rw [List.length_take, List.length_nil] at count
      omega
    refine ⟨_, List.getLast?_eq_getLast_of_ne_nil some_item, ?_, more⟩
    simp [answer, more, List.getLast?_eq_getLast_of_ne_nil some_item]
  · left
    exact ⟨by simp [answer, more], by omega⟩

section

variable (order : LinearlyOrdered model)

include order

theorem walk_iff_keyset
    (keyed : Keyed model rows) (accepted : Accepted model hooks request query)
    {listed : List (Row Value)} {cursor : Option Text}
    {cut : Option (Cut model)} (reads : Reads codec cursor cut) :
    Walk model hooks codec request rows cursor listed ↔
      Keyset.Walk (paging model codec request) request.limit
        (listing model request query rows) cut listed := by
  have positive := accepted.positive
  constructor
  · intro walked
    induction walked generalizing cut with
    | @last cursor given answered ends =>
      rw [page_of_reads order keyed accepted reads] at answered
      cases answered
      rcases answer_next positive (Keyset.selected
        (paging model codec request) (listing model request query rows) cut)
        with ⟨-, few⟩ | ⟨last, -, next, -⟩
      · have whole := Keyset.Walk.last few
        simpa [answer, List.take_of_length_le few] using whole
      · rw [next] at ends
        cases ends
    | @next cursor given last rest answered more walked induction =>
      rw [page_of_reads order keyed accepted reads] at answered
      cases answered
      rcases answer_next positive (Keyset.selected
        (paging model codec request) (listing model request query rows) cut)
        with ⟨ends, -⟩ | ⟨item, ends, next, many⟩
      · rw [ends] at more
        cases more
      · rw [next] at more
        cases more
        have reached : ∃ following : Option (Cut model), Reads codec (some (codec.encode
              (item request.orderBy, item "id"))) following := by
          cases walked with
          | last answered _ => exact reads_of_page accepted answered
          | next answered _ _ => exact reads_of_page accepted answered
        obtain ⟨following, read⟩ := reached
        cases following with
        | none => exact read.elim
        | some following =>
          exact Keyset.Walk.next many ends ((taken_eq_some).mpr read) (induction read)
  · intro walked
    induction walked generalizing cursor with
    | @last cut few =>
      have answered := page_of_reads order keyed accepted reads
      rcases answer_next positive (Keyset.selected
        (paging model codec request) (listing model request query rows) cut)
        with ⟨ends, -⟩ | ⟨last, -, -, many⟩
      · have whole := Walk.last answered ends
        simpa [answer, List.take_of_length_le few] using whole
      · omega
    | @next cut item following rest many ends marked walked induction =>
      have answered := page_of_reads order keyed accepted reads
      rcases answer_next positive (Keyset.selected
        (paging model codec request) (listing model request query rows) cut)
        with ⟨-, few⟩ | ⟨last, ends', next, -⟩
      · omega
      · rw [ends] at ends'
        cases ends'
        exact Walk.next answered next (induction ((taken_eq_some).mp marked))

theorem rank_listing (codec : Codec Value Text) (last : Row Value) :
    Keyset.rank (paging model codec request) (listing model request query rows) last =
      (rows.filter query).countP fun row =>
        !precedes model request last row :=
  (sorted_perm order request (rows.filter query)).countP_eq _

theorem enumerates_iff (keyed : Keyed model rows)
    (accepted : Accepted model hooks request query) :
    Enumerates model hooks codec request query rows ↔ ∀ last ∈ rows.filter query,
        EndsPage model request (rows.filter query) last →
          Continues model codec request (rows.filter query) last := by
  have perm := sorted_perm order request (rows.filter query)
  have sorted := sorted_precedes order request (keyed.filter query).distinct
  have lawful : (paging model codec request).Lawful (listing model request query rows) := by
    apply paging_lawful order
    intro row member
    exact (keyed.filter query).not_null row (perm.mem_iff.mp member)
  have whole : Enumerates model hooks codec request query rows ↔
      Keyset.Walk (paging model codec request) request.limit
        (listing model request query rows) none
        (listing model request query rows) := by
    have reads : Reads codec none (none : Option (Cut model)) := trivial
    constructor
    · rintro ⟨listed, walked, same, ordered⟩
      have equal : listed = listing model request query rows := by
        refine List.Perm.eq_of_pairwise ?_ ordered sorted (same.trans perm.symm)
        intro left right _ _ first second
        rw [precedes_asymm order first] at second
        cases second
      rw [equal] at walked
      exact (walk_iff_keyset order keyed accepted reads).mp walked
    · intro walked
      exact ⟨_, (walk_iff_keyset order keyed accepted reads).mpr walked, perm, sorted⟩
  rw [whole, Keyset.walk_iff lawful sorted accepted.positive]
  have length : (listing model request query rows).length =
      (rows.filter query).length := perm.length_eq
  constructor
  · intro separates last member ends
    have apart := separates last (perm.mem_iff.mpr member)
      (rank_listing order codec last ▸ ends.1)
      (by rw [rank_listing order codec, length]; exact ends.2)
    obtain ⟨cut, marked, past⟩ := apart
    exact (continues_iff_separates).mpr ⟨cut, marked, fun row chosen =>
      past row (perm.mem_iff.mpr chosen)⟩
  · intro continues last member divides room
    have apart := continues last (perm.mem_iff.mp member)
      ⟨rank_listing order codec last ▸ divides, by
        rw [rank_listing order codec, length] at room
        exact room⟩
    obtain ⟨cut, marked, past⟩ := (continues_iff_separates).mp apart
    exact ⟨cut, marked, fun row chosen => past row (perm.mem_iff.mp chosen)⟩

theorem sorted_of_pairwise (ordered : chosen.Pairwise fun left right =>
      precedes model request left right = true) :
    sorted (some (BaseRepository.cursorOrder model request.orderBy
      request.ascending)) chosen = chosen := by
  rw [sorted_eq order]
  apply List.mergeSort_of_pairwise
  exact ordered.imp fun before => by simp [precedes_asymm order before]

end

theorem answer_covers {ordered : List (Row Value)} (positive : 0 < request.limit)
    (sorted : ordered.Pairwise fun left right =>
      precedes model request left right = true)
    {row : Row Value} (member : row ∈ ordered) :
    row ∈ (answer request ordered).items ∨ ∃ last, (answer request ordered).nextCursor =
          some (last request.orderBy, last "id") ∧
        precedes model request last row = true := by
  rcases answer_next positive ordered with ⟨-, few⟩ | ⟨last, ends, next, -⟩
  · left
    simpa [answer, List.take_of_length_le few] using member
  · rw [← List.take_append_drop request.limit ordered] at member sorted
    rcases List.mem_append.mp member with listed | left
    · exact .inl listed
    · right
      refine ⟨last, next, ?_⟩
      exact (List.pairwise_append.mp sorted).2.2 last (List.mem_of_getLast? ends) row left

end

end TempestSdk.CursorPages
