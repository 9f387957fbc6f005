import TempestSdk.Db.CursorPages

/-!
# Delta sync

Writers stamp `updated_at` when they flush and are seen when they commit.  A
client drains the pages of `changes_since` and keeps a `server_time` of the
drain for the next one.  The first page is the one that counts: a change that
is committed after it may be stamped before the `server_time` of a later page,
and behind the cursor.
-/

namespace TempestSdk.DeltaSync

open OwnedRows Tenancy CursorPages

/-- A committed state of a row, and its place among all commits. -/
structure Version where
  id : Int
  stamp : Int
  number : Nat
deriving DecidableEq

def Version.row (version : Version) : Row Int := fun column =>
  if column = "id" then version.id
  else if column = "updated_at" then version.stamp
  else version.number

def Version.ofRow (row : Row Int) : Version where
  id := row "id"
  stamp := row "updated_at"
  number := (row "number").toNat

/-- The synchronized model; no column of it is NULL. -/
def records : Model Int where
  name := "Record"
  columns := ["id", "updated_at", "number"]
  keys := []
  isNull := fun _ => false
  less := fun left right => decide (left < right)
  boolean := fun value => if value then 1 else 0
  orderableColumns := none
  maxPageSize := none
  dialect := "postgresql"
  autoflush := true
  notFoundMessage := none
  conflictMessage := fun _ => none

/-- `changes_since` on the committed rows.  The query runs after `now` was
taken. -/
def changesSince (limit : Nat) (lag now : Int) (since : Option Int)
    (cursor : Option (Int × Int)) (table : List Version) :
    Except Error (CursorPage Int × Int) :=
  ((BaseRepository.changesSince records (fun start combined =>
      BaseRepository.cursorPaginate records plainHooks start (some combined)
        (cursor.map Except.ok) limit "updated_at" true)
    now since none "updated_at" true lag).run (schema records)
      (table.map Version.row)).map Prod.fst

inductive Progress where
  | first
  | after (cursor : Int × Int)
  | finished
deriving DecidableEq

def Progress.cursor : Progress → Option (Option (Int × Int))
  | .first => some none
  | .after cursor => some (some cursor)
  | .finished => none

structure Drain where
  progress : Progress
  asked : Option Int
  /-- How many changes were committed when the first page was read. -/
  start : Nat
  /-- The `server_time` of each page. -/
  marks : List Int
deriving DecidableEq

structure State where
  clock : Int
  table : List Version
  /-- Changes that are flushed and not committed: the row, and the stamp. -/
  pending : List (Int × Int)
  commits : List Version
  since : Option Int
  drain : Option Drain
  returned : List Version
  /-- How many changes were committed when the last drain began. -/
  settled : Nat
deriving DecidableEq

def initial : State where
  clock := 0
  table := []
  pending := []
  commits := []
  since := none
  drain := none
  returned := []
  settled := 0

inductive Action where
  | tick (duration : Nat)
  | flush (id : Int)
  | commit (index : Nat)
  | rollback (index : Nat)
  | request
  | answer
  | abandon
  /-- The client stores the `server_time` of a page. -/
  | finish (page : Nat)
deriving DecidableEq

def State.commit (state : State) (index : Nat) (change : Int × Int) : State :=
  let version : Version := ⟨change.1, change.2, state.commits.length⟩
  { state with
    table := version :: state.table.filter fun other => other.id ≠ change.1
    pending := state.pending.eraseIdx index
    commits := version :: state.commits }

def State.answer (state : State) (drain : Drain) (page : CursorPage Int) (mark : Int) : State :=
  { state with
    returned := state.returned ++ page.items.map Version.ofRow
    drain := some
      { progress := match page.nextCursor with
          | some cursor => .after cursor
          | none => .finished
        asked := none
        start := if drain.progress = .first then state.commits.length else drain.start
        marks := drain.marks ++ [mark] } }

def request (clock : Int) : Option Drain → Option Drain
  | none => some ⟨.first, some clock, 0, []⟩
  | some drain =>
    if drain.progress = .finished then none
    else some { drain with asked := some clock }

def step (limit : Nat) (lag : Int) (state : State) : Action → Option State
  | .tick duration => some { state with clock := state.clock + duration }
  | .flush id => some { state with pending := state.pending ++ [(id, state.clock)] }
  | .commit index => state.pending[index]?.map (state.commit index)
  | .rollback index =>
    state.pending[index]?.map fun _ =>
      { state with pending := state.pending.eraseIdx index }
  | .request =>
    (request state.clock state.drain).map fun drain =>
      { state with drain := some drain }
  | .answer => do
      let drain ← state.drain
      let now ← drain.asked
      let cursor ← drain.progress.cursor
      match changesSince limit lag now state.since cursor state.table with
      | .ok (page, mark) => some (state.answer drain page mark)
      | .error _ => none
  | .abandon => some { state with drain := none }
  | .finish page => do
      let drain ← state.drain
      let mark ← drain.marks[page]?
      if drain.progress = .finished then
        some { state with
          since := some mark
          drain := none
          settled := drain.start }
      else none

def ShortTransactions (lag : Int) (state : State) : Action → Prop
  | .commit index => ∀ change, state.pending[index]? = some change →
      state.clock - change.2 < lag
  | _ => True

/-- The stored `server_time` is before every change that was committed after
the first page was read. -/
def MarkCovers (state : State) : Action → Prop
  | .finish page => ∀ drain mark, state.drain = some drain →
      drain.marks[page]? = some mark →
      ∀ version ∈ state.commits, drain.start ≤ version.number → mark < version.stamp
  | _ => True

/-- The client stores the `server_time` of the first page. -/
def StoresFirst : Action → Prop
  | .finish page => page = 0
  | _ => True

/-- The change was stamped before one of the same row that was committed
before it. -/
def Regressed (commits : List Version) (version : Version) : Prop :=
  ∃ earlier ∈ commits, earlier.id = version.id ∧
    earlier.number < version.number ∧ version.stamp ≤ earlier.stamp

/-- The row was returned with the change or a later one; or since `start` it
has a change that has yet to be returned and is stamped before an older one. -/
def Reached (state : State) (start : Nat) (version : Version) : Prop :=
  ∃ later ∈ state.commits, later.id = version.id ∧ version.number ≤ later.number ∧
    (later ∈ state.returned ∨ start ≤ later.number ∧ Regressed state.commits later)

/-- Every change that was committed before the last drain has reached the
client. -/
def NothingLost (state : State) : Prop :=
  ∀ version ∈ state.commits, version.number < state.settled →
    Reached state state.settled version

instance (lag : Int) (state : State) :
    ∀ action, Decidable (ShortTransactions lag state action)
  | .commit index => inferInstanceAs (Decidable
      (∀ change ∈ state.pending[index]?, state.clock - change.2 < lag))
  | .tick _ | .flush _ | .rollback _ | .request | .answer | .abandon
  | .finish _ => .isTrue trivial

instance (commits : List Version) (version : Version) :
    Decidable (Regressed commits version) :=
  inferInstanceAs (Decidable (∃ earlier ∈ commits, _))

instance (state : State) (start : Nat) (version : Version) :
    Decidable (Reached state start version) :=
  inferInstanceAs (Decidable (∃ later ∈ state.commits, _))

instance (state : State) : Decidable (NothingLost state) :=
  inferInstanceAs (Decidable (∀ version ∈ state.commits, _))

instance : ∀ action, Decidable (StoresFirst action)
  | .finish page => inferInstanceAs (Decidable (page = 0))
  | .tick _ | .flush _ | .commit _ | .rollback _ | .request | .answer
  | .abandon => .isTrue trivial

@[simp] theorem ofRow_row (version : Version) :
    Version.ofRow version.row = version := by
  simp [Version.ofRow, Version.row]

theorem row_id (version : Version) : version.row "id" = version.id := rfl

theorem row_stamp (version : Version) : version.row "updated_at" = version.stamp := by
  simp [Version.row]

theorem records_ordered : LinearlyOrdered records where
  irrefl := by simp [records]
  trans := by
    simp only [records, decide_eq_true_eq]
    exact fun _ _ _ => Int.lt_trans
  total := by
    simp only [records, decide_eq_true_eq]
    exact fun _ _ apart => Int.lt_or_gt_of_ne apart

/-- The rows after the `since` of the client. -/
def recent : Option Int → Query Int
  | none => everything
  | some since => narrow everything fun row => records.below since (row "updated_at")

def Past (cursor : Int × Int) (version : Version) : Prop :=
  cursor.1 < version.stamp ∨ cursor.1 = version.stamp ∧ cursor.2 < version.id

/-- The request of a page of `changes_since`. -/
def pageRequest (limit : Nat) (since : Option Int) : Request Int where
  start := everything
  filters := some (match since with
    | none => []
    | some since =>
      [⟨"updated_at__gt", .ok (some fun row =>
        records.below since (row "updated_at"))⟩])
  limit := limit
  orderBy := "updated_at"
  ascending := true

theorem pageRequest_accepted {limit : Nat} (positive : 0 < limit) (since : Option Int) :
    Accepted records plainHooks (pageRequest limit since) (recent since) := by
  constructor
  · rfl
  · exact positive
  · rfl
  · cases since with
    | none => rfl
    | some since => rfl

variable {since : Option Int}

theorem recent_row {version : Version}
    (after : ∀ mark, since = some mark → mark < version.stamp) :
    recent since version.row = true := by
  cases since with
  | none => rfl
  | some mark =>
    simpa [recent, narrow, everything, Model.below, records, row_stamp] using after mark rfl

theorem precedes_row {limit : Nat} {cursor : Int × Int} {last : Row Int}
    {version : Version} (same : cursor = (last "updated_at", last "id")) :
    precedes records (pageRequest limit since) last version.row = true ↔
      Past cursor version := by
  subst same
  rw [precedes_iff]
  simp only [ahead, pageRequest, records, row_stamp, row_id, if_true, decide_eq_true_eq, Past]

def OneEach (table : List Version) : Prop :=
  table.Pairwise fun left right => left.id ≠ right.id

theorem OneEach.keyed {table : List Version} (distinct : OneEach table) :
    Keyed records (table.map Version.row) where
  distinct := List.pairwise_map.mpr distinct
  not_null := fun _ _ => rfl

def exact : Codec Int (Int × Int) where
  encode := fun last => last
  decode := .ok

theorem run_pair {α : Type} (program : Method Int α) (mark : Int) (rows : List (Row Int)) :
    ((program >>= fun given => pure (given, mark)).run (schema records) rows).map Prod.fst =
      ((program.run (schema records) rows).map Prod.fst).map fun given =>
        (given, mark) := by
  rw [Program.run_bind]
  cases program.run (schema records) rows <;> rfl

theorem changesSince_eq (limit : Nat) (lag now : Int) (since : Option Int)
    (cursor : Option (Int × Int)) (table : List Version) :
    changesSince limit lag now since cursor table = if lag < 0 then
        .error (.valueError "watermark_lag must not be negative")
      else (page records plainHooks exact (pageRequest limit since)
        (table.map Version.row) cursor).map fun given =>
          (given, now - lag) := by
  unfold changesSince BaseRepository.changesSince
  split
  · rfl
  · cases since with
    | none => exact run_pair _ _ _
    | some since => exact run_pair _ _ _

theorem changesSince_page {limit : Nat} {lag now : Int}
    {cursor : Option (Int × Int)} {table : List Version}
    {answered : CursorPage Int × Int}
    (pulled : changesSince limit lag now since cursor table = .ok answered) :
    page records plainHooks exact (pageRequest limit since)
        (table.map Version.row) cursor = .ok answered.1 ∧
      answered.2 = now - lag := by
  rw [changesSince_eq] at pulled
  split at pulled
  · cases pulled
  · cases given : page records plainHooks exact (pageRequest limit since)
        (table.map Version.row) cursor with
    | error error =>
      rw [given] at pulled
      cases pulled
    | ok given_page =>
      rw [given] at pulled
      cases pulled
      exact ⟨rfl, rfl⟩

theorem changesSince_covers {limit : Nat} {lag now : Int}
    {cursor : Option (Int × Int)} {table : List Version}
    {answered : CursorPage Int × Int} (positive : 0 < limit)
    (distinct : OneEach table)
    (pulled : changesSince limit lag now since cursor table = .ok answered)
    {version : Version} (member : version ∈ table)
    (after : ∀ mark, since = some mark → mark < version.stamp)
    (past : ∀ last, cursor = some last → Past last version) :
    version ∈ answered.1.items.map Version.ofRow ∨
      ∃ next, answered.1.nextCursor = some next ∧ Past next version := by
  obtain ⟨given, -⟩ := changesSince_page pulled
  have keyed := distinct.keyed
  have accepted := pageRequest_accepted positive since
  obtain ⟨cut, reads⟩ := reads_of_page accepted given
  rw [page_of_reads records_ordered keyed accepted reads] at given
  have sorted := sorted_precedes records_ordered (pageRequest limit since)
    (keyed.filter (recent since)).distinct
  have listed : version.row ∈ listing records (pageRequest limit since)
      (recent since) (table.map Version.row) := by
    apply (sorted_perm records_ordered _ _).mem_iff.mpr
    exact List.mem_filter.mpr ⟨List.mem_map_of_mem member, recent_row after⟩
  have chosen : version.row ∈ Keyset.selected (paging records exact (pageRequest limit since))
      (listing records (pageRequest limit since) (recent since)
        (table.map Version.row)) cut := by
    cases cut with
    | none => exact listed
    | some cut =>
      cases cursor with
      | none => exact reads.elim
      | some last =>
        have same : last = cut.1 := Except.ok.inj reads
        have reached := past last rfl
        rw [same] at reached
        refine List.mem_filter.mpr ⟨listed, ?_⟩
        apply (past_iff exact (pageRequest limit since) cut rfl).mpr
        refine ⟨rfl, ?_⟩
        simp only [ahead, pageRequest, records, row_stamp, row_id, if_true, decide_eq_true_eq]
        rcases reached with later | ⟨equal, later⟩
        · exact .inl later
        · exact .inr ⟨equal.symm, later⟩
  have ordered : (Keyset.selected (paging records exact (pageRequest limit since))
      (listing records (pageRequest limit since) (recent since)
        (table.map Version.row)) cut).Pairwise fun left right =>
      precedes records (pageRequest limit since) left right = true := by
    cases cut with
    | none => exact sorted
    | some cut => exact sorted.filter _
  have covered := answer_covers positive ordered chosen
  rw [← Except.ok.inj given]
  rcases covered with shown | ⟨last, next, before⟩
  · left
    exact List.mem_map.mpr ⟨version.row, shown, ofRow_row version⟩
  · right
    exact ⟨_, next, (precedes_row rfl).mp before⟩

def Ahead (state : State) (progress : Progress) (version : Version) : Prop :=
  ∃ current ∈ state.table, current.id = version.id ∧ version.number ≤ current.number ∧
    (∀ mark, state.since = some mark → mark < current.stamp) ∧
    match progress with
    | .first => True
    | .after cursor => Past cursor current
    | .finished => False

structure Draining (lag : Int) (state : State) (drain : Drain) : Prop where
  asked : ∀ now, drain.asked = some now → now ≤ state.clock
  marks : ∀ mark ∈ drain.marks, mark ≤ state.clock - lag
  started : drain.progress ≠ .first → drain.start ≤ state.commits.length ∧
      ∀ version ∈ state.commits, version.number < drain.start →
        Reached state drain.start version ∨ Ahead state drain.progress version

structure Invariant (lag : Int) (state : State) : Prop where
  distinct : OneEach state.table
  stored : ∀ version ∈ state.table, version ∈ state.commits
  current : ∀ version ∈ state.commits, ∃ current ∈ state.table,
    current.id = version.id ∧ version.number ≤ current.number
  numbered : ∀ version ∈ state.commits, version.number < state.commits.length
  settled : state.settled ≤ state.commits.length
  recent : ∀ version ∈ state.commits, state.settled ≤ version.number →
    ∀ mark, state.since = some mark → mark < version.stamp
  marked : ∀ mark, state.since = some mark → mark ≤ state.clock - lag
  nothing_lost : NothingLost state
  draining : ∀ drain, state.drain = some drain → Draining lag state drain

section

variable {limit : Nat} {lag : Int} {state next : State}

theorem initial_invariant : Invariant lag initial := by
  constructor <;> simp [initial, OneEach, NothingLost]

variable {drain : Drain}

theorem Draining.later (draining : Draining lag state drain) {clock : Int}
    {pending : List (Int × Int)} (passed : state.clock ≤ clock) :
    Draining lag { state with clock := clock, pending := pending } drain where
  asked := fun now asked => Int.le_trans (draining.asked now asked) passed
  marks := by
    intro mark member
    have bound := draining.marks mark member
    change mark ≤ clock - lag
    omega
  started := draining.started

theorem Invariant.later (invariant : Invariant lag state) {clock : Int}
    {pending : List (Int × Int)} (passed : state.clock ≤ clock) :
    Invariant lag { state with clock := clock, pending := pending } where
  distinct := invariant.distinct
  stored := invariant.stored
  current := invariant.current
  numbered := invariant.numbered
  settled := invariant.settled
  recent := invariant.recent
  marked := by
    intro mark since
    have bound := invariant.marked mark since
    change mark ≤ clock - lag
    omega
  nothing_lost := invariant.nothing_lost
  draining := fun drain found => (invariant.draining drain found).later passed

theorem Invariant.redrain (invariant : Invariant lag state) {drain : Option Drain}
    (draining : ∀ current, drain = some current → Draining lag state current) :
    Invariant lag { state with drain := drain } where
  distinct := invariant.distinct
  stored := invariant.stored
  current := invariant.current
  numbered := invariant.numbered
  settled := invariant.settled
  recent := invariant.recent
  marked := invariant.marked
  nothing_lost := invariant.nothing_lost
  draining := fun current found =>
    let kept := draining current found
    ⟨kept.asked, kept.marks, kept.started⟩

theorem Invariant.request (invariant : Invariant lag state)
    (asked : DeltaSync.request state.clock state.drain = some drain) :
    Invariant lag { state with drain := some drain } := by
  apply invariant.redrain
  intro current same
  cases same
  cases found : state.drain with
  | none =>
    rw [found] at asked
    cases asked
    constructor
    · intro now same
      cases same
      exact Int.le_refl _
    · exact nofun
    · exact fun started => absurd rfl started
  | some before =>
    rw [found] at asked
    obtain ⟨-, moved⟩ := Option.ite_none_left_eq_some.mp asked
    cases moved
    have draining := invariant.draining before found
    refine ⟨?_, draining.marks, draining.started⟩
    intro now same
    cases same
    exact Int.le_refl _

theorem Regressed.cons {commits : List Version} {version new : Version}
    (regressed : Regressed commits version) :
    Regressed (new :: commits) version := by
  obtain ⟨earlier, member, older⟩ := regressed
  exact ⟨earlier, List.mem_cons_of_mem _ member, older⟩

variable {version : Version} {change : Int × Int}

theorem Reached.commit {start index : Nat} (reached : Reached state start version) :
    Reached (state.commit index change) start version := by
  obtain ⟨later, member, same, order, done⟩ := reached
  refine ⟨later, List.mem_cons_of_mem _ member, same, order, ?_⟩
  rcases done with returned | ⟨recent, regressed⟩
  · exact .inl returned
  · exact .inr ⟨recent, regressed.cons⟩

theorem Ahead.commit (invariant : Invariant lag state) {start index : Nat}
    {progress : Progress} (bound : start ≤ state.commits.length)
    (known : version ∈ state.commits) (ahead : Ahead state progress version) :
    Reached (state.commit index change) start version ∨
      Ahead (state.commit index change) progress version := by
  obtain ⟨current, member, same, order, after, past⟩ := ahead
  by_cases replaced : current.id = change.1
  · have number := invariant.numbered version known
    by_cases later : current.stamp < change.2
    · right
      refine ⟨_, List.mem_cons_self, replaced.symm.trans same, Nat.le_of_lt number, ?_, ?_⟩
      · exact fun mark since => Int.lt_trans (after mark since) later
      · cases progress with
        | first => trivial
        | finished => exact past
        | after cursor =>
          left
          rcases past with before | ⟨equal, -⟩
          · exact Int.lt_trans before later
          · exact equal ▸ later
    · left
      refine ⟨_, List.mem_cons_self, replaced.symm.trans same,
        Nat.le_of_lt number, .inr ⟨bound, current, ?_, replaced, ?_, ?_⟩⟩
      · exact List.mem_cons_of_mem _ (invariant.stored current member)
      · exact invariant.numbered current (invariant.stored current member)
      · exact Int.not_lt.mp later
  · right
    refine ⟨current, ?_, same, order, after, past⟩
    exact List.mem_cons_of_mem _ (List.mem_filter.mpr ⟨member, by simpa using replaced⟩)

theorem Invariant.commit (invariant : Invariant lag state) {index : Nat}
    (short : state.clock - change.2 < lag) :
    Invariant lag (state.commit index change) := by
  constructor
  · refine List.pairwise_cons.mpr ⟨?_, invariant.distinct.filter _⟩
    intro other member
    have apart : other.id ≠ change.1 := by
      simpa using (List.mem_filter.mp member).2
    exact fun same => apart same.symm
  · intro version member
    rcases List.mem_cons.mp member with rfl | kept
    · exact List.mem_cons_self
    · exact List.mem_cons_of_mem _ (invariant.stored version (List.mem_of_mem_filter kept))
  · intro version member
    rcases List.mem_cons.mp member with rfl | known
    · exact ⟨_, List.mem_cons_self, rfl, Nat.le_refl _⟩
    · obtain ⟨current, stored, same, order⟩ := invariant.current version known
      by_cases replaced : current.id = change.1
      · exact ⟨_, List.mem_cons_self, replaced.symm.trans same,
          Nat.le_of_lt (invariant.numbered version known)⟩
      · exact ⟨current, List.mem_cons_of_mem _
          (List.mem_filter.mpr ⟨stored, by simpa using replaced⟩), same, order⟩
  · intro version member
    rcases List.mem_cons.mp member with rfl | known
    · exact Nat.lt_succ_self _
    · exact Nat.lt_succ_of_lt (invariant.numbered version known)
  · exact Nat.le_succ_of_le invariant.settled
  · intro version member recent mark since
    rcases List.mem_cons.mp member with rfl | known
    · have bound := invariant.marked mark since
      change mark < change.2
      omega
    · exact invariant.recent version known recent mark since
  · exact invariant.marked
  · intro version member old
    rcases List.mem_cons.mp member with rfl | known
    · exact absurd (Nat.lt_of_lt_of_le old invariant.settled) (Nat.lt_irrefl _)
    · exact (invariant.nothing_lost version known old).commit
  · intro drain found
    have draining := invariant.draining drain found
    refine ⟨draining.asked, draining.marks, ?_⟩
    intro started
    obtain ⟨bound, reached⟩ := draining.started started
    refine ⟨Nat.le_succ_of_le bound, ?_⟩
    intro version member old
    rcases List.mem_cons.mp member with rfl | known
    · exact absurd (Nat.lt_of_lt_of_le old bound) (Nat.lt_irrefl _)
    · rcases reached version known old with done | ahead
      · exact .inl done.commit
      · exact ahead.commit invariant bound known

theorem Reached.answer {start : Nat} {page : CursorPage Int} {mark : Int}
    (reached : Reached state start version) :
    Reached (state.answer drain page mark) start version := by
  obtain ⟨later, member, same, order, done⟩ := reached
  refine ⟨later, member, same, order, ?_⟩
  rcases done with returned | old
  · exact .inl (List.mem_append_left _ returned)
  · exact .inr old

variable {cursor : Option (Int × Int)}

section

variable (invariant : Invariant lag state)

include invariant

theorem Ahead.answer (positive : 0 < limit)
    {now : Int} {page : CursorPage Int} {mark : Int}
    (place : drain.progress.cursor = some cursor)
    (pulled : changesSince limit lag now state.since cursor state.table =
      .ok (page, mark)) {start : Nat}
    (ahead : Ahead state drain.progress version) :
    Reached (state.answer drain page mark) start version ∨ Ahead (state.answer drain page mark)
        (match page.nextCursor with
          | some cursor => .after cursor
          | none => .finished) version := by
  obtain ⟨current, member, same, order, after, past⟩ := ahead
  have behind : ∀ last, cursor = some last → Past last current := by
    rintro last rfl
    cases progress : drain.progress with
    | first =>
      rw [progress] at place
      cases place
    | finished =>
      rw [progress] at place
      cases place
    | after cursor =>
      rw [progress] at place past
      cases place
      exact past
  rcases changesSince_covers positive invariant.distinct pulled member after
    behind with shown | ⟨next, given, later⟩
  · exact .inl ⟨current, invariant.stored current member, same, order,
      .inl (List.mem_append_right _ shown)⟩
  · right
    refine ⟨current, member, same, order, after, ?_⟩
    rw [given]
    exact later

theorem Invariant.first_page
    (known : version ∈ state.commits) (start : Nat) :
    Reached state start version ∨ Ahead state .first version := by
  have found : ∀ later ∈ state.commits, later.id = version.id →
      version.number ≤ later.number → state.settled ≤ later.number →
      Ahead state .first version := by
    intro later member same order new
    obtain ⟨current, stored, same', order'⟩ := invariant.current later member
    exact ⟨current, stored, same'.trans same, Nat.le_trans order order',
      invariant.recent current (invariant.stored current stored)
        (Nat.le_trans new order'), trivial⟩
  by_cases old : version.number < state.settled
  · obtain ⟨later, member, same, order, done⟩ :=
      invariant.nothing_lost version known old
    rcases done with returned | ⟨new, -⟩
    · exact .inl ⟨later, member, same, order, .inl returned⟩
    · exact .inr (found later member same order new)
  · exact .inr (found version known rfl (Nat.le_refl _) (Nat.le_of_not_lt old))

theorem Invariant.answer
    (positive : 0 < limit) {now : Int} {page : CursorPage Int} {mark : Int}
    (found : state.drain = some drain) (asked : drain.asked = some now)
    (place : drain.progress.cursor = some cursor)
    (pulled : changesSince limit lag now state.since cursor state.table =
      .ok (page, mark)) : Invariant lag (state.answer drain page mark) := by
  have draining := invariant.draining drain found
  refine ⟨invariant.distinct, invariant.stored, invariant.current,
    invariant.numbered, invariant.settled, invariant.recent, invariant.marked,
    ?_, ?_⟩
  · intro version known old
    exact (invariant.nothing_lost version known old).answer
  · intro current same
    cases same
    refine ⟨nofun, ?_, ?_⟩
    · intro other member
      change other ≤ state.clock - lag
      rcases List.mem_append.mp member with before | new
      · exact draining.marks other before
      · have time := draining.asked now asked
        have given : mark = now - lag := (changesSince_page pulled).2
        have same := List.mem_singleton.mp new
        omega
    · intro _
      by_cases first : drain.progress = .first
      · simp only [first, if_true]
        refine ⟨Nat.le_refl _, ?_⟩
        intro version known _
        rcases invariant.first_page known state.commits.length with
          done | ahead
        · exact .inl done.answer
        · rw [← first] at ahead
          exact ahead.answer invariant positive place pulled
      · simp only [first, if_false]
        obtain ⟨bound, reached⟩ := draining.started first
        refine ⟨bound, ?_⟩
        intro version known old
        rcases reached version known old with done | ahead
        · exact .inl done.answer
        · exact ahead.answer invariant positive place pulled

theorem Invariant.finish {mark : Int}
    (found : state.drain = some drain) (member : mark ∈ drain.marks)
    (finished : drain.progress = .finished)
    (covers : ∀ version ∈ state.commits, drain.start ≤ version.number → mark < version.stamp) :
    Invariant lag { state with
      since := some mark
      drain := none
      settled := drain.start } := by
  have draining := invariant.draining drain found
  obtain ⟨bound, reached⟩ := draining.started (by simp [finished])
  refine ⟨invariant.distinct, invariant.stored, invariant.current,
    invariant.numbered, bound, ?_, ?_, ?_, nofun⟩
  · intro version known recent other since
    cases since
    exact covers version known recent
  · intro other since
    cases since
    exact draining.marks mark member
  · intro version known old
    rcases reached version known old with done | ahead
    · exact done
    · rw [finished] at ahead
      obtain ⟨-, -, -, -, -, ⟨⟩⟩ := ahead

end

variable {action : Action}

theorem Invariant.step (invariant : Invariant lag state)
    (positive : 0 < limit) (short : ShortTransactions lag state action)
    (covers : MarkCovers state action)
    (taken : step limit lag state action = some next) : Invariant lag next := by
  cases action with
  | tick duration =>
    cases taken
    exact invariant.later (by omega)
  | flush id =>
    cases taken
    exact invariant.later (Int.le_refl _)
  | commit index =>
    obtain ⟨change, found, rfl⟩ := Option.map_eq_some_iff.mp taken
    exact invariant.commit (short change found)
  | rollback index =>
    obtain ⟨change, found, rfl⟩ := Option.map_eq_some_iff.mp taken
    exact invariant.later (Int.le_refl _)
  | request =>
    obtain ⟨drain, asked, rfl⟩ := Option.map_eq_some_iff.mp taken
    exact invariant.request asked
  | answer =>
    obtain ⟨drain, found, asking⟩ := Option.bind_eq_some_iff.mp taken
    obtain ⟨now, asked, placing⟩ := Option.bind_eq_some_iff.mp asking
    obtain ⟨cursor, place, pulling⟩ := Option.bind_eq_some_iff.mp placing
    split at pulling
    next page mark pulled =>
        cases pulling
        exact invariant.answer positive found asked place pulled
    · cases pulling
  | abandon =>
    cases taken
    exact invariant.redrain nofun
  | finish page =>
    obtain ⟨drain, found, marking⟩ := Option.bind_eq_some_iff.mp taken
    obtain ⟨mark, given, ending⟩ := Option.bind_eq_some_iff.mp marking
    split at ending
    next finished =>
        cases ending
        exact invariant.finish found (List.mem_of_getElem? given) finished
          (covers drain mark found given)
    · cases ending

/-- Every change that is committed before a drain has reached the client when
the drain is over, as long as the `server_time` it stores is before the changes
committed since the first page. -/
theorem changes_reach_client {schedule : List Action} {final : State} (positive : 0 < limit)
    (short : Runs.Meets (step limit lag) (ShortTransactions lag) initial schedule)
    (covers : Runs.Meets (step limit lag) MarkCovers initial schedule)
    (run : Runs.exec (step limit lag) initial schedule = some final) :
    NothingLost final := by
  have invariant : Invariant lag final :=
    Runs.exec_invariant_of_meets (fun _ _ _ invariant met taken =>
        invariant.step positive met.1 met.2 taken)
      (short.and covers) initial_invariant run
  exact invariant.nothing_lost

def FirstMark (state : State) : Prop :=
  ∀ drain, state.drain = some drain → (drain.progress = .first ↔ drain.marks = []) ∧
      ∀ mark, drain.marks[0]? = some mark →
        ∀ version ∈ state.commits, drain.start ≤ version.number → mark < version.stamp

section

variable (marked : FirstMark state)

include marked

theorem FirstMark.request
    (asked : DeltaSync.request state.clock state.drain = some drain) :
    FirstMark { state with drain := some drain } := by
  intro current same
  cases same
  cases found : state.drain with
  | none =>
    rw [found] at asked
    cases asked
    exact ⟨by simp, by simp⟩
  | some before =>
    rw [found] at asked
    obtain ⟨-, moved⟩ := Option.ite_none_left_eq_some.mp asked
    cases moved
    exact marked before found

theorem FirstMark.commit
    (invariant : Invariant lag state) {index : Nat}
    (short : state.clock - change.2 < lag) :
    FirstMark (state.commit index change) := by
  intro drain found
  obtain ⟨first, before⟩ := marked drain found
  refine ⟨first, ?_⟩
  intro mark given version member recent
  rcases List.mem_cons.mp member with rfl | known
  · have bound := (invariant.draining drain found).marks mark (List.mem_of_getElem? given)
    change mark < change.2
    omega
  · exact before mark given version known recent

theorem FirstMark.answer
    (invariant : Invariant lag state) (found : state.drain = some drain)
    (page : CursorPage Int) (mark : Int) :
    FirstMark (state.answer drain page mark) := by
  obtain ⟨first, before⟩ := marked drain found
  intro current same
  cases same
  refine ⟨?_, ?_⟩
  · cases page.nextCursor <;> simp
  · intro given shown version known recent
    by_cases begins : drain.progress = .first
    · simp only [begins, if_true] at recent
      exact absurd (invariant.numbered version known) (Nat.not_lt_of_le recent)
    · simp only [begins, if_false] at recent
      cases marks : drain.marks with
      | nil => exact absurd (first.mpr marks) begins
      | cons head rest =>
        simp only [marks, List.cons_append, List.getElem?_cons_zero] at shown
        apply before given _ version known recent
        rw [marks]
        exact shown

theorem FirstMark.step (invariant : Invariant lag state)
    (short : ShortTransactions lag state action)
    (taken : step limit lag state action = some next) : FirstMark next := by
  cases action with
  | tick duration =>
    cases taken
    exact marked
  | flush id =>
    cases taken
    exact marked
  | commit index =>
    obtain ⟨change, found, rfl⟩ := Option.map_eq_some_iff.mp taken
    exact marked.commit invariant (short change found)
  | rollback index =>
    obtain ⟨change, found, rfl⟩ := Option.map_eq_some_iff.mp taken
    exact marked
  | request =>
    obtain ⟨drain, asked, rfl⟩ := Option.map_eq_some_iff.mp taken
    exact marked.request asked
  | answer =>
    obtain ⟨drain, found, asking⟩ := Option.bind_eq_some_iff.mp taken
    obtain ⟨now, asked, placing⟩ := Option.bind_eq_some_iff.mp asking
    obtain ⟨cursor, place, pulling⟩ := Option.bind_eq_some_iff.mp placing
    split at pulling
    next page mark pulled =>
        cases pulling
        exact marked.answer invariant found page mark
    · cases pulling
  | abandon =>
    cases taken
    exact nofun
  | finish page =>
    obtain ⟨drain, found, marking⟩ := Option.bind_eq_some_iff.mp taken
    obtain ⟨mark, given, ending⟩ := Option.bind_eq_some_iff.mp marking
    obtain ⟨-, moved⟩ := Option.ite_none_right_eq_some.mp ending
    cases moved
    exact nofun

theorem FirstMark.covers
    (first : StoresFirst action) : MarkCovers state action := by
  cases action with
  | finish page =>
    cases first
    intro drain mark found given
    exact (marked drain found).2 mark given
  | _ => trivial

end

theorem covers_of_first {schedule : List Action} (positive : 0 < limit)
    (short : Runs.Meets (step limit lag) (ShortTransactions lag) initial schedule)
    (first : ∀ action ∈ schedule, StoresFirst action) :
    Runs.Meets (step limit lag) MarkCovers initial schedule := by
  have both : Runs.Meets (step limit lag) (fun state action =>
      ShortTransactions lag state action ∧ StoresFirst action) initial schedule :=
    short.and (Runs.Meets.of_forall first)
  have kept : ∀ state action next, Invariant lag state ∧ FirstMark state →
      ShortTransactions lag state action ∧ StoresFirst action →
      step limit lag state action = some next →
      Invariant lag next ∧ FirstMark next := by
    rintro state action next ⟨invariant, marked⟩ ⟨short, first⟩ taken
    exact ⟨invariant.step positive short (marked.covers first) taken,
      marked.step invariant short taken⟩
  exact Runs.Meets.of_invariant kept (fun _ _ both met => both.2.covers met.2) both
    ⟨initial_invariant, nofun⟩

def chosen (since : Option Int) (cursor : Option (Int × Int))
    (table : List Version) : List (Row Int) :=
  (table.map Version.row).filter (match cursor with
      | none => recent since
      | some last => narrow (recent since)
          (BaseRepository.afterCursor records "updated_at" true last))

theorem changesSince_stored {limit : Nat} {lag now : Int} {since : Option Int}
    {table : List Version} (positive : 0 < limit) (lag_ok : 0 ≤ lag)
    (ordered : (chosen since cursor table).Pairwise fun left right =>
      precedes records (pageRequest limit since) left right = true) :
    changesSince limit lag now since cursor table =
      .ok (answer (pageRequest limit since) (chosen since cursor table), now - lag) := by
  have stored := sorted_of_pairwise records_ordered ordered
  rw [changesSince_eq, if_neg (Int.not_lt.mpr lag_ok),
    page_eq (pageRequest_accepted positive since)]
  cases cursor with
  | none => exact congrArg (fun rows => Except.ok (answer _ rows, _)) stored
  | some last => exact congrArg (fun rows => Except.ok (answer _ rows, _)) stored

theorem answer_step {now : Int} (found : state.drain = some drain)
    (asked : drain.asked = some now)
    (place : drain.progress.cursor = some cursor) (positive : 0 < limit)
    (lag_ok : 0 ≤ lag)
    (ordered : (chosen state.since cursor state.table).Pairwise fun left right =>
        precedes records (pageRequest limit state.since) left right = true) :
    step limit lag state .answer = some (state.answer drain
        (answer (pageRequest limit state.since)
          (chosen state.since cursor state.table)) (now - lag)) := by
  simp only [step, found, asked, place, bind, Option.bind_some,
    changesSince_stored positive lag_ok ordered]

def Leads (limit : Nat) (lag : Int) (ends : State → Prop) (state : State)
    (schedule : List Action) : Prop :=
  Runs.Meets (step limit lag) (ShortTransactions lag) state schedule ∧
    ∃ final, Runs.exec (step limit lag) state schedule = some final ∧ ends final

theorem Leads.cons {ends : State → Prop} {rest : List Action}
    (taken : step limit lag state action = some next)
    (short : ShortTransactions lag state action)
    (remaining : Leads limit lag ends next rest) :
    Leads limit lag ends state (action :: rest) := by
  obtain ⟨meets, final, run, ended⟩ := remaining
  exact ⟨Runs.Meets.cons short taken meets, final, Runs.exec_cons.mpr ⟨next, taken, run⟩, ended⟩

/-- Row 9 is flushed before the first drain and committed after it. -/
def straddled : List Action :=
  [.flush 9, .tick 1, .request, .answer, .finish 0, .commit 0, .request, .answer, .finish 0]

theorem straddled_leads : Leads 2 5
    (fun final => final.returned = [⟨9, 0, 0⟩] ∧ final.settled = 1)
    initial straddled := by
  iterate 3 refine Leads.cons rfl (by decide) ?_
  refine Leads.cons (answer_step rfl rfl rfl (by decide) (by decide)
    (by decide)) (by decide) ?_
  iterate 3 refine Leads.cons rfl (by decide) ?_
  refine Leads.cons (answer_step rfl rfl rfl (by decide) (by decide)
    (by decide)) (by decide) ?_
  refine Leads.cons rfl (by decide) ?_
  exact ⟨trivial, _, rfl, by decide⟩

theorem straddler_reaches_client : ∃ final,
    Runs.exec (step 2 5) initial straddled = some final ∧
      final.returned = [⟨9, 0, 0⟩] ∧ NothingLost final := by
  obtain ⟨short, final, run, returned, -⟩ := straddled_leads
  exact ⟨final, run, returned, changes_reach_client (by decide) short
    (covers_of_first (by decide) short (by decide)) run⟩

/-- The first page was read before row 9 is committed, and is past it. -/
def slowDrain : List Action :=
  [.flush 9, .tick 1, .flush 2, .flush 1, .commit 1, .commit 1, .request,
    .answer, .commit 0, .tick 20, .request, .answer, .finish 1, .request,
    .answer, .finish 0]

theorem slow_drain_loses_change :
    Leads 1 5 (fun final => ¬ NothingLost final) initial slowDrain := by
  iterate 7 refine Leads.cons rfl (by decide) ?_
  refine Leads.cons (answer_step rfl rfl rfl (by decide) (by decide)
    (by decide)) (by decide) ?_
  iterate 3 refine Leads.cons rfl (by decide) ?_
  refine Leads.cons (answer_step rfl rfl rfl (by decide) (by decide)
    (by decide)) (by decide) ?_
  iterate 2 refine Leads.cons rfl (by decide) ?_
  refine Leads.cons (answer_step rfl rfl rfl (by decide) (by decide)
    (by decide)) (by decide) ?_
  refine Leads.cons rfl (by decide) ?_
  exact ⟨trivial, _, rfl, by decide⟩

end

end TempestSdk.DeltaSync
