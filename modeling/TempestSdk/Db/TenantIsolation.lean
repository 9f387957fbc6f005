import TempestSdk.Db.Tenant

/-!
# What a tenant-scoped repository sees and writes

Every method is a scoped program: its statements choose rows of the bound
tenant and write nothing else.  For the methods that take an instance this
needs the instance to be the tenant's, which their check has to find out.
-/

namespace TempestSdk

namespace Tenancy

open OwnedRows TenantScopedRepository

variable {Value : Type} {scope : Scope Value} {foreign : List (Row Value)}

def Only (scope : Scope Value) (query : Query Value) : Prop :=
  ∀ row, query row = true → row scope.tenantField = scope.tenantId

def Strangers (scope : Scope Value) (foreign : List (Row Value)) : Prop :=
  ∀ other ∈ foreign, other scope.tenantField ≠ scope.tenantId

theorem Only.narrow {query condition : Query Value}
    (only : Only scope query) : Only scope (narrow query condition) := by
  intro row holds
  simp only [Tenancy.narrow, Bool.and_eq_true] at holds
  exact only row holds.1

theorem Only.spares {query : Query Value} (only : Only scope query)
    (strangers : Strangers scope foreign) :
    ∀ other ∈ foreign, query other = false := by
  intro other member
  by_contra chosen
  exact strangers other member (only other (by simpa using chosen))

theorem Only.applyWhere {query filtered : Query Value}
    {clause : Option (WhereClause Value)} (only : Only scope query)
    (applied : BaseRepository.applyWhere query clause = .ok filtered) :
    Only scope filtered := by
  cases clause with
  | none =>
    cases applied
    exact only
  | some resolved =>
    cases resolved with
    | error error => cases applied
    | ok condition =>
      cases condition with
      | none =>
        cases applied
        exact only
      | some condition =>
        cases applied
        exact only.narrow

theorem mem_sorted {order : Option (Order Value)} {rows : List (Row Value)}
    {row : Row Value} (member : row ∈ sorted order rows) : row ∈ rows := by
  cases order with
  | none => exact member
  | some order => exact (List.mem_mergeSort).mp member

section Queries

variable [DecidableEq Value]

def Own (scope : Scope Value) (foreign : List (Row Value)) (row : Row Value) : Prop :=
  scope.schema.Private scope.tenantId foreign row

def Keeps (scope : Scope Value) (foreign : List (Row Value)) {α : Type}
    (shows : α → Prop) (program : Method Value α) : Prop :=
  program.Scoped scope.schema scope.tenantId foreign shows

theorem only_ofTenant : Only scope (ofTenant scope) := by
  intro row holds
  simpa [ofTenant] using holds

theorem only_applyFilters {query filtered : Query Value} {filters : List (Filter Value)}
    (applied : applyFilters scope query filters = .ok filtered) :
    Only scope filtered := by
  unfold applyFilters at applied
  cases base : BaseRepository.applyFilters query (withTenant scope (some filters)) with
  | error error =>
    rw [base] at applied
    cases applied
  | ok given =>
    rw [base] at applied
    cases applied
    intro row holds
    simp only [Tenancy.narrow, Bool.and_eq_true] at holds
    exact only_ofTenant row holds.2

theorem applyGiven_withTenant (query : Query Value) (filters : Option (List (Filter Value))) :
    BaseRepository.applyGiven (hooks scope) query (some (withTenant scope filters)) =
      applyFilters scope query (withTenant scope filters) := by
  cases merged : withTenant scope filters with
  | nil =>
    by_cases present : ((filters.getD []).any fun filter =>
        filter.field == scope.tenantField) = true
    · simp only [withTenant, present, if_true] at merged
      rw [merged] at present
      cases present
    · simp [withTenant, present] at merged
  | cons filter rest => rfl

/-- The items are the tenant's, and the cursor to the next page is one of
them. -/
def OwnCursorPage (scope : Scope Value) (foreign : List (Row Value))
    (page : CursorPage Value) : Prop :=
  (∀ row ∈ page.items, Own scope foreign row) ∧ ∀ cursor ∈ page.nextCursor, ∃ row ∈ page.items,
      cursor.2 = row "id" ∧ ∃ column, cursor.1 = row column

section Reads

variable {α : Type} {shows : α → Prop}

theorem keeps_ofExcept {β : Type} {outcome : Except Error β} {rest : β → Method Value α}
    (kept : ∀ value, Keeps scope foreign shows (rest value)) :
    Keeps scope foreign shows (.ofExcept outcome >>= rest) := by
  have found : Keeps scope foreign (fun _ => True) (.ofExcept outcome) :=
    Program.scoped_ofExcept fun _ _ => trivial
  exact found.bind fun value _ => kept value

theorem keeps_filtered {query : Query Value} {filters : List (Filter Value)}
    {clause : Option (WhereClause Value)} {rest : Query Value → Method Value α}
    (kept : ∀ filtered, Only scope filtered → Keeps scope foreign shows (rest filtered)) :
    Keeps scope foreign shows (do
      let query ← .ofExcept (applyFilters scope query filters)
      let query ← .ofExcept (BaseRepository.applyWhere query clause)
      rest query) := by
  have filtered : Keeps scope foreign (Only scope)
      (.ofExcept (applyFilters scope query filters)) :=
    Program.scoped_ofExcept fun value applied => only_applyFilters applied
  apply filtered.bind
  intro given only
  have narrowed : Keeps scope foreign (Only scope)
      (.ofExcept (BaseRepository.applyWhere given clause)) :=
    Program.scoped_ofExcept fun value applied => only.applyWhere applied
  exact narrowed.bind kept

theorem keeps_selected {query : Query Value} {rest : List (Row Value) → Method Value α}
    (strangers : Strangers scope foreign) (only : Only scope query)
    (kept : ∀ rows, (∀ row ∈ rows, Own scope foreign row) →
      Keeps scope foreign shows (rest rows)) :
    Keeps scope foreign shows (.query (.select query) >>= rest) := by
  have selected : Keeps scope foreign (fun rows => ∀ row ∈ rows, Own scope foreign row)
      (.query (.select query)) :=
    Program.scoped_query (only.spares strangers)
  exact selected.bind kept

end Reads

variable (strangers : Strangers scope foreign)

include strangers

theorem getOrNone_keeps (filters : List (Filter Value)) (clause : Option (WhereClause Value)) :
    Keeps scope foreign (fun found => ∀ row ∈ found, Own scope foreign row)
      (getOrNone scope filters clause) := by
  apply keeps_filtered
  intro query only
  apply keeps_selected strangers only
  intro rows owned
  rcases rows with _ | ⟨row, _ | ⟨other, rest⟩⟩
  · simp [Keeps]
  · simpa [Keeps] using owned
  · trivial

theorem get_keeps (filters : List (Filter Value)) (clause : Option (WhereClause Value)) :
    Keeps scope foreign (Own scope foreign) (get scope filters clause) := by
  apply (getOrNone_keeps strangers _ clause).bind
  intro found owned
  cases found with
  | none => trivial
  | some row => exact owned row rfl

theorem getById_keeps (id : Value) :
    Keeps scope foreign (Own scope foreign) (getById scope id) :=
  get_keeps strangers _ none

theorem rowExists_keeps (filters : List (Filter Value)) (clause : Option (WhereClause Value)) :
    Keeps scope foreign (fun _ => True) (rowExists scope filters clause) := by
  apply keeps_filtered
  intro query only
  apply keeps_selected strangers only
  intro rows owned
  trivial

theorem first_keeps (filters : Option (List (Filter Value)))
    (order : Option (Order Value)) (clause : Option (WhereClause Value)) :
    Keeps scope foreign (fun found => ∀ row ∈ found, Own scope foreign row)
      (first scope filters order clause) := by
  unfold first BaseRepository.first
  rw [applyGiven_withTenant]
  apply keeps_filtered
  intro query only
  apply keeps_selected strangers only
  intro rows owned row found
  exact owned row (mem_sorted (List.mem_of_head? found))

theorem list_keeps (filters : Option (List (Filter Value)))
    (order : Option (Order Value)) (clause : Option (WhereClause Value)) :
    Keeps scope foreign (fun rows => ∀ row ∈ rows, Own scope foreign row)
      (list scope filters order clause) := by
  unfold list BaseRepository.list
  rw [applyGiven_withTenant]
  apply keeps_filtered
  intro query only
  apply keeps_selected strangers only
  intro rows owned row member
  exact owned row (mem_sorted member)

theorem search_keeps (condition : WhereClause Value)
    (rank : Option (Order Value)) (filters : Option (List (Filter Value)))
    (clause : Option (WhereClause Value)) (order : Option (Order Value))
    (limit : Option Nat) :
    Keeps scope foreign (fun rows => ∀ row ∈ rows, Own scope foreign row)
      (search scope condition rank filters clause order limit) := by
  apply keeps_ofExcept
  intro condition
  simp only [BaseRepository.runSearch, applyGiven_withTenant]
  apply keeps_filtered
  intro query only
  apply keeps_selected strangers only
  intro rows owned row member
  cases limit with
  | none => exact owned row (mem_sorted member)
  | some limit => exact owned row (mem_sorted (List.mem_of_mem_take member))

theorem count_keeps (filters : Option (List (Filter Value)))
    (clause : Option (WhereClause Value)) :
    Keeps scope foreign (fun _ => True) (count scope filters clause) := by
  unfold count BaseRepository.count
  rw [applyGiven_withTenant]
  apply keeps_filtered
  intro query only
  apply keeps_selected strangers only
  intro rows owned
  trivial

theorem paginate_keeps (filters : Option (List (Filter Value)))
    (orderBy : Option String) (page pageSize : Nat) (ascending : Bool)
    (clause : Option (WhereClause Value)) :
    Keeps scope foreign (fun page => ∀ row ∈ page.items, Own scope foreign row)
      (paginate scope filters orderBy page pageSize ascending clause) := by
  simp only [paginate, BaseRepository.paginate, applyGiven_withTenant]
  apply keeps_ofExcept
  intro _
  apply keeps_filtered
  intro query only
  apply keeps_ofExcept
  intro order
  apply keeps_selected strangers only
  intro counted _
  apply keeps_selected strangers only
  intro rows owned
  split
  · trivial
  · intro row member
    exact owned row (mem_sorted (List.mem_of_mem_drop (List.mem_of_mem_take member)))

theorem cursorPaginate_keeps (start : Query Value)
    (filters : Option (List (Filter Value))) (cursor : Option (Cursor Value))
    (limit : Nat) (orderBy : String) (ascending : Bool) :
    Keeps scope foreign (OwnCursorPage scope foreign)
      (cursorPaginate scope start filters cursor limit orderBy ascending) := by
  simp only [cursorPaginate, BaseRepository.cursorPaginate, applyGiven_withTenant]
  apply keeps_ofExcept
  intro _
  apply keeps_ofExcept
  intro column
  have given : Keeps scope foreign (Only scope)
      (.ofExcept (applyFilters scope start (withTenant scope filters))) :=
    Program.scoped_ofExcept fun value applied => only_applyFilters applied
  apply given.bind
  intro query only
  have past : Keeps scope foreign (Only scope)
      (.ofExcept (BaseRepository.applyCursor scope.toModel query column ascending cursor)) := by
    apply Program.scoped_ofExcept
    intro narrowed applied
    rcases cursor with _ | error | last
    · cases applied
      exact only
    · cases applied
    · obtain ⟨-, narrowed⟩ :=
        BaseRepository.applyCursor_ok scope.toModel applied
      cases narrowed
      exact only.narrow
  apply past.bind
  intro query only
  apply keeps_selected strangers only
  intro rows owned
  constructor
  · intro row member
    exact owned row (mem_sorted (List.mem_of_mem_take (List.mem_of_mem_take member)))
  · intro next found
    simp only at found
    split at found
    · obtain ⟨last, taken, rfl⟩ := Option.map_eq_some_iff.mp found
      exact ⟨last, List.mem_of_getLast? taken, rfl, column, rfl⟩
    · cases found

theorem changesSince_keeps (now : Int) (since : Option Value)
    (filters : Option (List (Filter Value))) (cursor : Option (Cursor Value))
    (limit : Nat) (orderBy : String) (includeDeleted : Bool)
    (watermarkLag : Int) :
    Keeps scope foreign (fun changes => OwnCursorPage scope foreign changes.1)
      (changesSince scope now since filters cursor limit orderBy includeDeleted
        watermarkLag) := by
  simp only [changesSince, BaseRepository.changesSince]
  split
  · trivial
  · apply (cursorPaginate_keeps strangers _ _ cursor limit orderBy true).bind
    intro page owned
    exact owned

theorem keeps_deleted {α : Type} {shows : α → Prop} {query : Query Value}
    {rest : List (Row Value) → Method Value α}
    (only : Only scope query)
    (kept : ∀ rows, Keeps scope foreign shows (rest rows)) :
    Keeps scope foreign shows (.query (.delete query) >>= rest) := by
  have deleted : Keeps scope foreign (fun rows => ∀ row ∈ rows, Own scope foreign row)
      (.query (.delete query)) :=
    Program.scoped_query (only.spares strangers)
  exact deleted.bind fun rows _ => kept rows

theorem deleteMany_keeps (filters : List (Filter Value)) (clause : Option (WhereClause Value)) :
    Keeps scope foreign (fun _ => True) (deleteMany scope filters clause) := by
  unfold deleteMany BaseRepository.deleteMany
  rw [applyGiven_withTenant]
  apply keeps_filtered
  intro query only
  exact keeps_deleted strangers only fun rows => trivial

theorem delete_keeps (id : Value) : Keeps scope foreign (fun _ => True) (delete scope id) := by
  apply keeps_deleted strangers
  · intro row holds
    simp only [Tenancy.narrow, Bool.and_eq_true] at holds
    exact only_ofTenant row holds.2
  · intro rows
    split <;> trivial

theorem deleteBatch_keeps (ids : List Value) :
    Keeps scope foreign (fun _ => True) (deleteBatch scope ids) := by
  apply keeps_deleted strangers
  · intro row holds
    simp only [Tenancy.narrow, Bool.and_eq_true] at holds
    exact only_ofTenant row holds.2
  · intro rows
    trivial

theorem executeUpdate_keeps (filters : List (Filter Value))
    (values : List (String × SetValue Value))
    (clause : Option (WhereClause Value)) :
    Keeps scope foreign (fun rows => ∀ row ∈ rows, Own scope foreign row)
      (executeUpdate scope filters values clause) := by
  have stays : ∀ set, values.lookup scope.tenantField = set →
      (set = none ∨ set = some (.constant scope.tenantId)) →
      ∀ row : Row Value, row scope.tenantField = scope.tenantId →
        BaseRepository.setValues values row scope.tenantField = scope.tenantId := by
    intro set found kept row own
    rcases kept with rfl | rfl
    · simpa [BaseRepository.setValues, found] using own
    · simp [BaseRepository.setValues, found]
  have write : (values.lookup scope.tenantField = none ∨
      values.lookup scope.tenantField = some (.constant scope.tenantId)) →
      Keeps scope foreign (fun rows => ∀ row ∈ rows, Own scope foreign row)
        (BaseRepository.executeUpdate scope.toModel (hooks scope) filters values clause) := by
    intro kept
    apply keeps_filtered
    intro query only
    split
    · apply Program.scoped_write
      constructor
      · exact only.spares strangers
      · intro row own _
        exact stays _ rfl kept row own
    · trivial
  simp only [executeUpdate]
  cases set : values.lookup scope.tenantField with
  | none => simpa using write (.inl set)
  | some value =>
    cases value with
    | expression of => trivial
    | constant value =>
      by_cases same : value = scope.tenantId
      · subst same
        simpa using write (.inr set)
      · simp [same, Keeps]

theorem bulkUpdate_keeps (filters : List (Filter Value))
    (values : List (String × SetValue Value)) :
    Keeps scope foreign (fun _ => True)
      (BaseRepository.bulkUpdate (executeUpdate scope) filters values) := by
  unfold BaseRepository.bulkUpdate
  split
  · trivial
  · apply (executeUpdate_keeps strangers filters values none).bind
    intro rows _
    trivial

def OwnColumns (scope : Scope Value) (foreign : List (Row Value))
    (columns : Values Value) : Prop :=
  ∃ row, Own scope foreign row ∧ ∀ value ∈ columns, row value.1 = value.2

theorem updateReturning_keeps (filters : List (Filter Value))
    (values : List (String × SetValue Value)) (returning : List String)
    (clause : Option (WhereClause Value)) :
    Keeps scope foreign (fun rows => ∀ columns ∈ rows, OwnColumns scope foreign columns)
      (BaseRepository.updateReturning scope.toModel (executeUpdate scope)
        filters values returning clause) := by
  unfold BaseRepository.updateReturning
  split
  · trivial
  · split
    · trivial
    · split
      · trivial
      · apply (executeUpdate_keeps strangers filters values clause).bind
        intro rows owned columns member
        obtain ⟨row, present, rfl⟩ := List.mem_map.mp member
        refine ⟨row, owned row present, ?_⟩
        intro value listed
        obtain ⟨name, _, rfl⟩ := List.mem_map.mp listed
        rfl

omit [DecidableEq Value] strangers in
theorem stamped_of_compile {rows : List (NewRow Value)} {compiled : List (Row Value)}
    (offered : BaseRepository.compile scope.toModel
      (prepareInsertRows scope rows) = .ok compiled) :
    ∀ row ∈ compiled, row scope.tenantField = scope.tenantId := by
  unfold BaseRepository.compile at offered
  split at offered
  · cases offered
    intro row member
    obtain ⟨prepared, listed, rfl⟩ := List.mem_map.mp member
    obtain ⟨given, _, rfl⟩ := List.mem_map.mp listed
    simp [assign]
  · cases offered

omit strangers in
theorem bulkCreateValues_keeps (rows : List (NewRow Value)) :
    Keeps scope foreign (fun _ => True)
      (BaseRepository.bulkCreateValues scope.toModel (hooks scope) rows) := by
  unfold BaseRepository.bulkCreateValues
  split
  · trivial
  · have compiled : Keeps scope foreign
        (fun rows => ∀ row ∈ rows, row scope.tenantField = scope.tenantId)
        (.ofExcept (BaseRepository.compile scope.toModel (prepareInsertRows scope rows))) :=
      Program.scoped_ofExcept fun _ offered => stamped_of_compile offered
    apply compiled.bind
    intro offered stamped
    have inserted : Keeps scope foreign
        (fun written => ∀ rows ∈ written, ∀ row ∈ rows, Own scope foreign row)
        (offered.mapM fun row =>
          .write (scope.toModel.raiseConflict .bulkCreate) (.insert row)) :=
      Program.Scoped.mapM fun row member =>
        Program.scoped_write (stamped row member)
    apply inserted.bind
    intro written _
    trivial

omit strangers in
theorem clash_of_sameKey {columns : List String} {left right : Row Value}
    (key : BaseRepository.isKey scope.toModel columns = true)
    (same : scope.toModel.sameKey columns left right = true) :
    scope.toModel.clash left right = true := by
  obtain ⟨found, listed, covers⟩ := List.any_eq_true.mp key
  simp only [Bool.and_eq_true, List.all_eq_true, List.contains_iff_mem] at covers
  have agrees : ∀ column ∈ found, (!scope.isNull (left column) &&
        decide (left column = right column)) = true := by
    intro column member
    exact List.all_eq_true.mp same column (covers.1 column member)
  rcases List.mem_cons.mp listed with primary | unique
  · subst primary
    have identical := agrees "id" (by simp)
    simp only [Bool.and_eq_true, decide_eq_true_eq] at identical
    simp [Model.clash, identical.2]
  · have clashes : (scope.keys.any fun key =>
        scope.toModel.sameKey key left right) = true :=
      List.any_eq_true.mpr ⟨found, unique, List.all_eq_true.mpr agrees⟩
    simp [Model.clash, clashes]

theorem offer_scoped {conflictColumns : List String}
    {rewrites : Option (List String)} {row : Row Value}
    (key : BaseRepository.isKey scope.toModel conflictColumns = true)
    (stamped : row scope.tenantField = scope.tenantId) :
    (BaseRepository.offer scope.toModel (hooks scope) conflictColumns rewrites
      row).Scoped scope.schema scope.tenantId foreign := by
  cases rewrites with
  | none =>
    refine ⟨stamped, fun stored => clash_of_sameKey key, ?_, ?_⟩
    · intro other _
      rfl
    · intro stored own _
      exact own
  | some columns =>
    refine ⟨stamped, fun stored => clash_of_sameKey key, only_ofTenant.spares strangers, ?_⟩
    intro stored own _
    change (if columns.contains scope.tenantField then
      row scope.tenantField else stored scope.tenantField) = scope.tenantId
    split
    · exact stamped
    · exact own

theorem bulkUpsert_keeps (rows : List (NewRow Value))
    (conflictColumns : List String) (columns : Option (List String))
    (onConflict : OnConflict) :
    Keeps scope foreign (fun ids => ∀ id ∈ ids, ∃ row, Own scope foreign row ∧ row "id" = id)
      (BaseRepository.bulkUpsert scope.toModel (hooks scope) rows
        conflictColumns columns onConflict) := by
  unfold BaseRepository.bulkUpsert
  split
  · trivial
  · apply keeps_ofExcept
    intro rewrites
    dsimp only
    split
    · trivial
    · split
      · trivial
      · split
        · trivial
        · have compiled : Keeps scope foreign (fun rows => ∀ row ∈ rows,
                row scope.tenantField = scope.tenantId)
              (.ofExcept (BaseRepository.compile scope.toModel
                (prepareInsertRows scope rows))) :=
            Program.scoped_ofExcept fun _ offered =>
              stamped_of_compile offered
          apply compiled.bind
          intro offered stamped
          cases key : BaseRepository.isKey scope.toModel conflictColumns with
          | false => trivial
          | true =>
            have written : Keeps scope foreign
                (fun written => ∀ rows ∈ written, ∀ row ∈ rows, Own scope foreign row)
                (offered.mapM fun row =>
                  .write (scope.toModel.raiseConflict .bulkCreate)
                    (BaseRepository.offer scope.toModel (hooks scope)
                      conflictColumns rewrites row)) :=
              Program.Scoped.mapM fun row member =>
                Program.scoped_write (offer_scoped strangers key (stamped row member))
            apply written.bind
            intro answers owned id member
            obtain ⟨row, listed, rfl⟩ := List.mem_map.mp member
            obtain ⟨answer, answered, present⟩ := List.mem_flatten.mp listed
            exact ⟨row, owned answer answered row present, rfl⟩

end Queries

section Instances

def Clear (foreign : List (Row Value)) (instance_ : Instance Value) : Prop :=
  ∀ id, instance_.identity = some id → ∀ other ∈ foreign, other "id" ≠ id

variable [DecidableEq Value]

def Stays (scope : Scope Value) (instance_ : Instance Value) : Prop :=
  instance_.assigned.lookup scope.tenantField = some scope.tenantId ∨
    instance_.identity ≠ none ∧
      instance_.assigned.lookup scope.tenantField = none

theorem Own.id_ne {row : Row Value} (own : Own scope foreign row) :
    ∀ other ∈ foreign, other "id" ≠ row "id" := by
  intro other member same
  have apart := own.2 other member
  simp [Scope.schema, Model.clash, same] at apart

variable {instance_ : Instance Value}

theorem clear_persisted {row : Row Value} (own : Own scope foreign row) :
    Clear foreign (instance_.persisted row) := by
  intro id identity
  cases identity
  exact own.id_ne

variable {refused : Error}

theorem keeps_persisted {statement : Statement (Row Value)}
    (inside : statement.Scoped scope.schema scope.tenantId foreign) :
    Keeps scope foreign (fun stored => Clear foreign stored ∧ Stays scope stored)
      (.write refused statement >>= fun
        | [row] => pure (instance_.persisted row)
        | _ => .raise .staleData) := by
  have written : Keeps scope foreign (fun rows => ∀ row ∈ rows, Own scope foreign row)
      (.write refused statement) := Program.scoped_write inside
  apply written.bind
  intro rows owned
  rcases rows with _ | ⟨row, _ | ⟨other, rest⟩⟩
  · trivial
  · constructor
    · exact clear_persisted (owned row (by simp))
    · exact .inr ⟨by simp [Instance.persisted], by simp [Instance.persisted]⟩
  · trivial

theorem flush_keeps (clear : Clear foreign instance_) (stays : Stays scope instance_) :
    Keeps scope foreign (fun stored => Clear foreign stored ∧ Stays scope stored)
      (BaseRepository.flush refused instance_) := by
  unfold BaseRepository.flush
  dsimp only
  split
  · exact ⟨clear, stays⟩
  · split
    · rename_i _ _ new
      apply keeps_persisted
      rcases stays with set | ⟨stored, _⟩
      · simp [Statement.Scoped, Scope.schema, assign, set]
      · exact absurd new stored
    · exact ⟨clear, stays⟩
    · rename_i _ _ id identity _
      apply keeps_persisted
      constructor
      · intro other member
        simpa using clear id identity other member
      · intro row own _
        change (instance_.assigned.lookup scope.tenantField).getD
          (row scope.tenantField) = scope.tenantId
        rcases stays with set | ⟨_, kept⟩
        · simp [set]
        · rw [kept]
          exact own

theorem refresh_keeps (clear : Clear foreign instance_) :
    Keeps scope foreign (Own scope foreign) (BaseRepository.refresh instance_) := by
  unfold BaseRepository.refresh
  split
  · rename_i id _ identity
    have selected : Keeps scope foreign (fun rows => ∀ row ∈ rows, Own scope foreign row)
        (.query (.select fun row => decide (row "id" = id))) := by
      apply Program.scoped_query
      intro other member
      simpa using clear id identity other member
    apply selected.bind
    intro rows owned
    rcases rows with _ | ⟨row, _ | ⟨other, rest⟩⟩
    · trivial
    · exact owned row (by simp)
    · trivial
  · trivial

theorem insert_keeps (clear : Clear foreign instance_) : Keeps scope foreign (Own scope foreign)
      (BaseRepository.insert scope.toModel (hooks scope) instance_) := by
  have stored : Keeps scope foreign (fun stored => Clear foreign stored ∧ Stays scope stored)
      (BaseRepository.flush (scope.toModel.raiseConflict .create)
        { prepareInsert scope instance_ with attached := true }) := by
    apply flush_keeps
    · exact clear
    · exact .inl (by simp [prepareInsert])
  apply stored.bind
  intro stored kept
  exact refresh_keeps kept.1

theorem refreshAll_keeps {instances : List (Instance Value)}
    (kept : ∀ stored ∈ instances, Clear foreign stored ∧ Stays scope stored) :
    Keeps scope foreign (fun rows => ∀ row ∈ rows, Own scope foreign row)
      (instances.mapM BaseRepository.refresh) :=
  Program.Scoped.mapM fun stored member => refresh_keeps (kept stored member).1

theorem addAll_keeps {instances : List (Instance Value)}
    (clear : ∀ instance_ ∈ instances, Clear foreign instance_) :
    Keeps scope foreign (fun rows => ∀ row ∈ rows, Own scope foreign row)
      (BaseRepository.addAll scope.toModel (hooks scope) instances) := by
  have stored : Keeps scope foreign (fun stored => ∀ instance_ ∈ stored,
        Clear foreign instance_ ∧ Stays scope instance_)
      ((instances.map (prepareInsert scope)).mapM fun instance_ =>
        BaseRepository.flush (scope.toModel.raiseConflict .bulkCreate)
          { instance_ with attached := true }) := by
    apply Program.Scoped.mapM
    intro prepared member
    obtain ⟨instance_, listed, rfl⟩ := List.mem_map.mp member
    apply flush_keeps
    · exact clear instance_ listed
    · exact .inl (by simp [prepareInsert])
  exact stored.bind fun stored kept => refreshAll_keeps kept

theorem resolveInstance_keeps {ref : Instance Value} (clear : Clear foreign ref) :
    Keeps scope foreign (Clear foreign) (BaseRepository.resolveInstance scope.toModel ref) := by
  unfold BaseRepository.resolveInstance
  split
  · rename_i id _ identity
    have selected : Keeps scope foreign (fun rows => ∀ row ∈ rows, Own scope foreign row)
        (.query (.select fun row => decide (row "id" = id))) := by
      apply Program.scoped_query
      intro other member
      simpa using clear id identity other member
    apply selected.bind
    intro rows owned
    cases rows with
    | nil =>
      intro other merged
      cases merged
    | cons row rest =>
      intro other merged
      cases merged
      exact (owned row (by simp)).id_ne
  · exact clear

theorem verdict_ok {stored added : Option Value}
    (passed : verdict scope stored added = .ok ()) :
    (∀ value, stored = some value → value = scope.tenantId) ∧
      ∀ value, added = some value → value = scope.tenantId := by
  unfold verdict at passed
  split at passed
  · cases passed
  · rename_i kept
    split at passed
    · cases passed
    · rename_i unmoved
      constructor
      · rintro value rfl
        simpa using kept
      · rintro value rfl
        simpa using unmoved

def Accepted (scope : Scope Value) (instance_ : Instance Value) : Prop :=
  instance_.loaded.lookup scope.tenantField = some scope.tenantId ∧
    ∀ value, instance_.assigned.lookup scope.tenantField = some value → value = scope.tenantId

omit [DecidableEq Value] in
theorem Accepted.stays (accepted : Accepted scope instance_)
    (identity : instance_.identity ≠ none) : Stays scope instance_ := by
  cases set : instance_.assigned.lookup scope.tenantField with
  | none => exact .inr ⟨identity, set⟩
  | some value => exact .inl (by rw [set, accepted.2 value set])

theorem check_of_loaded {session : List (Instance Value)} {index : Nat}
    {stored : Value} (found : session[index]? = some instance_)
    (loaded : instance_.loaded.lookup scope.tenantField = some stored) :
    checkInstanceWrite scope refused session index = (.ofExcept (verdict scope (some stored)
        (instance_.assigned.lookup scope.tenantField)) >>= fun _ => pure session) := by
  simp only [checkInstanceWrite, found, loaded]

theorem check_keeps {session : List (Instance Value)} {index : Nat}
    (loaded : ∀ instance_ ∈ session, (instance_.loaded.lookup scope.tenantField).isSome) :
    Keeps scope foreign (fun checked => checked = session ∧
        ∀ instance_, session[index]? = some instance_ → Accepted scope instance_)
      (checkInstanceWrite scope refused session index) := by
  cases found : session[index]? with
  | none =>
    simp only [checkInstanceWrite, found]
    refine ⟨rfl, ?_⟩
    intro instance_ absent
    cases absent
  | some instance_ =>
    obtain ⟨stored, known⟩ := Option.isSome_iff_exists.mp
      (loaded instance_ (List.mem_of_getElem? found))
    rw [check_of_loaded found known]
    have passed : Keeps scope foreign (fun _ => Accepted scope instance_)
        (.ofExcept (verdict scope (some stored)
          (instance_.assigned.lookup scope.tenantField))) := by
      apply Program.scoped_ofExcept
      intro _ passed
      obtain ⟨kept, unmoved⟩ := verdict_ok passed
      exact ⟨by rw [known, kept stored rfl], unmoved⟩
    apply passed.bind
    intro _ accepted
    refine ⟨rfl, ?_⟩
    intro other same
    cases same
    exact accepted

theorem checks_keep {session : List (Instance Value)} (loaded : ∀ instance_ ∈ session,
      (instance_.loaded.lookup scope.tenantField).isSome) (indices : List Nat) :
    Keeps scope foreign (fun checked => checked = session ∧
        ∀ index ∈ indices, ∀ instance_, session[index]? = some instance_ →
          Accepted scope instance_)
      (indices.foldlM (fun session index => checkInstanceWrite scope refused session index)
        session) := by
  induction indices with
  | nil => exact ⟨rfl, by simp⟩
  | cons index rest induction =>
    rw [List.foldlM_cons]
    apply (check_keeps loaded).bind
    rintro checked ⟨rfl, accepted⟩
    apply induction.imp
    rintro finally_ ⟨same, others⟩
    exact ⟨same, by simpa using ⟨accepted, others⟩⟩

theorem writeInstances_keeps {instances : List (Instance Value)}
    (loaded : ∀ instance_ ∈ instances, (instance_.loaded.lookup scope.tenantField).isSome)
    (identity : ∀ instance_ ∈ instances, instance_.identity ≠ none)
    (clear : ∀ instance_ ∈ instances, Accepted scope instance_ → Clear foreign instance_) :
    Keeps scope foreign (fun written => ∀ stored ∈ written,
        Clear foreign stored ∧ Stays scope stored)
      (BaseRepository.writeInstances (hooks scope) refused instances) := by
  apply (checks_keep loaded _).bind
  rintro session ⟨rfl, accepted⟩
  apply Program.Scoped.mapM
  intro instance_ member
  obtain ⟨index, inside, found⟩ := List.getElem_of_mem member
  have passed := accepted index (List.mem_range.mpr inside) instance_
    (List.getElem?_eq_some_iff.mpr ⟨inside, found⟩)
  exact flush_keeps (clear instance_ member passed) (passed.stays (identity instance_ member))

/-- The tenant column of the instance was neither loaded nor assigned, and it
has the primary key it was loaded under. -/
structure Unread (scope : Scope Value) (instance_ : Instance Value)
    (id : Value) : Prop where
  identity : instance_.identity = some id
  primary : instance_.loaded.lookup "id" = some id
  kept : instance_.assigned.lookup "id" = none
  unloaded : instance_.loaded.lookup scope.tenantField = none
  unassigned : instance_.assigned.lookup scope.tenantField = none

def lookedUp (scope : Scope Value) (id : Value) (session : List (Instance Value)) :
    Method Value (List (Instance Value)) := do
  let rows ← .query (.select fun row => decide (row "id" = id))
  .ofExcept (verdict scope (rows.head?.map fun row => row scope.tenantField) none)
  pure session

variable {id : Value}

theorem check_of_unread (unread : Unread scope instance_ id) :
    checkInstanceWrite scope refused [instance_] 0 =
      autoflushed scope refused [instance_] >>= lookedUp scope id := by
  have primary : instance_.id = some id := by
    simp [Instance.id, unread.kept, unread.primary]
  simp only [checkInstanceWrite, List.getElem?_cons_zero, unread.unloaded,
    unread.unassigned, primary]
  rfl

theorem check_unread_keeps (unread : Unread scope instance_ id)
    (clear : Clear foreign instance_) :
    Keeps scope foreign (fun session => ∀ stored ∈ session,
        Clear foreign stored ∧ Stays scope stored)
      (checkInstanceWrite scope refused [instance_] 0) := by
  have stays : Stays scope instance_ :=
    .inr ⟨by simp [unread.identity], unread.unassigned⟩
  rw [check_of_unread unread]
  have flushed : Keeps scope foreign (fun session => ∀ stored ∈ session,
        Clear foreign stored ∧ Stays scope stored)
      (autoflushed scope refused [instance_]) := by
    unfold autoflushed
    split
    · apply Program.Scoped.mapM
      intro only member
      have same : only = instance_ := by simpa using member
      subst same
      exact flush_keeps clear stays
    · intro only member
      have same : only = instance_ := by simpa using member
      subst same
      exact ⟨clear, stays⟩
  apply flushed.bind
  intro session kept
  have selected : Keeps scope foreign (fun _ => True)
      (.query (.select fun row => decide (row "id" = id))) := by
    apply Program.Scoped.imp (fun _ _ => trivial)
    apply Program.scoped_query
    intro other member
    simpa using clear id unread.identity other member
  apply selected.bind
  intro rows _
  exact keeps_ofExcept fun _ => kept

def Sound (scope : Scope Value) (foreign : List (Row Value))
    (instance_ : Instance Value) : Prop :=
  ((instance_.loaded.lookup scope.tenantField).isSome ∧ instance_.identity ≠ none ∧
      (Accepted scope instance_ → Clear foreign instance_)) ∨
    ∃ id, Unread scope instance_ id ∧ Clear foreign instance_

theorem checkOne_keeps (sound : Sound scope foreign instance_) :
    Keeps scope foreign (fun session => ∀ stored ∈ session,
        Clear foreign stored ∧ Stays scope stored)
      (checkInstanceWrite scope refused [instance_] 0) := by
  rcases sound with ⟨loaded, identity, clear⟩ | ⟨id, unread, clear⟩
  · have checked : Keeps scope foreign (fun checked => checked = [instance_] ∧
          ∀ found, [instance_][0]? = some found → Accepted scope found)
        (checkInstanceWrite scope refused [instance_] 0) :=
      check_keeps (by simpa using loaded)
    apply checked.imp
    rintro session ⟨rfl, passed⟩ stored member
    have same : stored = instance_ := by simpa using member
    subst same
    have accepted := passed stored rfl
    exact ⟨clear accepted, accepted.stays identity⟩
  · exact check_unread_keeps unread clear

theorem writeInstances_one (refused : Error) (instance_ : Instance Value) :
    BaseRepository.writeInstances (hooks scope) refused [instance_] =
      checkInstanceWrite scope refused [instance_] 0 >>= fun session =>
        session.mapM (BaseRepository.flush refused) := by
  simp [BaseRepository.writeInstances, List.range_succ, hooks]

theorem update_keeps (sound : Sound scope foreign instance_) :
    Keeps scope foreign (fun rows => ∀ row ∈ rows, Own scope foreign row)
      (update scope instance_) := by
  unfold update BaseRepository.update
  rw [writeInstances_one, bind_assoc]
  apply (checkOne_keeps sound).bind
  intro session kept
  have flushed : Keeps scope foreign (fun written => ∀ stored ∈ written,
        Clear foreign stored ∧ Stays scope stored)
      (session.mapM (BaseRepository.flush (scope.toModel.raiseConflict .update))) :=
    Program.Scoped.mapM fun stored member =>
      flush_keeps (kept stored member).1 (kept stored member).2
  exact flushed.bind fun written stored => refreshAll_keeps stored

theorem deleteInstance_keeps (clear : Clear foreign instance_) :
    Keeps scope foreign (fun _ => True) (BaseRepository.deleteInstance instance_) := by
  unfold BaseRepository.deleteInstance
  split
  · trivial
  · rename_i id identity
    have deleted : Keeps scope foreign (fun rows => ∀ row ∈ rows, Own scope foreign row)
        (.query (.delete fun row => decide (row "id" = id))) := by
      apply Program.scoped_query
      intro other member
      simpa using clear id identity other member
    apply deleted.bind
    intro _ _
    trivial

theorem deleteAudited_keeps (sound : Sound scope foreign instance_) :
    Keeps scope foreign (fun _ => True)
      (BaseRepository.deleteAudited (hooks scope) instance_) := by
  apply (checkOne_keeps sound).bind
  intro session kept
  have deleted : Keeps scope foreign (fun deleted => ∀ done ∈ deleted, True)
      (session.mapM BaseRepository.deleteInstance) :=
    Program.Scoped.mapM fun stored member =>
      deleteInstance_keeps (kept stored member).1
  apply deleted.bind
  intro _ _
  trivial

theorem setActive_keeps (strangers : Strangers scope foreign) (active : Bool) (id : Value) :
    Keeps scope foreign (fun rows => ∀ row ∈ rows, Own scope foreign row)
      (setActive scope active id) := by
  apply (getById_keeps strangers id).bind
  intro row own
  apply update_keeps
  refine .inl ⟨?_, by simp [Instance.ofRow], fun _ => ?_⟩
  · simp [Instance.ofRow, List.lookup_isSome_iff, scope.mapped]
  · intro found identity
    cases identity
    exact own.id_ne

def HeldByOther (scope : Scope Value) (rows : List (Row Value)) (id : Value) : Prop :=
  (∃ row ∈ rows, row "id" = id) ∧
    ∀ row ∈ rows, row "id" = id → row scope.tenantField ≠ scope.tenantId

variable {rows : List (Row Value)}

theorem lookedUp_refuses (held : HeldByOther scope rows id) (session : List (Instance Value)) :
    (lookedUp scope id session).run scope.schema rows = .error scope.raiseNotFound := by
  obtain ⟨⟨row, present, same⟩, others⟩ := held
  change Program.run scope.schema (Program.ofExcept (verdict scope
    ((rows.filter fun row => decide (row "id" = id)).head?.map
      fun row => row scope.tenantField) none) >>= fun _ => pure session)
    rows = _
  cases chosen : rows.filter fun row => decide (row "id" = id) with
  | nil =>
    have member : row ∈ rows.filter fun row => decide (row "id" = id) :=
      List.mem_filter.mpr ⟨present, by simpa using same⟩
    rw [chosen] at member
    cases member
  | cons first rest =>
    have member : first ∈ rows.filter fun row => decide (row "id" = id) := by
      rw [chosen]
      simp
    obtain ⟨stored, key⟩ := List.mem_filter.mp member
    have foreign_tenant := others first stored (by simpa using key)
    have refused : verdict scope (some (first scope.tenantField)) none =
        .error scope.raiseNotFound := by
      simp [verdict, foreign_tenant]
    simp only [List.head?_cons, Option.map_some, refused]
    rfl

theorem HeldByOther.update {changes : Values Value}
    (held : HeldByOther scope rows id) (kept : changes.lookup "id" = none)
    (unassigned : changes.lookup scope.tenantField = none) :
    HeldByOther scope (rows.map fun row =>
        if decide (row "id" = id) then assign changes row else row) id := by
  obtain ⟨⟨row, present, same⟩, others⟩ := held
  constructor
  · refine ⟨assign changes row, ?_, by simpa [assign, kept] using same⟩
    exact List.mem_map.mpr ⟨row, present, by simp [same]⟩
  · intro written member key
    obtain ⟨stored, listed, rfl⟩ := List.mem_map.mp member
    by_cases chosen : stored "id" = id
    · simpa [chosen, assign, unassigned] using others stored listed chosen
    · simp [chosen] at key

theorem filter_id (distinct : scope.schema.Distinct rows)
    (present : ∃ row ∈ rows, row "id" = id) :
    ∃ row, rows.filter (fun row => decide (row "id" = id)) = [row] := by
  obtain ⟨row, member, same⟩ := present
  have apart := List.Pairwise.filter (fun row => decide (row "id" = id)) distinct
  have listed : row ∈ rows.filter fun row => decide (row "id" = id) :=
    List.mem_filter.mpr ⟨member, by simpa using same⟩
  have keyed : ∀ other ∈ rows.filter (fun row => decide (row "id" = id)), other "id" = id := by
    intro other found
    simpa using (List.mem_filter.mp found).2
  generalize rows.filter (fun row => decide (row "id" = id)) = found at apart listed keyed
  rcases found with _ | ⟨first, _ | ⟨second, rest⟩⟩
  · cases listed
  · exact ⟨first, rfl⟩
  · have clashes := (List.pairwise_cons.mp apart).1 second (by simp)
    have together : first "id" = second "id" := by
      rw [keyed first (by simp), keyed second (by simp)]
    simp [Scope.schema, Model.clash, together] at clashes

theorem flushed_refuses {change : String × Value} {rest : Values Value}
    (unread : Unread scope instance_ id) (held : HeldByOther scope rows id)
    (distinct : scope.schema.Distinct rows)
    (changes : instance_.assigned = change :: rest) :
    ∃ error, (.write refused (.update (fun row => decide (row "id" = id))
          (assign (change :: rest))) >>= (fun
            | [row] => pure (instance_.persisted row)
            | _ => .raise .staleData) >>= fun stored => lookedUp scope id [stored] :
        Method Value (List (Instance Value))).run scope.schema rows = .error error ∧
        (((Statement.update (fun row => decide (row "id" = id))
            (assign (change :: rest))).Free scope.schema scope.tenantId rows) →
          error = scope.raiseNotFound) := by
  have unassigned := unread.unassigned
  have kept := unread.kept
  rw [changes] at unassigned kept
  have accepted : ∀ free : (Statement.update (fun row => decide (row "id" = id))
      (assign (change :: rest))).Free scope.schema scope.tenantId rows,
      ∃ row, (Statement.update (fun row => decide (row "id" = id))
        (assign (change :: rest))).perform scope.schema rows = some ([row], rows.map fun row =>
            if decide (row "id" = id) then assign (change :: rest) row
            else row) := by
    intro free
    obtain ⟨row, single⟩ := filter_id distinct held.1
    refine ⟨assign (change :: rest) row, ?_⟩
    rw [Statement.update_accepted distinct _ _ free, single]
    · rfl
    · intro left _ right _ first second
      simp only [decide_eq_true_eq] at first second
      simp [Scope.schema, Model.clash, first, second]
    · intro row member chosen
      simp only [decide_eq_true_eq] at chosen
      change (assign (change :: rest) row) scope.tenantField ≠ scope.tenantId
      simpa [assign, unassigned] using held.2 row member chosen
  cases performed : (Statement.update (fun row => decide (row "id" = id))
      (assign (change :: rest))).perform scope.schema rows with
  | none =>
    refine ⟨refused, ?_, ?_⟩
    · simp only [Program.write, Program.send_bind, Program.run, performed]
      rfl
    · intro free
      obtain ⟨row, same⟩ := accepted free
      rw [performed] at same
      cases same
  | some done =>
    obtain ⟨answer, written⟩ := done
    obtain ⟨_, contents⟩ := Statement.store_eq_some performed
    cases contents
    simp only [Program.write, Program.send_bind, Program.run, performed, Program.done_bind]
    obtain ⟨row, single⟩ := filter_id distinct held.1
    rw [single]
    exact ⟨_, lookedUp_refuses (held.update kept unassigned) _, fun _ => rfl⟩

theorem check_refuses (refused : Error) (unread : Unread scope instance_ id)
    (held : HeldByOther scope rows id) (distinct : scope.schema.Distinct rows) :
    ∃ error, (checkInstanceWrite scope refused [instance_] 0).run scope.schema rows =
          .error error ∧
        ((checkInstanceWrite scope refused [instance_] 0).Along scope.schema
            (Statement.Free scope.schema scope.tenantId) rows →
          error = scope.raiseNotFound) := by
  rw [check_of_unread unread]
  have clean : (pure [instance_] >>= lookedUp scope id).run scope.schema rows =
      .error scope.raiseNotFound := lookedUp_refuses held [instance_]
  unfold autoflushed
  split
  · simp only [List.mapM_cons, List.mapM_nil, bind_assoc, pure_bind]
    cases attached : instance_.attached with
    | false =>
      simp only [BaseRepository.flush, attached, Bool.not_false, if_true]
      exact ⟨_, clean, fun _ => rfl⟩
    | true =>
      cases changes : instance_.assigned with
      | nil =>
        simp only [BaseRepository.flush, attached, unread.identity, changes,
          Bool.not_true, Bool.false_eq_true, if_false]
        exact ⟨_, clean, fun _ => rfl⟩
      | cons change rest =>
        simp only [BaseRepository.flush, attached, unread.identity, changes,
          Bool.not_true, Bool.false_eq_true, if_false]
        obtain ⟨error, raised, known⟩ :=
          flushed_refuses unread held distinct changes
        refine ⟨error, raised, ?_⟩
        intro along
        simp only [Program.write, Program.send_bind, Program.Along] at along
        exact known along.1
  · exact ⟨_, clean, fun _ => rfl⟩

end Instances

end Tenancy

end TempestSdk
