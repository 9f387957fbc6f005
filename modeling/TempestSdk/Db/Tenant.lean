import TempestSdk.Db.Session
import TempestSdk.Library.OwnedRows
import TempestSdk.Library.Runs

/-!
# Tenant-scoped repositories

`TenantScopedRepository` as programs of statements on the table it shares with
the other tenants: the methods of `BaseRepository` over the hooks a subclass
may replace, then the replaced hooks and methods.

A row maps columns to values.  A `where` clause and the condition of a filter
look at the row they are about.  Every method commits on its own, so a method
that raises leaves the table as it was.
-/

namespace TempestSdk

namespace Tenancy

open OwnedRows

variable {Value : Type}

abbrev Row (Value : Type) := String → Value

abbrev Query (Value : Type) := Row Value → Bool

abbrev Values (Value : Type) := List (String × Value)

inductive Error where
  | notFound (message : String)
  | conflict (exception : UnitOfWork.ConflictException) (message : String)
  /-- `IntegrityError`. -/
  | integrity
  | valueError (message : String)
  | attributeError (name : String)
  | notImplemented (message : String)
  | unknownFilterKey (field : String)
  | invalidFilterValue (field : String)
  | orderByNotAllowed (orderBy : String)
  | pageSizeTooLarge (pageSize : Nat)
  | zeroDivision
  /-- `MultipleResultsFound`. -/
  | multipleResults
  /-- `StaleDataError`. -/
  | staleData
  /-- `InvalidRequestError`. -/
  | invalidRequest (message : String)
  /-- SQLAlchemy does not compare with a value: by `<` with NULL, for one. -/
  | argument
  | unconsumedColumns
  | noConflictTarget
  deriving DecidableEq

/-- A mapped model in its database, and the settings of its repository. -/
structure Model (Value : Type) where
  name : String
  columns : List String
  /-- The unique keys besides the primary key `id`. -/
  keys : List (List String)
  isNull : Value → Bool
  less : Value → Value → Bool
  boolean : Bool → Value
  orderableColumns : Option (List String)
  maxPageSize : Option Nat
  dialect : String
  autoflush : Bool
  notFoundMessage : Option String
  conflictMessage : UnitOfWork.ConflictException → Option String

namespace Model

variable [DecidableEq Value] (model : Model Value)

/-- `left < right` in a statement, which holds of no NULL. -/
def below (left right : Value) : Bool :=
  !model.isNull left && !model.isNull right && model.less left right

def sameKey (columns : List String) (left right : Row Value) : Bool :=
  columns.all fun column =>
    !model.isNull (left column) && decide (left column = right column)

def clash (left right : Row Value) : Bool :=
  decide (left "id" = right "id") || model.keys.any fun key => model.sameKey key left right

theorem sameKey_comm (columns : List String) (left right : Row Value) :
    model.sameKey columns left right = model.sameKey columns right left := by
  unfold sameKey
  congr 1
  funext column
  by_cases same : left column = right column
  · simp [same]
  · have other : ¬right column = left column := fun turned =>
      same turned.symm
    simp [same, other]

theorem clash_comm (left right : Row Value) :
    model.clash left right = model.clash right left := by
  simp only [clash, model.sameKey_comm _ left right, eq_comm]

def raiseNotFound : Error :=
  .notFound (model.notFoundMessage.getD (model.name ++ " not found"))

/-- The exception a method raises for an `IntegrityError`. -/
def raiseConflict (exception : UnitOfWork.ConflictException) : Error :=
  .conflict exception <| (model.conflictMessage exception).getD <| match exception with
    | .create => "Conflict creating " ++ model.name
    | .update => "Conflict updating " ++ model.name
    | .bulkCreate => "Conflict creating " ++ model.name ++ " batch"
    | .bulkUpdate => "Conflict updating " ++ model.name ++ " batch"

end Model

structure Instance (Value : Type) where
  /-- The primary key it was loaded under; none for a new instance. -/
  identity : Option Value
  attached : Bool
  loaded : Values Value
  assigned : Values Value
  /-- What an INSERT stores in the columns that were not assigned. -/
  defaults : Row Value

def assign (values : Values Value) (row : Row Value) : Row Value :=
  fun column => (values.lookup column).getD (row column)

namespace Instance

def id (model : Instance Value) : Option Value :=
  model.assigned.lookup "id" <|> model.loaded.lookup "id"

/-- The instance after a flush that stored `row`. -/
def persisted (model : Instance Value) (row : Row Value) : Instance Value :=
  { model with
    identity := some (row "id")
    loaded := ("id", row "id") :: (model.assigned ++ model.loaded)
    assigned := [] }

def ofRow (columns : List String) (row : Row Value) : Instance Value where
  identity := some (row "id")
  attached := true
  loaded := columns.map fun column => (column, row column)
  assigned := []
  defaults := row

end Instance

/-- A key of a filter dict, and what `build_filter_condition` makes of it and
its value. -/
structure Filter (Value : Type) where
  field : String
  condition : Except Error (Option (Query Value))

/-- `filters[field] = value`. -/
def Filter.put (filter : Filter Value) : List (Filter Value) → List (Filter Value)
  | [] => [filter]
  | other :: rest =>
    if other.field = filter.field then filter :: rest
    else other :: filter.put rest

/-- What `resolve` makes of a `where` clause. -/
abbrev WhereClause (Value : Type) := Except Error (Option (Query Value))

abbrev Cursor (Value : Type) := Except Error (Value × Value)

/-- `order_by`, which row comes before which, with `ascending`. -/
structure Order (Value : Type) where
  before : Row Value → Row Value → Bool
  ascending : Bool

structure Page (Value : Type) where
  items : List (Row Value)
  total : Nat
  page : Nat
  pageSize : Nat
  pages : Nat

structure CursorPage (Value : Type) where
  items : List (Row Value)
  nextCursor : Option (Value × Value)
  hasMore : Bool
  limit : Nat

/-- A value of an UPDATE: a constant, or an `F` expression. -/
inductive SetValue (Value : Type) where
  | constant (value : Value)
  | expression (of : Row Value → Value)

/-- A row mapping, and what the defaults store in the other columns. -/
structure NewRow (Value : Type) where
  given : Values Value
  defaults : Row Value

inductive OnConflict where
  | update
  | nothing
  | other (text : String)
  deriving DecidableEq

abbrev Method (Value α : Type) := Program (Row Value) Error α

def everything : Query Value := fun _ => true

def narrow (query condition : Query Value) : Query Value :=
  fun row => query row && condition row

def sorted (order : Option (Order Value)) (rows : List (Row Value)) : List (Row Value) :=
  match order with
  | none => rows
  | some order =>
    rows.mergeSort fun left right =>
      if order.ascending then order.before left right
      else order.before right left

structure Hooks (Value : Type) where
  applyFilters : Query Value → List (Filter Value) → Except Error (Query Value)
  prepareInsert : Instance Value → Instance Value
  prepareInsertRows : List (NewRow Value) → List (NewRow Value)
  upsertConflictWhere : Option (Query Value)
  /-- Checks one of the instances of the session, given what an
  `IntegrityError` is raised as. -/
  checkInstanceWrite : Error → List (Instance Value) → Nat →
    Method Value (List (Instance Value))

namespace BaseRepository

variable [DecidableEq Value] (model : Model Value) (self : Hooks Value)

def applyFilters (query : Query Value) (filters : List (Filter Value)) :
    Except Error (Query Value) :=
  filters.foldlM (fun query filter => do
    match ← filter.condition with
    | none => pure query
    | some condition => pure (narrow query condition)) query

def applyWhere (query : Query Value) : Option (WhereClause Value) → Except Error (Query Value)
  | none => .ok query
  | some clause =>
    match clause with
    | .error error => .error error
    | .ok none => .ok query
    | .ok (some condition) => .ok (narrow query condition)

/-- `if filters: query = self._apply_filters(query, filters)`. -/
def applyGiven (query : Query Value) : Option (List (Filter Value)) → Except Error (Query Value)
  | none => .ok query
  | some [] => .ok query
  | some (filter :: rest) => self.applyFilters query (filter :: rest)

def resolveOrderColumn (orderBy : String) : Except Error String :=
  if model.columns.contains orderBy &&
      (model.orderableColumns.all fun allowed => allowed.contains orderBy)
  then .ok orderBy
  else .error (.orderByNotAllowed orderBy)

def checkPageSize (pageSize : Nat) : Except Error Unit :=
  if model.maxPageSize.any fun ceiling => decide (ceiling < pageSize) then
    .error (.pageSizeTooLarge pageSize)
  else .ok ()

def columnOrder (column : String) (ascending : Bool) : Order Value where
  before := fun left right => !model.less (right column) (left column)
  ascending := ascending

def getOrNone (filters : List (Filter Value)) (clause : Option (WhereClause Value)) :
    Method Value (Option (Row Value)) := do
  let query ← .ofExcept (self.applyFilters everything filters)
  let query ← .ofExcept (applyWhere query clause)
  let rows ← .query (.select query)
  match rows with
  | [] => pure none
  | [row] => pure (some row)
  | _ => .raise .multipleResults

/-- `get`, over the `get_or_none` of the class. -/
def get (found : Method Value (Option (Row Value))) : Method Value (Row Value) := do
  match ← found with
  | none => .raise model.raiseNotFound
  | some row => pure row

/-- `exists`. -/
def rowExists (filters : List (Filter Value))
    (clause : Option (WhereClause Value)) : Method Value Bool := do
  let query ← .ofExcept (self.applyFilters everything filters)
  let query ← .ofExcept (applyWhere query clause)
  let rows ← .query (.select query)
  pure (rows.head?.isSome)

def list (filters : Option (List (Filter Value)))
    (order : Option (Order Value)) (clause : Option (WhereClause Value)) :
    Method Value (List (Row Value)) := do
  let query ← .ofExcept (applyGiven self everything filters)
  let query ← .ofExcept (applyWhere query clause)
  let rows ← .query (.select query)
  pure (sorted order rows)

def first (filters : Option (List (Filter Value)))
    (order : Option (Order Value)) (clause : Option (WhereClause Value)) :
    Method Value (Option (Row Value)) := do
  let query ← .ofExcept (applyGiven self everything filters)
  let query ← .ofExcept (applyWhere query clause)
  let rows ← .query (.select query)
  pure (sorted order rows).head?

def runSearch (condition : Option (Query Value)) (rank : Option (Order Value))
    (filters : Option (List (Filter Value)))
    (clause : Option (WhereClause Value)) (order : Option (Order Value))
    (limit : Option Nat) : Method Value (List (Row Value)) := do
  let query := (condition.map (narrow everything)).getD everything
  let query ← .ofExcept (applyGiven self query filters)
  let query ← .ofExcept (applyWhere query clause)
  let rows ← .query (.select query)
  let rows := sorted (rank <|> order) rows
  pure ((limit.map rows.take).getD rows)

def pageOrder (orderBy : Option String) (ascending : Bool) : Except Error (Order Value) :=
  match orderBy with
  | none => .ok (columnOrder model "created_at" false)
  | some orderBy =>
    (resolveOrderColumn model orderBy).map fun column =>
      columnOrder model column ascending

def paginate (filters : Option (List (Filter Value)))
    (orderBy : Option String) (page pageSize : Nat) (ascending : Bool)
    (clause : Option (WhereClause Value)) : Method Value (Page Value) := do
  .ofExcept (checkPageSize model pageSize)
  let query ← .ofExcept (applyGiven self everything filters)
  let query ← .ofExcept (applyWhere query clause)
  let order ← .ofExcept (pageOrder model orderBy ascending)
  let counted ← .query (.select query)
  let total := counted.length
  let rows ← .query (.select query)
  let offset := (page - 1) * pageSize
  let items := ((sorted (some order) rows).drop offset).take pageSize
  if pageSize = 0 then .raise .zeroDivision
  else pure ⟨items, total, page, pageSize, (total + pageSize - 1) / pageSize⟩

def afterCursor (column : String) (ascending : Bool) (last : Value × Value) : Query Value :=
  fun row =>
    if ascending then
      model.below last.1 (row column) ||
        decide (row column = last.1) && model.below last.2 (row "id")
    else
      model.below (row column) last.1 ||
        decide (row column = last.1) && model.below (row "id") last.2

def applyCursor (query : Query Value) (column : String) (ascending : Bool) :
    Option (Cursor Value) → Except Error (Query Value)
  | none => .ok query
  | some cursor =>
    cursor.bind fun last =>
      if model.isNull last.1 || model.isNull last.2 then .error .argument
      else .ok (narrow query (afterCursor model column ascending last))

theorem applyCursor_ok {query narrowed : Query Value} {column : String}
    {ascending : Bool} {last : Value × Value}
    (applied : applyCursor model query column ascending (some (.ok last)) = .ok narrowed) :
    (model.isNull last.1 = false ∧ model.isNull last.2 = false) ∧
      narrowed = narrow query (afterCursor model column ascending last) := by
  simp only [applyCursor, Except.bind] at applied
  split at applied
  · cases applied
  next given =>
      cases applied
      simp only [Bool.or_eq_true, not_or, Bool.not_eq_true] at given
      exact ⟨given, rfl⟩

def cursorOrder (column : String) (ascending : Bool) : Order Value where
  before := fun left right =>
    model.less (left column) (right column) || decide (left column = right column) &&
        !model.less (right "id") (left "id")
  ascending := ascending

/-- `cursor_paginate`, from the query the method starts with. -/
def cursorPaginate (start : Query Value) (filters : Option (List (Filter Value)))
    (cursor : Option (Cursor Value)) (limit : Nat) (orderBy : String)
    (ascending : Bool) : Method Value (CursorPage Value) := do
  .ofExcept (checkPageSize model limit)
  let column ← .ofExcept (resolveOrderColumn model orderBy)
  let query ← .ofExcept (applyGiven self start filters)
  let query ← .ofExcept (applyCursor model query column ascending cursor)
  let rows ← .query (.select query)
  let rows := (sorted (some (cursorOrder model column ascending)) rows).take (limit + 1)
  let hasMore := decide (limit < rows.length)
  let items := rows.take limit
  let nextCursor :=
    if hasMore then items.getLast?.map fun last => (last column, last "id")
    else none
  pure ⟨items, nextCursor, hasMore, limit⟩

def count (filters : Option (List (Filter Value)))
    (clause : Option (WhereClause Value)) : Method Value Nat := do
  let query ← .ofExcept (applyGiven self everything filters)
  let query ← .ofExcept (applyWhere query clause)
  let rows ← .query (.select query)
  pure rows.length

/-- `changes_since`, over the `cursor_paginate` of the class.  The second
value is the `server_time` of the page. -/
def changesSince (cursorPage : Query Value → List (Filter Value) →
      Method Value (CursorPage Value))
    (now : Int) (since : Option Value) (filters : Option (List (Filter Value)))
    (orderBy : String) (includeDeleted : Bool) (watermarkLag : Int) :
    Method Value (CursorPage Value × Int) := do
  if watermarkLag < 0 then
    .raise (.valueError "watermark_lag must not be negative")
  else
    let combined := match since with
      | none => filters.getD []
      | some since =>
        let field := orderBy ++ "__gt"
        let condition : Except Error (Option (Query Value)) :=
          if model.columns.contains orderBy then
            .ok (some fun row => model.below since (row orderBy))
          else .error (.unknownFilterKey field)
        Filter.put ⟨field, condition⟩ (filters.getD [])
    let start : Query Value :=
      if !includeDeleted && model.columns.contains "deleted_at" then
        fun row => model.isNull (row "deleted_at")
      else everything
    let page ← cursorPage start combined
    pure (page, now - watermarkLag)

/-- A flush of one instance of the session: an INSERT of a new one, an UPDATE
of the row it was loaded from when it has changes. -/
def flush (refused : Error) (instance_ : Instance Value) : Method Value (Instance Value) :=
  let stored : List (Row Value) → Method Value (Instance Value)
    | [row] => pure (instance_.persisted row)
    | _ => .raise .staleData
  if !instance_.attached then pure instance_
  else match instance_.identity, instance_.assigned with
    | none, assigned => .write refused (.insert (assign assigned instance_.defaults)) >>= stored
    | some _, [] => pure instance_
    | some identity, changes =>
      .write refused (.update (fun row => decide (row "id" = identity))
          (assign changes)) >>= stored

def refresh (instance_ : Instance Value) : Method Value (Row Value) :=
  match instance_.attached, instance_.identity with
  | true, some identity => do
      let rows ← .query (.select fun row => decide (row "id" = identity))
      match rows with
      | [row] => pure row
      | _ => .raise (.invalidRequest "Could not refresh instance")
  | _, _ => .raise (.invalidRequest "Instance is not persistent within this Session")

/-- `resolve` of an instance. -/
def resolveInstance (ref : Instance Value) : Method Value (Instance Value) :=
  match ref.attached, ref.identity with
  | false, some identity => do
      -- `session.merge`: the state of a detached instance goes onto the row
      let rows ← .query (.select fun row => decide (row "id" = identity))
      match rows with
      | [] =>
        pure { ref with
          identity := none
          attached := true
          loaded := []
          assigned := ref.assigned ++ ref.loaded }
      | row :: _ =>
        pure { Instance.ofRow model.columns row with
          assigned := ref.assigned ++ ref.loaded }
  | _, _ => pure ref

/-- `session.add` with the flush and the refresh after it: what `add`,
`save_with_outbox` and `add_audited` do to the table of the model. -/
def insert (instance_ : Instance Value) : Method Value (Row Value) := do
  let stored ← flush (model.raiseConflict .create)
    { self.prepareInsert instance_ with attached := true }
  refresh stored

def add := insert model self

def saveWithOutbox := insert model self

def addAudited := insert model self

def addAll (instances : List (Instance Value)) : Method Value (List (Row Value)) := do
  let prepared := instances.map self.prepareInsert
  let stored ← prepared.mapM fun instance_ =>
    flush (model.raiseConflict .bulkCreate) { instance_ with attached := true }
  stored.mapM refresh

/-- The checks and the flush of `update` and its siblings. -/
def writeInstances (refused : Error) (instances : List (Instance Value)) :
    Method Value (List (Instance Value)) := do
  let session ← (List.range instances.length).foldlM
    (fun session index => self.checkInstanceWrite refused session index)
    instances
  session.mapM (flush refused)

/-- `update`: the refreshed instance. -/
def update (instance_ : Instance Value) : Method Value (List (Row Value)) := do
  let session ← writeInstances self (model.raiseConflict .update) [instance_]
  session.mapM refresh

def updateAudited := update model self

def updateMany (instances : List (Instance Value)) : Method Value (List (Instance Value)) :=
  writeInstances self (model.raiseConflict .bulkUpdate) instances

/-- `session.delete` and its flush. -/
def deleteInstance (instance_ : Instance Value) : Method Value Unit :=
  match instance_.identity with
  | none => .raise (.invalidRequest "Instance is not persisted")
  | some identity => do
      let _ ← .query (.delete fun row => decide (row "id" = identity))
      pure ()

def deleteAudited (instance_ : Instance Value) : Method Value Unit := do
  let session ← self.checkInstanceWrite .integrity [instance_] 0
  let _ ← session.mapM deleteInstance
  pure ()

/-- `soft_delete` and `restore`, over the `get_by_id` and the `update` of the
class. -/
def setActive (active : Bool) (found : Method Value (Row Value))
    (write : Instance Value → Method Value (List (Row Value))) :
    Method Value (List (Row Value)) := do
  let row ← found
  write { Instance.ofRow model.columns row with
    assigned := [("is_active", model.boolean active)] }

def setValues (values : List (String × SetValue Value)) (row : Row Value) : Row Value :=
  fun column =>
    match values.lookup column with
    | none => row column
    | some (.constant value) => value
    | some (.expression of) => of row

/-- `_execute_update`: the updated rows. -/
def executeUpdate (filters : List (Filter Value)) (values : List (String × SetValue Value))
    (clause : Option (WhereClause Value)) :
    Method Value (List (Row Value)) := do
  let query ← .ofExcept (self.applyFilters everything filters)
  let query ← .ofExcept (applyWhere query clause)
  if values.all fun value => model.columns.contains value.1 then
    .write (model.raiseConflict .bulkUpdate) (.update query (setValues values))
  else .raise .unconsumedColumns

/-- `bulk_update`, over the `_execute_update` of the class. -/
def bulkUpdate (execute : List (Filter Value) → List (String × SetValue Value) →
      Option (WhereClause Value) → Method Value (List (Row Value)))
    (filters : List (Filter Value)) (values : List (String × SetValue Value)) :
    Method Value Nat := do
  if filters.isEmpty then
    .raise (.valueError ("bulk_update requires non-empty filters; " ++
        "pass an explicit truthy condition to update every row."))
  else
    let rows ← execute filters values none
    pure rows.length

/-- `update_returning`, over the `_execute_update` of the class. -/
def updateReturning (execute : List (Filter Value) → List (String × SetValue Value) →
      Option (WhereClause Value) → Method Value (List (Row Value)))
    (filters : List (Filter Value)) (values : List (String × SetValue Value))
    (returning : List String) (clause : Option (WhereClause Value)) :
    Method Value (List (Values Value)) := do
  if returning.isEmpty then
    .raise (.valueError "update_returning requires at least one column")
  else if filters.isEmpty && clause.isNone then
    .raise (.valueError ("update_returning requires non-empty filters or a where clause; " ++
        "pass an explicit truthy condition to update every row."))
  else
    match returning.find? fun name => !model.columns.contains name with
    | some name => .raise (.attributeError name)
    | none => do
        let rows ← execute filters values clause
        pure (rows.map fun row => returning.map fun name => (name, row name))

def compile (rows : List (NewRow Value)) : Except Error (List (Row Value)) :=
  if rows.all fun row => row.given.all fun value =>
      model.columns.contains value.1
  then .ok (rows.map fun row => assign row.given row.defaults)
  else .error .unconsumedColumns

def bulkCreateValues (rows : List (NewRow Value)) : Method Value Nat := do
  if rows.isEmpty then
    .raise (.valueError "bulk_create_values requires at least one row.")
  else
    let rows ← .ofExcept (compile model (self.prepareInsertRows rows))
    let inserted ← rows.mapM fun row =>
      .write (model.raiseConflict .bulkCreate) (.insert row)
    pure inserted.flatten.length

def isKey (columns : List String) : Bool :=
  (["id"] :: model.keys).any fun key =>
    key.all columns.contains && columns.all key.contains

def updateColumns (conflictColumns : List String)
    (columns : Option (List String)) : List String :=
  columns.getD <| model.columns.filter fun column =>
    !(conflictColumns.contains column || column == "id")

def conflictAction (conflictColumns : List String) (columns : Option (List String)) :
    OnConflict → Except Error (Option (List String))
  | .update => .ok (some (updateColumns model conflictColumns columns))
  | .nothing =>
    if columns.any fun columns => !columns.isEmpty then
      .error (.valueError ("bulk_upsert: update_columns has no effect with " ++
          "on_conflict='nothing'; drop it, or use on_conflict='update'."))
    else .ok none
  | .other text =>
    .error (.valueError
      ("bulk_upsert: on_conflict must be 'update' or 'nothing', got '" ++ text ++ "'."))

def offer (conflictColumns : List String) (rewrites : Option (List String))
    (row : Row Value) : Statement (Row Value) :=
  match rewrites with
  | none => .upsert row (model.sameKey conflictColumns row) (fun _ => false) id
  | some columns =>
    .upsert row (model.sameKey conflictColumns row) (self.upsertConflictWhere.getD everything)
      fun stored column =>
        if columns.contains column then row column else stored column

/-- `bulk_upsert`: the ids of the rows it wrote.  The rows are offered one
after another. -/
def bulkUpsert (rows : List (NewRow Value)) (conflictColumns : List String)
    (columns : Option (List String)) (onConflict : OnConflict) :
    Method Value (List Value) := do
  if rows.isEmpty then
    .raise (.valueError "bulk_upsert requires at least one row.")
  else
    let rewrites ← .ofExcept (conflictAction model conflictColumns columns onConflict)
    let prepared := self.prepareInsertRows rows
    if !(["postgresql", "sqlite"].contains model.dialect) then
      .raise (.notImplemented model.dialect)
    else if rewrites.any List.isEmpty then
      .raise (.valueError ("bulk_upsert: no column to update on conflict; use " ++
          "on_conflict='nothing' to keep existing rows."))
    else
      match rewrites.bind fun rewritten =>
          rewritten.find? fun name => !model.columns.contains name with
      | some name => .raise (.attributeError name)
      | none => do
          let rows ← .ofExcept (compile model prepared)
          if !isKey model conflictColumns then .raise .noConflictTarget
          else
            let written ← rows.mapM fun row =>
              .write (model.raiseConflict .bulkCreate)
                (offer model self conflictColumns rewrites row)
            pure (written.flatten.map fun row => row "id")

def deleteMany (filters : Option (List (Filter Value)))
    (clause : Option (WhereClause Value)) : Method Value Nat := do
  let query ← .ofExcept (applyGiven self everything filters)
  let query ← .ofExcept (applyWhere query clause)
  let rows ← .query (.delete query)
  pure rows.length

end BaseRepository

/-- A `TenantScopedRepository`: a repository bound to one tenant, of a model
that has the tenant column.  The column is NOT NULL. -/
structure Scope (Value : Type) extends Model Value where
  tenantField : String
  tenantId : Value
  mapped : tenantField ∈ columns

namespace TenantScopedRepository

variable [DecidableEq Value] (scope : Scope Value)

/-- `tenant_column == tenant_id`. -/
def ofTenant : Query Value :=
  fun row => decide (row scope.tenantField = scope.tenantId)

def withTenant (filters : Option (List (Filter Value))) : List (Filter Value) :=
  let merged := filters.getD []
  if merged.any fun filter => filter.field == scope.tenantField then merged
  else merged ++ [⟨scope.tenantField, .ok (some (ofTenant scope))⟩]

def applyFilters (query : Query Value) (filters : List (Filter Value)) :
    Except Error (Query Value) := do
  let scopedQuery ← BaseRepository.applyFilters query (withTenant scope (some filters))
  pure (narrow scopedQuery (ofTenant scope))

def prepareInsert (instance_ : Instance Value) : Instance Value :=
  { instance_ with
    assigned := (scope.tenantField, scope.tenantId) :: instance_.assigned }

def prepareInsertRows (rows : List (NewRow Value)) : List (NewRow Value) :=
  rows.map fun row =>
    { row with given := (scope.tenantField, scope.tenantId) :: row.given }

/-- What `_check_instance_write` makes of the stored tenant and of one that
was assigned. -/
def verdict (stored added : Option Value) : Except Error Unit :=
  if stored.any fun value => decide (value ≠ scope.tenantId) then
    .error scope.raiseNotFound
  else if added.any fun value => decide (value ≠ scope.tenantId) then
    .error (.valueError (scope.name ++ "." ++ scope.tenantField ++ " cannot be moved to " ++
        "another tenant through a TenantScopedRepository."))
  else .ok ()

def autoflushed (refused : Error) (session : List (Instance Value)) :
    Method Value (List (Instance Value)) :=
  if scope.autoflush then session.mapM (BaseRepository.flush refused)
  else pure session

def checkInstanceWrite (refused : Error) (session : List (Instance Value))
    (index : Nat) : Method Value (List (Instance Value)) := do
  match session[index]? with
  | none => pure session
  | some instance_ => do
      let added := instance_.assigned.lookup scope.tenantField
      match instance_.loaded.lookup scope.tenantField, instance_.id with
      | some stored, _ => do
          .ofExcept (verdict scope (some stored) added)
          pure session
      | none, none => do
          .ofExcept (verdict scope none added)
          pure session
      | none, some id => do
          let session ← autoflushed scope refused session
          let rows ← .query (.select fun row => decide (row "id" = id))
          let stored := rows.head?.map fun row => row scope.tenantField
          .ofExcept (verdict scope stored added)
          pure session

def hooks : Hooks Value where
  applyFilters := applyFilters scope
  prepareInsert := prepareInsert scope
  prepareInsertRows := prepareInsertRows scope
  upsertConflictWhere := some (ofTenant scope)
  checkInstanceWrite := checkInstanceWrite scope

def executeUpdate (filters : List (Filter Value)) (values : List (String × SetValue Value))
    (clause : Option (WhereClause Value)) :
    Method Value (List (Row Value)) :=
  let write := BaseRepository.executeUpdate scope.toModel (hooks scope) filters values clause
  let moves : Bool :=
    match values.lookup scope.tenantField with
    | none => false
    | some (.constant value) => decide (value ≠ scope.tenantId)
    | some (.expression _) => true
  if moves then
    .raise (.valueError (scope.name ++ "." ++ scope.tenantField ++ " cannot be set " ++
        "to another tenant through a TenantScopedRepository."))
  else write

def getOrNone (filters : List (Filter Value)) (clause : Option (WhereClause Value)) :
    Method Value (Option (Row Value)) :=
  BaseRepository.getOrNone (hooks scope) (withTenant scope (some filters)) clause

def get (filters : List (Filter Value))
    (clause : Option (WhereClause Value)) : Method Value (Row Value) :=
  BaseRepository.get scope.toModel (getOrNone scope (withTenant scope (some filters)) clause)

/-- The filter `{"id": id}`. -/
def idFilter (id : Value) : Filter Value :=
  ⟨"id", .ok (some fun row => decide (row "id" = id))⟩

def getById (id : Value) : Method Value (Row Value) :=
  get scope [idFilter id] none

/-- `exists`. -/
def rowExists (filters : List (Filter Value))
    (clause : Option (WhereClause Value)) : Method Value Bool :=
  BaseRepository.rowExists (hooks scope) (withTenant scope (some filters)) clause

def existsExcluding (filters : List (Filter Value))
    (excludeId : Option Value) : Method Value Bool :=
  let effective := match excludeId with
    | none => filters
    | some id => Filter.put ⟨"id__ne", .ok (some fun row => decide (row "id" ≠ id))⟩ filters
  rowExists scope effective none

def first (filters : Option (List (Filter Value)))
    (order : Option (Order Value)) (clause : Option (WhereClause Value)) :
    Method Value (Option (Row Value)) :=
  BaseRepository.first (hooks scope) (some (withTenant scope filters)) order clause

def list (filters : Option (List (Filter Value)))
    (order : Option (Order Value)) (clause : Option (WhereClause Value)) :
    Method Value (List (Row Value)) :=
  BaseRepository.list (hooks scope) (some (withTenant scope filters)) order clause

/-- `search`, and `full_text_search` with the rank its term gives a row. -/
def search (condition : WhereClause Value) (rank : Option (Order Value))
    (filters : Option (List (Filter Value)))
    (clause : Option (WhereClause Value)) (order : Option (Order Value))
    (limit : Option Nat) : Method Value (List (Row Value)) := do
  let condition ← .ofExcept condition
  BaseRepository.runSearch (hooks scope) condition rank
    (some (withTenant scope filters)) clause order limit

/-- `paginate`, of its default query. -/
def paginate (filters : Option (List (Filter Value)))
    (orderBy : Option String) (page pageSize : Nat) (ascending : Bool)
    (clause : Option (WhereClause Value)) : Method Value (Page Value) :=
  BaseRepository.paginate scope.toModel (hooks scope)
    (some (withTenant scope filters)) orderBy page pageSize ascending clause

def cursorPaginate (start : Query Value) (filters : Option (List (Filter Value)))
    (cursor : Option (Cursor Value)) (limit : Nat) (orderBy : String)
    (ascending : Bool) : Method Value (CursorPage Value) :=
  BaseRepository.cursorPaginate scope.toModel (hooks scope) start
    (some (withTenant scope filters)) cursor limit orderBy ascending

def changesSince (now : Int) (since : Option Value)
    (filters : Option (List (Filter Value))) (cursor : Option (Cursor Value))
    (limit : Nat) (orderBy : String) (includeDeleted : Bool)
    (watermarkLag : Int) : Method Value (CursorPage Value × Int) :=
  BaseRepository.changesSince scope.toModel (fun start combined =>
      cursorPaginate scope start (some combined) cursor limit orderBy true)
    now since filters orderBy includeDeleted watermarkLag

def count (filters : Option (List (Filter Value)))
    (clause : Option (WhereClause Value)) : Method Value Nat :=
  BaseRepository.count (hooks scope) (some (withTenant scope filters)) clause

def deleteMany (filters : List (Filter Value))
    (clause : Option (WhereClause Value)) : Method Value Nat :=
  BaseRepository.deleteMany (hooks scope) (some (withTenant scope (some filters))) clause

def delete (id : Value) : Method Value Unit := do
  let rows ← .query (.delete (narrow (fun row => decide (row "id" = id)) (ofTenant scope)))
  if rows.isEmpty then .raise scope.raiseNotFound else pure ()

def deleteBatch (ids : List Value) : Method Value Nat := do
  let rows ← .query (.delete (narrow (fun row => decide (row "id" ∈ ids)) (ofTenant scope)))
  pure rows.length

def update (instance_ : Instance Value) : Method Value (List (Row Value)) :=
  BaseRepository.update scope.toModel (hooks scope) instance_

/-- `soft_delete` and `restore`. -/
def setActive (active : Bool) (id : Value) : Method Value (List (Row Value)) :=
  BaseRepository.setActive scope.toModel active (getById scope id) (update scope)

end TenantScopedRepository

/-- A call of a public method, with its default query. -/
inductive Action (Value : Type) where
  | get (filters : List (Filter Value)) (clause : Option (WhereClause Value))
  | getOrNone (filters : List (Filter Value))
      (clause : Option (WhereClause Value))
  | getById (id : Value)
  | rowExists (filters : List (Filter Value))
      (clause : Option (WhereClause Value))
  | existsExcluding (filters : List (Filter Value)) (excludeId : Option Value)
  | first (filters : Option (List (Filter Value)))
      (order : Option (Order Value)) (clause : Option (WhereClause Value))
  | list (filters : Option (List (Filter Value)))
      (order : Option (Order Value)) (clause : Option (WhereClause Value))
  | search (condition : WhereClause Value) (rank : Option (Order Value))
      (filters : Option (List (Filter Value)))
      (clause : Option (WhereClause Value)) (order : Option (Order Value))
      (limit : Option Nat)
  | paginate (filters : Option (List (Filter Value)))
      (orderBy : Option String) (page pageSize : Nat) (ascending : Bool)
      (clause : Option (WhereClause Value))
  | cursorPaginate (filters : Option (List (Filter Value)))
      (cursor : Option (Cursor Value)) (limit : Nat) (orderBy : String)
      (ascending : Bool)
  | changesSince (now : Int) (since : Option Value)
      (filters : Option (List (Filter Value)))
      (cursor : Option (Cursor Value)) (limit : Nat) (orderBy : String)
      (includeDeleted : Bool) (watermarkLag : Int)
  | count (filters : Option (List (Filter Value)))
      (clause : Option (WhereClause Value))
  | resolve (ref : Value ⊕ Instance Value)
  | add (instance_ : Instance Value)
  | addAll (instances : List (Instance Value))
  | saveWithOutbox (instance_ : Instance Value)
  | addAudited (instance_ : Instance Value)
  | update (instance_ : Instance Value)
  | updateMany (instances : List (Instance Value))
  | updateAudited (instance_ : Instance Value)
  | deleteAudited (instance_ : Instance Value)
  | softDelete (id : Value)
  | restore (id : Value)
  | bulkUpdate (filters : List (Filter Value))
      (values : List (String × SetValue Value))
  | updateReturning (filters : List (Filter Value))
      (values : List (String × SetValue Value)) (returning : List String)
      (clause : Option (WhereClause Value))
  | bulkCreateValues (rows : List (NewRow Value))
  | bulkUpsert (rows : List (NewRow Value)) (conflictColumns : List String)
      (columns : Option (List String)) (onConflict : OnConflict)
      (returningIds : Bool)
  | delete (id : Value)
  | deleteMany (filters : List (Filter Value))
      (clause : Option (WhereClause Value))
  | deleteBatch (ids : List Value)

def Action.instances : Action Value → List (Instance Value)
  | .resolve (.inr ref) => [ref]
  | .add instance_ => [instance_]
  | .addAll instances => instances
  | .saveWithOutbox instance_ => [instance_]
  | .addAudited instance_ => [instance_]
  | .update instance_ => [instance_]
  | .updateMany instances => instances
  | .updateAudited instance_ => [instance_]
  | .deleteAudited instance_ => [instance_]
  | _ => []

inductive Result (Value : Type) where
  | nothing
  | row (row : Row Value)
  | optional (row : Option (Row Value))
  | rows (rows : List (Row Value))
  | flag (value : Bool)
  | number (value : Nat)
  | page (page : Page Value)
  | cursorPage (page : CursorPage Value)
  | changes (page : CursorPage Value) (serverTime : Int)
  | columns (rows : List (Values Value))
  | ids (ids : List Value)
  | instances (instances : List (Instance Value))

namespace Scope

variable [DecidableEq Value] (scope : Scope Value)

def schema : Schema (Row Value) Value where
  owner := fun row => row scope.tenantField
  clash := scope.toModel.clash
  clash_comm := scope.toModel.clash_comm

open TenantScopedRepository in
def perform : Action Value → Method Value (Result Value)
  | .get filters clause => .row <$> get scope filters clause
  | .getOrNone filters clause => .optional <$> getOrNone scope filters clause
  | .getById id => .row <$> getById scope id
  | .rowExists filters clause => .flag <$> rowExists scope filters clause
  | .existsExcluding filters excludeId => .flag <$> existsExcluding scope filters excludeId
  | .first filters order clause => .optional <$> first scope filters order clause
  | .list filters order clause => .rows <$> list scope filters order clause
  | .search condition rank filters clause order limit =>
    .rows <$> search scope condition rank filters clause order limit
  | .paginate filters orderBy page pageSize ascending clause =>
    .page <$> paginate scope filters orderBy page pageSize ascending clause
  | .cursorPaginate filters cursor limit orderBy ascending =>
    .cursorPage <$> cursorPaginate scope everything filters cursor limit orderBy ascending
  | .changesSince now since filters cursor limit orderBy includeDeleted lag =>
    (fun page => .changes page.1 page.2) <$>
      changesSince scope now since filters cursor limit orderBy includeDeleted lag
  | .count filters clause => .number <$> count scope filters clause
  | .resolve (.inl id) => .row <$> getById scope id
  | .resolve (.inr ref) =>
    (fun resolved => .instances [resolved]) <$> BaseRepository.resolveInstance scope.toModel ref
  | .add instance_ => .row <$> BaseRepository.add scope.toModel (hooks scope) instance_
  | .addAll instances => .rows <$> BaseRepository.addAll scope.toModel (hooks scope) instances
  | .saveWithOutbox instance_ =>
    .row <$> BaseRepository.saveWithOutbox scope.toModel (hooks scope) instance_
  | .addAudited instance_ =>
    .row <$> BaseRepository.addAudited scope.toModel (hooks scope) instance_
  | .update instance_ => .rows <$> update scope instance_
  | .updateMany instances =>
    .instances <$> BaseRepository.updateMany scope.toModel (hooks scope) instances
  | .updateAudited instance_ =>
    .rows <$> BaseRepository.updateAudited scope.toModel (hooks scope) instance_
  | .deleteAudited instance_ =>
    (fun _ => .nothing) <$> BaseRepository.deleteAudited (hooks scope) instance_
  | .softDelete id => .rows <$> setActive scope false id
  | .restore id => .rows <$> setActive scope true id
  | .bulkUpdate filters values =>
    .number <$> BaseRepository.bulkUpdate (executeUpdate scope) filters values
  | .updateReturning filters values returning clause =>
    .columns <$> BaseRepository.updateReturning scope.toModel (executeUpdate scope)
        filters values returning clause
  | .bulkCreateValues rows =>
    .number <$> BaseRepository.bulkCreateValues scope.toModel (hooks scope) rows
  | .bulkUpsert rows conflictColumns columns onConflict returningIds =>
    (fun ids => if returningIds then .ids ids else .number ids.length) <$>
      BaseRepository.bulkUpsert scope.toModel (hooks scope) rows
        conflictColumns columns onConflict
  | .delete id => (fun _ => .nothing) <$> delete scope id
  | .deleteMany filters clause => .number <$> deleteMany scope filters clause
  | .deleteBatch ids => .number <$> deleteBatch scope ids

end Scope

/-- The table, every row it ever held, and what the calls so far returned or
raised. -/
structure State (Value : Type) where
  rows : List (Row Value)
  past : List (Row Value)
  results : List (Except Error (Result Value))

/-- Each loaded attribute was read from the row the instance was loaded under,
at one time or another. -/
def Instance.Loads (past : List (Row Value)) (instance_ : Instance Value) : Prop :=
  match instance_.identity with
  | none => instance_.loaded = []
  | some id =>
    instance_.loaded.lookup "id" = some id ∧
      (∃ row ∈ past, row "id" = id) ∧
      ∀ value ∈ instance_.loaded, ∃ row ∈ past, row "id" = id ∧ row value.1 = value.2

instance [DecidableEq Value] (past : List (Row Value))
    (instance_ : Instance Value) : Decidable (instance_.Loads past) := by
  unfold Instance.Loads
  split <;> infer_instance

def State.initial (rows : List (Row Value)) : State Value where
  rows := rows
  past := rows
  results := []

def Scope.step [DecidableEq Value] (scope : Scope Value)
    (state : State Value) (action : Action Value) : Option (State Value) :=
  if ∀ instance_ ∈ action.instances, instance_.Loads state.past then
    match (scope.perform action).run scope.schema state.rows with
    | .ok (result, rows) => some ⟨rows, state.past ++ rows, state.results ++ [.ok result]⟩
    | .error error => some { state with results := state.results ++ [.error error] }
  else none

end Tenancy

end TempestSdk
