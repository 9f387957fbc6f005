import TempestSdk.Db.TenantIsolation

/-!
# Runs of a tenant-scoped repository

The calls of one repository, one after another, with instances that were
loaded at any time from any row.  The rows of the other tenants stay as they
are and are never returned, and the results are those of a table in which
only the rows of the bound tenant are the same.
-/

namespace TempestSdk

namespace Tenancy

open OwnedRows TenantScopedRepository

variable {Value : Type} [DecidableEq Value] {scope : Scope Value}
  {foreign : List (Row Value)}

def Shows (scope : Scope Value) (foreign : List (Row Value)) : Result Value → Prop
  | .nothing => True
  | .row row => Own scope foreign row
  | .optional found => ∀ row ∈ found, Own scope foreign row
  | .rows rows => ∀ row ∈ rows, Own scope foreign row
  | .flag _ => True
  | .number _ => True
  | .page page => ∀ row ∈ page.items, Own scope foreign row
  | .cursorPage page => OwnCursorPage scope foreign page
  | .changes page _ => OwnCursorPage scope foreign page
  | .columns rows => ∀ columns ∈ rows, OwnColumns scope foreign columns
  | .ids ids => ∀ id ∈ ids, ∃ row, Own scope foreign row ∧ row "id" = id
  | .instances instances => ∀ instance_ ∈ instances, Clear foreign instance_

def Ours (scope : Scope Value) (instance_ : Instance Value) : Prop :=
  instance_.identity = none ∨
    instance_.loaded.lookup scope.tenantField = some scope.tenantId

/-- The instance was loaded, and with it its tenant column, unless neither
that nor its primary key was assigned. -/
def Settled (scope : Scope Value) (instance_ : Instance Value) : Prop :=
  instance_.identity ≠ none ∧
    ((instance_.loaded.lookup scope.tenantField).isSome ∨
      instance_.assigned.lookup scope.tenantField = none ∧
        instance_.assigned.lookup "id" = none)

/-- The instances of a call are such that its check can tell whose they
are. -/
def Proper (scope : Scope Value) : Action Value → Prop
  | .resolve (.inr ref) => Ours scope ref
  | .add instance_ => Ours scope instance_
  | .addAll instances => ∀ instance_ ∈ instances, Ours scope instance_
  | .saveWithOutbox instance_ => Ours scope instance_
  | .addAudited instance_ => Ours scope instance_
  | .update instance_ => Settled scope instance_
  | .updateMany instances =>
    ∀ instance_ ∈ instances, instance_.identity ≠ none ∧
      (instance_.loaded.lookup scope.tenantField).isSome
  | .updateAudited instance_ => Settled scope instance_
  | .deleteAudited instance_ => Settled scope instance_
  | _ => True

structure Valid (scope : Scope Value) (state : State Value) : Prop where
  distinct : scope.schema.Distinct state.rows
  stored : ∀ row ∈ state.past, row scope.tenantField ≠ scope.tenantId → row ∈ state.rows
  /-- A primary key the bound tenant had is never another's. -/
  apart : ∀ row ∈ state.past, row scope.tenantField = scope.tenantId →
    ∀ other ∈ scope.schema.others scope.tenantId state.rows, other "id" ≠ row "id"

theorem strangers_others (rows : List (Row Value)) :
    Strangers scope (scope.schema.others scope.tenantId rows) :=
  fun _ member => (Schema.mem_others.mp member).2

omit [DecidableEq Value] in
theorem mem_of_lookup {values : Values Value} {column : String} {value : Value}
    (found : values.lookup column = some value) :
    (column, value) ∈ values := by
  obtain ⟨before, after, rfl, _⟩ := List.lookup_eq_some_iff.mp found
  simp

variable {state : State Value} {instance_ : Instance Value}

theorem clear_of_loaded (valid : Valid scope state) (loads : instance_.Loads state.past)
    (owned : instance_.loaded.lookup scope.tenantField = some scope.tenantId) :
    Clear (scope.schema.others scope.tenantId state.rows) instance_ := by
  intro id identity other member
  simp only [Instance.Loads, identity] at loads
  obtain ⟨row, seen, key, tenant⟩ := loads.2.2 _ (mem_of_lookup owned)
  rw [← key]
  exact valid.apart row seen tenant other member

theorem clear_of_ours (valid : Valid scope state)
    (loads : instance_.Loads state.past) (ours : Ours scope instance_) :
    Clear (scope.schema.others scope.tenantId state.rows) instance_ := by
  rcases ours with new | owned
  · intro id identity
    rw [new] at identity
    cases identity
  · exact clear_of_loaded valid loads owned

/-- The call is given an instance of another tenant whose tenant column was
not loaded. -/
def Refused (scope : Scope Value) (rows : List (Row Value)) (action : Action Value) : Prop :=
  ∃ instance_ id, (action = .update instance_ ∨ action = .updateAudited instance_ ∨
      action = .deleteAudited instance_) ∧
      Unread scope instance_ id ∧ HeldByOther scope rows id

theorem heldByOther_of_past {row : Row Value} (valid : Valid scope state)
    (past : row ∈ state.past) (other : row scope.tenantField ≠ scope.tenantId) :
    HeldByOther scope state.rows (row "id") := by
  refine ⟨⟨row, valid.stored row past other, rfl⟩, ?_⟩
  intro stored member same own
  have foreign_row : row ∈ scope.schema.others scope.tenantId state.rows :=
    Schema.mem_others.mpr ⟨valid.stored row past other, other⟩
  have private_row := valid.distinct.private member own
  exact Own.id_ne private_row row foreign_row same.symm

theorem sound_of_settled (valid : Valid scope state)
    (loads : instance_.Loads state.past) (settled : Settled scope instance_) :
    Sound scope (scope.schema.others scope.tenantId state.rows) instance_ ∨
      ∃ id, Unread scope instance_ id ∧ HeldByOther scope state.rows id := by
  obtain ⟨identity, known⟩ := settled
  cases loaded : instance_.loaded.lookup scope.tenantField with
  | some stored =>
    refine .inl (.inl ⟨by simp [loaded], identity, ?_⟩)
    intro accepted
    exact clear_of_loaded valid loads accepted.1
  | none =>
    obtain ⟨id, key⟩ := Option.ne_none_iff_exists'.mp identity
    rcases known with read | ⟨unassigned, kept⟩
    · simp [loaded] at read
    · have seen := loads
      simp only [Instance.Loads, key] at seen
      obtain ⟨primary, ⟨row, past, same⟩, _⟩ := seen
      have unread : Unread scope instance_ id :=
        ⟨key, primary, kept, loaded, unassigned⟩
      by_cases own : row scope.tenantField = scope.tenantId
      · refine .inl (.inr ⟨id, unread, ?_⟩)
        intro found found_key other member
        rw [key] at found_key
        cases found_key
        rw [← same]
        exact valid.apart row past own other member
      · have held := heldByOther_of_past valid past own
        rw [same] at held
        exact .inr ⟨id, unread, held⟩

variable {action : Action Value}

theorem perform_keeps (valid : Valid scope state)
    (loads : ∀ instance_ ∈ action.instances, instance_.Loads state.past)
    (proper : Proper scope action) (passes : ¬Refused scope state.rows action) :
    Keeps scope (scope.schema.others scope.tenantId state.rows)
      (Shows scope (scope.schema.others scope.tenantId state.rows))
      (scope.perform action) := by
  have strangers : Strangers scope (scope.schema.others scope.tenantId state.rows) :=
    strangers_others state.rows
  have sound : ∀ instance_, instance_.Loads state.past → Settled scope instance_ →
      (action = .update instance_ ∨ action = .updateAudited instance_ ∨
        action = .deleteAudited instance_) →
      Sound scope (scope.schema.others scope.tenantId state.rows) instance_ := by
    intro instance_ loaded settled given
    rcases sound_of_settled valid loaded settled with found | ⟨id, unread, held⟩
    · exact found
    · exact absurd ⟨instance_, id, given, unread, held⟩ passes
  cases action with
  | get filters clause => exact (get_keeps strangers _ _).map fun _ own => own
  | getOrNone filters clause => exact (getOrNone_keeps strangers _ _).map fun _ own => own
  | getById id => exact (getById_keeps strangers _).map fun _ own => own
  | rowExists filters clause => exact (rowExists_keeps strangers _ _).map fun _ _ => trivial
  | existsExcluding filters excludeId =>
    exact (rowExists_keeps strangers _ _).map fun _ _ => trivial
  | first filters order clause => exact (first_keeps strangers _ _ _).map fun _ own => own
  | list filters order clause => exact (list_keeps strangers _ _ _).map fun _ own => own
  | search condition rank filters clause order limit =>
    exact (search_keeps strangers _ _ _ _ _ _).map fun _ own => own
  | paginate filters orderBy page pageSize ascending clause =>
    exact (paginate_keeps strangers _ _ _ _ _ _).map fun _ own => own
  | cursorPaginate filters cursor limit orderBy ascending =>
    exact (cursorPaginate_keeps strangers _ _ _ _ _ _).map fun _ own => own
  | changesSince now since filters cursor limit orderBy includeDeleted lag =>
    exact (changesSince_keeps strangers _ _ _ _ _ _ _ _).map fun _ own => own
  | count filters clause => exact (count_keeps strangers _ _).map fun _ _ => trivial
  | resolve ref =>
    cases ref with
    | inl id => exact (getById_keeps strangers _).map fun _ own => own
    | inr ref =>
      have clear := clear_of_ours valid (loads ref (by simp [Action.instances]))
        proper
      apply (resolveInstance_keeps clear).map
      intro resolved resolved_clear instance_ member
      have same : instance_ = resolved := by simpa using member
      subst same
      exact resolved_clear
  | add instance_ =>
    have clear := clear_of_ours valid (loads instance_ (by simp [Action.instances])) proper
    exact (insert_keeps clear).map fun _ own => own
  | addAll instances =>
    have clear : ∀ instance_ ∈ instances,
        Clear (scope.schema.others scope.tenantId state.rows) instance_ :=
      fun instance_ member =>
        clear_of_ours valid (loads instance_ member) (proper instance_ member)
    exact (addAll_keeps clear).map fun _ own => own
  | saveWithOutbox instance_ =>
    have clear := clear_of_ours valid (loads instance_ (by simp [Action.instances])) proper
    exact (insert_keeps clear).map fun _ own => own
  | addAudited instance_ =>
    have clear := clear_of_ours valid (loads instance_ (by simp [Action.instances])) proper
    exact (insert_keeps clear).map fun _ own => own
  | update instance_ =>
    have checked := sound instance_
      (loads instance_ (by simp [Action.instances])) proper (.inl rfl)
    exact (update_keeps checked).map fun _ own => own
  | updateMany instances =>
    have written : Keeps scope (scope.schema.others scope.tenantId state.rows)
        (fun written => ∀ stored ∈ written,
          Clear (scope.schema.others scope.tenantId state.rows) stored ∧ Stays scope stored)
        (BaseRepository.updateMany scope.toModel (hooks scope) instances) :=
      writeInstances_keeps (fun instance_ member => (proper instance_ member).2)
        (fun instance_ member => (proper instance_ member).1)
        (fun instance_ member accepted =>
          clear_of_loaded valid (loads instance_ member) accepted.1)
    exact written.map fun _ kept instance_ member => (kept instance_ member).1
  | updateAudited instance_ =>
    have checked := sound instance_
      (loads instance_ (by simp [Action.instances])) proper (.inr (.inl rfl))
    exact (update_keeps checked).map fun _ own => own
  | deleteAudited instance_ =>
    have checked := sound instance_
      (loads instance_ (by simp [Action.instances])) proper (.inr (.inr rfl))
    exact (deleteAudited_keeps checked).map fun _ _ => trivial
  | softDelete id => exact (setActive_keeps strangers _ _).map fun _ own => own
  | restore id => exact (setActive_keeps strangers _ _).map fun _ own => own
  | bulkUpdate filters values => exact (bulkUpdate_keeps strangers _ _).map fun _ _ => trivial
  | updateReturning filters values returning clause =>
    exact (updateReturning_keeps strangers _ _ _ _).map fun _ own => own
  | bulkCreateValues rows => exact (bulkCreateValues_keeps _).map fun _ _ => trivial
  | bulkUpsert rows conflictColumns columns onConflict returningIds =>
    apply (bulkUpsert_keeps strangers _ _ _ _).map
    intro ids own
    cases returningIds with
    | true => exact own
    | false => trivial
  | delete id => exact (delete_keeps strangers _).map fun _ _ => trivial
  | deleteMany filters clause => exact (deleteMany_keeps strangers _ _).map fun _ _ => trivial
  | deleteBatch ids => exact (deleteBatch_keeps strangers _).map fun _ _ => trivial

variable {rows : List (Row Value)}

theorem refused_bind {α : Type} {refused : Error} {id : Value}
    {rest : List (Instance Value) → Method Value α}
    (unread : Unread scope instance_ id) (held : HeldByOther scope rows id)
    (distinct : scope.schema.Distinct rows) :
    ∃ error, (checkInstanceWrite scope refused [instance_] 0 >>= rest).run
          scope.schema rows = .error error ∧
        ((checkInstanceWrite scope refused [instance_] 0 >>= rest).Along
            scope.schema (Statement.Free scope.schema scope.tenantId) rows →
          error = scope.raiseNotFound) := by
  obtain ⟨error, raised, known⟩ :=
    check_refuses refused unread held distinct
  refine ⟨error, ?_, ?_⟩
  · rw [Program.run_bind, raised]
    rfl
  · intro along
    exact known (Program.along_front along)

theorem perform_refused (refused : Refused scope rows action)
    (distinct : scope.schema.Distinct rows) :
    ∃ error, (scope.perform action).run scope.schema rows = .error error ∧
        ((scope.perform action).Along scope.schema
            (Statement.Free scope.schema scope.tenantId) rows →
          error = scope.raiseNotFound) := by
  obtain ⟨instance_, id, given, unread, held⟩ := refused
  have updates : ∃ error, (Result.rows <$> update scope instance_).run scope.schema rows =
          .error error ∧
        ((Result.rows <$> update scope instance_).Along scope.schema
            (Statement.Free scope.schema scope.tenantId) rows →
          error = scope.raiseNotFound) := by
    unfold update BaseRepository.update
    rw [writeInstances_one, ← bind_pure_comp]
    simp only [bind_assoc]
    exact refused_bind unread held distinct
  rcases given with rfl | rfl | rfl
  · exact updates
  · exact updates
  · simp only [Scope.perform, ← bind_pure_comp, BaseRepository.deleteAudited, bind_assoc]
    exact refused_bind unread held distinct

theorem step_cases {state next : State Value} (taken : scope.step state action = some next) :
    (∀ instance_ ∈ action.instances, instance_.Loads state.past) ∧
      ((∃ result rows, (scope.perform action).run scope.schema state.rows = .ok (result, rows) ∧
            next = ⟨rows, state.past ++ rows, state.results ++ [.ok result]⟩) ∨
        ∃ error, (scope.perform action).run scope.schema state.rows = .error error ∧
            next = { state with
              results := state.results ++ [.error error] }) := by
  unfold Scope.step at taken
  split at taken
  · rename_i loads
    refine ⟨loads, ?_⟩
    cases outcome : (scope.perform action).run scope.schema state.rows with
    | ok done =>
      rw [outcome] at taken
      exact .inl ⟨done.1, done.2, rfl, (Option.some.inj taken).symm⟩
    | error error =>
      rw [outcome] at taken
      exact .inr ⟨error, rfl, (Option.some.inj taken).symm⟩
  · cases taken

theorem Valid.after {results : List (Except Error (Result Value))}
    (valid : Valid scope state) (distinct : scope.schema.Distinct rows)
    (same : scope.schema.others scope.tenantId rows =
      scope.schema.others scope.tenantId state.rows) :
    Valid scope ⟨rows, state.past ++ rows, results⟩ := by
  refine ⟨distinct, ?_, ?_⟩
  · intro row member other
    rcases List.mem_append.mp member with past | now
    · have stored : row ∈ scope.schema.others scope.tenantId rows := by
        rw [same]
        exact Schema.mem_others.mpr ⟨valid.stored row past other, other⟩
      exact (Schema.mem_others.mp stored).1
    · exact now
  · intro row member own
    rcases List.mem_append.mp member with past | now
    · rw [same]
      exact valid.apart row past own
    · exact Own.id_ne (distinct.private now own)

theorem step_keeps {state next : State Value} (valid : Valid scope state)
    (proper : Proper scope action)
    (taken : scope.step state action = some next) :
    Valid scope next ∧ scope.schema.others scope.tenantId next.rows =
        scope.schema.others scope.tenantId state.rows ∧
      ∀ result, .ok result ∈ next.results → .ok result ∈ state.results ∨
          Shows scope (scope.schema.others scope.tenantId state.rows) result := by
  obtain ⟨loads, returned | raised⟩ := step_cases taken
  · obtain ⟨result, rows, outcome, rfl⟩ := returned
    have passes : ¬Refused scope state.rows action := by
      intro refused
      obtain ⟨error, raised, _⟩ := perform_refused refused valid.distinct
      rw [outcome] at raised
      cases raised
    obtain ⟨distinct, same, shown⟩ := Program.run_keeps valid.distinct
      (perform_keeps valid loads proper passes) outcome
    refine ⟨valid.after distinct same, same, ?_⟩
    intro other member
    rcases List.mem_append.mp member with before | added
    · exact .inl before
    · have found : other = result := by simpa using added
      subst found
      exact .inr shown
  · obtain ⟨error, _, rfl⟩ := raised
    refine ⟨⟨valid.distinct, valid.stored, valid.apart⟩, rfl, ?_⟩
    intro result member
    exact .inl (by simpa using member)

/-- No statement of the call writes a key that a row of another tenant
holds. -/
def Clashless (scope : Scope Value) (state : State Value) (action : Action Value) : Prop :=
  (scope.perform action).Along scope.schema
    (Statement.Free scope.schema scope.tenantId) state.rows

/-- The bound tenant cannot tell the states apart. -/
structure Alike (scope : Scope Value) (first second : State Value) :
    Prop where
  rows : scope.schema.owned scope.tenantId first.rows =
    scope.schema.owned scope.tenantId second.rows
  past : scope.schema.owned scope.tenantId first.past =
    scope.schema.owned scope.tenantId second.past
  results : first.results = second.results

theorem Alike.symm {first second : State Value}
    (alike : Alike scope first second) : Alike scope second first :=
  ⟨alike.rows.symm, alike.past.symm, alike.results.symm⟩

theorem Refused.alike {first second : State Value} (refused : Refused scope first.rows action)
    (alike : Alike scope first second) (first_valid : Valid scope first)
    (second_valid : Valid scope second)
    (loads : ∀ instance_ ∈ action.instances, instance_.Loads second.past) :
    Refused scope second.rows action := by
  obtain ⟨instance_, id, given, unread, held⟩ := refused
  refine ⟨instance_, id, given, unread, ?_⟩
  have present : instance_ ∈ action.instances := by
    rcases given with rfl | rfl | rfl <;> simp [Action.instances]
  have loaded := loads instance_ present
  simp only [Instance.Loads, unread.identity] at loaded
  obtain ⟨_, ⟨row, past, rfl⟩, _⟩ := loaded
  apply heldByOther_of_past second_valid past
  intro own
  -- the key was the bound tenant's in both states, so it is no other's
  have owned : row ∈ scope.schema.owned scope.tenantId first.past := by
    rw [alike.past]
    exact Schema.mem_owned.mpr ⟨past, own⟩
  obtain ⟨other, stored, same⟩ := held.1
  have foreign_row : other ∈ scope.schema.others scope.tenantId first.rows :=
    Schema.mem_others.mpr ⟨stored, held.2 other stored same⟩
  exact first_valid.apart row (Schema.mem_owned.mp owned).1 own other foreign_row same

theorem seen_alike {first second : State Value}
    (alike : Alike scope first second) (first_valid : Valid scope first)
    (second_valid : Valid scope second)
    (first_loads : ∀ instance_ ∈ action.instances, instance_.Loads first.past)
    (second_loads : ∀ instance_ ∈ action.instances, instance_.Loads second.past)
    (proper : Proper scope action) (first_free : Clashless scope first action)
    (second_free : Clashless scope second action) :
    Program.seen scope.schema scope.tenantId
        ((scope.perform action).run scope.schema first.rows) =
      Program.seen scope.schema scope.tenantId
        ((scope.perform action).run scope.schema second.rows) := by
  by_cases refused : Refused scope first.rows action
  · have other := refused.alike alike first_valid second_valid second_loads
    obtain ⟨_, first_raised, first_known⟩ :=
      perform_refused refused first_valid.distinct
    obtain ⟨_, second_raised, second_known⟩ :=
      perform_refused other second_valid.distinct
    rw [first_raised, second_raised, first_known first_free, second_known second_free]
  · have other : ¬Refused scope second.rows action := fun held =>
      refused (held.alike alike.symm second_valid first_valid first_loads)
    rw [Program.run_owned first_valid.distinct
        (perform_keeps first_valid first_loads proper refused) first_free,
      Program.run_owned second_valid.distinct
        (perform_keeps second_valid second_loads proper other) second_free,
      alike.rows]

theorem step_alike {first second next other : State Value}
    (alike : Alike scope first second) (first_valid : Valid scope first)
    (second_valid : Valid scope second) (proper : Proper scope action)
    (first_free : Clashless scope first action)
    (second_free : Clashless scope second action)
    (taken : scope.step first action = some next)
    (other_taken : scope.step second action = some other) :
    Alike scope next other := by
  obtain ⟨first_loads, first_outcome⟩ := step_cases taken
  obtain ⟨second_loads, second_outcome⟩ := step_cases other_taken
  have seen := seen_alike alike first_valid second_valid first_loads
    second_loads proper first_free second_free
  rcases first_outcome with ⟨result, rows, outcome, rfl⟩ | ⟨error, outcome, rfl⟩
  · rcases second_outcome with
      ⟨answer, contents, returned, rfl⟩ | ⟨error, raised, rfl⟩
    · rw [outcome, returned] at seen
      simp only [Program.seen, Except.map, Except.ok.injEq, Prod.mk.injEq] at seen
      obtain ⟨rfl, same⟩ := seen
      refine ⟨same, ?_, by rw [alike.results]⟩
      rw [Schema.owned_append, Schema.owned_append, alike.past, same]
    · rw [outcome, raised] at seen
      cases seen
  · rcases second_outcome with
      ⟨answer, contents, returned, rfl⟩ | ⟨raised, outcome', rfl⟩
    · rw [outcome, returned] at seen
      cases seen
    · rw [outcome, outcome'] at seen
      cases seen
      exact ⟨alike.rows, alike.past, by rw [alike.results]⟩

theorem valid_initial (distinct : scope.schema.Distinct rows) :
    Valid scope (State.initial rows) := by
  refine ⟨distinct, ?_, ?_⟩
  · intro row member _
    exact member
  · intro row member own
    exact Own.id_ne (distinct.private member own)

/-- What a run has kept of the state it started from. -/
structure Isolated (scope : Scope Value) (start : List (Row Value))
    (state : State Value) : Prop where
  valid : Valid scope state
  others : scope.schema.others scope.tenantId state.rows =
    scope.schema.others scope.tenantId start
  shown : ∀ result, .ok result ∈ state.results →
    Shows scope (scope.schema.others scope.tenantId start) result

theorem step_isolated {start : List (Row Value)} (state : State Value)
    (action : Action Value) (next : State Value)
    (isolated : Isolated scope start state) (proper : Proper scope action)
    (taken : scope.step state action = some next) :
    Isolated scope start next := by
  obtain ⟨valid, left, added⟩ := step_keeps isolated.valid proper taken
  rw [isolated.others] at left added
  refine ⟨valid, left, ?_⟩
  intro result member
  rcases added result member with before | new
  · exact isolated.shown result before
  · exact new

/-- Two valid states the bound tenant cannot tell apart. -/
structure Twins (scope : Scope Value) (first second : State Value) :
    Prop where
  first_valid : Valid scope first
  second_valid : Valid scope second
  alike : Alike scope first second

theorem step_twins (first second : State Value) (action : Action Value)
    (next other : State Value) (twins : Twins scope first second)
    (met : Proper scope action ∧ Clashless scope first action)
    (other_met : Proper scope action ∧ Clashless scope second action)
    (taken : scope.step first action = some next)
    (other_taken : scope.step second action = some other) :
    Twins scope next other :=
  ⟨(step_keeps twins.first_valid met.1 taken).1,
    (step_keeps twins.second_valid met.1 other_taken).1,
    step_alike twins.alike twins.first_valid twins.second_valid met.1 met.2
      other_met.2 taken other_taken⟩

/-- The rows of other tenants stay exactly as they are, no result shows one of
them, and, as long as no call writes a key that one of them holds, the results
are the same whatever rows the other tenants have. -/
theorem tenant_isolated {start : List (Row Value)} {final : State Value}
    {schedule : List (Action Value)}
    (distinct : scope.schema.Distinct start)
    (proper : ∀ action ∈ schedule, Proper scope action)
    (run : Runs.exec scope.step (State.initial start) schedule = some final) :
    scope.schema.others scope.tenantId final.rows = scope.schema.others scope.tenantId start ∧
      (∀ result, .ok result ∈ final.results →
        Shows scope (scope.schema.others scope.tenantId start) result) ∧
      ∀ (other : List (Row Value)) (last : State Value), scope.schema.Distinct other →
        scope.schema.owned scope.tenantId other = scope.schema.owned scope.tenantId start →
        Runs.exec scope.step (State.initial other) schedule = some last →
        Runs.Meets scope.step (Clashless scope) (State.initial start) schedule →
        Runs.Meets scope.step (Clashless scope) (State.initial other) schedule →
        last.results = final.results := by
  have initial : Isolated scope start (State.initial start) :=
    ⟨valid_initial distinct, rfl, fun _ member => by cases member⟩
  have isolated : Isolated scope start final :=
    Runs.exec_invariant_of_meets step_isolated (Runs.Meets.of_forall proper) initial run
  refine ⟨isolated.others, isolated.shown, ?_⟩
  intro other last other_distinct owned other_run free other_free
  have twins : Twins scope (State.initial other) (State.initial start) :=
    ⟨valid_initial other_distinct, valid_initial distinct, owned, owned, rfl⟩
  have related : Twins scope last final :=
    Runs.exec_lockstep step_twins ((Runs.Meets.of_forall proper).and other_free)
      ((Runs.Meets.of_forall proper).and free) twins other_run run
  exact related.alike.results

section Samples

/-- Orders with a unique code, in the repository of the tenant 10. -/
def orders : Scope Nat where
  name := "OrderModel"
  columns := ["id", "tenant_id", "code", "is_active"]
  keys := [["code"]]
  isNull := fun value => value == 0
  less := fun left right => decide (left < right)
  boolean := fun value => if value then 1 else 2
  orderableColumns := none
  maxPageSize := none
  dialect := "sqlite"
  autoflush := true
  notFoundMessage := none
  conflictMessage := fun _ => none
  tenantField := "tenant_id"
  tenantId := 10
  mapped := by simp

def order (id tenant code : Nat) : Row Nat :=
  assign [("id", id), ("tenant_id", tenant), ("code", code)] fun _ => 1

def orderInstance (id : Nat) (attached : Bool)
    (loaded assigned : Values Nat) : Instance Nat where
  identity := some id
  attached := attached
  loaded := ("id", id) :: loaded
  assigned := assigned
  defaults := fun _ => 1

def orderTenants (schedule : List (Action Nat)) : Option (List (Nat × Nat)) :=
  (Runs.exec orders.step (State.initial [order 1 10 100, order 2 20 200])
    schedule).map fun state =>
      state.rows.map fun row => (row "id", row "tenant_id")

/-- One run for each of the conditions: an `add` and two updates move a row of
another tenant, a `delete_audited` deletes it, `resolve` returns it, and its
key decides whether an insert is refused. -/
theorem rows_of_others_reached :
    orderTenants [.add (orderInstance 2 true [("tenant_id", 20)] [])] =
        some [(1, 10), (2, 10)] ∧
      orderTenants [.update (orderInstance 2 true [] [("tenant_id", 10)])] =
        some [(1, 10), (2, 10)] ∧
      orderTenants [.updateMany [orderInstance 1 true [] [],
            orderInstance 2 true [("tenant_id", 20)] [("tenant_id", 10)]]] =
        some [(1, 10), (2, 10)] ∧
      orderTenants [.deleteAudited (orderInstance 2 false [] [("id", 9)])] = some [(1, 10)] ∧
      ((Runs.exec orders.step (State.initial [order 1 10 100, order 2 20 200])
          [.resolve (.inr (orderInstance 2 true [("tenant_id", 20)] []))]).map
            fun state => state.results) =
        some [.ok (.instances [orderInstance 2 true [("tenant_id", 20)] []])] ∧
      ((Runs.exec orders.step (State.initial [order 1 10 100, order 2 20 200])
          [.bulkCreateValues [⟨[], order 2 10 300⟩]]).map fun state => state.results) =
        some [.error (orders.raiseConflict .bulkCreate)] ∧
      ((Runs.exec orders.step (State.initial [order 1 10 100])
          [.bulkCreateValues [⟨[], order 2 10 300⟩]]).map fun state => state.results) =
        some [.ok (.number 1)] := by
  refine ⟨by decide, by decide, by decide, by decide, rfl, rfl, rfl⟩

instance (state : State Nat) (action : Action Nat) :
    Decidable (Clashless orders state action) :=
  inferInstanceAs (Decidable ((orders.perform action).Along orders.schema
    (Statement.Free orders.schema orders.tenantId) state.rows))

/-- Reads, an insert, an upsert of an own row, and changes of another tenant's
order, one of them loaded without its tenant column. -/
def orderCalls : List (Action Nat) :=
  [.count none none, .add { orderInstance 0 true [] [("code", 300)] with
      identity := none, loaded := [], defaults := order 3 0 0 },
    .update (orderInstance 2 true [("tenant_id", 20)] [("is_active", 2)]),
    .update (orderInstance 2 true [] [("is_active", 2)]),
    .bulkUpsert [⟨[("is_active", 2)], order 1 20 100⟩] ["id"] none .update true,
    .list none none none]

theorem tenant_isolated_orders : ∃ final last,
      Runs.exec orders.step (State.initial [order 1 10 100, order 2 20 200])
          orderCalls = some final ∧
        Runs.exec orders.step (State.initial [order 1 10 100, order 2 20 400, order 7 30 500])
            orderCalls = some last ∧
        final.rows.map (fun row => (row "id", row "tenant_id")) = [(1, 10), (2, 20), (3, 10)] ∧
        orders.schema.others 10 final.rows =
          orders.schema.others 10 [order 1 10 100, order 2 20 200] ∧
        last.results = final.results := by
  have proper : ∀ action ∈ orderCalls, Proper orders action := by
    intro action member
    simp only [orderCalls, List.mem_cons, List.not_mem_nil, or_false] at member
    rcases member with rfl | rfl | rfl | rfl | rfl | rfl
    · trivial
    · exact .inl rfl
    · exact ⟨by decide, .inl (by decide)⟩
    · exact ⟨by decide, .inr ⟨by decide, by decide⟩⟩
    · trivial
    · trivial
  obtain ⟨final, run, stored⟩ : ∃ final,
      Runs.exec orders.step (State.initial [order 1 10 100, order 2 20 200])
          orderCalls = some final ∧
        final.rows.map (fun row => (row "id", row "tenant_id")) =
          [(1, 10), (2, 20), (3, 10)] := ⟨_, rfl, by decide⟩
  obtain ⟨last, other_run⟩ : ∃ last, Runs.exec orders.step
          (State.initial [order 1 10 100, order 2 20 400, order 7 30 500])
          orderCalls = some last := ⟨_, rfl⟩
  have isolated := tenant_isolated (by decide) proper run
  refine ⟨final, last, run, other_run, stored, isolated.1, ?_⟩
  exact isolated.2.2 [order 1 10 100, order 2 20 400, order 7 30 500] last
    (by decide) rfl other_run (by decide) (by decide)

end Samples

end Tenancy

end TempestSdk
