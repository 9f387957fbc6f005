import Mathlib.Data.List.Perm.Basic
import Mathlib.Data.List.Pairwise

/-!
# Tables whose rows have owners

Rows of several owners live in one table, and no two rows of it may share a
key.  A program sends statements to the table one after another.  `Scoped`
says of a program that its statements choose and write rows of one owner only.
Such a program leaves the rows of the others as they are, and, as long as it
writes no key that one of them holds, it runs as if its owner had the table
alone.
-/

namespace OwnedRows

structure Schema (Row Owner : Type) where
  owner : Row → Owner
  clash : Row → Row → Bool
  clash_comm : ∀ left right, clash left right = clash right left

inductive Statement (Row : Type) where
  | select (chosen : Row → Bool)
  | insert (row : Row)
  | update (chosen : Row → Bool) (set : Row → Row)
  | delete (chosen : Row → Bool)
  /-- An insert that instead updates the chosen ones of the stored rows it
  conflicts with, when there are such rows. -/
  | upsert (row : Row) (conflicts chosen : Row → Bool) (set : Row → Row)

variable {Row Owner Error α β : Type}

namespace Schema

variable [DecidableEq Owner] (schema : Schema Row Owner) (holder : Owner)

def owns (row : Row) : Bool := decide (schema.owner row = holder)

@[grind =] def owned (rows : List Row) : List Row := rows.filter (schema.owns holder)

def others (rows : List Row) : List Row :=
  rows.filter fun row => !schema.owns holder row

def Distinct (rows : List Row) : Prop :=
  rows.Pairwise fun left right => schema.clash left right = false

instance (rows : List Row) : Decidable (schema.Distinct rows) :=
  inferInstanceAs (Decidable (rows.Pairwise fun left right =>
      schema.clash left right = false))

def Private (foreign : List Row) (row : Row) : Prop :=
  schema.owner row = holder ∧ ∀ other ∈ foreign, schema.clash row other = false

variable {schema holder}

@[simp] theorem owns_iff {row : Row} :
    schema.owns holder row = true ↔ schema.owner row = holder := by
  simp [owns]

variable {rows : List Row}

theorem mem_owned {row : Row} : row ∈ schema.owned holder rows ↔
      row ∈ rows ∧ schema.owner row = holder := by
  simp [owned]

theorem mem_others {row : Row} : row ∈ schema.others holder rows ↔
      row ∈ rows ∧ schema.owner row ≠ holder := by
  simp [others, owns]

@[simp] theorem owned_owned (rows : List Row) :
    schema.owned holder (schema.owned holder rows) = schema.owned holder rows := by
  simp [owned]

theorem owned_append (first second : List Row) : schema.owned holder (first ++ second) =
      schema.owned holder first ++ schema.owned holder second := by
  simp [owned]

theorem others_append (first second : List Row) : schema.others holder (first ++ second) =
      schema.others holder first ++ schema.others holder second := by
  simp [others]

theorem owned_single {row : Row} (own : schema.owner row = holder) :
    schema.owned holder [row] = [row] := by
  simp [owned, own]

theorem others_single {row : Row} (own : schema.owner row = holder) :
    schema.others holder [row] = [] := by
  simp [others, own]

theorem distinct_iff (holder : Owner) : schema.Distinct rows ↔
      schema.Distinct (schema.owned holder rows) ∧ schema.Distinct (schema.others holder rows) ∧
        ∀ row ∈ schema.owned holder rows, ∀ other ∈ schema.others holder rows,
            schema.clash row other = false := by
  have parted : (schema.owned holder rows ++ schema.others holder rows).Perm rows :=
    List.filter_append_perm _ rows
  have symmetric : Std.Symm fun left right : Row =>
      schema.clash left right = false := by
    constructor
    intro left right apart
    rw [schema.clash_comm]
    exact apart
  unfold Distinct
  rw [← parted.pairwise_iff (fun apart => symmetric.symm _ _ apart)]
  exact List.pairwise_append

theorem Distinct.private (distinct : schema.Distinct rows) {row : Row}
    (member : row ∈ rows) (own : schema.owner row = holder) :
    schema.Private holder (schema.others holder rows) row := by
  refine ⟨own, ?_⟩
  exact ((distinct_iff holder).mp distinct).2.2 row ((mem_owned).mpr ⟨member, own⟩)

theorem parts_map {change : Row → Row}
    (kept : ∀ row ∈ schema.others holder rows, change row = row)
    (stays : ∀ row ∈ schema.owned holder rows, schema.owner (change row) = holder) :
    schema.owned holder (rows.map change) = (schema.owned holder rows).map change ∧
      schema.others holder (rows.map change) = schema.others holder rows := by
  induction rows with
  | nil => exact ⟨rfl, rfl⟩
  | cons row rest induction =>
    have later := induction (fun other member => kept other
        ((mem_others).mpr ⟨List.mem_cons_of_mem _ ((mem_others).mp member).1,
          ((mem_others).mp member).2⟩))
      (fun other member => stays other
        ((mem_owned).mpr ⟨List.mem_cons_of_mem _ ((mem_owned).mp member).1,
          ((mem_owned).mp member).2⟩))
    by_cases own : schema.owner row = holder
    · have changed := stays row ((mem_owned).mpr ⟨by simp, own⟩)
      have owns : schema.owns holder row = true := (owns_iff).mpr own
      have changed_owns : schema.owns holder (change row) = true :=
        (owns_iff).mpr changed
      simpa [owned, others, owns, changed_owns] using later
    · have same := kept row ((mem_others).mpr ⟨by simp, own⟩)
      have owns : schema.owns holder row = false := by simp [Schema.owns, own]
      simpa [owned, others, owns, same] using later

end Schema

namespace Statement

variable (schema : Schema Row Owner) (holder : Owner)

def store (answer updated : List Row) : Option (List Row × List Row) :=
  if schema.Distinct updated then some (answer, updated) else none

def insertInto (row : Row) (rows : List Row) : Option (List Row × List Row) :=
  store schema [row] (rows ++ [row])

def updateIn (chosen : Row → Bool) (set : Row → Row) (rows : List Row) :
    Option (List Row × List Row) :=
  store schema ((rows.filter chosen).map set)
    (rows.map fun row => if chosen row then set row else row)

/-- What a statement answers and what it leaves in the table: the rows it
selected or deleted, or those it wrote.  Nothing when the table refuses it. -/
@[grind =] def perform : Statement Row → List Row → Option (List Row × List Row)
  | .select chosen, rows => some (rows.filter chosen, rows)
  | .insert row, rows => insertInto schema row rows
  | .update chosen set, rows => updateIn schema chosen set rows
  | .delete chosen, rows => some (rows.filter chosen, rows.filter fun row => !chosen row)
  | .upsert row conflicts chosen set, rows =>
    if rows.any conflicts then
      updateIn schema (fun stored => conflicts stored && chosen stored) set rows
    else insertInto schema row rows

/-- The statement chooses no row of the others, and what it writes is the
holder's.  A row an upsert conflicts with clashes with the row it offers. -/
def Scoped (foreign : List Row) : Statement Row → Prop
  | .select chosen => ∀ other ∈ foreign, chosen other = false
  | .insert row => schema.owner row = holder
  | .update chosen set =>
    (∀ other ∈ foreign, chosen other = false) ∧
      ∀ row, schema.owner row = holder → chosen row = true → schema.owner (set row) = holder
  | .delete chosen => ∀ other ∈ foreign, chosen other = false
  | .upsert row conflicts chosen set =>
    schema.owner row = holder ∧ (∀ stored, conflicts stored = true →
        schema.clash row stored = true) ∧
      (∀ other ∈ foreign, chosen other = false) ∧
      ∀ stored, schema.owner stored = holder → chosen stored = true →
        schema.owner (set stored) = holder

@[grind =] def writes : Statement Row → List Row → List Row
  | .select _, _ => []
  | .insert row, _ => [row]
  | .update chosen set, rows => (rows.filter chosen).map set
  | .delete _, _ => []
  | .upsert row conflicts chosen set, rows =>
    row :: (rows.filter fun stored => conflicts stored && chosen stored).map set

def replaces : Statement Row → Row → Bool
  | .update chosen _, stored => chosen stored
  | .upsert _ conflicts chosen _, stored => conflicts stored && chosen stored
  | _, _ => false

/-- What the statement writes shares no key with a row that stays, unless both
are the holder's. -/
def Free (statement : Statement Row) (rows : List Row) : Prop :=
  ∀ row ∈ statement.writes rows, ∀ stored ∈ rows, statement.replaces stored = false →
      schema.owner row ≠ holder ∨ schema.owner stored ≠ holder → schema.clash row stored = false

instance [DecidableEq Owner] (statement : Statement Row) (rows : List Row) :
    Decidable (statement.Free schema holder rows) :=
  inferInstanceAs (Decidable (∀ row ∈ statement.writes rows,
    ∀ stored ∈ rows, statement.replaces stored = false →
      schema.owner row ≠ holder ∨ schema.owner stored ≠ holder →
        schema.clash row stored = false))

variable {schema holder}
variable {done : List Row × List Row}

theorem store_eq_some {answer updated : List Row}
    (stored : store schema answer updated = some done) :
    schema.Distinct updated ∧ done = (answer, updated) := by
  unfold store at stored
  split at stored
  · rename_i distinct
    exact ⟨distinct, (Option.some.inj stored).symm⟩
  · cases stored

variable [DecidableEq Owner]
variable {rows : List Row}

theorem insertInto_keeps {row : Row} (own : schema.owner row = holder)
    (inserted : insertInto schema row rows = some done) :
    schema.Distinct done.2 ∧ schema.others holder done.2 = schema.others holder rows ∧
      ∀ answered ∈ done.1, schema.Private holder (schema.others holder rows) answered := by
  obtain ⟨distinct, rfl⟩ := store_eq_some inserted
  have same : schema.others holder (rows ++ [row]) = schema.others holder rows := by
    rw [Schema.others_append, Schema.others_single own, List.append_nil]
  refine ⟨distinct, same, ?_⟩
  intro answered member
  have found : answered = row := by simpa using member
  subst found
  rw [← same]
  exact distinct.private (by simp) own

variable {chosen : Row → Bool} {set : Row → Row}

theorem updateIn_parts (spared : ∀ other ∈ schema.others holder rows, chosen other = false)
    (stays : ∀ row, schema.owner row = holder → chosen row = true →
      schema.owner (set row) = holder) :
    schema.owned holder (rows.map fun row => if chosen row then set row else row) =
        (schema.owned holder rows).map (fun row => if chosen row then set row else row) ∧
      schema.others holder (rows.map fun row => if chosen row then set row else row) =
        schema.others holder rows := by
  apply Schema.parts_map
  · intro row foreign
    simp [spared row foreign]
  · intro row member
    have own := (Schema.mem_owned.mp member).2
    by_cases taken : chosen row = true
    · simpa [taken] using stays row own taken
    · simpa [taken] using own

theorem filter_owned (spared : ∀ other ∈ schema.others holder rows, chosen other = false) :
    (schema.owned holder rows).filter chosen = rows.filter chosen := by
  simp only [Schema.owned, List.filter_filter]
  apply List.filter_congr
  intro row member
  by_cases own : schema.owner row = holder
  · simp [Schema.owns, own]
  · simp [spared row (Schema.mem_others.mpr ⟨member, own⟩)]

theorem owner_of_chosen {row : Row}
    (spared : ∀ other ∈ schema.others holder rows, chosen other = false)
    (member : row ∈ rows) (taken : chosen row = true) :
    schema.owner row = holder := by
  by_contra foreign
  have left := spared row (Schema.mem_others.mpr ⟨member, foreign⟩)
  rw [left] at taken
  cases taken

theorem updateIn_keeps (spared : ∀ other ∈ schema.others holder rows, chosen other = false)
    (stays : ∀ row, schema.owner row = holder → chosen row = true →
      schema.owner (set row) = holder)
    (updated : updateIn schema chosen set rows = some done) :
    schema.Distinct done.2 ∧ schema.others holder done.2 = schema.others holder rows ∧
      ∀ answered ∈ done.1, schema.Private holder (schema.others holder rows) answered := by
  obtain ⟨distinct, rfl⟩ := store_eq_some updated
  have same := (updateIn_parts spared stays).2
  refine ⟨distinct, same, ?_⟩
  intro answered member
  obtain ⟨row, found, rfl⟩ := List.mem_map.mp member
  obtain ⟨present, taken⟩ := List.mem_filter.mp found
  have own := owner_of_chosen spared present taken
  rw [← same]
  apply distinct.private
  · exact List.mem_map.mpr ⟨row, present, by simp [taken]⟩
  · exact stays row own taken

theorem perform_keeps {statement : Statement Row} (distinct : schema.Distinct rows)
    (inside : statement.Scoped schema holder (schema.others holder rows))
    (performed : statement.perform schema rows = some done) :
    schema.Distinct done.2 ∧ schema.others holder done.2 = schema.others holder rows ∧
      ∀ answered ∈ done.1, schema.Private holder (schema.others holder rows) answered := by
  cases statement with
  | select chosen =>
    cases performed
    refine ⟨distinct, rfl, ?_⟩
    intro answered member
    obtain ⟨present, taken⟩ := List.mem_filter.mp member
    exact distinct.private present (owner_of_chosen inside present taken)
  | insert row => exact insertInto_keeps inside performed
  | update chosen set => exact updateIn_keeps inside.1 inside.2 performed
  | delete chosen =>
    cases performed
    refine ⟨?_, ?_, ?_⟩
    · exact List.Pairwise.filter _ distinct
    · simp only [Schema.others, List.filter_filter]
      apply List.filter_congr
      intro row member
      by_cases own : schema.owner row = holder
      · simp [Schema.owns, own]
      · simp [inside row (Schema.mem_others.mpr ⟨member, own⟩)]
    · intro answered member
      obtain ⟨present, taken⟩ := List.mem_filter.mp member
      exact distinct.private present (owner_of_chosen inside present taken)
  | upsert row conflicts chosen set =>
    obtain ⟨own, _keyed, spared, stays⟩ := inside
    simp only [perform] at performed
    split at performed
    · apply updateIn_keeps _ _ performed
      · intro other foreign
        simp [spared other foreign]
      · intro stored stored_own both
        simp only [Bool.and_eq_true] at both
        exact stays stored stored_own both.2
    · exact insertInto_keeps own performed

def seen (schema : Schema Row Owner) (holder : Owner)
    (done : List Row × List Row) : List Row × List Row :=
  (done.1, schema.owned holder done.2)

theorem store_owned {answer updated : List Row}
    (apart : schema.Distinct (schema.others holder updated))
    (free : ∀ row ∈ schema.owned holder updated,
      ∀ other ∈ schema.others holder updated, schema.clash row other = false) :
    (store schema answer updated).map (seen schema holder) =
      store schema answer (schema.owned holder updated) := by
  have same : schema.Distinct updated ↔ schema.Distinct (schema.owned holder updated) := by
    rw [Schema.distinct_iff holder]
    exact ⟨fun distinct => distinct.1, fun distinct => ⟨distinct, apart, free⟩⟩
  unfold store
  by_cases distinct : schema.Distinct updated
  · simp [distinct, same.mp distinct, seen]
  · have refused : ¬schema.Distinct (schema.owned holder updated) :=
      fun accepted => distinct (same.mpr accepted)
    simp [distinct, refused]

theorem insertInto_owned {row : Row} (distinct : schema.Distinct rows)
    (own : schema.owner row = holder)
    (free : ∀ other ∈ schema.others holder rows, schema.clash row other = false) :
    (insertInto schema row rows).map (seen schema holder) =
      insertInto schema row (schema.owned holder rows) := by
  have parted := (Schema.distinct_iff holder).mp distinct
  have kept : schema.owned holder (rows ++ [row]) = schema.owned holder rows ++ [row] := by
    rw [Schema.owned_append, Schema.owned_single own]
  have same : schema.others holder (rows ++ [row]) = schema.others holder rows := by
    rw [Schema.others_append, Schema.others_single own, List.append_nil]
  unfold insertInto
  rw [← kept]
  apply store_owned
  · rw [same]
    exact parted.2.1
  · rw [same, kept]
    intro stored member
    rcases List.mem_append.mp member with before | added
    · exact parted.2.2 stored before
    · have found : stored = row := by simpa using added
      subst found
      exact free

theorem updateIn_owned (distinct : schema.Distinct rows)
    (spared : ∀ other ∈ schema.others holder rows, chosen other = false)
    (stays : ∀ row, schema.owner row = holder → chosen row = true →
      schema.owner (set row) = holder)
    (free : ∀ row ∈ ((schema.owned holder rows).filter chosen).map set,
      ∀ other ∈ schema.others holder rows, schema.clash row other = false) :
    (updateIn schema chosen set rows).map (seen schema holder) =
      updateIn schema chosen set (schema.owned holder rows) := by
  have parted := (Schema.distinct_iff holder).mp distinct
  have parts := updateIn_parts spared stays
  unfold updateIn
  rw [filter_owned spared, ← parts.1]
  apply store_owned
  · rw [parts.2]
    exact parted.2.1
  · rw [parts.2, parts.1]
    intro stored member
    obtain ⟨row, present, rfl⟩ := List.mem_map.mp member
    by_cases taken : chosen row = true
    · have written : set row ∈ ((schema.owned holder rows).filter chosen).map set :=
        List.mem_map.mpr ⟨row, List.mem_filter.mpr ⟨present, taken⟩, rfl⟩
      simpa [taken] using free (set row) written
    · simpa [taken] using parted.2.2 row present

theorem Free.apart {statement : Statement Row}
    (free : statement.Free schema holder rows) {row other : Row}
    (written : row ∈ statement.writes rows)
    (foreign : other ∈ schema.others holder rows)
    (stays : statement.replaces other = false) :
    schema.clash row other = false :=
  free row written other (Schema.mem_others.mp foreign).1 stays
    (.inr (Schema.mem_others.mp foreign).2)

omit [DecidableEq Owner] in
theorem update_accepted (distinct : schema.Distinct rows)
    (single : ∀ left ∈ rows, ∀ right ∈ rows, chosen left = true →
      chosen right = true → schema.clash left right = true)
    (foreign : ∀ row ∈ rows, chosen row = true → schema.owner (set row) ≠ holder)
    (free : (Statement.update chosen set).Free schema holder rows) :
    (Statement.update chosen set).perform schema rows = some ((rows.filter chosen).map set,
        rows.map fun row => if chosen row then set row else row) := by
  have apart : ∀ row ∈ rows, ∀ stored ∈ rows, chosen row = true →
      chosen stored = false → schema.clash (set row) stored = false := by
    intro row member stored present taken left
    apply free (set row) _ stored present left (.inl (foreign row member taken))
    exact List.mem_map.mpr ⟨row, List.mem_filter.mpr ⟨member, taken⟩, rfl⟩
  have updated : schema.Distinct (rows.map fun row => if chosen row then set row else row) := by
    apply List.pairwise_map.mpr
    apply List.Pairwise.imp_of_mem _ distinct
    intro left right left_member right_member differs
    by_cases first : chosen left = true
    · by_cases second : chosen right = true
      · rw [single left left_member right right_member first second] at differs
        cases differs
      · simpa [first, second] using
          apart left left_member right right_member first (by simpa using second)
    · by_cases second : chosen right = true
      · rw [schema.clash_comm]
        simpa [first, second] using apart right right_member left left_member second
            (by simpa using first)
      · simpa [first, second] using differs
  simp [perform, updateIn, store, updated]

theorem perform_owned {statement : Statement Row} (distinct : schema.Distinct rows)
    (inside : statement.Scoped schema holder (schema.others holder rows))
    (free : statement.Free schema holder rows) :
    (statement.perform schema rows).map (seen schema holder) =
      statement.perform schema (schema.owned holder rows) := by
  cases statement with
  | select chosen => simp [perform, seen, filter_owned inside]
  | insert row =>
    apply insertInto_owned distinct inside
    intro other foreign
    exact free.apart (by simp [writes]) foreign rfl
  | update chosen set =>
    apply updateIn_owned distinct inside.1 inside.2
    intro row written other foreign
    rw [filter_owned inside.1] at written
    exact free.apart written foreign (inside.1 other foreign)
  | delete chosen =>
    have left : schema.owned holder (rows.filter fun row => !chosen row) =
        (schema.owned holder rows).filter fun row => !chosen row := by
      simp [Schema.owned, List.filter_filter, Bool.and_comm]
    simp only [perform, Option.map_some, seen, filter_owned inside, left]
  | upsert row conflicts chosen set =>
    obtain ⟨own, keyed, spared, stays⟩ := inside
    have stays_out : ∀ other ∈ schema.others holder rows,
        (conflicts other && chosen other) = false := by
      intro other foreign
      simp [spared other foreign]
    have apart : ∀ other ∈ schema.others holder rows, conflicts other = false := by
      intro other foreign
      by_contra held
      have clashes := keyed other (by simpa using held)
      rw [free.apart (by simp [writes]) foreign (stays_out other foreign)]
        at clashes
      cases clashes
    have same : (schema.owned holder rows).any conflicts = rows.any conflicts := by
      rw [Bool.eq_iff_iff, List.any_eq_true, List.any_eq_true]
      constructor
      · rintro ⟨stored, member, held⟩
        exact ⟨stored, (Schema.mem_owned.mp member).1, held⟩
      · rintro ⟨stored, member, held⟩
        have found := owner_of_chosen apart member held
        exact ⟨stored, Schema.mem_owned.mpr ⟨member, found⟩, held⟩
    simp only [perform, same]
    split
    · apply updateIn_owned distinct stays_out
      · intro stored stored_own both
        simp only [Bool.and_eq_true] at both
        exact stays stored stored_own both.2
      · intro stored written other foreign
        rw [filter_owned stays_out] at written
        exact free.apart (List.mem_cons_of_mem _ written) foreign (stays_out other foreign)
    · apply insertInto_owned distinct own
      intro other foreign
      exact free.apart (by simp [writes]) foreign (stays_out other foreign)

end Statement

/-- A program returns, raises, or sends a statement and goes on with what it
answers, or with nothing when the table refuses it. -/
inductive Program (Row Error α : Type) where
  | done (value : α)
  | raise (error : Error)
  | send (statement : Statement Row)
      (next : Option (List Row) → Program Row Error α)

namespace Program

def bind : Program Row Error α → (α → Program Row Error β) → Program Row Error β
  | .done value, continuation => continuation value
  | .raise error, _ => .raise error
  | .send statement next, continuation =>
    .send statement fun answer => (next answer).bind continuation

instance : Monad (Program Row Error) where
  pure := .done
  bind := bind

@[simp] theorem pure_eq (value : α) :
    (pure value : Program Row Error α) = .done value := rfl

@[simp] theorem done_bind (value : α)
    (continuation : α → Program Row Error β) :
    ((.done value : Program Row Error α) >>= continuation) = continuation value := rfl

@[simp] theorem raise_bind (error : Error)
    (continuation : α → Program Row Error β) :
    ((.raise error : Program Row Error α) >>= continuation) = .raise error := rfl

@[simp] theorem send_bind (statement : Statement Row)
    (next : Option (List Row) → Program Row Error α)
    (continuation : α → Program Row Error β) :
    (.send statement next >>= continuation) =
      .send statement fun answer => next answer >>= continuation := rfl

theorem bind_done (program : Program Row Error α) : bind program .done = program := by
  induction program with
  | done value => rfl
  | raise error => rfl
  | send statement next induction => exact congrArg (send statement) (funext induction)

theorem bind_bind {γ : Type} (program : Program Row Error α)
    (first : α → Program Row Error β) (second : β → Program Row Error γ) :
    bind (bind program first) second = bind program fun value => bind (first value) second := by
  induction program with
  | done value => rfl
  | raise error => rfl
  | send statement next induction => exact congrArg (send statement) (funext induction)

instance : LawfulMonad (Program Row Error) :=
  LawfulMonad.mk' (Program Row Error) bind_done (fun _ _ => rfl) bind_bind

def query (statement : Statement Row) : Program Row Error (List Row) :=
  .send statement fun answer => .done (answer.getD [])

/-- The written rows; `refused` is raised when the table refuses them. -/
def write (refused : Error) (statement : Statement Row) : Program Row Error (List Row) :=
  .send statement fun
    | some answer => .done answer
    | none => .raise refused

def ofExcept : Except Error α → Program Row Error α
  | .ok value => .done value
  | .error error => .raise error

variable (schema : Schema Row Owner) (holder : Owner)

def run : Program Row Error α → List Row → Except Error (α × List Row)
  | .done value, rows => .ok (value, rows)
  | .raise error, _ => .error error
  | .send statement next, rows =>
    match statement.perform schema rows with
    | some step => run (next (some step.1)) step.2
    | none => run (next none) rows

def Along (condition : Statement Row → List Row → Prop) : Program Row Error α → List Row → Prop
  | .done _, _ => True
  | .raise _, _ => True
  | .send statement next, rows =>
    condition statement rows ∧ match statement.perform schema rows with
      | some step => Along condition (next (some step.1)) step.2
      | none => Along condition (next none) rows

instance decidableAlong {condition : Statement Row → List Row → Prop}
    [∀ statement rows, Decidable (condition statement rows)] :
    ∀ (program : Program Row Error α) (rows : List Row),
      Decidable (program.Along schema condition rows)
  | .done _, _ => .isTrue trivial
  | .raise _, _ => .isTrue trivial
  | .send statement next, rows =>
    match performed : statement.perform schema rows with
    | some step =>
      have : Decidable (Along schema condition (next (some step.1)) step.2) :=
        decidableAlong (next (some step.1)) step.2
      decidable_of_iff (condition statement rows ∧
          Along schema condition (next (some step.1)) step.2)
        (by simp [Along, performed])
    | none =>
      have : Decidable (Along schema condition (next none) rows) :=
        decidableAlong (next none) rows
      decidable_of_iff (condition statement rows ∧ Along schema condition (next none) rows)
        (by simp [Along, performed])

/-- The program sends scoped statements only, whatever rows of the holder they
answer, and what it returns is as `shows` says. -/
def Scoped (foreign : List Row) (shows : α → Prop) : Program Row Error α → Prop
  | .done value => shows value
  | .raise _ => True
  | .send statement next =>
    statement.Scoped schema holder foreign ∧
      (∀ answer, (∀ row ∈ answer, schema.Private holder foreign row) →
        Scoped foreign shows (next (some answer))) ∧
      Scoped foreign shows (next none)

variable {schema holder} {foreign : List Row}

@[simp] theorem scoped_done {shows : α → Prop} {value : α} :
    Scoped schema holder foreign shows
      (.done value : Program Row Error α) ↔ shows value := Iff.rfl

@[simp] theorem scoped_raise {shows : α → Prop} (error : Error) :
    Scoped schema holder foreign shows (.raise error : Program Row Error α) := trivial

variable {program : Program Row Error α}

theorem Scoped.imp {shows weaker : α → Prop} (weaken : ∀ value, shows value → weaker value)
    (inside : program.Scoped schema holder foreign shows) :
    program.Scoped schema holder foreign weaker := by
  induction program with
  | done value => exact weaken value inside
  | raise error => trivial
  | send statement next induction =>
    obtain ⟨scope, answered, refused⟩ := inside
    refine ⟨scope, ?_, induction _ refused⟩
    intro answer owned
    exact induction _ (answered answer owned)

variable {shows : α → Prop}

theorem Scoped.bind {ends : β → Prop} {continuation : α → Program Row Error β}
    (inside : program.Scoped schema holder foreign shows)
    (rest : ∀ value, shows value → (continuation value).Scoped schema holder foreign ends) :
    (program >>= continuation).Scoped schema holder foreign ends := by
  induction program with
  | done value => exact rest value inside
  | raise error => trivial
  | send statement next induction =>
    obtain ⟨scope, answered, refused⟩ := inside
    refine ⟨scope, ?_, induction _ refused⟩
    intro answer owned
    exact induction _ (answered answer owned)

theorem Scoped.map {ends : β → Prop} {change : α → β}
    (inside : program.Scoped schema holder foreign shows)
    (rest : ∀ value, shows value → ends (change value)) :
    (change <$> program).Scoped schema holder foreign ends := by
  rw [← bind_pure_comp]
  exact inside.bind rest

theorem Scoped.mapM {Item : Type} {items : List Item} {program : Item → Program Row Error α}
    (inside : ∀ item ∈ items, (program item).Scoped schema holder foreign shows) :
    (items.mapM program).Scoped schema holder foreign
      fun values => ∀ value ∈ values, shows value := by
  induction items with
  | nil => simp
  | cons item rest induction =>
    rw [List.mapM_cons]
    apply (inside item (by simp)).bind
    intro value shown
    have later := induction fun other member =>
      inside other (List.mem_cons_of_mem _ member)
    apply later.bind
    intro values all
    simpa using ⟨shown, all⟩

theorem scoped_query {statement : Statement Row}
    (scope : statement.Scoped schema holder foreign) :
    (query statement : Program Row Error (List Row)).Scoped schema holder foreign
      fun rows => ∀ row ∈ rows, schema.Private holder foreign row := by
  refine ⟨scope, ?_, ?_⟩
  · intro answer owned
    exact owned
  · simp

theorem scoped_write {refused : Error} {statement : Statement Row}
    (scope : statement.Scoped schema holder foreign) :
    (write refused statement).Scoped schema holder foreign
      fun rows => ∀ row ∈ rows, schema.Private holder foreign row := by
  refine ⟨scope, ?_, trivial⟩
  intro answer owned
  exact owned

theorem scoped_ofExcept {outcome : Except Error α}
    (holds : ∀ value, outcome = .ok value → shows value) :
    (ofExcept outcome : Program Row Error α).Scoped schema holder foreign shows := by
  cases outcome with
  | error error => trivial
  | ok value => exact holds value rfl

theorem run_bind (program : Program Row Error α)
    (continuation : α → Program Row Error β) (rows : List Row) :
    (program >>= continuation).run schema rows = (program.run schema rows).bind fun done =>
        (continuation done.1).run schema done.2 := by
  induction program generalizing rows with
  | done value => rfl
  | raise error => rfl
  | send statement next induction =>
    simp only [send_bind, run]
    cases statement.perform schema rows with
    | none => exact induction _ _
    | some step => exact induction _ _

theorem along_front {condition : Statement Row → List Row → Prop}
    {continuation : α → Program Row Error β} {rows : List Row}
    (along : (program >>= continuation).Along schema condition rows) :
    program.Along schema condition rows := by
  induction program generalizing rows with
  | done value => trivial
  | raise error => trivial
  | send statement next induction =>
    simp only [send_bind, Along] at along ⊢
    obtain ⟨met, rest⟩ := along
    refine ⟨met, ?_⟩
    cases performed : statement.perform schema rows with
    | none =>
      simp only [performed] at rest ⊢
      exact induction _ rest
    | some step =>
      simp only [performed] at rest ⊢
      exact induction _ rest

variable [DecidableEq Owner]

def seen (schema : Schema Row Owner) (holder : Owner) (outcome : Except Error (α × List Row)) :
    Except Error (α × List Row) :=
  outcome.map fun done => (done.1, schema.owned holder done.2)

theorem run_keeps {rows : List Row} {done : α × List Row} (distinct : schema.Distinct rows)
    (inside : program.Scoped schema holder (schema.others holder rows) shows)
    (returned : program.run schema rows = .ok done) :
    schema.Distinct done.2 ∧ schema.others holder done.2 = schema.others holder rows ∧
      shows done.1 := by
  induction program generalizing rows with
  | done value =>
    cases returned
    exact ⟨distinct, rfl, inside⟩
  | raise error => cases returned
  | send statement next induction =>
    obtain ⟨scope, answered, refused⟩ := inside
    simp only [run] at returned
    cases performed : statement.perform schema rows with
    | none =>
      simp only [performed] at returned
      exact induction _ distinct refused returned
    | some step =>
      simp only [performed] at returned
      obtain ⟨still, same, owned⟩ :=
        Statement.perform_keeps distinct scope performed
      rw [← same] at answered ⊢
      rw [← same] at owned
      exact induction _ still (answered _ owned) returned

theorem run_owned {rows : List Row} (distinct : schema.Distinct rows)
    (inside : program.Scoped schema holder (schema.others holder rows) shows)
    (free : program.Along schema (Statement.Free schema holder) rows) :
    seen schema holder (program.run schema rows) =
      program.run schema (schema.owned holder rows) := by
  induction program generalizing rows with
  | done value => rfl
  | raise error => rfl
  | send statement next induction =>
    obtain ⟨scope, answered, refused⟩ := inside
    simp only [Along] at free
    have alone := Statement.perform_owned distinct scope free.1
    simp only [run]
    rw [← alone]
    cases performed : statement.perform schema rows with
    | none =>
      simp only [performed] at free
      exact induction _ distinct refused free.2
    | some step =>
      simp only [performed] at free
      obtain ⟨still, same, owned⟩ :=
        Statement.perform_keeps distinct scope performed
      rw [← same] at answered owned
      exact induction _ still (answered _ owned) free.2

end Program

end OwnedRows
