import Mathlib.Data.List.Dedup
import TempestSdk.Library.SyntaxTree

/-!
# The SQL console

What the console concludes from a parsed statement and what it then runs.
Statements are the trees of the SQL parser.  The parser itself, the text that a
tree is written back to, `str.lower` and `repr` are parameters.
-/

namespace TempestSdk.Admin

open SyntaxTree

inductive SqlCapabilityEnum where
  | read
  | insert
  | update
  | delete
  | ddl
  | drop
  | admin
deriving DecidableEq

/-- The classes of nodes that the console or the scopes of SQL tell apart. -/
inductive Kind where
  | select
  | union
  | intersect
  | except
  | subquery
  | withClause
  | describe
  | showCommand
  | pragma
  | insert
  | update
  | delete
  | merge
  | create
  | alter
  | alterTable
  | comment
  | drop
  | truncateTable
  | grant
  | revoke
  | set
  | transaction
  | commit
  | rollback
  | cte
  | table
  | tableAlias
  | schema
  | identifier
  | var
  | function
  | other (name : String)
deriving DecidableEq

inductive Key where
  | this
  | expression
  | expressions
  | withClause
  | whereClause
  | aliased
  | db
  | style
  | quoted
  | recursive
  | other (name : String)
deriving DecidableEq

inductive Value where
  | text (text : String)
  | flag (set : Bool)
deriving DecidableEq

abbrev Expression := Tree Kind Key Value

def expressionCapability : Kind → Option SqlCapabilityEnum
  | .select | .union | .intersect | .except | .subquery | .withClause
  | .describe | .showCommand | .pragma => some .read
  | .insert => some .insert
  | .update => some .update
  | .delete => some .delete
  | .merge => some .update
  | .create | .alter | .alterTable | .comment => some .ddl
  | .drop | .truncateTable => some .drop
  | .grant | .revoke | .set | .transaction | .commit | .rollback => some .admin
  | _ => none

namespace SqlCapabilityEnum

/-- The place in `_CAPABILITY_RANK`. -/
def rank : SqlCapabilityEnum → Nat
  | read => 0
  | insert => 1
  | update => 2
  | delete => 3
  | ddl => 4
  | drop => 5
  | admin => 6

def value : SqlCapabilityEnum → String
  | read => "read"
  | insert => "insert"
  | update => "update"
  | delete => "delete"
  | ddl => "ddl"
  | drop => "drop"
  | admin => "admin"

end SqlCapabilityEnum

namespace Expression

def textAt (expression : Expression) (key : Key) : Option String :=
  match expression.args.valueAt key with
  | some (.text text) => some text
  | _ => none

def flagAt (expression : Expression) (key : Key) : Bool :=
  expression.args.valueAt key = some (.flag true)

/-- `Expression.text`: a string, or the string of an identifier. -/
def text (expression : Expression) (key : Key) : String :=
  match textAt expression key, expression.args.childAt key with
  | some text, _ => text
  | none, some child =>
    if child.kind = .identifier ∨ child.kind = .var then
      (textAt child .this).getD ""
    else ""
  | none, none => ""

/-- `Expression.name`; a table that is a function has no name. -/
def name (expression : Expression) : String :=
  if expression.kind = .table then
    match expression.args.childAt .this with
    | none => ""
    | some child => if child.kind = .function then "" else text child .this
  else text expression .this

/-- `Expression.alias`. -/
def aliasName (expression : Expression) : String :=
  match expression.args.childAt .aliased with
  | some child =>
    if child.kind = .tableAlias then text child .this
    else text expression .aliased
  | none => text expression .aliased

def aliasOrName (expression : Expression) : String :=
  if aliasName expression = "" then name expression else aliasName expression

def findAll (expression : Expression) (kind : Kind) : List Expression :=
  expression.walk.filter (·.kind = kind)

end Expression

def introspectionPragmas : List String :=
  ["collation_list", "compile_options", "database_list", "foreign_key_check",
    "foreign_key_list", "function_list", "index_info", "index_list",
    "index_xinfo", "integrity_check", "module_list", "pragma_list",
    "quick_check", "table_info", "table_list", "table_xinfo"]

def actionPragmas : List String :=
  ["incremental_vacuum", "optimize", "shrink_memory", "wal_checkpoint"]

structure SqlStatement where
  sql : String
  capability : SqlCapabilityEnum
  tables : List String
  hasWhere : Bool
  returnsRows : Bool
deriving DecidableEq

structure SqlAudit where
  principal : String
  sql : String
  allowed : Bool
  capability : Option SqlCapabilityEnum
  tables : List String
  reason : Option String
  rowCount : Nat
deriving DecidableEq

inductive Outcome where
  | error (reason : String)
  | denied (reason : String)
  | done (statement : SqlStatement) (rowCount : Nat)
deriving DecidableEq

structure Attempt where
  sent : List String
  audit : SqlAudit
  outcome : Outcome
deriving DecidableEq

structure SqlShellPolicy where
  capabilities : List SqlCapabilityEnum
  allowedTables : List String
  deniedTables : List String
  maxStatements : Nat
  requireWhere : Bool
  positive : 0 < maxStatements

section

variable (lower quote : String → String) (written : Expression → String)

def pragmaCapability (expression : Expression) : SqlCapabilityEnum :=
  let target := expression.args.childAt .this
  let bare := target.any (·.kind = .var)
  let named := if bare then target else target.bind (·.args.childAt .this)
  let name := lower ((named.map Expression.name).getD "")
  if name ∈ introspectionPragmas then .read
  else if bare ∧ name ≠ "" ∧ name ∉ actionPragmas then .read
  else .admin

def weigh (decided : SqlCapabilityEnum × Expression) (node : Expression) :
    SqlCapabilityEnum × Expression :=
  match expressionCapability node.kind with
  | none | some .read => decided
  | some found => if decided.1.rank < found.rank then (found, node) else decided

def classify (expression : Expression) : SqlCapabilityEnum × Expression :=
  if expression.kind = .pragma then
    (pragmaCapability lower expression, expression)
  else if expression.kind = .describe then
    match _found : expression.args.childAt .this with
    | none => (.read, expression)
    | some inner =>
      if ((Expression.textAt expression .style).getD "").toUpper = "ANALYZE" then
        classify inner
      else (.read, expression)
  else
    expression.descendants.foldl weigh
      ((expressionCapability expression.kind).getD .admin, expression)
termination_by expression.size
decreasing_by exact Tree.size_lt_of_mem (Args.childAt_mem _ (by assumption))

/-- The CTE names that `_tables_of` subtracts. -/
def aliases (expression : Expression) : List String :=
  ((Expression.findAll expression .cte).map Expression.aliasOrName).filterMap fun name =>
      if name = "" then none else some (lower name)

/-- The names that `_tables_of` collects. -/
def names (expression : Expression) : List String :=
  ((Expression.findAll expression .table).map Expression.name).filterMap fun name =>
      if name ≠ "" ∧ lower name ∉ aliases lower expression then
        some (lower name)
      else none

def tablesOf (expression : Expression) : List String :=
  (names lower expression).dedup.mergeSort (· ≤ ·)

/-- One turn of the loop of `analyze_sql`. -/
def analyze (expression : Expression) : SqlStatement :=
  let (capability, decisive) := classify lower expression
  { sql := written expression
    capability := capability
    tables := tablesOf lower expression
    hasWhere := decisive.args.has .whereClause
    returnsRows := capability = .read }

def SqlShellPolicy.tableAllowed (policy : SqlShellPolicy) (table : String) : Bool :=
  let name := lower table
  if name ∈ policy.deniedTables.map lower then false
  else if policy.allowedTables = [] then true
  else name ∈ policy.allowedTables.map lower

def permitted (policy : SqlShellPolicy) : String :=
  let allowed := ", ".intercalate
    ((policy.capabilities.map SqlCapabilityEnum.value).mergeSort (· ≤ ·))
  if allowed = "" then "nothing" else allowed

/-- The rule on `WHERE` refuses the statement. -/
def SqlShellPolicy.refusesWhere (policy : SqlShellPolicy) (statement : SqlStatement) : Bool :=
  policy.requireWhere && (statement.capability = .update ||
    statement.capability = .delete) && !statement.hasWhere

def refusal (policy : SqlShellPolicy) (statement : SqlStatement) : Option String :=
  if statement.capability ∉ policy.capabilities then
    some (statement.capability.value ++
      " is not permitted; this console may: " ++ permitted policy)
  else
    match statement.tables.find? (!policy.tableAllowed lower ·) with
    | some table => some ("table " ++ quote table ++ " is not accessible from this console")
    | none =>
      if policy.refusesWhere statement then
        some (statement.capability.value ++ " without a WHERE clause is refused; " ++
          "add one, or disable require_where in the policy")
      else none

def checkPolicy (statements : List SqlStatement) (policy : SqlShellPolicy) : Option String :=
  if policy.maxStatements < statements.length then
    some (toString statements.length ++ " statements submitted; the policy allows " ++
      toString policy.maxStatements)
  else statements.findSome? (refusal lower quote policy)

def analyzeSql (strip : String → String)
    (parse : String → Except String (List (Option Expression)))
    (sql : String) : Except String (List SqlStatement) :=
  if strip sql = "" then .error "no statement given"
  else
    match parse (strip sql) with
    | .error reason => .error ("could not parse SQL: " ++ reason)
    | .ok parsed =>
      match parsed.reduceOption.map (analyze lower written) with
      | [] => .error "no statement given"
      | statement :: rest => .ok (statement :: rest)

/-- `execute`; the database answers with the number of rows or an error. -/
def execute (strip : String → String)
    (parse : String → Except String (List (Option Expression)))
    (policy : SqlShellPolicy) (database : String → Except String Nat)
    (principal sql : String) : Attempt :=
  match analyzeSql lower written strip parse sql with
  | .error reason =>
    { sent := []
      audit := ⟨principal, sql, false, none, [], some reason, 0⟩
      outcome := .error reason }
  | .ok [] =>
    { sent := []
      audit := ⟨principal, sql, false, none, [], none, 0⟩
      outcome := .error "" }
  | .ok (statement :: rest) =>
    match checkPolicy lower quote (statement :: rest) policy with
    | some reason =>
      { sent := []
        audit := ⟨principal, sql, false, statement.capability, statement.tables, some reason, 0⟩
        outcome := .denied reason }
    | none =>
      match database statement.sql with
      | .error reason =>
        { sent := [statement.sql]
          audit := ⟨principal, sql, true, statement.capability,
            statement.tables, some ("database error: " ++ reason), 0⟩
          outcome := .error reason }
      | .ok rowCount =>
        { sent := [statement.sql]
          audit := ⟨principal, sql, true, statement.capability,
            statement.tables, none, rowCount⟩
          outcome := .done statement rowCount }

end

section

variable {lower quote : String → String} {written : Expression → String}
variable {policy : SqlShellPolicy}

theorem refusal_eq_none {statement : SqlStatement} :
    refusal lower quote policy statement = none ↔ statement.capability ∈ policy.capabilities ∧
        (∀ table ∈ statement.tables, policy.tableAllowed lower table = true) ∧
        policy.refusesWhere statement = false := by
  unfold refusal
  split
  · next missing => simp [missing]
  · next granted =>
      have given : statement.capability ∈ policy.capabilities :=
        not_not.mp granted
      cases search : statement.tables.find? (!policy.tableAllowed lower ·) with
      | some table =>
        have refused := List.find?_some search
        have member := List.mem_of_find?_eq_some search
        simp only [reduceCtorEq, false_iff, not_and]
        intro _ allowed
        simp [allowed table member] at refused
      | none =>
        have allowed : ∀ table ∈ statement.tables, policy.tableAllowed lower table = true := by
          simpa using search
        cases policy.refusesWhere statement with
        | true => simp
        | false => simpa [given] using allowed

theorem checkPolicy_eq_none {statements : List SqlStatement} :
    checkPolicy lower quote statements policy = none ↔
      statements.length ≤ policy.maxStatements ∧ ∀ statement ∈ statements,
          refusal lower quote policy statement = none := by
  unfold checkPolicy
  split
  · next many =>
      simp only [reduceCtorEq, false_iff, not_and]
      omega
  · next few =>
      rw [List.findSome?_eq_none_iff]
      constructor
      · intro kept
        exact ⟨by omega, kept⟩
      · intro kept
        exact kept.2

theorem mem_aliases {expression : Expression} {name : String} :
    name ∈ aliases lower expression ↔ ∃ cte ∈ Expression.findAll expression .cte,
        Expression.aliasOrName cte ≠ "" ∧ lower (Expression.aliasOrName cte) = name := by
  unfold aliases
  simp only [List.mem_filterMap, List.mem_map]
  constructor
  · rintro ⟨given, ⟨cte, found, rfl⟩, kept⟩
    split at kept
    · cases kept
    · next nonempty =>
        exact ⟨cte, found, nonempty, Option.some.inj kept⟩
  · rintro ⟨cte, found, nonempty, rfl⟩
    exact ⟨_, ⟨cte, found, rfl⟩, if_neg nonempty⟩

theorem mem_tablesOf {expression : Expression} {name : String} :
    name ∈ tablesOf lower expression ↔ name ∉ aliases lower expression ∧
        ∃ table ∈ Expression.findAll expression .table, Expression.name table ≠ "" ∧
            lower (Expression.name table) = name := by
  unfold tablesOf names
  rw [List.mem_mergeSort, List.mem_dedup]
  simp only [List.mem_filterMap, List.mem_map]
  constructor
  · rintro ⟨given, ⟨table, found, rfl⟩, kept⟩
    split at kept
    · next both =>
        cases kept
        exact ⟨both.2, table, found, both.1, rfl⟩
    · cases kept
  · rintro ⟨plain, table, found, nonempty, rfl⟩
    exact ⟨_, ⟨table, found, rfl⟩, if_pos ⟨nonempty, plain⟩⟩

end

end TempestSdk.Admin
