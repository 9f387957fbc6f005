import TempestSdk.Admin.SqlShell

/-!
# Tables under the scopes of SQL

A name without a schema refers to a common table expression where one of that
name is in scope, and to a base table everywhere else.  The expressions of a
`WITH` are in scope in the statement it belongs to and in the expressions that
follow; in their own queries only when the `WITH` is recursive.  What a
statement writes to is always a base table.
-/

namespace TempestSdk.Admin

open SyntaxTree

variable (fold : String → Bool → String)

/-- The nodes that write to what stands under `this`. -/
def Kind.writesTo : Kind → Bool
  | .insert | .update | .delete | .merge | .create | .alter | .alterTable
  | .drop | .truncateTable | .comment => true
  | _ => false

def isTarget (kind : Kind) (target : Bool) (key : Key) : Bool :=
  key = .this && (kind.writesTo || (kind = .schema && target))

def Expression.folded (expression : Expression) : String :=
  fold (name expression) ((expression.args.childAt .this).any (flagAt · .quoted))

def cteName (cte : Expression) : String :=
  fold (Expression.aliasOrName cte) ((cte.args.childAt .aliased).any fun aliased =>
      (aliased.args.childAt .this).any (Expression.flagAt · .quoted))

def baseTable (scope : List String) (target : Bool) (node : Expression) : List String :=
  if node.kind = .table ∧ Expression.name node ≠ "" ∧
      (target = true ∨ node.args.has .db = true ∨ Expression.folded fold node ∉ scope) then
    [Expression.name node]
  else []

/-- The names that a `WITH` under this node declares. -/
def declared : Args Kind Key Value → List String
  | .nil => []
  | .value _ _ rest => declared rest
  | .child key tree rest =>
    (if key = .withClause then tree.args.children.map (cteName fold)
    else []) ++ declared rest

mutual

def baseTables (scope : List String) (target : Bool) : Expression → List String
  | .node kind args =>
    baseTable fold scope target (.node kind args) ++ if kind = .withClause then
        inOrder (if args.valueAt .recursive = some (.flag true) then
            scope ++ args.children.map (cteName fold)
          else scope) args
      else
        inside kind target scope (scope ++ declared fold args) args

/-- Each expression of a `WITH` is in scope in those behind it. -/
def inOrder (scope : List String) : Args Kind Key Value → List String
  | .nil => []
  | .value _ _ rest => inOrder scope rest
  | .child _ tree rest =>
    baseTables scope false tree ++ inOrder (scope ++ [cteName fold tree]) rest

/-- What a node declares is in scope in its arguments, the `WITH` apart. -/
def inside (kind : Kind) (target : Bool) (outer inner : List String) :
    Args Kind Key Value → List String
  | .nil => []
  | .value _ _ rest => inside kind target outer inner rest
  | .child key tree rest =>
    (if key = .withClause then baseTables outer false tree
    else baseTables inner (isTarget kind target key) tree) ++
      inside kind target outer inner rest

end

def referenced (statement : Expression) : List String :=
  baseTables fold [] false statement

section

variable {fold}

theorem baseTable_spec {scope : List String} {target : Bool}
    {node : Expression} {table : String}
    (member : table ∈ baseTable fold scope target node) :
    node.kind = .table ∧ Expression.name node = table ∧ table ≠ "" := by
  unfold baseTable at member
  split at member
  · next named =>
      cases List.mem_singleton.mp member
      exact ⟨named.1, rfl, named.2.1⟩
  · cases member

mutual

theorem baseTables_spec {scope : List String} {target : Bool}
    {tree : Expression} {table : String}
    (member : table ∈ baseTables fold scope target tree) :
    ∃ node : Expression, node.Within tree ∧ node.kind = .table ∧
      Expression.name node = table ∧ table ≠ "" := by
  cases tree with
  | node kind args =>
    rw [baseTables, List.mem_append] at member
    rcases member with here | below
    · exact ⟨_, .root, baseTable_spec here⟩
    · have found : ∃ child ∈ args.children, ∃ node : Expression,
          node.Within child ∧ node.kind = .table ∧
            Expression.name node = table ∧ table ≠ "" := by
        split at below
        · exact inOrder_spec below
        · exact inside_spec below
      obtain ⟨child, atChild, node, within, spec⟩ := found
      exact ⟨node, .deeper atChild within, spec⟩

theorem inOrder_spec {scope : List String} {args : Args Kind Key Value}
    {table : String} (member : table ∈ inOrder fold scope args) :
    ∃ child ∈ args.children, ∃ node : Expression, node.Within child ∧
      node.kind = .table ∧ Expression.name node = table ∧ table ≠ "" := by
  cases args with
  | nil => cases member
  | value key content rest => exact @inOrder_spec scope rest table member
  | child key tree rest =>
    rw [inOrder, List.mem_append] at member
    rcases member with here | later
    · exact ⟨tree, List.mem_cons_self, baseTables_spec here⟩
    · obtain ⟨child, atChild, spec⟩ := inOrder_spec later
      exact ⟨child, List.mem_cons_of_mem _ atChild, spec⟩

theorem inside_spec {kind : Kind} {target : Bool} {outer inner : List String}
    {args : Args Kind Key Value} {table : String}
    (member : table ∈ inside fold kind target outer inner args) :
    ∃ child ∈ args.children, ∃ node : Expression, node.Within child ∧
      node.kind = .table ∧ Expression.name node = table ∧ table ≠ "" := by
  cases args with
  | nil => cases member
  | value key content rest => exact @inside_spec kind target outer inner rest table member
  | child key tree rest =>
    rw [inside, List.mem_append] at member
    rcases member with here | later
    · refine ⟨tree, List.mem_cons_self, ?_⟩
      split at here
      · exact baseTables_spec here
      · exact baseTables_spec here
    · obtain ⟨child, atChild, spec⟩ := inside_spec later
      exact ⟨child, List.mem_cons_of_mem _ atChild, spec⟩

end

end

variable (lower quote : String → String) (written : Expression → String)

/-- Every base table of the statement is found by `_tables_of`. -/
def Contained (statement : Expression) : Prop :=
  ∀ table ∈ referenced fold statement, lower table ∈ tablesOf lower statement

def SqlShellPolicy.Denies (policy : SqlShellPolicy) (table : String) : Prop :=
  lower table ∈ policy.deniedTables.map lower

/-- No submission with the statement is allowed when a policy denies one of its
base tables. -/
def DenyListHolds (statement : Expression) : Prop :=
  ∀ (policy : SqlShellPolicy) (statements : List SqlStatement),
    analyze lower written statement ∈ statements →
      checkPolicy lower quote statements policy = none →
        ∀ table ∈ referenced fold statement, ¬ policy.Denies lower table

/-- No common table expression of the statement has the name of a base table
that the statement refers to. -/
def Unshadowed (statement : Expression) : Prop :=
  ∀ table ∈ referenced fold statement,
    ∀ cte ∈ Expression.findAll statement .cte, Expression.aliasOrName cte ≠ "" →
        lower (Expression.aliasOrName cte) ≠ lower table

instance (statement : Expression) :
    Decidable (Unshadowed fold lower statement) :=
  inferInstanceAs (Decidable (∀ table ∈ referenced fold statement,
    ∀ cte ∈ Expression.findAll statement .cte, Expression.aliasOrName cte ≠ "" →
        lower (Expression.aliasOrName cte) ≠ lower table))

section

variable {fold} {lower quote : String → String}
variable {written : Expression → String} {statement : Expression}

theorem contained_iff : Contained fold lower statement ↔ Unshadowed fold lower statement := by
  constructor
  · intro contained table reference cte found nonempty same
    have plain := (mem_tablesOf.mp (contained table reference)).1
    exact plain (mem_aliases.mpr ⟨cte, found, nonempty, same⟩)
  · intro unshadowed table reference
    obtain ⟨node, within, isTable, named, nonempty⟩ :=
      baseTables_spec reference
    refine mem_tablesOf.mpr ⟨?_, node, ?_, ?_, ?_⟩
    · intro shadowed
      obtain ⟨cte, found, nonempty, same⟩ := mem_aliases.mp shadowed
      exact unshadowed table reference cte found nonempty same
    · exact List.mem_filter.mpr ⟨Tree.mem_walk.mpr within, by simpa using isTable⟩
    · rw [named]
      exact nonempty
    · rw [named]

theorem tableAllowed_of_checkPolicy {policy : SqlShellPolicy}
    {statements : List SqlStatement} {expression : Expression}
    (member : analyze lower written expression ∈ statements)
    (allowed : checkPolicy lower quote statements policy = none)
    {table : String} (found : table ∈ tablesOf lower expression) :
    policy.tableAllowed lower table = true :=
  (refusal_eq_none.mp ((checkPolicy_eq_none.mp allowed).2 _ member)).2.1 table found

theorem denyListHolds_of_contained (idempotent : ∀ name, lower (lower name) = lower name)
    (contained : Contained fold lower statement) :
    DenyListHolds fold lower quote written statement := by
  intro policy statements member allowed table reference denied
  have passed := tableAllowed_of_checkPolicy member allowed (contained table reference)
  unfold SqlShellPolicy.tableAllowed at passed
  unfold SqlShellPolicy.Denies at denied
  simp only [idempotent] at passed
  rw [if_pos denied] at passed
  cases passed

theorem unshadowed_of_denyListHolds (idempotent : ∀ name, lower (lower name) = lower name)
    (holds : DenyListHolds fold lower quote written statement) :
    Unshadowed fold lower statement := by
  intro table reference cte found nonempty same
  let policy : SqlShellPolicy :=
    { capabilities := [(analyze lower written statement).capability]
      allowedTables := []
      deniedTables := [table]
      maxStatements := 1
      requireWhere := false
      positive := Nat.one_pos }
  have shadowed : lower table ∈ aliases lower statement :=
    mem_aliases.mpr ⟨cte, found, nonempty, same⟩
  have allowed : checkPolicy lower quote [analyze lower written statement] policy = none := by
    rw [checkPolicy_eq_none]
    refine ⟨Nat.le_refl 1, ?_⟩
    intro analyzed member
    cases List.mem_singleton.mp member
    refine refusal_eq_none.mpr ⟨List.mem_singleton_self _, ?_, rfl⟩
    intro other present
    obtain ⟨plain, node, _, _, named⟩ := mem_tablesOf.mp present
    have different : lower other ≠ lower table := by
      intro equal
      rw [← named, idempotent, named] at equal
      exact plain (equal ▸ shadowed)
    simp [SqlShellPolicy.tableAllowed, policy, different]
  exact holds policy _ (List.mem_singleton_self _) allowed table reference
    (List.mem_singleton_self _)

end

/-- `_tables_of` finds every base table, and the deny-list holds, exactly when
no common table expression of the statement shares its name with a base table
that the statement refers to. -/
theorem deny_list_sound_iff (idempotent : ∀ name, lower (lower name) = lower name)
    (statement : Expression) :
    (Contained fold lower statement ∧ DenyListHolds fold lower quote written statement) ↔
      Unshadowed fold lower statement := by
  constructor
  · intro sound
    exact unshadowed_of_denyListHolds idempotent sound.2
  · intro unshadowed
    have contained := (contained_iff).mpr unshadowed
    exact ⟨contained, denyListHolds_of_contained idempotent contained⟩

/-- The table under a name, in a `FROM`. -/
def fromTable (name : String) : Expression :=
  .node (.other "From") (.child .this (.node .table
        (.child .this (.node .identifier (.value .this (.text name) .nil)) .nil))
      .nil)

def selectFrom (name : String) : Expression :=
  .node .select (.child (.other "from") (fromTable name) .nil)

/-- `WITH cte AS (SELECT * FROM source) SELECT * FROM main`. -/
def withOne (cte source main : String) : Expression :=
  .node .select (.child .withClause (.node .withClause (.child .expressions
          (.node .cte (.child .this (selectFrom source) (.child .aliased
                (.node .tableAlias (.child .this
                    (.node .identifier (.value .this (.text cte) .nil)) .nil))
                .nil)))
          .nil))
      (.child (.other "from") (fromTable main) .nil))

theorem recent_orders_sound : Contained (fun name _ => name) (fun name => name)
        (withOne "recent" "orders" "recent") ∧
      DenyListHolds (fun name _ => name) (fun name => name) (fun name => name)
        (fun _ => "") (withOne "recent" "orders" "recent") := by
  refine (deny_list_sound_iff _ _ _ _ (fun _ => rfl) _).mpr ?_
  decide

theorem users_behind_users : ¬ (Contained (fun name _ => name) (fun name => name)
        (withOne "users" "users" "users") ∧
      DenyListHolds (fun name _ => name) (fun name => name) (fun name => name)
        (fun _ => "") (withOne "users" "users" "users")) := by
  intro sound
  have unshadowed := (contained_iff).mp sound.1
  revert unshadowed
  decide

end TempestSdk.Admin
