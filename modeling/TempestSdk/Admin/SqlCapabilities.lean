import TempestSdk.Admin.SqlShell

/-!
# What an approved statement does

The statement that runs is the one under `EXPLAIN ANALYZE`; a plain `EXPLAIN`
runs nothing.  Every node of it that writes needs its own capability.  A class
that the console does not list counts as unknown: at the top it always needs
the last capability, below the top only when nodes of that class write.
-/

namespace TempestSdk.Admin

open SyntaxTree

/-- The style of an `EXPLAIN` that executes what it explains. -/
def explainsByRunning (expression : Expression) : Bool :=
  ((Expression.textAt expression .style).getD "").toUpper = "ANALYZE"

inductive Runs (target : Expression) : Expression → Prop where
  | itself (plain : target.kind ≠ .describe) : Runs target target
  | analyzed {statement inner : Expression}
      (describe : statement.kind = .describe)
      (below : statement.args.childAt .this = some inner)
      (style : explainsByRunning statement = true)
      (later : Runs target inner) : Runs target statement

variable (lower quote : String → String) (written : Expression → String)
  (unlisted : String → Bool)

def topCapability (target : Expression) : SqlCapabilityEnum :=
  if target.kind = .pragma then pragmaCapability lower target
  else (expressionCapability target.kind).getD .admin

def nestedCapability (node : Expression) : Option SqlCapabilityEnum :=
  match expressionCapability node.kind with
  | some .read => none
  | some capability => some capability
  | none =>
    match node.kind with
    | .other name => if unlisted name then some .admin else none
    | _ => none

def executedBelow (target : Expression) : List Expression :=
  if target.kind = .pragma then [] else target.descendants

/-- The write nodes of a statement, each with its capability. -/
inductive Writes (statement : Expression) :
    Expression → SqlCapabilityEnum → Prop where
  | top {target : Expression} (runs : Runs target statement)
      (writes : topCapability lower target ≠ .read) :
      Writes statement target (topCapability lower target)
  | nested {target node : Expression} {capability : SqlCapabilityEnum}
      (runs : Runs target statement) (member : node ∈ executedBelow target)
      (writes : nestedCapability unlisted node = some capability) :
      Writes statement node capability

def listedWrites (statement node : Expression) (capability : SqlCapabilityEnum) : Prop :=
  Writes lower (fun _ => false) statement node capability

/-- An `UPDATE` or a `DELETE` that is executed has a `WHERE`. -/
def WhereKept (statement : Expression) : Prop :=
  ∀ node capability, listedWrites lower statement node capability →
    node.kind = .update ∨ node.kind = .delete → node.args.has .whereClause = true

/-- What an approval of these statements must mean. -/
structure Meant (policy : SqlShellPolicy) (expressions : List Expression) :
    Prop where
  granted : ∀ expression ∈ expressions, ∀ node capability,
    Writes lower unlisted expression node capability → capability ∈ policy.capabilities
  whereKept : policy.requireWhere = true →
    ∀ expression ∈ expressions, WhereKept lower expression
  /-- Whatever input was parsed to these statements, they are what runs. -/
  executed : ∀ strip parse database principal sql, analyzeSql lower written strip parse sql =
        .ok (expressions.map (analyze lower written)) →
      (execute lower quote written strip parse policy database principal
        sql).sent = expressions.map fun expression =>
          (analyze lower written expression).sql

def Sound (expressions : List Expression) : Prop :=
  ∀ policy : SqlShellPolicy,
    checkPolicy lower quote (expressions.map (analyze lower written)) policy = none →
      Meant lower quote written unlisted policy expressions

def OneFamily (statement : Expression) : Prop :=
  ∀ node capability, Writes lower unlisted statement node capability →
    (∃ listed, listedWrites lower statement listed capability) ∧
      ∀ listed other, listedWrites lower statement listed other → other = capability

def firstWrite (target : Expression) : Option Expression :=
  if topCapability lower target ≠ .read then some target
  else (executedBelow target).find? fun node => (nestedCapability (fun _ => false) node).isSome

/-- When the first write has a `WHERE`, every `UPDATE` and `DELETE` has one. -/
def FirstSpeaksForAll (statement : Expression) : Prop :=
  ∀ target, Runs target statement → ∀ first, firstWrite lower target = some first →
      first.args.has .whereClause = true → WhereKept lower statement

section

variable {lower quote : String → String} {written : Expression → String}
variable {unlisted : String → Bool} {statement target node : Expression}
variable {capability : SqlCapabilityEnum}

theorem eq_read_of_rank {other : SqlCapabilityEnum}
    (least : capability.rank ≤ SqlCapabilityEnum.read.rank)
    (same : other = capability) : other = .read := by
  subst same
  cases other with
  | read => rfl
  | _ => simp [SqlCapabilityEnum.rank] at least

theorem nestedCapability_ne_read (writes : nestedCapability unlisted node = some capability) :
    capability ≠ .read := by
  unfold nestedCapability at writes
  split at writes
  · cases writes
  · next other kind =>
      cases writes
      exact other
  · split at writes
    · split at writes
      · cases writes
        decide
      · cases writes
    · cases writes

theorem Writes.ne_read (writes : Writes lower unlisted statement node capability) :
    capability ≠ .read := by
  cases writes with
  | top runs writes => exact writes
  | nested runs member writes => exact nestedCapability_ne_read writes

theorem listedWrites.writes (listed : listedWrites lower statement node capability) :
    Writes lower unlisted statement node capability := by
  cases listed with
  | top runs writes => exact .top runs writes
  | nested runs member writes =>
    refine .nested runs member ?_
    unfold nestedCapability at writes ⊢
    split at writes
    · cases writes
    · exact writes
    · split at writes
      · cases writes
      · cases writes

theorem weigh_eq (decided : SqlCapabilityEnum × Expression) (node : Expression) :
    weigh decided node = match nestedCapability (fun _ => false) node with
      | none => decided
      | some found =>
        if decided.1.rank < found.rank then (found, node) else decided := by
  unfold weigh nestedCapability
  cases listed : expressionCapability node.kind with
  | none => cases node.kind <;> rfl
  | some found => cases found <;> rfl

def settled (lower : String → String) (target : Expression) : SqlCapabilityEnum × Expression :=
  (executedBelow target).foldl weigh (topCapability lower target, target)

theorem classify_of_runs (runs : Runs target statement) :
    classify lower statement = settled lower target := by
  induction runs with
  | itself plain =>
    unfold classify settled topCapability executedBelow
    split
    · rfl
    · rfl
  | @analyzed statement inner describe below style later induction =>
    have notPragma : statement.kind ≠ .pragma := by
      rw [describe]
      decide
    unfold explainsByRunning at style
    rw [classify, if_neg notPragma, if_pos describe]
    split
    · next none => simp [none] at below
    · next found some =>
        rw [below] at some
        cases some
        rw [if_pos (of_decide_eq_true style)]
        exact induction

theorem classify_of_not_runs (nothing : ∀ target, ¬ Runs target statement) :
    (classify lower statement).1 = .read := by
  induction statement using classify.induct with
  | case1 statement pragma =>
    have plain : statement.kind ≠ .describe := by
      rw [pragma]
      decide
    exact (nothing statement (.itself plain)).elim
  | case2 statement notPragma describe missing =>
    rw [classify, if_neg notPragma, if_pos describe]
    split
    · rfl
    · next found some => simp [missing] at some
  | case3 statement notPragma describe inner below style induction =>
    rw [classify, if_neg notPragma, if_pos describe]
    split
    · rfl
    · next found some =>
        rw [below] at some
        cases some
        rw [if_pos style]
        apply induction
        intro target runs
        exact nothing target (.analyzed describe below (decide_eq_true style) runs)
  | case4 statement notPragma describe inner below style =>
    rw [classify, if_neg notPragma, if_pos describe]
    split
    · rfl
    · next found some =>
        rw [below] at some
        cases some
        rw [if_neg style]
  | case5 statement notPragma plain => exact (nothing statement (.itself plain)).elim

theorem foldl_weigh_kept {nodes : List Expression} {decided : SqlCapabilityEnum × Expression}
    (least : ∀ node ∈ nodes, ∀ capability,
      nestedCapability (fun _ => false) node = some capability →
        capability.rank ≤ decided.1.rank) :
    nodes.foldl weigh decided = decided := by
  induction nodes with
  | nil => rfl
  | cons node nodes induction =>
    have here : weigh decided node = decided := by
      rw [weigh_eq]
      split
      · rfl
      · next found writes =>
          rw [if_neg]
          exact Nat.not_lt.mpr (least node List.mem_cons_self found writes)
    rw [List.foldl_cons, here]
    exact induction fun node member =>
      least node (List.mem_cons_of_mem _ member)

theorem foldl_weigh_spec (nodes : List Expression) (decided : SqlCapabilityEnum × Expression) :
    (nodes.foldl weigh decided = decided ∨
        ∃ node ∈ nodes, nestedCapability (fun _ => false) node =
            some (nodes.foldl weigh decided).1 ∧
          (nodes.foldl weigh decided).2 = node) ∧
      decided.1.rank ≤ (nodes.foldl weigh decided).1.rank ∧
      ∀ node ∈ nodes, ∀ capability, nestedCapability (fun _ => false) node = some capability →
          capability.rank ≤ (nodes.foldl weigh decided).1.rank := by
  induction nodes generalizing decided with
  | nil => simp
  | cons node nodes induction =>
    obtain ⟨ends, grows, highest⟩ := induction (weigh decided node)
    rw [List.foldl_cons]
    have step : (weigh decided node = decided ∨
          ∃ found, nestedCapability (fun _ => false) node = some found ∧
            weigh decided node = (found, node)) ∧
        decided.1.rank ≤ (weigh decided node).1.rank ∧
        ∀ capability, nestedCapability (fun _ => false) node = some capability →
            capability.rank ≤ (weigh decided node).1.rank := by
      rw [weigh_eq]
      cases listed : nestedCapability (fun _ => false) node with
      | none => simp
      | some found =>
        by_cases higher : decided.1.rank < found.rank
        · simp [higher, Nat.le_of_lt higher]
        · simp only [if_neg higher]
          simpa using Nat.not_lt.mp higher
    refine ⟨?_, Nat.le_trans step.2.1 grows, ?_⟩
    · rcases ends with kept | ⟨later, member, writes, same⟩
      · rw [kept]
        rcases step.1 with unchanged | ⟨found, listed, taken⟩
        · exact Or.inl unchanged
        · rw [taken]
          exact Or.inr ⟨node, List.mem_cons_self, listed, rfl⟩
      · exact Or.inr ⟨later, List.mem_cons_of_mem _ member, writes, same⟩
    · intro other member capability writes
      rcases List.mem_cons.mp member with here | later
      · rw [here] at writes
        exact Nat.le_trans (step.2.2 capability writes) grows
      · exact highest other later capability writes

theorem classify_writes (changes : (classify lower statement).1 ≠ .read) :
    listedWrites lower statement (classify lower statement).2 (classify lower statement).1 := by
  by_cases nothing : ∀ target, ¬ Runs target statement
  · exact (changes (classify_of_not_runs nothing)).elim
  · simp only [not_forall, not_not] at nothing
    obtain ⟨target, runs⟩ := nothing
    rw [classify_of_runs runs] at changes ⊢
    obtain ⟨ends, -, -⟩ := foldl_weigh_spec (executedBelow target)
      (topCapability lower target, target)
    unfold settled at changes ⊢
    rcases ends with kept | ⟨node, member, writes, same⟩
    · rw [kept] at changes ⊢
      exact .top runs changes
    · rw [same]
      exact .nested runs member writes

theorem rank_le_classify (listed : listedWrites lower statement node capability) :
    capability.rank ≤ (classify lower statement).1.rank := by
  cases listed with
  | top runs writes =>
    rw [classify_of_runs runs]
    exact (foldl_weigh_spec (executedBelow node) (topCapability lower node, node)).2.1
  | nested runs member writes =>
    rw [classify_of_runs runs]
    exact (foldl_weigh_spec _ _).2.2 node member capability writes

theorem classify_ne_read (listed : listedWrites lower statement node capability) :
    (classify lower statement).1 ≠ .read := by
  intro reads
  have least := rank_le_classify listed
  rw [reads] at least
  exact listed.ne_read (eq_read_of_rank least rfl)

theorem OneFamily.eq_classify (family : OneFamily lower unlisted statement)
    (writes : Writes lower unlisted statement node capability) :
    capability = (classify lower statement).1 := by
  obtain ⟨⟨listed, found⟩, same⟩ := family node capability writes
  exact (same _ _ (classify_writes (classify_ne_read found))).symm

theorem firstWrite_of_listed (listed : listedWrites lower statement node capability) :
    ∃ target first, Runs target statement ∧ firstWrite lower target = some first := by
  cases listed with
  | top runs writes => exact ⟨_, _, runs, if_pos writes⟩
  | @nested target _ _ runs member writes =>
    by_cases top : topCapability lower target = .read
    · cases search : (executedBelow target).find?
          fun node => (nestedCapability (fun _ => false) node).isSome with
      | none =>
        have := List.find?_eq_none.mp search node member
        simp [writes] at this
      | some first =>
        refine ⟨target, first, runs, ?_⟩
        rw [firstWrite, if_neg (by simpa using top), search]
    · exact ⟨target, target, runs, if_pos top⟩

theorem foldl_weigh_first {nodes : List Expression}
    {decided : SqlCapabilityEnum × Expression} {first : Expression}
    (reads : decided.1 = .read)
    (search : nodes.find? (fun node =>
      (nestedCapability (fun _ => false) node).isSome) = some first)
    (same : ∀ node ∈ nodes, ∀ other, nestedCapability (fun _ => false) node = some other →
        other = capability) :
    (nodes.foldl weigh decided).2 = first := by
  induction nodes with
  | nil => cases search
  | cons node nodes induction =>
    have later : ∀ node ∈ nodes, ∀ other,
        nestedCapability (fun _ => false) node = some other → other = capability :=
      fun node member => same node (List.mem_cons_of_mem _ member)
    rw [List.find?_cons] at search
    rw [List.foldl_cons, weigh_eq]
    cases listed : nestedCapability (fun _ => false) node with
    | none =>
      rw [listed] at search
      exact induction search later
    | some found =>
      rw [listed] at search
      have here : node = first := by simpa using search
      subst here
      have higher : decided.1.rank < found.rank := by
        by_contra least
        rw [reads] at least
        exact nestedCapability_ne_read listed (eq_read_of_rank (Nat.not_lt.mp least) rfl)
      simp only [if_pos higher]
      rw [foldl_weigh_kept]
      intro other member value writes
      rw [later other member value writes, same node List.mem_cons_self found listed]

theorem OneFamily.decisive (family : OneFamily lower unlisted statement)
    (runs : Runs target statement) {first : Expression}
    (search : firstWrite lower target = some first) :
    (classify lower statement).2 = first := by
  rw [classify_of_runs runs]
  unfold settled
  unfold firstWrite at search
  split at search
  · next changes =>
      cases search
      rw [foldl_weigh_kept]
      intro node member value writes
      have top : Writes lower unlisted statement target _ :=
        listedWrites.writes (.top runs changes)
      obtain ⟨-, same⟩ := family _ _ top
      rw [same node value (.nested runs member writes)]
  · next reads =>
      have isSome := List.find?_some search
      obtain ⟨value, writes⟩ := Option.isSome_iff_exists.mp isSome
      have listed : Writes lower unlisted statement first value :=
        listedWrites.writes (.nested runs (List.mem_of_find?_eq_some search) writes)
      obtain ⟨-, same⟩ := family _ _ listed
      exact foldl_weigh_first (not_not.mp reads) search fun node member value writes =>
          same node value (.nested runs member writes)

theorem capability_of_kind (listed : listedWrites lower statement node capability)
    (kind : node.kind = .update ∨ node.kind = .delete) :
    capability = .update ∨ capability = .delete := by
  cases listed with
  | top runs writes =>
    unfold topCapability
    rcases kind with kind | kind
    · simp [kind, expressionCapability]
    · simp [kind, expressionCapability]
  | nested runs member writes =>
    unfold nestedCapability at writes
    rcases kind with kind | kind
    · simp only [kind, expressionCapability, Option.some.injEq] at writes
      exact Or.inl writes.symm
    · simp only [kind, expressionCapability, Option.some.injEq] at writes
      exact Or.inr writes.symm

theorem analyze_capability (statement : Expression) :
    (analyze lower written statement).capability = (classify lower statement).1 :=
  rfl

theorem analyze_hasWhere (statement : Expression) : (analyze lower written statement).hasWhere =
      (classify lower statement).2.args.has .whereClause :=
  rfl

theorem sent_of_allowed {strip : String → String}
    {parse : String → Except String (List (Option Expression))}
    {policy : SqlShellPolicy} {database : String → Except String Nat}
    {principal sql : String} {first : SqlStatement}
    {rest : List SqlStatement}
    (analyzed : analyzeSql lower written strip parse sql = .ok (first :: rest))
    (allowed : checkPolicy lower quote (first :: rest) policy = none) :
    (execute lower quote written strip parse policy database principal
      sql).sent = [first.sql] := by
  unfold execute
  rw [analyzed]
  simp only [allowed]
  cases database first.sql <;> rfl

def granting (lower : String → String) (expressions : List Expression)
    (requireWhere : Bool) : SqlShellPolicy where
  capabilities := expressions.map fun expression =>
    (classify lower expression).1
  allowedTables := []
  deniedTables := []
  maxStatements := expressions.length + 1
  requireWhere := requireWhere
  positive := Nat.succ_pos _

theorem allowed_of_granting {expressions : List Expression} {requireWhere : Bool}
    (kept : ∀ expression ∈ expressions, (granting lower expressions requireWhere).refusesWhere
        (analyze lower written expression) = false) :
    checkPolicy lower quote (expressions.map (analyze lower written))
      (granting lower expressions requireWhere) = none := by
  rw [checkPolicy_eq_none]
  constructor
  · simp [granting]
  · intro statement member
    obtain ⟨expression, found, rfl⟩ := List.mem_map.mp member
    refine refusal_eq_none.mpr ⟨?_, ?_, kept expression found⟩
    · exact List.mem_map_of_mem found
    · intro table present
      rfl

theorem single_of_sound {expressions : List Expression}
    (sound : Sound lower quote written unlisted expressions) :
    expressions.length ≤ 1 := by
  have allowed : checkPolicy lower quote (expressions.map (analyze lower written))
        (granting lower expressions false) = none :=
    allowed_of_granting fun _ _ => rfl
  have meant := (sound _ allowed).executed
  cases expressions with
  | nil => simp
  | cons first rest =>
    have analyzed : analyzeSql lower written (fun text => text)
        (fun _ => .ok ((first :: rest).map some)) "sql" =
          .ok ((first :: rest).map (analyze lower written)) := by
      have present : ((first :: rest).map some).reduceOption = first :: rest :=
        List.filterMap_map.trans List.filterMap_some
      simp only [analyzeSql, present]
      rfl
    have all := meant (fun text => text) _ (fun _ => .ok 0) "" "sql" analyzed
    rw [sent_of_allowed analyzed allowed] at all
    have lengths := congrArg List.length all
    simpa using lengths

theorem oneFamily_of_sound (sound : Sound lower quote written unlisted [statement]) :
    OneFamily lower unlisted statement := by
  have allowed : checkPolicy lower quote ([statement].map (analyze lower written))
        (granting lower [statement] false) = none :=
    allowed_of_granting fun _ _ => rfl
  have granted := (sound _ allowed).granted statement (List.mem_singleton_self _)
  have decided : ∀ node capability, Writes lower unlisted statement node capability →
        capability = (classify lower statement).1 := by
    intro node capability writes
    exact List.mem_singleton.mp (granted node capability writes)
  intro node capability writes
  have changes : (classify lower statement).1 ≠ .read := by
    rw [← decided node capability writes]
    exact writes.ne_read
  constructor
  · refine ⟨(classify lower statement).2, ?_⟩
    rw [decided node capability writes]
    exact classify_writes changes
  · intro listed other found
    rw [decided listed other found.writes, decided node capability writes]

theorem firstSpeaksForAll_of_sound (sound : Sound lower quote written unlisted [statement]) :
    FirstSpeaksForAll lower statement := by
  intro target runs first search hasWhere
  have decisive := (oneFamily_of_sound sound).decisive runs search
  have allowed : checkPolicy lower quote ([statement].map (analyze lower written))
        (granting lower [statement] true) = none := by
    apply allowed_of_granting
    intro expression member
    cases List.mem_singleton.mp member
    unfold SqlShellPolicy.refusesWhere
    rw [analyze_hasWhere, decisive, hasWhere]
    simp
  exact (sound _ allowed).whereKept rfl statement (List.mem_singleton_self _)

theorem whereKept_of_allowed {policy : SqlShellPolicy}
    (family : OneFamily lower unlisted statement)
    (speaks : FirstSpeaksForAll lower statement)
    (requires : policy.requireWhere = true)
    (allowed : policy.refusesWhere (analyze lower written statement) = false) :
    WhereKept lower statement := by
  intro node capability listed kind
  have decided := family.eq_classify listed.writes
  obtain ⟨target, first, runs, search⟩ := firstWrite_of_listed listed
  have decisive := family.decisive runs search
  have writesRows := capability_of_kind listed kind
  rw [decided, ← @analyze_capability lower written] at writesRows
  have hasWhere : first.args.has .whereClause = true := by
    rw [← decisive, ← @analyze_hasWhere lower written]
    unfold SqlShellPolicy.refusesWhere at allowed
    rcases writesRows with same | same
    · simpa [requires, same] using allowed
    · simpa [requires, same] using allowed
  exact speaks target runs first search hasWhere node capability listed kind

theorem sound_of_oneFamily (family : OneFamily lower unlisted statement)
    (speaks : FirstSpeaksForAll lower statement) :
    Sound lower quote written unlisted [statement] := by
  intro policy allowed
  have passed := refusal_eq_none.mp ((checkPolicy_eq_none.mp allowed).2
    (analyze lower written statement) (by simp))
  constructor
  · intro expression member node capability writes
    cases List.mem_singleton.mp member
    rw [family.eq_classify writes]
    exact passed.1
  · intro requires expression member
    cases List.mem_singleton.mp member
    exact whereKept_of_allowed family speaks requires passed.2.2
  · intro strip parse database principal sql analyzed
    exact sent_of_allowed analyzed allowed

end

/-- `WITH a AS (INSERT …), b AS (DELETE … WHERE …) SELECT …`. -/
def insertAndDelete : Expression :=
  .node .select (.child .withClause (.node .withClause (.child .expressions
          (.node .cte (.child .this (.node .insert .nil) .nil))
          (.child .expressions (.node .cte (.child .this (.node .delete
                  (.child .whereClause (.node (.other "Where") .nil) .nil))
                .nil))
            .nil)))
      .nil)

end TempestSdk.Admin
