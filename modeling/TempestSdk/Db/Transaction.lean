import Mathlib.Data.List.Basic

/-!
# The blocks open on one session

`transaction(session)` counts its nesting on the session, so every repository
bound to the session sees the same open blocks.  An inner block joins the
outer one; only the exit of the outermost `transaction()` reaches the
database.  `savepoint(session)` bumps the same counter and reverts to where it
was opened when an exception leaves it.

A block is data here: the list of open blocks, innermost first.  The functions
below say what leaving the innermost one asks of the database; what that means
is up to the model that carries the rows.
-/

namespace TempestSdk

abbrev UserId := Nat

/-- A database transaction, which is one unit of work of one session. -/
abbrev TxId := Nat

/-- One open block, with what a savepoint has to restore. -/
inductive Block (Saved : Type) where
  | transaction
  | savepoint (saved : Saved)

inductive Ending (Saved : Type) where
  | commit
  | rollback
  | rollbackTo (saved : Saved)
  | joined

namespace Block

variable {Saved : Type}

/-- `transaction_depth`: the counter on `session.info`. -/
def transactionDepth (blocks : List (Block Saved)) : Nat := blocks.length

/-- `in_transaction`: writes flush instead of committing. -/
def inTransaction (blocks : List (Block Saved)) : Bool :=
  decide (0 < transactionDepth blocks)

/-- Leave the innermost block.  `raised` says that an exception passes
through; `failed` that the database refuses everything until a rollback, in
which case a commit or a release raises instead of succeeding. -/
def leave (raised failed : Bool) :
    List (Block Saved) → Option (Ending Saved × List (Block Saved))
  | [] => none
  | .transaction :: outer =>
    if inTransaction outer then some (.joined, outer)
    else if raised || failed then some (.rollback, outer)
    else some (.commit, outer)
  | .savepoint saved :: outer =>
    if raised || failed then some (.rollbackTo saved, outer)
    else some (.joined, outer)

@[simp] theorem inTransaction_nil :
    inTransaction ([] : List (Block Saved)) = false := rfl

@[simp] theorem inTransaction_cons (block : Block Saved)
    (blocks : List (Block Saved)) :
    inTransaction (block :: blocks) = true := by
  simp [inTransaction, transactionDepth]

theorem leave_cases {raised failed : Bool} {blocks outer : List (Block Saved)}
    {ending : Ending Saved}
    (left : leave raised failed blocks = some (ending, outer)) :
    (blocks = [.transaction] ∧ outer = [] ∧
        ((raised = false ∧ failed = false ∧ ending = .commit) ∨
          ((raised || failed) = true ∧ ending = .rollback))) ∨
      (blocks = .transaction :: outer ∧ outer ≠ [] ∧ ending = .joined) ∨
      ∃ saved, blocks = .savepoint saved :: outer ∧
        (((raised || failed) = true ∧ ending = .rollbackTo saved) ∨
          (raised = false ∧ failed = false ∧ ending = .joined)) := by
  cases blocks with
  | nil => simp [leave] at left
  | cons inner rest =>
    cases inner with
    | transaction =>
      cases rest with
      | nil =>
        left
        cases raised <;> cases failed <;> simp_all [leave, eq_comm]
      | cons block rest =>
        right; left
        simp only [leave, inTransaction_cons, if_true, Option.some.injEq, Prod.mk.injEq] at left
        obtain ⟨rfl, rfl⟩ := left
        simp
    | savepoint saved =>
      right; right
      refine ⟨saved, ?_⟩
      cases raised <;> cases failed <;> simp_all [leave, eq_comm]

end Block

end TempestSdk
