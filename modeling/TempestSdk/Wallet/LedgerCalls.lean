import TempestSdk.Wallet.Ledger

/-!
# What one ledger call leaves behind

The three moves share a body, so one specification of the body and one of the
`transaction()` around it specify every call.  Later modules cite `call_spec`
and never look inside a move.
-/

namespace TempestSdk

namespace Wallet

namespace LedgerSession

/-- What the body of a move leaves behind.  Only an exception of the late
kind, or one that leaves the session unusable, keeps a change. -/
structure BodySpec (session after : LedgerSession)
    (result : Except LedgerError (Option Entry)) : Prop where
  durable : after.durable = session.durable
  blocks : after.blocks = session.blocks
  failed : session.failed = true → after.failed = true
  moved : ∀ entry, result = .ok (some entry) → session.failed = false ∧ after.failed = false ∧
      session.working.Moved entry after.working
  unmatched : result = .ok none → session.failed = false ∧ after = session
  refused : ∀ error, result = .error error → error.late = false →
    after.working = session.working ∨ after.failed = true

variable {session : LedgerSession}

theorem moveBody_spec {fault : Fault} {userId : UserId} {deltaCents : Int}
    {floor : Option Int} {unmatched : Except LedgerError (Option Entry)}
    {lineFor : Int → Except LedgerError Entry}
    (floored : deltaCents < 0 → ∃ bound, floor = some bound ∧ 0 ≤ bound)
    (answer : ∀ entry, unmatched ≠ .ok (some entry))
    (lines : ∀ balanceAfter entry, lineFor balanceAfter = .ok entry →
      entry.userId = userId ∧ entry.amountCents = deltaCents ∧
        entry.balanceAfterCents = balanceAfter)
    (overflow : ∀ balanceAfter error, lineFor balanceAfter = .error error → error.late = true) :
    BodySpec session (session.moveBody fault userId deltaCents floor unmatched lineFor).1
      (session.moveBody fault userId deltaCents floor unmatched lineFor).2 := by
  rcases apply_cases session fault userId deltaCents floor with
    ⟨after, refused, working, durable, blocks, failed⟩ |
    ⟨usable, missing⟩ | ⟨usable, balance, found, allowed, applied⟩
  · have body : session.moveBody fault userId deltaCents floor unmatched
        lineFor = (after, .error .database) := by
      simp [moveBody, refused]
    rw [body]
    exact { durable, blocks, failed, moved := by simp, unmatched := by simp
            refused := fun _ _ _ => .inl working }
  · have body : session.moveBody fault userId deltaCents floor unmatched
        lineFor = (session, unmatched) := by
      simp [moveBody, missing]
    rw [body]
    exact { durable := rfl, blocks := rfl, failed := id
            moved := fun entry returned => absurd returned (answer entry)
            unmatched := fun _ => ⟨usable, rfl⟩
            refused := fun _ _ _ => .inl rfl }
  · cases built : lineFor (balance + deltaCents) with
    | error error =>
      have late := overflow _ _ built
      have body : (session.moveBody fault userId deltaCents floor unmatched
          lineFor).2 = .error error := by
        simp [moveBody, applied, built]
      refine { durable := ?_, blocks := ?_, failed := ?_, moved := ?_
               unmatched := ?_, refused := ?_ }
      · simp [moveBody, applied, built]
      · simp [moveBody, applied, built]
      · simp [usable]
      · simp [body]
      · simp [body]
      · rw [body]
        rintro other ⟨rfl⟩ notLate
        simp [late] at notLate
    | ok entry =>
      obtain ⟨rfl, amount, after⟩ := lines _ _ built
      have nonneg : entry.amountCents < 0 → 0 ≤ balance + entry.amountCents := by
        intro negative
        obtain ⟨bound, rfl, bounded⟩ := floored (by omega)
        simp only [floorAllows, decide_eq_true_eq] at allowed
        omega
      let updated : LedgerSession :=
        { session with
          working :=
            session.working.setBalance entry.userId (balance + deltaCents) }
      have moved : session.working.Moved entry (updated.working.insert entry) :=
        { balance := ⟨balance, found, by omega, nonneg⟩
          wallets := by rw [after]; rfl
          entries := rfl }
      have body : session.moveBody fault entry.userId deltaCents floor
          unmatched lineFor = updated.writeEntry fault entry := by
        simp only [moveBody, applied, built, updated]
      rw [body]
      obtain ⟨durable, blocks, written⟩ :=
        writeEntry_spec updated fault usable moved
      refine { durable, blocks, failed := ?_, moved := ?_, unmatched := ?_
               refused := ?_ }
      · simp [usable]
      · intro other returned
        rcases written with ⟨result, kept, committed⟩ | ⟨result, _⟩ | result
        · rw [result] at returned
          cases returned
          exact ⟨usable, kept, committed⟩
        · simp [result] at returned
        · simp [result] at returned
      · intro returned
        rcases written with ⟨result, _⟩ | ⟨result, _⟩ | result <;>
          simp [result] at returned
      · intro error returned notLate
        rcases written with ⟨result, _⟩ | ⟨result, unusable⟩ | result
        · simp [result] at returned
        · exact .inr unusable
        · rw [result] at returned
          cases returned
          simp [LedgerError.late] at notLate

/-- What a whole call leaves behind.  With no block open the call owns the
commit and the rollback; inside a block both are left to the block. -/
structure CallSpec (session after : LedgerSession)
    (result : Except LedgerError (Option Entry)) : Prop where
  blocks : after.blocks = session.blocks
  moved : ∀ entry, result = .ok (some entry) → session.failed = false ∧ after.failed = false ∧
      session.working.Moved entry after.working ∧
      after.durable = if session.blocks = [] then after.working else session.durable
  unmatched : result = .ok none → session.failed = false ∧ after.failed = false ∧
      after.working = session.working ∧
      after.durable = if session.blocks = [] then session.working else session.durable
  refused : ∀ error, result = .error error → after.durable = session.durable ∧
      (session.blocks = [] → after = session ∨
          (after.working = session.durable ∧ after.failed = false)) ∧
      (session.blocks ≠ [] → (session.failed = true → after.failed = true) ∧
          (error.late = false → after.working = session.working ∨ after.failed = true))

theorem callSpec_valueError (session : LedgerSession) (message : String) :
    CallSpec session session (.error (.valueError message)) := by
  constructor <;> simp

theorem leave_transaction_nil {raised : Bool} (opened : session.blocks = [.transaction]) :
    session.leave raised = if raised || session.failed then
        { session with
          working := session.durable, blocks := [], failed := false }
      else { session with durable := session.working, blocks := [] } := by
  cases raised <;> cases failed : session.failed <;>
    simp [leave, opened, failed, Block.leave, settle]

theorem leave_transaction_cons {raised : Bool} (block : Block LedgerDb)
    (outer : List (Block LedgerDb))
    (opened : session.blocks = .transaction :: block :: outer) :
    session.leave raised = { session with blocks := block :: outer } := by
  simp [leave, opened, Block.leave, settle]

theorem transaction_spec
    {body : LedgerSession → LedgerSession × Except LedgerError (Option Entry)}
    (spec : ∀ session, BodySpec session (body session).1 (body session).2)
    (session : LedgerSession) :
    CallSpec session (session.transaction body).1 (session.transaction body).2 := by
  let opened : LedgerSession :=
    { session with blocks := .transaction :: session.blocks }
  have ran := spec opened
  have whole : session.transaction body =
      ((body opened).1.leave (!(body opened).2.isOk), (body opened).2) := rfl
  rw [whole]
  generalize body opened = answer at ran
  obtain ⟨inner, result⟩ := answer
  cases blocks : session.blocks with
  | nil =>
    rw [leave_transaction_nil (by rw [ran.blocks]; simp [opened, blocks])]
    refine { blocks := by split <;> simp [blocks], moved := ?_
             unmatched := ?_, refused := ?_ }
    · rintro entry ⟨rfl⟩
      obtain ⟨usable, kept, moved⟩ := ran.moved entry rfl
      have kept : inner.failed = false := kept
      simpa [kept, Except.isOk, Except.toBool, blocks] using And.intro usable moved
    · rintro ⟨rfl⟩
      obtain ⟨usable, same⟩ := ran.unmatched rfl
      have same : inner = opened := same
      have usable : session.failed = false := usable
      simp [same, usable, Except.isOk, Except.toBool, opened, blocks]
    · rintro error ⟨rfl⟩
      have durable : inner.durable = session.durable := ran.durable
      simp [Except.isOk, Except.toBool, durable, blocks]
  | cons block outer =>
    rw [leave_transaction_cons block outer (by rw [ran.blocks]; simp [opened, blocks])]
    refine { blocks := by simp [blocks], moved := ?_, unmatched := ?_
             refused := ?_ }
    · intro entry returned
      obtain ⟨usable, kept, moved⟩ := ran.moved entry returned
      simpa [blocks] using And.intro usable ⟨kept, moved, ran.durable⟩
    · intro returned
      obtain ⟨usable, same⟩ := ran.unmatched returned
      have same : inner = opened := same
      have usable : session.failed = false := usable
      simp [same, usable, opened, blocks]
    · intro error returned
      refine ⟨ran.durable, by simp [blocks], fun _ => ⟨ran.failed, ?_⟩⟩
      exact ran.refused error returned

theorem call_spec (session : LedgerSession) (fault : Fault) (now : Int) (call : Call) :
    CallSpec session (session.call fault now call).1 (session.call fault now call).2 := by
  cases call with
  | credit userId amountCents details hold =>
    simp only [LedgerSession.call, credit]
    split
    · exact callSpec_valueError session _
    · next positive =>
        split
        · exact callSpec_valueError session _
        · apply transaction_spec
          intro inner
          apply moveBody_spec
          · intro negative
            omega
          · simp
          · intro balanceAfter entry built
            split at built
            · simp at built
            · cases built
              simp [line]
          · intro balanceAfter error built
            split at built
            · cases built
              rfl
            · simp at built
  | debitAvailable userId amountCents details =>
    simp only [LedgerSession.call, debitAvailable]
    split
    · exact callSpec_valueError session _
    · apply transaction_spec
      intro inner
      apply moveBody_spec
      · exact fun _ => ⟨_, rfl, heldCents_nonneg _ _ _⟩
      · simp
      · rintro balanceAfter entry ⟨rfl⟩
        simp [line]
      · simp
  | reverse userId amountCents details =>
    simp only [LedgerSession.call, reverse]
    split
    · exact callSpec_valueError session _
    · apply transaction_spec
      intro inner
      apply moveBody_spec
      · exact fun _ => ⟨0, rfl, le_refl 0⟩
      · simp
      · rintro balanceAfter entry ⟨rfl⟩
        simp [line]
      · simp

theorem moveBody_accepted {fault : Fault} {userId : UserId} {deltaCents : Int}
    {floor : Option Int} {unmatched : Except LedgerError (Option Entry)}
    {lineFor : Int → Except LedgerError Entry} {entry : Entry}
    (answer : unmatched ≠ .ok (some entry))
    (accepted : (session.moveBody fault userId deltaCents floor unmatched
      lineFor).2 = .ok (some entry)) :
    ∃ balance, session.working.wallets userId = some balance ∧
      floorAllows floor (balance + deltaCents) = true := by
  rcases apply_cases session fault userId deltaCents floor with
    ⟨after, refused, _⟩ | ⟨_, missing⟩ | ⟨_, balance, found, allowed, _⟩
  · simp [moveBody, refused] at accepted
  · simp [moveBody, missing, answer] at accepted
  · exact ⟨balance, found, allowed⟩

theorem debitAvailable_covered {fault : Fault} {now : Int} {userId : UserId}
    {amountCents : Int} {details : Details} {entry : Entry}
    (accepted : (session.debitAvailable fault now userId amountCents
      details).2 = .ok (some entry)) :
    ∃ balance, session.working.wallets userId = some balance ∧
      heldCents session.working.entries userId now ≤ balance - amountCents := by
  unfold debitAvailable at accepted
  split at accepted
  · simp at accepted
  · have body := accepted
    simp only [transaction] at body
    obtain ⟨balance, found, allowed⟩ :=
      moveBody_accepted (by simp) body
    refine ⟨balance, found, ?_⟩
    simp only [floorAllows, decide_eq_true_eq] at allowed
    omega

end LedgerSession

end Wallet

end TempestSdk
