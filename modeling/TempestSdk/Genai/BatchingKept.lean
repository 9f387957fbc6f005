import TempestSdk.Genai.Batching

/-!
# What the batch scheduler keeps

Batches, the items in hand and the queue are the items that were submitted, in
their order; and every result stands in the position of its item.
-/

namespace TempestSdk.Batching

variable {Item Result Error : Type}

section

variable {futures : List (Future Result Error)}
  {outcomes : List (Nat × Future Result Error)} {number : Nat}

@[simp] theorem length_settle (futures : List (Future Result Error))
    (number : Nat) (outcome : Future Result Error) :
    (settle futures number outcome).length = futures.length := by
  simp [settle]

@[simp] theorem length_settleAll (futures : List (Future Result Error))
    (outcomes : List (Nat × Future Result Error)) :
    (settleAll futures outcomes).length = futures.length := by
  induction outcomes generalizing futures with
  | nil => rfl
  | cons outcome rest induction => rw [settleAll, induction, length_settle]

theorem settle_cases {other : Nat} {value outcome : Future Result Error}
    (found : (settle futures number outcome)[other]? = some value) :
    futures[other]? = some value ∧ (other = number → value ≠ .pending) ∨
      other = number ∧ value = outcome := by
  rw [settle, List.getElem?_modify] at found
  split at found
  case isTrue same =>
    obtain ⟨before, there, becomes⟩ := Option.map_eq_some_iff.mp found
    cases before with
    | pending => exact .inr ⟨same.symm, becomes.symm⟩
    | result | exception | cancelled =>
      cases becomes
      refine .inl ⟨there, fun _same impossible => ?_⟩
      cases impossible
  case isFalse differs =>
    rw [Option.map_eq_map, Option.map_id'] at found
    exact .inl ⟨found, fun same => absurd same.symm differs⟩

theorem pending_settleAll (done : ∀ pair ∈ outcomes, pair.2 ≠ .pending)
    (found : (settleAll futures outcomes)[number]? = some .pending) :
    futures[number]? = some .pending ∧ ∀ pair ∈ outcomes, pair.1 ≠ number := by
  induction outcomes generalizing futures with
  | nil =>
    refine ⟨found, ?_⟩
    intro pair member
    cases member
  | cons pair rest induction =>
    obtain ⟨other, outcome⟩ := pair
    obtain ⟨set, apart⟩ := induction
      (fun pair member => done pair (List.mem_cons_of_mem _ member)) found
    have not_pending : outcome ≠ .pending := done _ List.mem_cons_self
    rcases settle_cases set with ⟨before, differs⟩ | ⟨_same, pending⟩
    · refine ⟨before, ?_⟩
      intro pair member
      rcases List.mem_cons.mp member with first | later
      · rw [first]
        exact fun same => differs same.symm rfl
      · exact apart pair later
    · exact absurd pending.symm not_pending

theorem done_settleAll {value : Future Result Error}
    (found : (settleAll futures outcomes)[number]? = some value) :
    futures[number]? = some value ∨ (number, value) ∈ outcomes := by
  induction outcomes generalizing futures with
  | nil => exact .inl found
  | cons pair rest induction =>
    obtain ⟨other, outcome⟩ := pair
    rcases induction found with set | later
    · rcases settle_cases set with ⟨before, _differs⟩ | ⟨rfl, rfl⟩
      · exact .inl before
      · exact .inr List.mem_cons_self
    · exact .inr (List.mem_cons_of_mem _ later)

end

def Place (batch : List (Entry Item)) (results : List Result) (number : Nat)
    (value : Result) : Prop :=
  ∃ (position : Nat) (entry : Entry Item), batch[position]? = some entry ∧
    entry.future = number ∧ results[position]? = some value

theorem place_of_inPosition {batch : List (Entry Item)} {results : List Result}
    {number : Nat} {value : Result}
    (member : (number, (.result value : Future Result Error)) ∈
      inPosition batch results) : Place batch results number value := by
  obtain ⟨⟨entry, result⟩, inside, same⟩ := List.mem_map.mp member
  obtain ⟨position, found⟩ := List.mem_iff_getElem?.mp inside
  obtain ⟨entry_there, result_there⟩ :=
    List.getElem?_zip_eq_some.mp found
  cases same
  exact ⟨position, entry, entry_there, rfl, result_there⟩

def Worker.held : Worker Item → List (Entry Item)
  | .waiting batch _ => batch
  | _ => []

namespace Scheduler

def line (scheduler : Scheduler Item Result Error)
    (held : List (Entry Item)) : List (Entry Item) :=
  scheduler.handed.flatten ++ held ++ scheduler.queue

/-- What holds when the given items are in hand. -/
structure Keeps (config : Config) (scheduler : Scheduler Item Result Error)
    (held : List (Entry Item)) : Prop where
  numbered : scheduler.submitted.length = scheduler.futures.length
  ordered : ((scheduler.line held).map Entry.future).Pairwise (· < ·)
  own : ∀ entry ∈ scheduler.line held, scheduler.submitted[entry.future]? = some entry.item
  sized : ∀ batch ∈ scheduler.handed, 0 < batch.length ∧ batch.length ≤ config.max_batch
  placed : ∀ number value, scheduler.futures[number]? = some (.result value) →
    ∃ batch results, (batch, results) ∈ scheduler.answered ∧ Place batch results number value
  chosen : ∀ pair ∈ scheduler.answered, pair.1 ∈ scheduler.handed

structure Kept (config : Config) (scheduler : Scheduler Item Result Error) :
    Prop where
  keeps : scheduler.Keeps config scheduler.worker.held
  forming : ∀ batch cancelled, scheduler.worker = .waiting batch cancelled →
    0 < batch.length ∧ batch.length < config.max_batch
  handling : ∀ batch, scheduler.worker = .handling batch → batch ∈ scheduler.handed

variable {config : Config} {scheduler : Scheduler Item Result Error}
  {held batch : List (Entry Item)}

theorem kept_initial : (initial : Scheduler Item Result Error).Kept config := by
  refine ⟨⟨rfl, .nil, ?_, ?_, ?_, ?_⟩, ?_, ?_⟩
  · intro entry member
    cases member
  · intro batch member
    cases member
  · intro number value found
    cases found
  · intro pair member
    cases member
  · intro batch cancelled impossible
    cases impossible
  · intro batch impossible
    cases impossible

section

variable (keeps : scheduler.Keeps config held)

include keeps

theorem Keeps.mono {queue fewer : List (Entry Item)} {worker : Worker Item}
    (part : (fewer ++ queue).Sublist (held ++ scheduler.queue)) :
    Keeps config { scheduler with queue := queue, worker := worker } fewer := by
  have lines : (({ scheduler with queue := queue, worker := worker } :
      Scheduler Item Result Error).line fewer).Sublist (scheduler.line held) := by
    unfold line
    rw [List.append_assoc, List.append_assoc]
    exact (List.Sublist.refl _).append part
  refine ⟨keeps.numbered, ?_, ?_, keeps.sized, keeps.placed, keeps.chosen⟩
  · exact keeps.ordered.sublist (lines.map _)
  · intro entry member
    exact keeps.own entry (lines.mem member)

theorem Keeps.settled {outcomes : List (Nat × Future Result Error)}
    (plain : ∀ pair ∈ outcomes, ∀ value, pair.2 ≠ .result value) :
    (scheduler.settled outcomes).Keeps config held := by
  refine ⟨?_, keeps.ordered, keeps.own, keeps.sized, ?_, keeps.chosen⟩
  · exact keeps.numbered.trans (length_settleAll _ _).symm
  · intro number value found
    rcases done_settleAll found with before | set
    · exact keeps.placed number value before
    · exact absurd rfl (plain _ set value)

theorem Keeps.answered (handed : batch ∈ scheduler.handed) (results : List Result) :
    Keeps config { scheduler.settled (inPosition batch results) with
      answered := scheduler.answered ++ [(batch, results)] } held := by
  refine ⟨?_, keeps.ordered, keeps.own, keeps.sized, ?_, ?_⟩
  · exact keeps.numbered.trans (length_settleAll _ _).symm
  · intro number value found
    rcases done_settleAll found with before | set
    · obtain ⟨other, others, answered, place⟩ := keeps.placed number value before
      exact ⟨other, others, List.mem_append_left _ answered, place⟩
    · refine ⟨batch, results, ?_, place_of_inPosition set⟩
      exact List.mem_append_right _ (List.mem_singleton.mpr rfl)
  · intro pair member
    rcases List.mem_append.mp member with before | fresh
    · exact keeps.chosen pair before
    · rw [List.mem_singleton.mp fresh]
      exact handed

end

theorem Keeps.hand (keeps : scheduler.Keeps config batch)
    (some_item : 0 < batch.length) (small : batch.length ≤ config.max_batch) :
    (scheduler.hand batch).Kept config := by
  have lines : (scheduler.hand batch).line [] = scheduler.line batch := by
    simp [line, Scheduler.hand]
  refine ⟨⟨keeps.numbered, ?_, ?_, ?_, keeps.placed, ?_⟩, ?_, ?_⟩
  · change (((scheduler.hand batch).line []).map Entry.future).Pairwise _
    rw [lines]
    exact keeps.ordered
  · intro entry member
    change entry ∈ (scheduler.hand batch).line [] at member
    rw [lines] at member
    exact keeps.own entry member
  · intro other member
    rcases List.mem_append.mp member with before | fresh
    · exact keeps.sized other before
    · rw [List.mem_singleton.mp fresh]
      exact ⟨some_item, small⟩
  · intro pair member
    exact List.mem_append_left _ (keeps.chosen pair member)
  · intro other cancelled impossible
    cases impossible
  · intro other same
    cases same
    exact List.mem_append_right _ (List.mem_singleton.mpr rfl)

theorem Keeps.form (keeps : scheduler.Keeps config held) (waits : Bool)
    (room : held.length < config.max_batch)
    (some_item : 0 < held.length ∨ 0 < scheduler.queue.length) :
    (scheduler.form config waits held).Kept config := by
  have part : (held ++ scheduler.queue.take (config.max_batch - held.length) ++
      scheduler.queue.drop (config.max_batch - held.length)).Sublist
        (held ++ scheduler.queue) := by
    rw [List.append_assoc, List.take_append_drop]
  have length : (held ++ scheduler.queue.take (config.max_batch - held.length)).length =
      held.length + min (config.max_batch - held.length) scheduler.queue.length := by
    rw [List.length_append, List.length_take]
  unfold Scheduler.form
  dsimp only
  split
  case isTrue waiting =>
    refine ⟨keeps.mono part, ?_, ?_⟩
    · intro batch cancelled same
      cases same
      refine ⟨?_, waiting.1⟩
      omega
    · intro batch impossible
      cases impossible
  case isFalse =>
    apply Keeps.hand (keeps.mono part)
    · omega
    · omega

theorem Keeps.loop (keeps : scheduler.Keeps config []) (waits : Bool) :
    (scheduler.loop config waits).Kept config := by
  unfold Scheduler.loop
  split
  case isTrue =>
    refine ⟨keeps.mono (List.Sublist.refl _), ?_, ?_⟩
    · intro batch cancelled impossible
      cases impossible
    · intro batch impossible
      cases impossible
  case isFalse filled =>
    apply keeps.form waits config.positive
    right
    exact List.length_pos_of_ne_nil fun empty => filled (by rw [empty]; rfl)

theorem plain_allTo {entries : List (Entry Item)}
    {outcome : Future Result Error} (plain : ∀ value, outcome ≠ .result value) :
    ∀ pair ∈ allTo entries outcome, ∀ value, pair.2 ≠ .result value := by
  intro pair member value
  obtain ⟨entry, _inside, rfl⟩ := List.mem_map.mp member
  exact plain value

theorem Keeps.abandon (keeps : scheduler.Keeps config held) :
    scheduler.abandon.Kept config := by
  have settled : (scheduler.settled (allTo scheduler.queue .cancelled)).Keeps config held := by
    apply keeps.settled
    apply plain_allTo
    intro value impossible
    cases impossible
  refine ⟨settled.mono (List.nil_sublist _), ?_, ?_⟩
  · intro batch cancelled impossible
    cases impossible
  · intro batch impossible
    cases impossible

theorem submit_worker (scheduler : Scheduler Item Result Error) (item : Item) :
    scheduler.worker ≠ .idle ∧ (scheduler.submit item).worker = scheduler.worker ∨
      scheduler.worker = .idle ∧ (scheduler.submit item).worker = .created false := by
  unfold Scheduler.submit
  cases scheduler.worker with
  | idle => exact .inr ⟨rfl, rfl⟩
  | created | waiting | handling =>
    refine .inl ⟨?_, rfl⟩
    intro idle
    cases idle

theorem submit_adds (scheduler : Scheduler Item Result Error) (item : Item) :
    (scheduler.submit item).handed = scheduler.handed ∧
      (scheduler.submit item).answered = scheduler.answered ∧
      (scheduler.submit item).queue = scheduler.queue ++ [⟨item, scheduler.futures.length⟩] ∧
      (scheduler.submit item).futures = scheduler.futures ++ [.pending] ∧
      (scheduler.submit item).submitted = scheduler.submitted ++ [item] := by
  unfold Scheduler.submit
  cases scheduler.worker with
  | idle | created | waiting | handling => exact ⟨rfl, rfl, rfl, rfl, rfl⟩

theorem Kept.submit (kept : scheduler.Kept config) (item : Item) :
    (scheduler.submit item).Kept config := by
  have keeps := kept.keeps
  have worker : (scheduler.submit item).worker.held = scheduler.worker.held := by
    rcases scheduler.submit_worker item with ⟨_busy, same⟩ | ⟨idle, created⟩
    · rw [same]
    · rw [idle, created]
      rfl
  obtain ⟨handed, answered, queue, futures, submitted⟩ :=
    scheduler.submit_adds item
  have line : (scheduler.submit item).line (scheduler.submit item).worker.held =
      scheduler.line scheduler.worker.held ++ [⟨item, scheduler.futures.length⟩] := by
    rw [Scheduler.line, handed, queue, worker, ← List.append_assoc]
    rfl
  have below : ∀ entry ∈ scheduler.line scheduler.worker.held,
      entry.future < scheduler.submitted.length := by
    intro entry member
    have own := keeps.own entry member
    exact (List.getElem?_eq_some_iff.mp own).1
  refine ⟨⟨?_, ?_, ?_, ?_, ?_, ?_⟩, ?_, ?_⟩
  · rw [submitted, futures, List.length_append, List.length_append, keeps.numbered]
    rfl
  · rw [line, List.map_append, List.pairwise_append]
    refine ⟨keeps.ordered, List.pairwise_singleton _ _, ?_⟩
    intro number member last is_last
    obtain ⟨entry, inside, rfl⟩ := List.mem_map.mp member
    have small := below entry inside
    rw [keeps.numbered] at small
    rw [List.mem_singleton.mp is_last]
    exact small
  · intro entry member
    rw [line] at member
    rw [submitted]
    rcases List.mem_append.mp member with before | fresh
    · rw [List.getElem?_append_left (below entry before)]
      exact keeps.own entry before
    · rw [List.mem_singleton.mp fresh, ← keeps.numbered,
        List.getElem?_append_right (Nat.le_refl _), Nat.sub_self]
      rfl
  · rw [handed]
    exact keeps.sized
  · intro number value found
    rw [answered]
    rw [futures] at found
    apply keeps.placed number value
    rcases Nat.lt_or_ge number scheduler.futures.length with small | large
    · rw [List.getElem?_append_left small] at found
      exact found
    · rw [List.getElem?_append_right large] at found
      have inside := List.mem_of_getElem? found
      cases List.mem_singleton.mp inside
  · rw [answered, handed]
    exact keeps.chosen
  · intro batch cancelled waiting
    apply kept.forming batch cancelled
    rcases scheduler.submit_worker item with ⟨_busy, same⟩ | ⟨_idle, created⟩
    · rw [← same]
      exact waiting
    · rw [created] at waiting
      cases waiting
  · intro batch handling
    rw [handed]
    apply kept.handling batch
    rcases scheduler.submit_worker item with ⟨_busy, same⟩ | ⟨_idle, created⟩
    · rw [← same]
      exact handling
    · rw [created] at handling
      cases handling

theorem Keeps.failed (keeps : scheduler.Keeps config held) (failure : Failure Error) :
    (scheduler.settled (allTo batch (.exception failure))).Keeps config held := by
  apply keeps.settled
  apply plain_allTo
  intro value impossible
  cases impossible

theorem Keeps.cancelled (keeps : scheduler.Keeps config held) :
    (scheduler.settled (allTo batch .cancelled)).Keeps config held := by
  apply keeps.settled
  apply plain_allTo
  intro value impossible
  cases impossible

theorem Keeps.answer (keeps : scheduler.Keeps config [])
    (handed : batch ∈ scheduler.handed) (waits : Bool)
    (answer : Answer Result Error) :
    (scheduler.answer config waits batch answer).Kept config := by
  cases answer with
  | error error => exact (keeps.failed (.handler error)).loop waits
  | cancelled =>
    unfold Scheduler.answer
    dsimp only
    split
    case isTrue => exact keeps.cancelled.abandon
    case isFalse => exact keeps.cancelled.loop waits
  | fatal error => exact (keeps.failed (.raised error)).abandon
  | unsized => exact (keeps.failed .unsized).loop waits
  | results results =>
    unfold Scheduler.answer
    dsimp only
    split
    case isTrue => exact (keeps.answered handed results).loop waits
    case isFalse => exact (keeps.failed (.count results.length batch.length)).loop waits

end Scheduler

end TempestSdk.Batching
