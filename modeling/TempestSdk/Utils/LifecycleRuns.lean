import Mathlib.Data.List.Chain
import TempestSdk.Library.Entries
import TempestSdk.Library.Runs
import TempestSdk.Utils.Lifecycle

/-!
# Runs of a lifecycle

Any number of threads on one managed model, each block under a lock one step
and a build two.  A thread may use the model within a use of its own; any use
may be the next to go on, which allows more orders than threads do.
-/

namespace TempestSdk.Lifecycle

open ModelLifecycle

inductive Phase where
  | admitted
  | building
  | inside
  | failed
deriving DecidableEq

structure Use where
  thread : Nat
  phase : Phase
deriving DecidableEq

inductive Event where
  | built
  | released
deriving DecidableEq

structure Managed where
  model : ModelLifecycle Empty
  /-- The uses between entering and leaving, the first one first. -/
  uses : List Use
  clock : ℚ
  history : List Event
deriving DecidableEq

inductive Action where
  | use (thread : Nat)
  | acquire (index : Nat)
  | finishBuild (index : Nat) (success : Bool)
  | leave (index : Nat)
  | unload
  | unloadIfIdle (threshold : Option ℚ)
  | elapse (duration : ℚ)

namespace Managed

def initial (now : ℚ) : Managed where
  model := .init now
  uses := []
  clock := now
  history := []

def threadCalls (managed : Managed) (thread : Nat) : Nat :=
  managed.uses.countP fun use => use.thread = thread

def phaseAt (managed : Managed) (index : Nat) : Option Phase :=
  managed.uses[index]?.map Use.phase

def setPhase (managed : Managed) (index : Nat) (phase : Phase) : Managed :=
  { managed with
    uses := managed.uses.modify index fun use => { use with phase := phase } }

def unlocked (managed : Managed) : Bool :=
  managed.uses.all fun use => decide (use.phase ≠ .building)

def note (managed : Managed) (model : ModelLifecycle Empty) : Managed :=
  { managed with
    model := model
    history :=
      if managed.model.loaded = true ∧ model.loaded = false then
        .released :: managed.history
      else managed.history }

end Managed

open Managed

def step (managed : Managed) : Action → Option Managed
  | .use thread =>
    if managed.model.admits (managed.threadCalls thread) then
      some { managed with
        model := managed.model.enter managed.clock
        uses := managed.uses ++ [⟨thread, .admitted⟩] }
    else none
  | .acquire index =>
    if managed.phaseAt index = some .admitted ∧ managed.unlocked = true then
      if managed.model.loaded then some (managed.setPhase index .inside)
      else some (managed.setPhase index .building)
    else none
  | .finishBuild index success =>
    if managed.phaseAt index = some .building then
      if success then
        some { managed.setPhase index .inside with
          model := managed.model.built
          history := .built :: managed.history }
      else some (managed.setPhase index .failed)
    else none
  | .leave index =>
    if managed.phaseAt index = some .inside ∨ managed.phaseAt index = some .failed then
      some { managed.note (managed.model.leave managed.clock) with
        uses := managed.uses.eraseIdx index }
    else none
  | .unload => some (managed.note managed.model.unload.2)
  | .unloadIfIdle threshold =>
    some (managed.note (managed.model.unloadIfIdle threshold managed.clock).2)
  | .elapse duration =>
    if 0 ≤ duration then
      some { managed with clock := managed.clock + duration }
    else none

structure Sound (managed : Managed) : Prop where
  counted : managed.model.inFlight = managed.uses.length
  free : managed.model.evicted = false ∧ managed.model.blockers = []
  resident : ∀ use ∈ managed.uses, use.phase = .inside → managed.model.loaded = true
  absent : ∀ use ∈ managed.uses, use.phase = .building → managed.model.loaded = false
  one_builder : managed.uses.countP (fun use => use.phase = .building) ≤ 1
  draining : managed.model.unloadPending = true → managed.uses ≠ []
  newest : managed.history.head? = some .built ↔ managed.model.loaded = true
  in_turn : managed.history.IsChain (· ≠ ·)

section

variable {managed next : Managed}

theorem Sound.initial (now : ℚ) : Sound (Managed.initial now) := by
  constructor
  · rfl
  · exact ⟨rfl, rfl⟩
  · intro use member
    cases member
  · intro use member
    cases member
  · exact Nat.zero_le _
  · intro pending
    cases pending
  · simp [Managed.initial, ModelLifecycle.init]
  · exact List.isChain_nil

variable {index : Nat} {phase : Phase}

theorem mem_setPhase {use : Use} (member : use ∈ (managed.setPhase index phase).uses) :
    use ∈ managed.uses ∨ use.phase = phase := by
  rcases Entries.mem_modify member with old | ⟨old, _inside, same⟩
  · exact .inl old
  · exact .inr (same ▸ rfl)

theorem length_setPhase (index : Nat) (phase : Phase) :
    (managed.setPhase index phase).uses.length = managed.uses.length :=
  List.length_modify _ _ _

theorem count_building {old : Phase} (phase : Phase)
    (there : managed.phaseAt index = some old) :
    (managed.setPhase index phase).uses.countP (fun use => use.phase = .building) +
      (if old = .building then 1 else 0) =
    managed.uses.countP (fun use => use.phase = .building) +
      if phase = .building then 1 else 0 := by
  obtain ⟨use, found, rfl⟩ := Option.map_eq_some_iff.mp there
  have counted := Entries.countP_modify (fun use => decide (use.phase = .building))
    (fun use => { use with phase := phase }) found
  simp only [decide_eq_true_eq] at counted
  exact counted

theorem mem_of_phaseAt (there : managed.phaseAt index = some phase) :
    ∃ use ∈ managed.uses, use.phase = phase := by
  obtain ⟨use, found, same⟩ := Option.map_eq_some_iff.mp there
  exact ⟨use, List.mem_of_getElem? found, same⟩

theorem none_building (unlocked : managed.unlocked = true) :
    managed.uses.countP (fun use => use.phase = .building) = 0 := by
  apply List.countP_eq_zero.mpr
  intro use member building
  have other := of_decide_eq_true (List.all_eq_true.mp unlocked use member)
  exact other (of_decide_eq_true building)

section

variable (sound : Sound managed)

include sound

theorem Sound.same_uses (model : ModelLifecycle Empty)
    (count : model.inFlight = managed.model.inFlight)
    (free : model.evicted = managed.model.evicted ∧ model.blockers = managed.model.blockers)
    (loaded : model.loaded = managed.model.loaded)
    (draining : model.unloadPending = true → managed.uses ≠ []) (clock : ℚ) :
    Sound { managed with model := model, clock := clock } := by
  constructor
  · exact count.trans sound.counted
  · rw [free.1, free.2]
    exact sound.free
  · intro use member inside
    exact loaded.trans (sound.resident use member inside)
  · intro use member building
    exact loaded.trans (sound.absent use member building)
  · exact sound.one_builder
  · exact draining
  · change _ ↔ model.loaded = true
    rw [loaded]
    exact sound.newest
  · exact sound.in_turn

theorem Sound.dropped (model : ModelLifecycle Empty) (quiet : model.inFlight = 0)
    (free : model.evicted = false ∧ model.blockers = [])
    (pending : model.unloadPending = false) (gone : model.loaded = false)
    (clock : ℚ) :
    Sound { managed.note model with uses := [], clock := clock } := by
  constructor
  · exact quiet
  · exact free
  · intro use member
    cases member
  · intro use member
    cases member
  · exact Nat.zero_le _
  · intro still
    rw [show model.unloadPending = true from still] at pending
    cases pending
  · change (if _ then _ else _ : List Event).head? = _ ↔ model.loaded = true
    rw [gone]
    split
    case isTrue => simp
    case isFalse kept =>
      have absent : managed.model.loaded = false := by simpa using kept
      rw [sound.newest, absent]
  · change (if _ then _ else _ : List Event).IsChain _
    split
    case isTrue dropped =>
      apply List.isChain_cons.mpr
      refine ⟨?_, sound.in_turn⟩
      intro event first same
      rw [← same, sound.newest.mpr dropped.1] at first
      cases first
    case isFalse => exact sound.in_turn

theorem Sound.moved {old phase : Phase} (there : managed.phaseAt index = some old)
    (inside : phase = .inside → managed.model.loaded = true)
    (building : phase = .building → managed.model.loaded = false ∧ managed.unlocked = true) :
    Sound (managed.setPhase index phase) := by
  have counted := count_building phase there
  constructor
  · rw [length_setPhase]
    exact sound.counted
  · exact sound.free
  · intro use member within
    rcases mem_setPhase member with earlier | now
    · exact sound.resident use earlier within
    · exact inside (now.symm.trans within)
  · intro use member within
    rcases mem_setPhase member with earlier | now
    · exact sound.absent use earlier within
    · exact (building (now.symm.trans within)).1
  · by_cases builds : phase = .building
    · have none_yet := none_building (building builds).2
      rw [if_pos builds] at counted
      omega
    · have before := sound.one_builder
      rw [if_neg builds] at counted
      omega
  · intro pending same
    apply sound.draining pending
    have lengths := congrArg List.length same
    rw [length_setPhase] at lengths
    exact List.length_eq_zero_iff.mp lengths
  · exact sound.newest
  · exact sound.in_turn

theorem Sound.enter (thread : Nat) : Sound { managed with
      model := managed.model.enter managed.clock
      uses := managed.uses ++ [⟨thread, .admitted⟩] } := by
  have old_or_new : ∀ use ∈ managed.uses ++ [⟨thread, .admitted⟩],
      use ∈ managed.uses ∨ use.phase = .admitted := by
    intro use member
    rcases List.mem_append.mp member with old | new
    · exact .inl old
    · exact .inr (by rw [List.mem_singleton.mp new])
  constructor
  · rw [List.length_append]
    exact congrArg (· + 1) sound.counted
  · exact sound.free
  · intro use member inside
    rcases old_or_new use member with old | new
    · exact sound.resident use old inside
    · rw [new] at inside
      cases inside
  · intro use member building
    rcases old_or_new use member with old | new
    · exact sound.absent use old building
    · rw [new] at building
      cases building
  · rw [List.countP_append]
    exact sound.one_builder
  · intro _pending
    simp
  · exact sound.newest
  · exact sound.in_turn

theorem Sound.built (there : managed.phaseAt index = some .building) :
    Sound { managed.setPhase index .inside with
      model := managed.model.built, history := .built :: managed.history } := by
  obtain ⟨builder, member, building⟩ := mem_of_phaseAt there
  have absent := sound.absent builder member building
  have counted := count_building .inside there
  rw [if_pos rfl, if_neg (by simp)] at counted
  have none_left : (managed.setPhase index .inside).uses.countP
      (fun use => use.phase = .building) = 0 := by
    have before := sound.one_builder
    omega
  constructor
  · exact sound.counted.trans (length_setPhase index .inside).symm
  · exact sound.free
  · intro use member inside
    rfl
  · intro use member builds
    have some_left : (fun use : Use => decide (use.phase = .building)) use ≠
        true := List.countP_eq_zero.mp none_left use member
    exact (some_left (decide_eq_true builds)).elim
  · change (managed.setPhase index .inside).uses.countP _ ≤ 1
    omega
  · intro pending same
    apply sound.draining pending
    have lengths := congrArg List.length same
    exact List.length_eq_zero_iff.mp ((length_setPhase index .inside).symm.trans lengths)
  · simp [ModelLifecycle.built]
  · apply List.isChain_cons.mpr
    refine ⟨?_, sound.in_turn⟩
    intro event first same
    rw [← same] at first
    rw [sound.newest.mp first] at absent
    cases absent

theorem Sound.leave (there : managed.phaseAt index = some phase) :
    Sound { managed.note (managed.model.leave managed.clock) with
      uses := managed.uses.eraseIdx index } := by
  obtain ⟨use, found, _same⟩ := Option.map_eq_some_iff.mp there
  obtain ⟨bound, _entry⟩ := List.getElem?_eq_some_iff.mp found
  have shorter : (managed.uses.eraseIdx index).length =
      managed.uses.length - 1 := List.length_eraseIdx_of_lt bound
  have counted := sound.counted
  rcases leave_cases managed.model managed.clock with
    ⟨last, pending, left⟩ | ⟨staying, left⟩
  · have nobody : managed.uses.eraseIdx index = [] := by
      apply List.length_eq_zero_iff.mp
      omega
    rw [left, nobody]
    exact sound.dropped { managed.model with
      inFlight := 0, lastUsed := managed.clock, unloadPending := false
      loaded := false } rfl sound.free rfl rfl managed.clock
  · rw [left]
    have kept : ∀ use ∈ managed.uses.eraseIdx index, use ∈ managed.uses :=
      fun use member => List.mem_of_mem_eraseIdx member
    have noted : managed.note { managed.model with
        inFlight := managed.model.inFlight - 1, lastUsed := managed.clock } =
        { managed with model := { managed.model with
          inFlight := managed.model.inFlight - 1
          lastUsed := managed.clock } } := by
      unfold note
      rw [if_neg]
      rintro ⟨before, after⟩
      rw [show managed.model.loaded = false from after] at before
      cases before
    rw [noted]
    constructor
    · change managed.model.inFlight - 1 = (managed.uses.eraseIdx index).length
      omega
    · exact sound.free
    · intro use member inside
      exact sound.resident use (kept use member) inside
    · intro use member building
      exact sound.absent use (kept use member) building
    · exact (List.Sublist.countP_le (List.eraseIdx_sublist _ _)).trans sound.one_builder
    · intro pending same
      have none_left : (managed.uses.eraseIdx index).length = 0 :=
        List.length_eq_zero_iff.mpr same
      have quiet := staying (by omega)
      rw [show managed.model.unloadPending = true from pending] at quiet
      cases quiet
    · exact sound.newest
    · exact sound.in_turn

end

inductive Steps (managed : Managed) : Action → Managed → Prop where
  | use (thread : Nat) :
      Steps managed (.use thread) { managed with
        model := managed.model.enter managed.clock
        uses := managed.uses ++ [⟨thread, .admitted⟩] }
  | found (index : Nat) (there : managed.phaseAt index = some .admitted)
      (loaded : managed.model.loaded = true) :
      Steps managed (.acquire index) (managed.setPhase index .inside)
  | build (index : Nat) (there : managed.phaseAt index = some .admitted)
      (unlocked : managed.unlocked = true)
      (absent : managed.model.loaded = false) :
      Steps managed (.acquire index) (managed.setPhase index .building)
  | built (index : Nat) (there : managed.phaseAt index = some .building) :
      Steps managed (.finishBuild index true) { managed.setPhase index .inside with
          model := managed.model.built, history := .built :: managed.history }
  | failed (index : Nat) (there : managed.phaseAt index = some .building) :
      Steps managed (.finishBuild index false) (managed.setPhase index .failed)
  | leave (index : Nat) (phase : Phase)
      (there : managed.phaseAt index = some phase) :
      Steps managed (.leave index) { managed.note (managed.model.leave managed.clock) with
          uses := managed.uses.eraseIdx index }
  | unload : Steps managed .unload (managed.note managed.model.unload.2)
  | unloadIfIdle (threshold : Option ℚ) :
      Steps managed (.unloadIfIdle threshold) (managed.note
        (managed.model.unloadIfIdle threshold managed.clock).2)
  | elapse (duration : ℚ) :
      Steps managed (.elapse duration) { managed with clock := managed.clock + duration }

variable {action : Action}

theorem step_cases (taken : step managed action = some next) : Steps managed action next := by
  unfold step at taken
  split at taken
  case h_1 thread =>
    split at taken
    case isTrue =>
      cases taken
      exact .use thread
    case isFalse => cases taken
  case h_2 index =>
    split at taken
    case isTrue ready =>
      split at taken
      case isTrue loaded =>
        cases taken
        exact .found index ready.1 loaded
      case isFalse absent =>
        cases taken
        exact .build index ready.1 ready.2 (by simpa using absent)
    case isFalse => cases taken
  case h_3 index success =>
    split at taken
    case isTrue there =>
      cases success with
      | true =>
        cases taken
        exact .built index there
      | false =>
        cases taken
        exact .failed index there
    case isFalse => cases taken
  case h_4 index =>
    split at taken
    case isTrue there =>
      cases taken
      rcases there with inside | failed
      · exact .leave index _ inside
      · exact .leave index _ failed
    case isFalse => cases taken
  case h_5 =>
    cases taken
    exact .unload
  case h_6 threshold =>
    cases taken
    exact .unloadIfIdle threshold
  case h_7 duration =>
    split at taken
    case isTrue =>
      cases taken
      exact .elapse duration
    case isFalse => cases taken

theorem note_same (model : ModelLifecycle Empty) (same : model.loaded = managed.model.loaded) :
    managed.note model = { managed with model := model } := by
  unfold note
  rw [if_neg]
  rintro ⟨before, after⟩
  rw [same, before] at after
  cases after

theorem Sound.quiet (sound : Sound managed) (idle : managed.model.inFlight = 0) :
    managed.uses = [] ∧ managed.model.unloadPending = false := by
  have nobody : managed.uses = [] := by
    apply List.length_eq_zero_iff.mp
    exact sound.counted.symm.trans idle
  refine ⟨nobody, ?_⟩
  cases pending : managed.model.unloadPending with
  | true => exact (sound.draining pending nobody).elim
  | false => rfl

theorem Sound.released (sound : Sound managed) (idle : managed.model.inFlight = 0) :
    Sound (managed.note { managed.model with loaded := false }) := by
  obtain ⟨nobody, pending⟩ := sound.quiet idle
  have dropped := sound.dropped { managed.model with loaded := false } idle
    sound.free pending rfl managed.clock
  rw [← nobody] at dropped
  exact dropped

theorem Sound.kept (sound : Sound managed)
    (taken : step managed action = some next) : Sound next := by
  cases step_cases taken with
  | use thread => exact sound.enter thread
  | found index there loaded =>
    exact sound.moved there (fun _ => loaded) (fun same => by cases same)
  | build index there unlocked absent =>
    exact sound.moved there (fun same => by cases same)
      (fun _ => ⟨absent, unlocked⟩)
  | built index there => exact sound.built there
  | failed index there =>
    exact sound.moved there (fun same => by cases same)
      (fun same => by cases same)
  | leave index phase there => exact sound.leave there
  | unload =>
    by_cases busy : 0 < managed.model.inFlight
    · rw [unload_busy busy, note_same { managed.model with unloadPending := true } rfl]
      apply sound.same_uses { managed.model with unloadPending := true } rfl
        ⟨rfl, rfl⟩ rfl _ managed.clock
      intro _pending nobody
      have counted := sound.counted
      rw [nobody, List.length_nil] at counted
      omega
    · have idle := Nat.eq_zero_of_not_pos busy
      rw [unload_quiet idle]
      exact sound.released idle
  | unloadIfIdle threshold =>
    rcases unloadIfIdle_cases managed.model threshold managed.clock with
      same | ⟨idle, _loaded, dropped⟩
    · rw [same, note_same _ rfl]
      exact sound
    · rw [dropped]
      exact sound.released idle
  | elapse duration => exact sound.same_uses managed.model rfl ⟨rfl, rfl⟩ rfl sound.draining _

structure Careful (managed : Managed) (action : Action) (next : Managed) :
    Prop where
  released : next.history = .released :: managed.history → next.uses = []
  /-- An unload waits for the calls in flight, and for nothing else. -/
  unloaded : action = .unload → (managed.uses ≠ [] ∧ next.model.unloadPending = true) ∨
    (managed.uses = [] ∧ next.model.loaded = false)
  /-- An unload that waits takes effect when no call is left. -/
  pending : managed.model.unloadPending = true →
    (next.uses ≠ [] ∧ next.model.unloadPending = true) ∨
    (next.uses = [] ∧ next.model.unloadPending = false ∧ next.model.loaded = false)

theorem history_ne (history : List Event) (event : Event) : history ≠ event :: history := by
  intro same
  have lengths := congrArg List.length same
  rw [List.length_cons] at lengths
  omega

theorem length_erased (there : managed.phaseAt index = some phase) :
    (managed.uses.eraseIdx index).length = managed.uses.length - 1 := by
  obtain ⟨use, found, _same⟩ := Option.map_eq_some_iff.mp there
  exact List.length_eraseIdx_of_lt (List.getElem?_eq_some_iff.mp found).1

theorem Sound.leave_careful (sound : Sound managed)
    (there : managed.phaseAt index = some phase) :
    Careful managed (.leave index) { managed.note (managed.model.leave managed.clock) with
        uses := managed.uses.eraseIdx index } := by
  have shorter := length_erased there
  have counted := sound.counted
  rcases leave_cases managed.model managed.clock with
    ⟨last, pending, left⟩ | ⟨staying, left⟩
  · have nobody : managed.uses.eraseIdx index = [] := by
      apply List.length_eq_zero_iff.mp
      omega
    rw [left]
    constructor
    · intro _released
      exact nobody
    · intro same
      cases same
    · intro _pending
      exact .inr ⟨nobody, rfl, rfl⟩
  · have same : (managed.model.leave managed.clock).loaded =
        managed.model.loaded := by rw [left]
    rw [note_same _ same, left]
    constructor
    · intro released
      exact (history_ne _ _ released).elim
    · intro same
      cases same
    · intro pending
      refine .inl ⟨?_, pending⟩
      intro nobody
      have none_left : (managed.uses.eraseIdx index).length = 0 :=
        List.length_eq_zero_iff.mpr nobody
      have quiet := staying (by omega)
      rw [pending] at quiet
      cases quiet

theorem Sound.still_careful (sound : Sound managed) (other : action ≠ .unload)
    (history : next.history = managed.history)
    (uses : managed.uses.length ≤ next.uses.length)
    (pending : next.model.unloadPending = managed.model.unloadPending) :
    Careful managed action next := by
  constructor
  · intro released
    rw [history] at released
    exact (history_ne _ _ released).elim
  · intro same
    exact (other same).elim
  · intro waits
    refine .inl ⟨?_, pending.trans waits⟩
    intro nobody
    apply sound.draining waits
    rw [nobody, List.length_nil] at uses
    exact List.length_eq_zero_iff.mp (Nat.le_zero.mp uses)

theorem Sound.careful (sound : Sound managed) (taken : step managed action = some next) :
    Careful managed action next := by
  cases step_cases taken with
  | use thread =>
    refine sound.still_careful ?_ rfl ?_ rfl
    · simp
    · rw [List.length_append]
      exact Nat.le_add_right _ _
  | found index there loaded =>
    exact sound.still_careful (by simp) rfl
      (Nat.le_of_eq (length_setPhase index _).symm) rfl
  | build index there unlocked absent =>
    exact sound.still_careful (by simp) rfl
      (Nat.le_of_eq (length_setPhase index _).symm) rfl
  | built index there =>
    constructor
    · intro released
      cases released
    · intro same
      cases same
    · intro pending
      refine .inl ⟨?_, pending⟩
      intro nobody
      apply sound.draining pending
      have lengths := @length_setPhase managed index .inside
      apply List.length_eq_zero_iff.mp
      rw [← lengths]
      exact List.length_eq_zero_iff.mpr nobody
  | failed index there =>
    exact sound.still_careful (by simp) rfl
      (Nat.le_of_eq (length_setPhase index _).symm) rfl
  | leave index phase there => exact sound.leave_careful there
  | unload =>
    by_cases busy : 0 < managed.model.inFlight
    · have used : managed.uses ≠ [] := by
        intro nobody
        have counted := sound.counted
        rw [nobody, List.length_nil] at counted
        omega
      rw [unload_busy busy, note_same { managed.model with unloadPending := true } rfl]
      constructor
      · intro released
        exact (history_ne _ _ released).elim
      · intro _same
        exact .inl ⟨used, rfl⟩
      · intro _pending
        exact .inl ⟨used, rfl⟩
    · have idle := Nat.eq_zero_of_not_pos busy
      obtain ⟨nobody, quiet⟩ := sound.quiet idle
      rw [unload_quiet idle]
      constructor
      · intro _released
        exact nobody
      · intro _same
        exact .inr ⟨nobody, rfl⟩
      · intro pending
        rw [quiet] at pending
        cases pending
  | unloadIfIdle threshold =>
    rcases unloadIfIdle_cases managed.model threshold managed.clock with
      same | ⟨idle, _loaded, dropped⟩
    · rw [same, note_same _ rfl]
      exact sound.still_careful (by simp) rfl (Nat.le_refl _) rfl
    · obtain ⟨nobody, quiet⟩ := sound.quiet idle
      rw [dropped]
      constructor
      · intro _released
        exact nobody
      · intro same
        cases same
      · intro pending
        rw [quiet] at pending
        cases pending
  | elapse duration => exact sound.still_careful (by simp) rfl (Nat.le_refl _) rfl

end

/-- Whatever the order of the steps: a body runs with the model loaded, it is
built once between two releases, and no step is careless with a use. -/
theorem managed_model {now : ℚ} {schedule : List Action} {final : Managed}
    (run : Runs.exec step (Managed.initial now) schedule = some final) :
    (∀ use ∈ final.uses, use.phase = .inside → final.model.loaded = true) ∧
    final.history.IsChain (fun newer older =>
      ¬ (newer = .built ∧ older = .built)) ∧
    ∀ action next, step final action = some next → Careful final action next := by
  have sound : Sound final := by
    apply Runs.exec_invariant _ (Sound.initial now) run
    intro managed action next sound taken
    exact sound.kept taken
  refine ⟨sound.resident, ?_, ?_⟩
  · apply sound.in_turn.imp
    rintro newer older differ ⟨rfl, rfl⟩
    exact differ rfl
  · intro action next taken
    exact sound.careful taken

/-- A second thread joins a use whose unload is waiting. -/
def joined : List Action :=
  [.use 1, .acquire 0, .finishBuild 0 true, .unload, .use 2, .leave 0]

theorem unload_waits_for_joined : ∃ requested final,
      Runs.exec step (Managed.initial 0) (joined.take 4) = some requested ∧
      requested.uses = [⟨1, .inside⟩] ∧
      requested.model.unloadPending = true ∧
      Runs.exec step (Managed.initial 0) joined = some final ∧
      final.uses = [⟨2, .admitted⟩] ∧ final.model.loaded = true := by
  have first : (Runs.exec step (Managed.initial 0) (joined.take 4)).map
      (fun managed => (managed.uses, managed.model.unloadPending)) =
        some ([⟨1, .inside⟩], true) := by
    decide
  have second : (Runs.exec step (Managed.initial 0) joined).map
      (fun managed => (managed.uses, managed.model.loaded)) =
        some ([⟨2, .admitted⟩], true) := by
    decide
  obtain ⟨requested, requested_run, waiting⟩ := Option.map_eq_some_iff.mp first
  obtain ⟨final, run, loaded⟩ := Option.map_eq_some_iff.mp second
  obtain ⟨uses, pending⟩ := Prod.mk.inj waiting
  obtain ⟨left, resident⟩ := Prod.mk.inj loaded
  exact ⟨requested, final, requested_run, uses, pending, run, left, resident⟩

/-- A build that fails, one that succeeds, and an unload behind two uses. -/
def stampede : List Action :=
  [.use 1, .use 2, .acquire 0, .finishBuild 0 false, .acquire 1,
    .finishBuild 1 true, .unload, .leave 0, .leave 0]

theorem managed_model_stampede :
    ∃ final, Runs.exec step (Managed.initial 0) stampede = some final ∧
      final.history = [.released, .built] ∧
      final.history.IsChain (fun newer older =>
        ¬ (newer = .built ∧ older = .built)) := by
  have ends : (Runs.exec step (Managed.initial 0) stampede).map
      Managed.history = some [.released, .built] := by
    decide
  obtain ⟨final, run, history⟩ := Option.map_eq_some_iff.mp ends
  exact ⟨final, run, history, (managed_model run).2.1⟩

end TempestSdk.Lifecycle
