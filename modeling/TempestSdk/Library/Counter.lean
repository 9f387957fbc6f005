import Mathlib.Data.Option.Basic

/-!
# A counter with a deadline

A key that holds a number and may carry a deadline, under the verbs of a Redis
server: `INCR` and `DECR` start from zero and leave the deadline alone, so a
key they create has none, and `EXPIRE` does nothing to a key that is not
there.  A key is gone at its deadline.
-/

namespace Counter

structure Entry where
  count : Int
  expiresAt : Option Int
deriving DecidableEq

def Entry.live (clock : Int) (entry : Entry) : Bool :=
  match entry.expiresAt with
  | some deadline => decide (clock < deadline)
  | none => true

def current (clock : Int) (stored : Option Entry) : Option Entry :=
  stored.filter (Entry.live clock)

def value (clock : Int) (stored : Option Entry) : Int :=
  match current clock stored with
  | some entry => entry.count
  | none => 0

def get (clock : Int) (stored : Option Entry) : Option Int :=
  (current clock stored).map Entry.count

def add (amount clock : Int) (stored : Option Entry) : Int × Option Entry :=
  match current clock stored with
  | some entry => (entry.count + amount, some { entry with count := entry.count + amount })
  | none => (amount, some ⟨amount, none⟩)

def incr : Int → Option Entry → Int × Option Entry := add 1

def decr : Int → Option Entry → Int × Option Entry := add (-1)

def expire (clock seconds : Int) (stored : Option Entry) : Option Entry :=
  (current clock stored).map fun entry =>
    { entry with expiresAt := some (clock + seconds) }

def ttl (clock : Int) (stored : Option Entry) : Int :=
  match current clock stored with
  | none => -2
  | some ⟨_, none⟩ => -1
  | some ⟨_, some deadline⟩ => deadline - clock

def Endless (stored : Option Entry) : Prop :=
  match stored with
  | some ⟨count, none⟩ => 0 < count
  | _ => False

instance : (stored : Option Entry) → Decidable (Endless stored)
  | none => .isFalse id
  | some ⟨count, none⟩ => inferInstanceAs (Decidable (0 < count))
  | some ⟨_, some _⟩ => .isFalse id

variable {amount clock later seconds : Int} {stored : Option Entry}

theorem current_eq_some {entry : Entry} : current clock stored = some entry ↔
      stored = some entry ∧ entry.live clock = true := by
  simp [current, Option.filter_eq_some_iff]

@[simp] theorem current_none : current clock none = none := rfl

theorem current_of_live {entry : Entry} (live : entry.live clock = true) :
    current clock (some entry) = some entry :=
  (current_eq_some).mpr ⟨rfl, live⟩

@[simp] theorem value_none : value clock none = 0 := rfl

theorem value_of_current {entry : Entry} (found : current clock stored = some entry) :
    value clock stored = entry.count := by
  simp only [value, found]

theorem value_of_absent (absent : current clock stored = none) : value clock stored = 0 := by
  simp only [value, absent]

@[simp] theorem answer_add :
    (add amount clock stored).1 = value clock stored + amount := by
  unfold add value
  cases found : current clock stored with
  | none => simp
  | some entry => rfl

@[simp] theorem value_add :
    value clock (add amount clock stored).2 = value clock stored + amount := by
  unfold add
  cases found : current clock stored with
  | none =>
    have fresh : current clock (some ⟨amount, none⟩) =
        some ⟨amount, none⟩ := current_of_live rfl
    rw [value_of_absent found, value_of_current fresh]
    simp
  | some entry =>
    obtain ⟨_same, live⟩ := (current_eq_some).mp found
    have kept : current clock (some { entry with count := entry.count + amount }) =
          some { entry with count := entry.count + amount } :=
      current_of_live live
    rw [value_of_current found, value_of_current kept]

@[simp] theorem answer_incr :
    (incr clock stored).1 = value clock stored + 1 := answer_add

@[simp] theorem value_incr :
    value clock (incr clock stored).2 = value clock stored + 1 := value_add

@[simp] theorem answer_decr :
    (decr clock stored).1 = value clock stored - 1 := answer_add

@[simp] theorem value_decr :
    value clock (decr clock stored).2 = value clock stored - 1 := value_add

/-- A deadline that is still to come leaves the number as it is. -/
@[simp] theorem value_expire (later : 0 < seconds) :
    value clock (expire clock seconds stored) = value clock stored := by
  unfold expire
  cases found : current clock stored with
  | none => simp [value_of_absent found]
  | some entry =>
    have live : Entry.live clock ⟨entry.count, some (clock + seconds)⟩ = true := by
      simp only [Entry.live, decide_eq_true_eq]
      omega
    have dated := value_of_current (current_of_live live)
    simpa [value_of_current found] using dated

theorem not_endless_none : ¬ Endless none := fun holds => holds

theorem not_endless_expire : ¬ Endless (expire clock seconds stored) := by
  unfold expire
  cases current clock stored with
  | none => exact not_endless_none
  | some entry => exact fun holds => holds

theorem Endless.held (clock : Int) (endless : Endless stored) :
    ∃ count, 0 < count ∧ current clock stored = some ⟨count, none⟩ := by
  unfold Endless at endless
  split at endless
  · exact ⟨_, endless, rfl⟩
  · exact endless.elim

theorem endless_add : Endless (add amount clock stored).2 ↔
      0 < value clock stored + amount ∧ ∀ entry, current clock stored = some entry →
          entry.expiresAt = none := by
  unfold add value
  cases found : current clock stored with
  | none => simp [Endless]
  | some entry =>
    obtain ⟨count, expiresAt⟩ := entry
    cases expiresAt with
    | none => simp [Endless]
    | some deadline => simp [Endless]

theorem Endless.of_decr (endless : Endless (decr clock stored).2) : Endless stored := by
  obtain ⟨positive, undated⟩ := (endless_add).mp endless
  cases found : current clock stored with
  | none =>
    rw [value_of_absent found] at positive
    omega
  | some entry =>
    rw [value_of_current found] at positive
    obtain ⟨same, _live⟩ := (current_eq_some).mp found
    have none_set := undated entry found
    obtain ⟨count, expiresAt⟩ := entry
    cases none_set
    subst same
    have above : 0 < count := by
      simp only at positive
      omega
    exact above

theorem Endless.of_incr (endless : Endless (incr clock stored).2) :
    (incr clock stored).1 = 1 ∨ Endless stored := by
  obtain ⟨positive, undated⟩ := (endless_add).mp endless
  rw [answer_incr]
  cases found : current clock stored with
  | none =>
    left
    rw [value_of_absent found]
    omega
  | some entry =>
    rw [value_of_current found] at positive ⊢
    obtain ⟨same, _live⟩ := (current_eq_some).mp found
    have none_set := undated entry found
    obtain ⟨count, expiresAt⟩ := entry
    cases none_set
    subst same
    simp only at positive ⊢
    by_cases opened : count + 1 = 1
    · exact .inl opened
    · right
      have above : 0 < count := by omega
      exact above

theorem Endless.incr (endless : Endless stored) : Endless (Counter.incr clock stored).2 := by
  obtain ⟨count, positive, held⟩ := endless.held clock
  apply (endless_add).mpr
  refine ⟨?_, ?_⟩
  · rw [value_of_current held]
    simp only
    omega
  · intro entry found
    rw [held] at found
    cases found
    rfl

end Counter
