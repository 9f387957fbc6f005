import Mathlib.Algebra.Order.Ring.Rat

/-!
# The lifecycle of a model

What the blocks of a lifecycle do that run under its lock, one function for
each.  Building is not among them.  A registry marks an evicted model and names
the models that an admitted one has to wait for.
-/

namespace TempestSdk.Lifecycle

/-- `Name` stands for the other lifecycles. -/
structure ModelLifecycle (Name : Type) where
  inFlight : Nat
  unloadPending : Bool
  evicted : Bool
  blockers : List Name
  lastUsed : ℚ
  /-- What `is_loaded` of the owner reports. -/
  loaded : Bool
deriving DecidableEq

namespace ModelLifecycle

variable {Name : Type}

def init (now : ℚ) : ModelLifecycle Name where
  inFlight := 0
  unloadPending := false
  evicted := false
  blockers := []
  lastUsed := now
  loaded := false

/-- Whether `_admit` lets a call in at once. -/
def admits (model : ModelLifecycle Name) (threadCalls : Nat) : Bool :=
  decide (0 < model.inFlight) ||
    (!model.evicted && (model.blockers.isEmpty || decide (0 < threadCalls)))

def enter (model : ModelLifecycle Name) (now : ℚ) : ModelLifecycle Name :=
  { model with inFlight := model.inFlight + 1, lastUsed := now }

def leave (model : ModelLifecycle Name) (now : ℚ) : ModelLifecycle Name :=
  let left := { model with inFlight := model.inFlight - 1, lastUsed := now }
  if left.inFlight = 0 ∧ left.unloadPending = true then
    { left with unloadPending := false, loaded := false }
  else left

/-- `unload`, and what it returns. -/
def unload (model : ModelLifecycle Name) : Bool × ModelLifecycle Name :=
  if 0 < model.inFlight then (false, { model with unloadPending := true })
  else if model.loaded = false then (false, model)
  else (true, { model with loaded := false })

/-- `unload_if_idle`, and what it returns. -/
def unloadIfIdle (model : ModelLifecycle Name) (threshold : Option ℚ)
    (now : ℚ) : Bool × ModelLifecycle Name :=
  match threshold with
  | none => (false, model)
  | some seconds =>
    if 0 < model.inFlight ∨ model.loaded = false then (false, model)
    else if now - model.lastUsed < seconds then (false, model)
    else (true, { model with loaded := false })

def built (model : ModelLifecycle Name) : ModelLifecycle Name :=
  { model with loaded := true }

def markEvicted (model : ModelLifecycle Name) : ModelLifecycle Name :=
  { model with evicted := true }

def clearEviction (model : ModelLifecycle Name) : ModelLifecycle Name :=
  { model with evicted := false }

/-- `wait_for` of the model called `self`. -/
def waitFor [DecidableEq Name] (self : Name) (model : ModelLifecycle Name)
    (blockers : List Name) : ModelLifecycle Name :=
  { model with
    blockers := model.blockers ++ blockers.filter fun blocker => decide (blocker ≠ self) }

def waited [DecidableEq Name] (model : ModelLifecycle Name)
    (released : List Name) : ModelLifecycle Name :=
  { model with
    blockers := model.blockers.filter fun blocker => blocker ∉ released }

section

variable {model : ModelLifecycle Name} {now : ℚ}

theorem leave_cases (model : ModelLifecycle Name) (now : ℚ) :
    (model.inFlight - 1 = 0 ∧ model.unloadPending = true ∧ model.leave now = { model with
        inFlight := 0, lastUsed := now, unloadPending := false,
        loaded := false }) ∨
    ((model.inFlight - 1 = 0 → model.unloadPending = false) ∧ model.leave now = { model with
        inFlight := model.inFlight - 1, lastUsed := now }) := by
  unfold leave
  dsimp only
  split
  case isTrue drained =>
    refine .inl ⟨drained.1, drained.2, ?_⟩
    rw [drained.1]
  case isFalse staying =>
    refine .inr ⟨?_, rfl⟩
    intro last
    simpa [last] using staying

theorem unload_busy (busy : 0 < model.inFlight) :
    model.unload.2 = { model with unloadPending := true } := by
  unfold unload
  rw [if_pos busy]

theorem unload_quiet (quiet : model.inFlight = 0) :
    model.unload.2 = { model with loaded := false } := by
  unfold unload
  rw [if_neg (by omega)]
  split
  case isTrue absent => rw [← absent]
  case isFalse => rfl

theorem unloadIfIdle_cases (model : ModelLifecycle Name) (threshold : Option ℚ) (now : ℚ) :
    (model.unloadIfIdle threshold now).2 = model ∨ model.inFlight = 0 ∧ model.loaded = true ∧
        (model.unloadIfIdle threshold now).2 = { model with loaded := false } := by
  cases threshold with
  | none => exact .inl rfl
  | some seconds =>
    unfold unloadIfIdle
    dsimp only
    split
    case isTrue => exact .inl rfl
    case isFalse used =>
      rw [not_or] at used
      split
      case isTrue => exact .inl rfl
      case isFalse => exact .inr ⟨Nat.eq_zero_of_not_pos used.1, by simpa using used.2, rfl⟩

end

end ModelLifecycle

end TempestSdk.Lifecycle
