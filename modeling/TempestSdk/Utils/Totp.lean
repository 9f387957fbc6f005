import TempestSdk.Library.PyStrings

/-!
# One-time codes of the clock

Which step of the window renders a code.  The code is let through by a
predicate that knows the digits of all scripts, and then compared by a
primitive that knows ASCII only.  What a step renders is computed by `pyotp`.
-/

namespace TempestSdk.Totp

open PyDecimal (isSpace strip toDecimal)
open PyStrings (Text)

inductive PyError where
  /-- `TypeError`. -/
  | type
  /-- `ValueError`. -/
  | value
deriving DecidableEq

/-- The digits that are no decimal digits: superscripts, subscripts, digits in
circles and the like. -/
def digitRanges : List (Nat × Nat) :=
  [(0xb2, 0xb3), (0xb9, 0xb9), (0x1369, 0x1371), (0x19da, 0x19da),
    (0x2070, 0x2070), (0x2074, 0x2079), (0x2080, 0x2089), (0x2460, 0x2468),
    (0x2474, 0x247c), (0x2488, 0x2490), (0x24ea, 0x24ea), (0x24f5, 0x24fd),
    (0x24ff, 0x24ff), (0x2776, 0x277e), (0x2780, 0x2788), (0x278a, 0x2792),
    (0x10a40, 0x10a43), (0x10e60, 0x10e68), (0x11052, 0x1105a),
    (0x1f100, 0x1f10a)]

/-- `str.isdigit` of one character. -/
def isDigit (char : Char) : Bool :=
  (48 ≤ char.toNat && char.toNat ≤ 57) || (toDecimal char).isSome ||
    digitRanges.any fun range =>
      range.1 ≤ char.toNat && char.toNat ≤ range.2

def isAscii (text : Text) : Bool := text.all fun char => char.toNat < 128

/-- `hmac.compare_digest` of two texts. -/
def compareDigest (one other : Text) : Except PyError Bool :=
  if isAscii one && isAscii other then .ok (one == other) else .error .type

/-- What `pyotp` computes: the code of a secret at a step, which is ASCII. -/
structure Pyotp where
  code : Text → Nat → Text
  ascii : ∀ secret step, isAscii (code secret step) = true

/-- `pyotp.TOTP(secret).generate_otp(step)`. -/
def Pyotp.generateOtp (pyotp : Pyotp) (secret : Text) (step : Int) : Except PyError Text :=
  if step < 0 then .error .value else .ok (pyotp.code secret step.toNat)

def interval : Int := 30

/-- `int(time.time())`. -/
def seconds (time : ℚ) : Int := if 0 ≤ time then time.floor else time.ceil

/-- `range(start, stop)`. -/
def range (start stop : Int) : List Int :=
  (List.range (stop - start).toNat).map fun offset : Nat => start + (offset : Int)

/-- `code.strip().replace(" ", "").replace("-", "")`. -/
def cleaned (code : Text) : Text :=
  ((strip code).filter fun char => char ≠ ' ').filter fun char => char ≠ '-'

/-- `cleaned.isdigit()` and six characters. -/
def wellFormed (cleaned : Text) : Bool :=
  cleaned.all isDigit && cleaned.length == 6

section

variable (pyotp : Pyotp)

/-- The loop of `matching_step`. -/
def scan (secret cleaned : Text) : List Int → Except PyError (Option Int)
  | [] => .ok none
  | step :: later =>
    match pyotp.generateOtp secret step with
    | .error error => .error error
    | .ok code =>
      match compareDigest cleaned code with
      | .error error => .error error
      | .ok true => .ok (some step)
      | .ok false => scan secret cleaned later

def current (time : ℚ) : Int := seconds time / interval

def matchingStep (secret code : Text) (window : Int) (time : ℚ) : Except PyError (Option Int) :=
  if wellFormed (cleaned code) then
    scan pyotp secret (cleaned code) (range (current time - window) (current time + window + 1))
  else .ok none

def Inside (window : Int) (time : ℚ) (step : Int) : Prop :=
  current time - window ≤ step ∧ step ≤ current time + window

def Renders (secret code : Text) (step : Int) : Prop :=
  wellFormed (cleaned code) = true ∧ pyotp.generateOtp secret step = .ok (cleaned code)

/-- What `matching_step` promises of its result. -/
def Resolved (secret code : Text) (window : Int) (time : ℚ) : Except PyError (Option Int) → Prop
  | .error _ => False
  | .ok none => ∀ step, Inside window time step →
      ¬ Renders pyotp secret code step
  | .ok (some step) => Inside window time step ∧
      Renders pyotp secret code step ∧
      ∀ older, Inside window time older → older < step → ¬ Renders pyotp secret code older

end

def Raises (code : Text) (window : Int) (time : ℚ) : Prop :=
  wellFormed (cleaned code) = true ∧ 0 ≤ window ∧
    (isAscii (cleaned code) = false ∨ current time < window)

section

variable {pyotp : Pyotp} {secret code text : Text} {steps : List Int}
variable {step start stop window : Int} {time : ℚ}

theorem mem_range : step ∈ range start stop ↔ start ≤ step ∧ step < stop := by
  unfold range
  rw [List.mem_map]
  constructor
  · rintro ⟨offset, member, rfl⟩
    rw [List.mem_range] at member
    omega
  · rintro ⟨after, before⟩
    refine ⟨(step - start).toNat, ?_, ?_⟩
    · rw [List.mem_range]
      omega
    · omega

theorem range_sorted (start stop : Int) :
    (range start stop).Pairwise fun older newer => older < newer := by
  apply List.pairwise_map.mpr
  apply List.pairwise_lt_range.imp
  intro older newer earlier
  omega

theorem range_cons (some_step : start < stop) :
    range start stop = start :: range (start + 1) stop := by
  have count : (stop - start).toNat = (stop - (start + 1)).toNat + 1 := by
    omega
  unfold range
  rw [count, List.range_succ_eq_map, List.map_cons, List.map_map]
  congr 1
  · omega
  · apply List.map_congr_left
    intro offset _member
    change start + ((offset + 1 : Nat) : Int) = start + 1 + offset
    omega

theorem scan_eq_find (ascii : isAscii text = true) (since : ∀ step ∈ steps, 0 ≤ step) :
    scan pyotp secret text steps =
      .ok (steps.find? fun step => text == pyotp.code secret step.toNat) := by
  induction steps with
  | nil => rfl
  | cons step later induction =>
    have generated : pyotp.generateOtp secret step = .ok (pyotp.code secret step.toNat) :=
      if_neg (not_lt.mpr (since step List.mem_cons_self))
    have compared : compareDigest text (pyotp.code secret step.toNat) =
        .ok (text == pyotp.code secret step.toNat) := by
      unfold compareDigest
      rw [ascii, pyotp.ascii]
      rfl
    unfold scan
    rw [generated]
    dsimp only
    rw [compared, List.find?_cons]
    cases same : text == pyotp.code secret step.toNat with
    | true => rfl
    | false =>
      exact induction fun other member =>
        since other (List.mem_cons_of_mem _ member)

theorem scan_raises (raises : isAscii text = false ∨ step < 0) (later : List Int) :
    ∃ error, scan pyotp secret text (step :: later) = .error error := by
  unfold scan
  by_cases early : step < 0
  · refine ⟨.value, ?_⟩
    rw [Pyotp.generateOtp, if_pos early]
  · have foreign := raises.resolve_right early
    refine ⟨.type, ?_⟩
    rw [Pyotp.generateOtp, if_neg early]
    dsimp only
    rw [compareDigest, foreign]
    rfl

theorem renders_iff (formed : wellFormed (cleaned code) = true) (since : 0 ≤ step) :
    Renders pyotp secret code step ↔ (cleaned code == pyotp.code secret step.toNat) = true := by
  unfold Renders Pyotp.generateOtp
  rw [if_neg (not_lt.mpr since), beq_iff_eq]
  constructor
  · rintro ⟨_, same⟩
    exact (Except.ok.inj same).symm
  · intro same
    exact ⟨formed, congrArg _ same.symm⟩

theorem resolved_find (formed : wellFormed (cleaned code) = true)
    (since : window ≤ current time) :
    Resolved pyotp secret code window time
      (.ok ((range (current time - window) (current time + window + 1)).find?
        fun step => cleaned code == pyotp.code secret step.toNat)) := by
  have inside : ∀ {step}, step ∈ range (current time - window)
      (current time + window + 1) ↔ Inside window time step := by
    intro step
    rw [mem_range]
    unfold Inside
    omega
  have renders : ∀ {step}, Inside window time step → (Renders pyotp secret code step ↔
        (cleaned code == pyotp.code secret step.toNat) = true) := by
    intro step within
    apply renders_iff formed
    have first := within.1
    omega
  cases found : (range (current time - window) (current time + window + 1)).find?
      fun step => cleaned code == pyotp.code secret step.toNat with
  | none =>
    intro step within rendered
    have other := List.find?_eq_none.mp found step (inside.mpr within)
    exact other ((renders within).mp rendered)
  | some step =>
    obtain ⟨same, before, after, whole, others⟩ :=
      List.find?_eq_some_iff_append.mp found
    have within : Inside window time step :=
      inside.mp (List.mem_of_find?_eq_some found)
    refine ⟨within, (renders within).mpr same, ?_⟩
    intro older older_within earlier rendered
    have member := inside.mpr older_within
    have sorted := range_sorted (current time - window) (current time + window + 1)
    rw [whole] at member sorted
    obtain ⟨_, rest, _⟩ := List.pairwise_append.mp sorted
    rcases List.mem_append.mp member with front | behind
    · have other := others older front
      rw [(renders older_within).mp rendered] at other
      cases other
    · rcases List.mem_cons.mp behind with rfl | later
      · exact lt_irrefl _ earlier
      · exact lt_asymm earlier ((List.pairwise_cons.mp rest).1 older later)

end

/-- The promise is kept unless the code has a digit beyond ASCII, or the window
reaches back behind the epoch. -/
theorem matchingStep_iff (pyotp : Pyotp) (secret code : Text) (window : Int) (time : ℚ) :
    Resolved pyotp secret code window time (matchingStep pyotp secret code window time) ↔
      ¬ Raises code window time := by
  unfold matchingStep
  cases formed : wellFormed (cleaned code) with
  | false =>
    rw [if_neg Bool.false_ne_true]
    apply iff_of_true
    · rintro step _ ⟨absurdly, _⟩
      rw [formed] at absurdly
      cases absurdly
    · rintro ⟨absurdly, _⟩
      rw [formed] at absurdly
      cases absurdly
  | true =>
    rw [if_pos rfl]
    by_cases some_step : 0 ≤ window
    · by_cases raises : isAscii (cleaned code) = false ∨ current time < window
      · have first : isAscii (cleaned code) = false ∨ current time - window < 0 := by
          refine raises.imp id ?_
          intro early
          omega
        have nonempty : current time - window < current time + window + 1 := by
          omega
        obtain ⟨error, raised⟩ := @scan_raises pyotp secret (cleaned code)
          (current time - window) first
          (range (current time - window + 1) (current time + window + 1))
        rw [range_cons nonempty, raised]
        apply iff_of_false
        · exact id
        · intro quiet
          exact quiet ⟨formed, some_step, raises⟩
      · rw [not_or, Bool.not_eq_false, not_lt] at raises
        have since : ∀ step ∈ range (current time - window)
            (current time + window + 1), 0 ≤ step := by
          intro step member
          have bounds := (mem_range).mp member
          omega
        rw [scan_eq_find raises.1 since]
        apply iff_of_true
        · exact resolved_find formed raises.2
        · rintro ⟨_, _, foreign | early⟩
          · rw [raises.1] at foreign
            cases foreign
          · omega
    · have empty : range (current time - window) (current time + window + 1) = [] := by
        apply List.eq_nil_iff_forall_not_mem.mpr
        intro step member
        have bounds := (mem_range).mp member
        omega
      rw [empty]
      apply iff_of_true
      · intro step within _
        obtain ⟨after, before⟩ := within
        omega
      · rintro ⟨_, nonnegative, _⟩
        exact some_step nonnegative

/-- The codes of one secret in the second minute. -/
def rendered : Nat → Text
  | 1 => ['9', '9', '6', '5', '5', '4']
  | 2 => ['6', '0', '2', '2', '8', '7']
  | 3 => ['1', '4', '3', '6', '2', '7']
  | _ => []

def oneSecret : Pyotp where
  code _ step := rendered step
  ascii _ step := by
    unfold rendered
    split <;> decide

theorem superscripts_raise : ∃ (pyotp : Pyotp) (secret code : Text) (window : Int) (time : ℚ),
      matchingStep pyotp secret code window time = .error .type ∧
        ¬ Resolved pyotp secret code window time
          (matchingStep pyotp secret code window time) := by
  have raised : matchingStep oneSecret [] (List.replicate 6 '²') 1 60 = .error .type := by
    decide
  refine ⟨oneSecret, [], List.replicate 6 '²', 1, 60, raised, ?_⟩
  rw [raised]
  exact id

example : matchingStep oneSecret [] ['6', '0', '2', ' ', '2', '8', '7'] 1 60 =
    .ok (some 2) := by
  decide

end TempestSdk.Totp
