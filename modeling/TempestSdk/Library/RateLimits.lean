import Mathlib.Algebra.Order.Field.Basic
import Mathlib.Algebra.Order.Ring.Rat
import Mathlib.Tactic.Linarith
import Mathlib.Tactic.NormNum
import Mathlib.Tactic.Ring

/-!
# Limits on a history of moments

The moments at which something was admitted, the newest first, under the two
usual limits: at most so many in a window that ends now, and a bucket of tokens
that refills at a constant rate.  A history that kept a limit whenever it grew
is bounded in every interval.
-/

namespace RateLimits

variable {Time : Type*}

section

variable [LinearOrder Time]

def Sorted (history : List Time) : Prop :=
  history.Pairwise fun newer older => older ≤ newer

def within (start finish : Time) (history : List Time) : List Time :=
  history.filter fun moment => decide (start ≤ moment ∧ moment ≤ finish)

variable {older : List Time}

theorem Sorted.tail {moment : Time} (sorted : Sorted (moment :: older)) : Sorted older :=
  (List.pairwise_cons.mp sorted).2

theorem Sorted.head {moment other : Time} (sorted : Sorted (moment :: older))
    (member : other ∈ older) : other ≤ moment :=
  (List.pairwise_cons.mp sorted).1 other member

theorem within_eq_nil {start finish : Time} {history : List Time}
    (early : ∀ moment ∈ history, moment < start) :
    within start finish history = [] := by
  apply List.filter_eq_nil_iff.mpr
  intro moment member inside
  have bounds := of_decide_eq_true inside
  exact absurd bounds.1 (not_le.mpr (early moment member))

theorem within_cons_of_mem {start finish moment : Time}
    (later : start ≤ moment) (sooner : moment ≤ finish) :
    within start finish (moment :: older) = moment :: within start finish older :=
  List.filter_cons_of_pos (decide_eq_true ⟨later, sooner⟩)

theorem within_cons_of_gt {start finish moment : Time} (later : finish < moment) :
    within start finish (moment :: older) = within start finish older := by
  apply List.filter_cons_of_neg
  intro inside
  exact absurd (of_decide_eq_true inside).2 (not_le.mpr later)

end

variable [Field Time] [LinearOrder Time]

def recent (window now : Time) (history : List Time) : List Time :=
  history.filter fun moment => decide (now - window ≤ moment)

/-- Whenever a moment was added, fewer than `limit` were recent. -/
def Windowed (limit : Nat) (window : Time) : List Time → Prop
  | [] => True
  | moment :: older => (recent window moment older).length < limit ∧ Windowed limit window older

section

variable [IsStrictOrderedRing Time]

theorem within_le_recent {window start : Time} {moment : Time}
    {older : List Time} (sooner : moment ≤ start + window) :
    (within start (start + window) older).length ≤ (recent window moment older).length := by
  rw [within, recent, ← List.countP_eq_length_filter, ← List.countP_eq_length_filter]
  apply List.countP_mono_left
  intro other _member inside
  have bounds := of_decide_eq_true inside
  apply decide_eq_true
  linarith [bounds.1]

theorem Windowed.bound {limit : Nat} {window start : Time}
    {history : List Time} (sorted : Sorted history)
    (windowed : Windowed limit window history) :
    (within start (start + window) history).length ≤ limit := by
  induction history with
  | nil => exact Nat.zero_le _
  | cons moment older induction =>
    by_cases after : start + window < moment
    · rw [within_cons_of_gt after]
      exact induction sorted.tail windowed.2
    · by_cases before : moment < start
      · have early : ∀ other ∈ moment :: older, other < start := by
          intro other member
          rcases List.mem_cons.mp member with rfl | earlier
          · exact before
          · exact lt_of_le_of_lt (sorted.head earlier) before
        rw [within_eq_nil early]
        exact Nat.zero_le _
      · rw [within_cons_of_mem (not_lt.mp before) (not_lt.mp after), List.length_cons]
        have fewer : (within start (start + window) older).length ≤ _ :=
          within_le_recent (not_lt.mp after)
        have room := windowed.1
        omega

end

/-- The tokens at a moment: full at first, one spent at each moment of the
history, refilled at `rate` in between and never above the capacity. -/
def level (capacity rate : Time) : List Time → Time → Time
  | [], _ => capacity
  | moment :: older, now =>
    min capacity (level capacity rate older moment - 1 + (now - moment) * rate)

def Paid (capacity rate : Time) : List Time → Prop
  | [] => True
  | moment :: older => 1 ≤ level capacity rate older moment ∧ Paid capacity rate older

theorem level_le (capacity rate : Time) (history : List Time) (now : Time) :
    level capacity rate history now ≤ capacity := by
  cases history with
  | nil => exact le_refl _
  | cons moment older => exact min_le_left _ _

variable [IsStrictOrderedRing Time] {capacity rate : Time}

theorem Paid.level_nonneg {history : List Time} {now : Time}
    (positive : 0 ≤ capacity) (refills : 0 ≤ rate)
    (paid : Paid capacity rate history)
    (latest : ∀ moment ∈ history, moment ≤ now) :
    0 ≤ level capacity rate history now := by
  cases history with
  | nil => exact positive
  | cons moment older =>
    have passed := latest moment List.mem_cons_self
    have gained : 0 ≤ (now - moment) * rate :=
      mul_nonneg (sub_nonneg.mpr passed) refills
    have token := paid.1
    apply le_min positive
    linarith

theorem spent_add_level_le (capacity : Time) {history : List Time} {start now : Time}
    (refills : 0 ≤ rate) (sorted : Sorted history) (begun : start ≤ now)
    (latest : ∀ moment ∈ history, moment ≤ now) :
    ((within start now history).length : Time) + level capacity rate history now ≤
      capacity + rate * (now - start) := by
  induction history generalizing now with
  | nil =>
    have gained : 0 ≤ rate * (now - start) :=
      mul_nonneg refills (sub_nonneg.mpr begun)
    simp only [within, List.filter_nil, List.length_nil, Nat.cast_zero, level]
    linarith
  | cons moment older induction =>
    have passed := latest moment List.mem_cons_self
    by_cases before : moment < start
    · have early : ∀ other ∈ moment :: older, other < start := by
        intro other member
        rcases List.mem_cons.mp member with rfl | earlier
        · exact before
        · exact lt_of_le_of_lt (sorted.head earlier) before
      have full := level_le capacity rate (moment :: older) now
      have gained : 0 ≤ rate * (now - start) :=
        mul_nonneg refills (sub_nonneg.mpr begun)
      rw [within_eq_nil early, List.length_nil, Nat.cast_zero]
      linarith
    · have later := not_lt.mp before
      have same : within start now older = within start moment older := by
        apply List.filter_congr
        intro other member
        have sooner := sorted.head member
        simp only [decide_eq_decide]
        exact and_congr_right fun _ =>
          iff_of_true (sooner.trans passed) sooner
      have kept := induction sorted.tail later fun other member => sorted.head member
      have left : level capacity rate (moment :: older) now ≤
          level capacity rate older moment - 1 + (now - moment) * rate :=
        min_le_right _ _
      rw [within_cons_of_mem later passed, List.length_cons, same]
      push_cast
      linarith [mul_comm rate (now - moment), mul_sub rate now start,
        mul_sub rate moment start, mul_sub rate now moment]

theorem Paid.bound {history : List Time} {start finish : Time}
    (positive : 0 ≤ capacity) (refills : 0 ≤ rate) (sorted : Sorted history)
    (paid : Paid capacity rate history) (begun : start ≤ finish) :
    ((within start finish history).length : Time) ≤ capacity + rate * (finish - start) := by
  induction history with
  | nil =>
    have gained : 0 ≤ rate * (finish - start) :=
      mul_nonneg refills (sub_nonneg.mpr begun)
    simp only [within, List.filter_nil, List.length_nil, Nat.cast_zero]
    linarith
  | cons moment older induction =>
    by_cases after : finish < moment
    · rw [within_cons_of_gt after]
      exact induction sorted.tail paid.2
    · have latest : ∀ other ∈ moment :: older, other ≤ finish := by
        intro other member
        rcases List.mem_cons.mp member with rfl | earlier
        · exact not_lt.mp after
        · exact (sorted.head earlier).trans (not_lt.mp after)
      have total := spent_add_level_le capacity refills sorted begun latest
      have left := paid.level_nonneg positive refills latest
      linarith

end RateLimits
