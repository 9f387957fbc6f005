import Mathlib.Data.List.TakeWhile
import Mathlib.Order.Lattice

/-!
# Logs of a sliding window

The moments that a window counts, the oldest first.  What is too old is dropped
from the front, and a moment is only added while there is room.  A log that was
kept so is full again only as long as its oldest moment is counted.
-/

namespace SlidingLogs

variable {Time : Type*} [LinearOrder Time]

def prune (cutoff : Time) (log : List Time) : List Time :=
  log.dropWhile fun moment => decide (moment < cutoff)

/-- The moments that are newer than the oldest one leave room below `limit`,
and each moment was added at least `copies` times. -/
structure Roomy (limit copies : Nat) (log : List Time) : Prop where
  sorted : log.Pairwise (· ≤ ·)
  copied : ∀ moment ∈ log, copies ≤ log.count moment
  room : ∀ oldest, log.head? = some oldest →
    (log.filter fun moment => decide (oldest < moment)).length < limit

variable {limit copies : Nat} {log rest : List Time} {cutoff now : Time}

theorem prune_suffix (cutoff : Time) (log : List Time) : prune cutoff log <:+ log :=
  List.dropWhile_suffix _

theorem not_lt_of_head_prune {oldest : Time}
    (first : (prune cutoff log).head? = some oldest) : ¬ oldest < cutoff := by
  have kept := @List.head?_dropWhile_not _ (fun moment => decide (moment < cutoff)) log
  unfold prune at first
  rw [first] at kept
  simpa using kept

theorem le_of_mem_prune (sorted : log.Pairwise (· ≤ ·)) {moment : Time}
    (member : moment ∈ prune cutoff log) : cutoff ≤ moment := by
  cases front : prune cutoff log with
  | nil =>
    rw [front] at member
    cases member
  | cons oldest others =>
    have bound : cutoff ≤ oldest := by
      apply not_lt.mp
      apply @not_lt_of_head_prune _ _ log
      rw [front]
      rfl
    have ordered := sorted.sublist (prune_suffix cutoff log).sublist
    rw [front] at member ordered
    rcases List.mem_cons.mp member with rfl | later
    · exact bound
    · exact bound.trans ((List.pairwise_cons.mp ordered).1 moment later)

theorem prune_eq_self {oldest : Time} (front : log.head? = some oldest)
    (late : cutoff ≤ oldest) : prune cutoff log = log := by
  cases log with
  | nil => cases front
  | cons head others =>
    cases front
    apply List.dropWhile_cons_of_neg
    simpa using late

theorem head_le_of_mem (sorted : log.Pairwise (· ≤ ·)) {oldest moment : Time}
    (front : log.head? = some oldest) (member : moment ∈ log) :
    oldest ≤ moment := by
  cases log with
  | nil => cases front
  | cons head others =>
    cases front
    rcases List.mem_cons.mp member with rfl | later
    · exact le_refl _
    · exact (List.pairwise_cons.mp sorted).1 moment later

theorem Roomy.nil : Roomy limit copies ([] : List Time) where
  sorted := List.Pairwise.nil
  copied _ member := by cases member
  room _ front := by cases front

theorem Roomy.prune (roomy : Roomy limit copies log) (cutoff : Time) :
    Roomy limit copies (prune cutoff log) := by
  have kept := prune_suffix cutoff log
  refine ⟨roomy.sorted.sublist kept.sublist, ?_, ?_⟩
  · intro moment member
    have late := le_of_mem_prune roomy.sorted member
    have parts : log.takeWhile (fun moment => decide (moment < cutoff)) ++
        SlidingLogs.prune cutoff log = log := List.takeWhile_append_dropWhile
    have absent : moment ∉ log.takeWhile fun moment => decide (moment < cutoff) := by
      intro dropped
      have early := List.mem_takeWhile_imp dropped
      exact absurd (of_decide_eq_true early) (not_lt.mpr late)
    have counted := roomy.copied moment (kept.subset member)
    rw [← parts, List.count_append, List.count_eq_zero.mpr absent, Nat.zero_add] at counted
    exact counted
  · intro first begins
    obtain ⟨oldest, front⟩ : ∃ oldest, log.head? = some oldest := by
      cases log with
      | nil => cases begins
      | cons head others => exact ⟨head, rfl⟩
    have bound : oldest ≤ first :=
      head_le_of_mem roomy.sorted front (kept.subset (List.mem_of_head? begins))
    have fewer : ((SlidingLogs.prune cutoff log).filter
        fun moment => decide (first < moment)).length ≤
          (log.filter fun moment => decide (oldest < moment)).length := by
      rw [← List.countP_eq_length_filter, ← List.countP_eq_length_filter]
      apply Nat.le_trans kept.sublist.countP_le
      apply List.countP_mono_left
      intro moment _member newer
      exact decide_eq_true (bound.trans_lt (of_decide_eq_true newer))
    exact Nat.lt_of_le_of_lt fewer (roomy.room oldest front)

theorem newer_add_count (oldest : Time) (log : List Time) :
    (log.filter fun moment => decide (oldest < moment)).length +
      log.count oldest ≤ log.length := by
  rw [← List.countP_eq_length_filter]
  have split := @List.length_eq_countP_add_countP _ (fun moment => moment == oldest) log
  have fewer : log.countP (fun moment => decide (oldest < moment)) ≤
      log.countP fun moment => decide ¬ (moment == oldest) = true := by
    apply List.countP_mono_left
    intro moment _member newer
    apply decide_eq_true
    have later := of_decide_eq_true newer
    simpa using later.ne'
  have same : log.count oldest = log.countP fun moment => moment == oldest := rfl
  omega

theorem Roomy.append (roomy : Roomy limit copies log)
    (some_room : log.length < limit) (latest : ∀ moment ∈ log, moment ≤ now) :
    Roomy limit copies (log ++ List.replicate copies now) := by
  refine ⟨?_, ?_, ?_⟩
  · apply List.pairwise_append.mpr
    refine ⟨roomy.sorted, List.pairwise_replicate.mpr (.inr (le_refl now)), ?_⟩
    intro moment member other added
    rw [List.eq_of_mem_replicate added]
    exact latest moment member
  · intro moment member
    rw [List.count_append]
    rcases List.mem_append.mp member with old | added
    · exact Nat.le_trans (roomy.copied moment old) (Nat.le_add_right _ _)
    · rw [List.eq_of_mem_replicate added, List.count_replicate_self]
      exact Nat.le_add_left _ _
  · intro oldest front
    rw [List.filter_append, List.length_append]
    by_cases newest : oldest < now
    · have found : oldest ∈ log := by
        rcases List.mem_append.mp (List.mem_of_head? front) with old | added
        · exact old
        · exact absurd (List.eq_of_mem_replicate added) newest.ne
      have counted := roomy.copied oldest found
      have bound := newer_add_count oldest log
      have added := List.length_filter_le
        (fun moment => decide (oldest < moment)) (List.replicate copies now)
      rw [List.length_replicate] at added
      omega
    · have none_added : (List.replicate copies now).filter
          (fun moment => decide (oldest < moment)) = [] := by
        apply List.filter_eq_nil_iff.mpr
        intro moment added
        rw [List.eq_of_mem_replicate added]
        simpa using not_lt.mp newest
      have bound := newer_add_count oldest log
      rw [none_added, List.length_nil]
      omega

theorem Roomy.head_of_full (roomy : Roomy limit copies log)
    (kept : rest <:+ log) (full : limit ≤ rest.length) :
    rest.head? = log.head? := by
  cases front : log.head? with
  | none =>
    have empty := List.head?_eq_none_iff.mp front
    rw [empty] at kept
    rw [List.suffix_nil.mp kept]
    rfl
  | some oldest =>
    have room := roomy.room oldest front
    cases begins : rest.head? with
    | none =>
      have empty := List.head?_eq_none_iff.mp begins
      rw [empty, List.length_nil] at full
      omega
    | some first =>
      have ordered := roomy.sorted.sublist kept.sublist
      have bound : oldest ≤ first :=
        head_le_of_mem roomy.sorted front (kept.subset (List.mem_of_head? begins))
      rcases bound.eq_or_lt with same | newer
      · rw [same]
      · have all_newer : rest.filter (fun moment => decide (oldest < moment)) = rest := by
          apply List.filter_eq_self.mpr
          intro moment member
          apply decide_eq_true
          exact newer.trans_le (head_le_of_mem ordered begins member)
        have fewer := (kept.sublist.filter fun moment => decide (oldest < moment)).length_le
        rw [all_newer] at fewer
        omega

theorem Roomy.head_on_cutoff (roomy : Roomy limit copies log) (kept : rest <:+ log)
    (passed : limit ≤ log.length → ∀ oldest, log.head? = some oldest → oldest ≤ cutoff)
    (full : limit ≤ (SlidingLogs.prune cutoff rest).length)
    (some_limit : 1 ≤ limit) :
    (SlidingLogs.prune cutoff rest).head? = some cutoff := by
  have left := (prune_suffix cutoff rest).trans kept
  have same := roomy.head_of_full left full
  cases begins : (SlidingLogs.prune cutoff rest).head? with
  | none =>
    have empty := List.head?_eq_none_iff.mp begins
    rw [empty, List.length_nil] at full
    omega
  | some first =>
    have late := not_lt.mp (not_lt_of_head_prune begins)
    have early := passed (Nat.le_trans full left.length_le) first (same.symm.trans begins)
    rw [le_antisymm early late]

end SlidingLogs
