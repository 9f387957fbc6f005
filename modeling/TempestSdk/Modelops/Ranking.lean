import Mathlib.Data.Fintype.EquivFin
import Mathlib.Order.Lattice
import TempestSdk.Library.Frontiers

/-!
# The Pareto frontier of measured models

`_dominates` and `pareto_points` over profiles in which every measurement but
the latency may be missing.
-/

namespace TempestSdk.Ranking

open Frontiers

variable {Value : Type}

structure StaticModelMetrics (Value : Type) where
  disk_size_mb : Value
  gflops : Option Value

structure RuntimeAggregate (Value : Type) where
  latency_ms_median : Value
  rss_peak_mb : Option Value
  gpu_memory_peak_mb : Option Value
  energy_per_inference_j : Option Value

structure BenchmarkProfile (Value : Type) where
  name : List Char
  static : Option (StaticModelMetrics Value)
  runtime : RuntimeAggregate Value
  quality : Option Value

structure ParetoPoint (Value : Type) where
  name : List Char
  latency_ms : Value
  energy_j : Option Value
  gflops : Option Value
  memory_mb : Option Value
  disk_size_mb : Option Value
  quality : Option Value
  is_pareto : Bool

/-- `_PARETO_COST_AXES`. -/
def costAxes : List (ParetoPoint Value → Option Value) :=
  [fun point => some point.latency_ms, ParetoPoint.energy_j,
    ParetoPoint.gflops, ParetoPoint.memory_mb, ParetoPoint.disk_size_mb]

def toPoint (profile : BenchmarkProfile Value) : ParetoPoint Value where
  name := profile.name
  latency_ms := profile.runtime.latency_ms_median
  energy_j := profile.runtime.energy_per_inference_j
  gflops := profile.static.bind StaticModelMetrics.gflops
  memory_mb := profile.runtime.gpu_memory_peak_mb.or profile.runtime.rss_peak_mb
  disk_size_mb := profile.static.map StaticModelMetrics.disk_size_mb
  quality := profile.quality
  is_pareto := false

section

variable [LT Value] [DecidableLT Value]

/-- What the comparison knows between two axes. -/
structure Comparison where
  comparable : Bool
  strictly_better : Bool

/-- One axis on which lower is better; `none` is the early `False`. -/
def Comparison.axis (seen : Comparison) : Option Value → Option Value → Option Comparison
  | some left, some right =>
    if right < left then none
    else some ⟨true, seen.strictly_better || decide (left < right)⟩
  | _, _ => some seen

def Comparison.verdict : Option Comparison → Bool
  | none => false
  | some seen => seen.comparable && seen.strictly_better

/-- `_dominates`. On the quality higher is better. -/
def dominates (left right : ParetoPoint Value) : Bool :=
  let compared := costAxes.foldlM (fun seen axis =>
    seen.axis (axis left) (axis right)) (Comparison.mk false false)
  Comparison.verdict (compared.bind fun seen =>
    seen.axis right.quality left.quality)

def paretoPoints (profiles : List (BenchmarkProfile Value)) : List (ParetoPoint Value) :=
  let points := profiles.map toPoint
  points.zipIdx.map fun (point, position) =>
    { point with
      is_pareto := !points.zipIdx.any fun (other, index) =>
        index != position && dominates other point }

def Lower (left right : Option Value) : Prop :=
  ∃ a b, left = some a ∧ right = some b ∧ a < b

theorem axis_cases {seen : Comparison}
    (noted : seen.strictly_better = true → seen.comparable = true)
    (left right : Option Value) :
    (Lower right left ∧ seen.axis left right = none) ∨
    (¬Lower right left ∧ ∃ next, seen.axis left right = some next ∧
      (next.strictly_better = true → next.comparable = true) ∧
      (next.strictly_better = true ↔ seen.strictly_better = true ∨ Lower left right)) := by
  cases left with
  | none => exact .inr (by simpa [Comparison.axis, Lower] using noted)
  | some a =>
    cases right with
    | none => exact .inr (by simpa [Comparison.axis, Lower] using noted)
    | some b =>
      by_cases lower : b < a
      · exact .inl (by simp [Comparison.axis, Lower, lower])
      · exact .inr (by simp [Comparison.axis, Lower, lower])

theorem verdict_iff (axes : List (Option Value × Option Value)) : ∀ seen : Comparison,
    (seen.strictly_better = true → seen.comparable = true) →
    (Comparison.verdict (axes.foldlM (fun seen axis => seen.axis axis.1 axis.2) seen) = true ↔
    (∀ axis ∈ axes, ¬Lower axis.2 axis.1) ∧
    (seen.strictly_better = true ∨ ∃ axis ∈ axes, Lower axis.1 axis.2)) := by
  induction axes with
  | nil =>
    intro seen noted
    simpa [Comparison.verdict] using noted
  | cons axis axes rest =>
    intro seen noted
    rw [List.foldlM_cons]
    rcases axis_cases noted axis.1 axis.2 with
      ⟨lower, ended⟩ | ⟨kept, next, goesOn, nextNoted, better⟩
    · simp [ended, Comparison.verdict, lower]
    · rw [goesOn]
      change Comparison.verdict (axes.foldlM _ next) = true ↔ _
      rw [rest next nextNoted, better]
      simp only [List.forall_mem_cons, List.exists_mem_cons_iff]
      grind

/-- What speaks for the left of two points: a lower cost on an axis on which
both are measured, or a higher quality. -/
def preferences : List (ParetoPoint Value → ParetoPoint Value → Prop) :=
  costAxes.map (fun axis left right => Lower (axis left) (axis right)) ++
    [fun left right => Lower right.quality left.quality]

theorem dominates_iff (left right : ParetoPoint Value) :
    dominates left right = true ↔ Dominates preferences left right := by
  have same : dominates left right = Comparison.verdict
      ((costAxes.map (fun axis => (axis left, axis right)) ++
        [(right.quality, left.quality)]).foldlM
          (fun seen axis => seen.axis axis.1 axis.2) ⟨false, false⟩) := by
    rw [List.foldlM_append, List.foldlM_map]
    simp [dominates]
  rw [same, verdict_iff _ _ (by simp), Dominates, preferences]
  simp [or_imp, forall_and, or_and_right, exists_or]

def OnFrontier (profiles : List (BenchmarkProfile Value))
    (place : Fin profiles.length) : Prop :=
  (paretoPoints profiles)[place.1]?.map ParetoPoint.is_pareto = some true

def Beats (profiles : List (BenchmarkProfile Value)) (one other : Fin profiles.length) : Prop :=
  dominates (toPoint profiles[one.1]) (toPoint profiles[other.1]) = true

theorem Beats.irrefl {profiles : List (BenchmarkProfile Value)}
    (place : Fin profiles.length) : ¬Beats profiles place place :=
  fun self => Dominates.irrefl ((dominates_iff _ _).mp self)

theorem onFrontier_iff (profiles : List (BenchmarkProfile Value))
    (place : Fin profiles.length) :
    OnFrontier profiles place ↔ Unbeaten (Beats profiles) place := by
  have found : OnFrontier profiles place ↔
      ¬∃ other index, profiles[index]? = some other ∧ index ≠ place.1 ∧
        dominates (toPoint other) (toPoint profiles[place.1]) = true := by
    simp [OnFrontier, paretoPoints, List.mem_zipIdx_iff_getElem?]
    grind
  rw [found, Unbeaten]
  constructor
  · intro free one beats
    refine free ⟨profiles[one.1], one, by simp, fun same => ?_, beats⟩
    obtain rfl : one = place := Fin.ext same
    exact Beats.irrefl one beats
  · rintro unbeaten ⟨other, index, listed, _, beats⟩
    obtain ⟨within, rfl⟩ := List.getElem?_eq_some_iff.mp listed
    exact unbeaten ⟨index, within⟩ beats

end

section

variable [LinearOrder Value]

def EvenlyMeasured (profiles : List (BenchmarkProfile Value))
    (axis : ParetoPoint Value → Option Value) : Prop :=
  (∀ profile ∈ profiles, axis (toPoint profile) ≠ none) ∨
    ∀ profile ∈ profiles, axis (toPoint profile) = none

theorem Lower.split {left middle right : Option Value}
    (lower : Lower left right) (measured : middle ≠ none) :
    Lower left middle ∨ Lower middle right := by
  obtain ⟨a, c, rfl, rfl, less⟩ := lower
  obtain ⟨b, rfl⟩ := Option.ne_none_iff_exists'.mp measured
  rcases lt_or_ge a b with below | above
  · exact .inl ⟨a, b, rfl, rfl, below⟩
  · exact .inr ⟨b, c, rfl, rfl, above.trans_lt less⟩

variable {profiles : List (BenchmarkProfile Value)}

theorem EvenlyMeasured.split {axis : ParetoPoint Value → Option Value}
    (even : EvenlyMeasured profiles axis)
    {left middle right : BenchmarkProfile Value} (left_mem : left ∈ profiles)
    (middle_mem : middle ∈ profiles)
    (lower : Lower (axis (toPoint left)) (axis (toPoint right))) :
    Lower (axis (toPoint left)) (axis (toPoint middle)) ∨
      Lower (axis (toPoint middle)) (axis (toPoint right)) := by
  rcases even with measured | missing
  · exact lower.split (measured middle middle_mem)
  · obtain ⟨a, _, here, _⟩ := lower
    simp [missing left left_mem] at here

theorem beats_trans (even : ∀ axis ∈ ParetoPoint.quality :: costAxes,
      EvenlyMeasured profiles axis) (one other third : Fin profiles.length)
    (first : Beats profiles one other) (second : Beats profiles other third) :
    Beats profiles one third := by
  have points (place : Fin profiles.length) :
      toPoint profiles[place.1] ∈ {point | ∃ profile ∈ profiles, toPoint profile = point} :=
    ⟨_, List.getElem_mem place.2, rfl⟩
  refine (dominates_iff _ _).mpr (Dominates.trans ?_ (points one)
    (points other) (points third) ((dominates_iff _ _).mp first)
    ((dominates_iff _ _).mp second))
  rintro prefers member _ ⟨left, left_mem, rfl⟩ _ ⟨middle, middle_mem, rfl⟩ _
    ⟨right, right_mem, rfl⟩ preferred
  rcases List.mem_append.mp member with cost | quality
  · obtain ⟨axis, listed, rfl⟩ := List.mem_map.mp cost
    exact (even axis (.tail _ listed)).split left_mem middle_mem preferred
  · obtain rfl := List.mem_singleton.mp quality
    exact ((even _ (.head _)).split right_mem middle_mem preferred).symm

def Real (profiles : List (BenchmarkProfile Value))
    (above : Fin profiles.length → Fin profiles.length → Prop) : Prop :=
  (profiles ≠ [] → ∃ place, OnFrontier profiles place) ∧
    ∀ place, ¬OnFrontier profiles place → ∃ top, OnFrontier profiles top ∧ above top place

theorem real_of_acyclic (acyclic : ∀ place, ¬Relation.TransGen (Beats profiles) place place) :
    Real profiles (Relation.TransGen (Beats profiles)) := by
  simp only [Real, onFrontier_iff]
  constructor
  · intro some
    have : Nonempty (Fin profiles.length) :=
      ⟨⟨0, List.length_pos_iff.mpr some⟩⟩
    exact exists_unbeaten acyclic
  · intro place off
    exact exists_unbeaten_chain acyclic off

theorem real_of_trans (transitive : ∀ one other third, Beats profiles one other →
      Beats profiles other third → Beats profiles one third) :
    Real profiles (Beats profiles) := by
  simp only [Real, onFrontier_iff]
  constructor
  · intro some
    have : Nonempty (Fin profiles.length) :=
      ⟨⟨0, List.length_pos_iff.mpr some⟩⟩
    exact exists_unbeaten (acyclic_of_transitive Beats.irrefl transitive)
  · intro place off
    exact exists_unbeaten_above Beats.irrefl transitive off

/-- What the frontier is, whichever measurements are missing. -/
theorem pareto_frontier (profiles : List (BenchmarkProfile Value)) :
    (∀ place, OnFrontier profiles place ↔ ∀ other, ¬Beats profiles other place) ∧
    ((∀ place, ¬Relation.TransGen (Beats profiles) place place) →
      Real profiles (Relation.TransGen (Beats profiles))) ∧
    ((∀ one other third, Beats profiles one other →
      Beats profiles other third → Beats profiles one third) →
      Real profiles (Beats profiles)) ∧
    ((∀ axis ∈ ParetoPoint.quality :: costAxes,
      EvenlyMeasured profiles axis) → Real profiles (Beats profiles)) :=
  ⟨onFrontier_iff profiles, real_of_acyclic, real_of_trans,
    fun even => real_of_trans (beats_trans even)⟩

end

def sample (name : String) (energy memory quality : Option ℕ) : BenchmarkProfile ℕ where
  name := name.toList
  static := none
  runtime := ⟨1, memory, none, energy⟩
  quality := quality

theorem samples_frontier :
    Real [sample "a" (some 1) none (some 9), sample "b" (some 2) none (some 5)] (Beats _) := by
  refine (pareto_frontier _).2.2.2 ?_
  simp [EvenlyMeasured, costAxes, toPoint, sample]

/-- `a` uses less energy than `b`, `b` less memory than `c`, and `c` has more
quality than `a`. -/
def circle : List (BenchmarkProfile ℕ) :=
  [sample "a" (some 1) none (some 1), sample "b" (some 2) (some 1) none,
    sample "c" none (some 2) (some 2)]

theorem circle_off : (paretoPoints circle).map ParetoPoint.is_pareto =
      [false, false, false] := by
  decide

theorem circle_frontier_empty : ¬∀ profiles : List (BenchmarkProfile ℕ),
      Real profiles (Beats profiles) := by
  intro real
  obtain ⟨place, onFrontier⟩ := (real circle).1 (List.cons_ne_nil _ _)
  rw [OnFrontier, ← List.getElem?_map, circle_off] at onFrontier
  simpa using List.mem_of_getElem? onFrontier

end TempestSdk.Ranking
