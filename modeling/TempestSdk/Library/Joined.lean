import Mathlib.Data.List.Basic

/-!
# Lists joined with a separator

What is joined can be cut at every separator again, but not at the joints
alone.  Two lists of parts give the same whole exactly when they have the same
pieces between separators; when they are cut at the same places, they are then
the same list.
-/

namespace Joined

variable {Symbol : Type} [DecidableEq Symbol]

def join (separator : Symbol) (parts : List (List Symbol)) : List Symbol :=
  [separator].intercalate parts

def pieces (separator : Symbol) (parts : List (List Symbol)) : List (List Symbol) :=
  (parts.map (List.splitOn separator)).flatten

def cuts (separator : Symbol) (parts : List (List Symbol)) : List Nat :=
  (parts.map (List.splitOn separator)).map List.length

variable {separator : Symbol} {parts others : List (List Symbol)}

theorem splitOn_join (nonempty : parts ≠ []) :
    (join separator parts).splitOn separator = pieces separator parts := by
  induction parts with
  | nil => exact (nonempty rfl).elim
  | cons part rest induction =>
    cases rest with
    | nil => simp [join, pieces]
    | cons next rest =>
      have joined : join separator (part :: next :: rest) =
          part ++ separator :: join separator (next :: rest) := by
        simp [join, List.intercalate_cons_of_ne_nil]
      have later := induction (List.cons_ne_nil _ _)
      rw [joined, List.splitOn_append_cons_self, later]
      simp [pieces]

theorem join_eq_iff (nonempty : parts ≠ []) (others_nonempty : others ≠ []) :
    join separator parts = join separator others ↔
      pieces separator parts = pieces separator others := by
  constructor
  · intro same
    rw [← splitOn_join nonempty, ← splitOn_join others_nonempty, same]
  · intro same
    have whole := congrArg ([separator].intercalate) same
    rw [← splitOn_join nonempty, ← splitOn_join others_nonempty,
      List.intercalate_splitOn, List.intercalate_splitOn] at whole
    exact whole

theorem splitOn_injective {text other : List Symbol}
    (same : text.splitOn separator = other.splitOn separator) :
    text = other := by
  have whole := congrArg ([separator].intercalate) same
  rw [List.intercalate_splitOn, List.intercalate_splitOn] at whole
  exact whole

theorem eq_of_pieces (same_pieces : pieces separator parts = pieces separator others)
    (same_cuts : cuts separator parts = cuts separator others) :
    parts = others := by
  have split : parts.map (List.splitOn separator) = others.map (List.splitOn separator) :=
    List.eq_iff_flatten_eq.mpr ⟨same_pieces, same_cuts⟩
  apply List.map_injective_iff.mpr _ split
  intro text other same
  exact splitOn_injective same

theorem separates_iff (nonempty : parts ≠ []) (others_nonempty : others ≠ []) :
    (parts ≠ others → join separator parts ≠ join separator others) ↔
      cuts separator parts = cuts separator others ∨
        pieces separator parts ≠ pieces separator others := by
  rw [ne_eq (join separator parts), join_eq_iff nonempty others_nonempty]
  constructor
  · intro separates
    by_cases same : parts = others
    · exact .inl (by rw [same])
    · exact .inr (separates same)
  · rintro (same_cuts | different) apart
    · intro same_pieces
      exact apart (eq_of_pieces same_pieces same_cuts)
    · exact different

end Joined
