import Mathlib.Tactic.IntervalCases
import TempestSdk.Library.LikePatterns

/-!
# Filters on texts

The suffix operators that look for a text in a column: the value is escaped and
put in a pattern of `ILIKE`, which folds the case of the pattern and of the
column before it matches them.
-/

namespace TempestSdk.Expressions

open LikePatterns

/-- `text.replace(old, new)` for one character. -/
def replace (old : Char) (new : Text) (text : Text) : Text :=
  text.flatMap fun char => if char = old then new else [char]

def escapeLike (value : Text) : Text :=
  replace '_' ['\\', '_'] (replace '%' ['\\', '%'] (replace '\\' ['\\', '\\'] value))

inductive Lookup where
  | contains
  | icontains
  | startswith
  | endswith
deriving DecidableEq

/-- `column.ilike(pattern, escape=…)`. -/
structure Ilike where
  pattern : Text
  escape : Char
deriving DecidableEq

/-- `_suffix_condition` for the operators that escape their value. -/
def suffixCondition : Lookup → Text → Ilike
  | .contains, value | .icontains, value => ⟨['%'] ++ escapeLike value ++ ['%'], '\\'⟩
  | .startswith, value => ⟨escapeLike value ++ ['%'], '\\'⟩
  | .endswith, value => ⟨['%'] ++ escapeLike value, '\\'⟩

/-- How a database folds the case of a character.  The special characters of a
pattern have no case, and no other character folds to one. -/
structure Folding where
  fold : Char → Text
  special_kept : ∀ char, special '\\' char = true → fold char = [char]
  plain_kept : ∀ char, special '\\' char = false →
    ∀ folded ∈ fold char, special '\\' folded = false

/-- `lower` of a text. -/
def Folding.lower (folding : Folding) (text : Text) : Text :=
  text.flatMap folding.fold

def Ilike.holds (folding : Folding) (clause : Ilike) (stored : Text) : Bool :=
  like clause.escape (folding.lower clause.pattern) (folding.lower stored)

def Lookup.Asks : Lookup → Text → Text → Prop
  | .contains, value, stored | .icontains, value, stored => value <:+: stored
  | .startswith, value, stored => value <+: stored
  | .endswith, value, stored => value <:+ stored

theorem escapeLike_eq (value : Text) : escapeLike value = value.flatMap (escaped '\\') := by
  unfold escapeLike replace
  rw [List.flatMap_assoc, List.flatMap_assoc]
  apply List.flatMap_congr
  intro char _member
  by_cases backslash : char = '\\'
  · subst backslash
    rfl
  by_cases percent : char = '%'
  · subst percent
    rfl
  by_cases underscore : char = '_'
  · subst underscore
    rfl
  simp [escaped, special, backslash, percent, underscore]

section

variable {folding : Folding}

theorem lower_append (one two : Text) :
    folding.lower (one ++ two) = folding.lower one ++ folding.lower two :=
  List.flatMap_append

theorem lower_percent : folding.lower ['%'] = ['%'] := by
  have kept := folding.special_kept '%' rfl
  simp [Folding.lower, kept]

theorem escaped_plain {text : Text} (plain : ∀ char ∈ text, special '\\' char = false) :
    text.flatMap (escaped '\\') = text := by
  induction text with
  | nil => rfl
  | cons char text induction =>
    rw [List.flatMap_cons, induction fun other member =>
      plain other (List.mem_cons_of_mem _ member)]
    simp [escaped, plain char List.mem_cons_self]

theorem lower_escapeLike (value : Text) : folding.lower (escapeLike value) =
      (folding.lower value).flatMap (escaped '\\') := by
  rw [escapeLike_eq]
  unfold Folding.lower
  rw [List.flatMap_assoc, List.flatMap_assoc]
  apply List.flatMap_congr
  intro char _member
  cases kind : special '\\' char with
  | true =>
    have backslash := folding.special_kept '\\' rfl
    simp [escaped, kind, folding.special_kept char kind, backslash]
  | false =>
    rw [escaped_plain (folding.plain_kept char kind)]
    simp [escaped, kind]

end

/-- A row is found exactly when its folded text has the folded value where the
operator looks for it. -/
theorem suffixCondition_exact (folding : Folding) (lookup : Lookup) (value stored : Text) :
    (suffixCondition lookup value).holds folding stored = true ↔
      lookup.Asks (folding.lower value) (folding.lower stored) := by
  have plain : '\\' ≠ '%' := by decide
  unfold Ilike.holds
  cases lookup with
  | contains | icontains =>
    dsimp only [suffixCondition, Lookup.Asks]
    rw [lower_append, lower_append, lower_percent, lower_escapeLike]
    exact like_contains plain
  | startswith =>
    dsimp only [suffixCondition, Lookup.Asks]
    rw [lower_append, lower_percent, lower_escapeLike]
    exact like_startswith plain
  | endswith =>
    dsimp only [suffixCondition, Lookup.Asks]
    rw [lower_append, lower_percent, lower_escapeLike]
    exact like_endswith plain

theorem toLower_of_upper {char : Char} (upper : 65 ≤ char.toNat) (last : char.toNat ≤ 90) :
    special '\\' char.toLower = false ∧ special '\\' char = false := by
  have coded := Char.ofNat_toNat char
  generalize char.toNat = code at coded upper last
  subst coded
  interval_cases code <;> decide

theorem special_toLower (char : Char) : special '\\' char.toLower = special '\\' char := by
  by_cases upper : 65 ≤ char.toNat ∧ char.toNat ≤ 90
  · obtain ⟨lowered, kept⟩ := toLower_of_upper upper.1 upper.2
    rw [lowered, kept]
  · have same : char.toLower = char := dif_neg upper
    rw [same]

/-- The case of SQLite, which knows the letters of ASCII. -/
def sqlite : Folding where
  fold char := [char.toLower]
  special_kept char kind := by
    simp only [special, Bool.or_eq_true, beq_iff_eq] at kind
    rcases kind with (rfl | rfl) | rfl <;> rfl
  plain_kept char kind folded member := by
    rw [List.mem_singleton.mp member, special_toLower]
    exact kind

example : (suffixCondition .contains ['5', '0', '%']).holds sqlite
    ['A', '5', '0', '%', 'b'] = true := by
  decide

end TempestSdk.Expressions
