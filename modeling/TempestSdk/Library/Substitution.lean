import Mathlib.Data.List.Basic

/-!
# Substitution in a text

A finder says whether something is found at the start of a text, what takes its
place and what stands behind it.  The substitution goes through a text from left
to right, as `re.sub` does with matches that are never empty.
-/

namespace Substitution

variable {Symbol : Type*}

abbrev Finder (Symbol : Type*) :=
  List Symbol → Option (List Symbol × List Symbol)

def subFuel (find : Finder Symbol) : Nat → List Symbol → List Symbol
  | 0, text => text
  | _ + 1, [] => []
  | fuel + 1, first :: rest =>
    match find (first :: rest) with
    | some (replacement, behind) => replacement ++ subFuel find fuel behind
    | none => first :: subFuel find fuel rest

def sub (find : Finder Symbol) (text : List Symbol) : List Symbol :=
  subFuel find text.length text

def Consuming (find : Finder Symbol) : Prop :=
  ∀ text replacement behind, find text = some (replacement, behind) →
    behind.length < text.length

variable {find : Finder Symbol} {text front rest behind replacement : List Symbol}
variable {first : Symbol}

theorem subFuel_enough (consuming : Consuming find) {fuel other : Nat}
    (enough : text.length ≤ fuel) (other_enough : text.length ≤ other) :
    subFuel find fuel text = subFuel find other text := by
  induction fuel generalizing other text with
  | zero =>
    cases text with
    | nil =>
      cases other with
      | zero => rfl
      | succ other => rfl
    | cons first rest => simp at enough
  | succ fuel induction =>
    cases text with
    | nil =>
      cases other with
      | zero => rfl
      | succ other => rfl
    | cons first rest =>
      cases other with
      | zero => simp at other_enough
      | succ other =>
        simp only [List.length_cons] at enough other_enough
        unfold subFuel
        cases found : find (first :: rest) with
        | none =>
          dsimp only
          rw [@induction rest other (by omega) (by omega)]
        | some pair =>
          obtain ⟨replacement, behind⟩ := pair
          have shorter := consuming _ _ _ found
          rw [List.length_cons] at shorter
          dsimp only
          rw [@induction behind other (by omega) (by omega)]

theorem sub_passed (absent : find (first :: rest) = none) :
    sub find (first :: rest) = first :: sub find rest := by
  unfold sub
  rw [List.length_cons, subFuel, absent]

theorem sub_found (consuming : Consuming find)
    (found : find text = some (replacement, behind)) :
    sub find text = replacement ++ sub find behind := by
  have shorter := consuming _ _ _ found
  cases text with
  | nil => simp at shorter
  | cons first rest =>
    rw [List.length_cons] at shorter
    unfold sub
    rw [List.length_cons, subFuel, found]
    dsimp only
    rw [subFuel_enough consuming (by omega) (Nat.le_refl behind.length)]

theorem sub_append (quiet : ∀ back, back <:+ front → back ≠ [] → find (back ++ rest) = none) :
    sub find (front ++ rest) = front ++ sub find rest := by
  induction front with
  | nil => rfl
  | cons first front induction =>
    have absent := quiet (first :: front) (List.suffix_refl _) (List.cons_ne_nil _ _)
    rw [List.cons_append] at absent ⊢
    rw [sub_passed absent, induction, List.cons_append]
    intro back suffix nonempty
    exact quiet back (suffix.trans (List.suffix_cons first front)) nonempty

end Substitution
