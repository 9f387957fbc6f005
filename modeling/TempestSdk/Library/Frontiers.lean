import Mathlib.Data.Fintype.Card
import Mathlib.Data.Set.Defs
import Mathlib.Logic.Relation

/-!
# Frontiers

The frontier of a finite type under a relation `r`, where `r x y` says that `x`
beats `y`: the elements that none beats.  Among such relations is the
domination under several strict preferences.
-/

namespace TempestSdk.Frontiers

variable {α : Type*} {r : α → α → Prop}

def Unbeaten (r : α → α → Prop) (x : α) : Prop :=
  ∀ y, ¬r y x

section

variable (acyclic : ∀ x, ¬Relation.TransGen r x x)

include acyclic

theorem wellFounded_of_acyclic [Finite α] : WellFounded (Relation.TransGen r) := by
  have : IsTrans α (Relation.TransGen r) :=
    ⟨fun _ _ _ => Relation.TransGen.trans⟩
  have : Std.Irrefl (Relation.TransGen r) := ⟨acyclic⟩
  exact Finite.wellFounded_of_trans_of_irrefl _

theorem exists_unbeaten_chain [Finite α] {x : α} (beaten : ¬Unbeaten r x) :
    ∃ y, Unbeaten r y ∧ Relation.TransGen r y x := by
  induction x using (wellFounded_of_acyclic acyclic).induction with
  | _ x above =>
    obtain ⟨y, beats⟩ : ∃ y, r y x := by
      simpa [Unbeaten] using beaten
    by_cases unbeaten : Unbeaten r y
    · exact ⟨y, unbeaten, .single beats⟩
    · obtain ⟨top, onTop, chain⟩ := above y (.single beats) unbeaten
      exact ⟨top, onTop, chain.tail beats⟩

theorem exists_unbeaten [Finite α] [Nonempty α] : ∃ y, Unbeaten r y := by
  obtain ⟨x⟩ := ‹Nonempty α›
  by_cases unbeaten : Unbeaten r x
  · exact ⟨x, unbeaten⟩
  · obtain ⟨top, onTop, _⟩ := exists_unbeaten_chain acyclic unbeaten
    exact ⟨top, onTop⟩

end

theorem acyclic_of_transitive (irreflexive : ∀ x, ¬r x x)
    (transitive : ∀ x y z, r x y → r y z → r x z) (x : α) :
    ¬Relation.TransGen r x x := by
  intro circle
  have : IsTrans α r := ⟨transitive⟩
  rw [Relation.transGen_eq_self] at circle
  exact irreflexive x circle

theorem exists_unbeaten_above [Finite α] (irreflexive : ∀ x, ¬r x x)
    (transitive : ∀ x y z, r x y → r y z → r x z) {x : α}
    (beaten : ¬Unbeaten r x) : ∃ y, Unbeaten r y ∧ r y x := by
  obtain ⟨top, onTop, chain⟩ := exists_unbeaten_chain
    (acyclic_of_transitive irreflexive transitive) beaten
  have : IsTrans α r := ⟨transitive⟩
  rw [Relation.transGen_eq_self] at chain
  exact ⟨top, onTop, chain⟩

def Dominates (preferences : List (α → α → Prop)) (x y : α) : Prop :=
  (∀ prefers ∈ preferences, ¬prefers y x) ∧ ∃ prefers ∈ preferences, prefers x y

namespace Dominates

variable {preferences : List (α → α → Prop)} {x y z : α}

theorem asymm (forth : Dominates preferences x y) : ¬Dominates preferences y x := by
  intro back
  obtain ⟨prefers, member, better⟩ := forth.2
  exact back.1 prefers member better

theorem irrefl : ¬Dominates preferences x x :=
  fun self => self.asymm self

theorem trans {among : Set α}
    (weak : ∀ prefers ∈ preferences, ∀ a ∈ among, ∀ b ∈ among, ∀ c ∈ among,
      prefers a c → prefers a b ∨ prefers b c)
    (x_mem : x ∈ among) (y_mem : y ∈ among) (z_mem : z ∈ among)
    (first : Dominates preferences x y) (second : Dominates preferences y z) :
    Dominates preferences x z := by
  constructor
  · intro prefers member against
    rcases weak prefers member z z_mem y y_mem x x_mem against with
      over_y | over_x
    · exact second.1 prefers member over_y
    · exact first.1 prefers member over_x
  · obtain ⟨prefers, member, better⟩ := first.2
    rcases weak prefers member x x_mem z z_mem y y_mem better with
      over_z | against
    · exact ⟨prefers, member, over_z⟩
    · exact absurd against (second.1 prefers member)

end Dominates

end TempestSdk.Frontiers
