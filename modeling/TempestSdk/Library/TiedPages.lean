import Mathlib.Data.List.Nodup
import Mathlib.Data.List.Pairwise
import Mathlib.Data.List.Perm.Basic

/-!
# Pages of listings with ties

Items are listed in an order that leaves some of them tied, and every page is
cut from a listing of its own.  The pages together hold every item once,
however the ties are broken, exactly when no tie reaches past the end of a
page.
-/

namespace TiedPages

variable {Item : Type*}

def page (size : Nat) (listing : List Item) (number : Nat) : List Item :=
  (listing.drop (number * size)).take size

variable (le : Item → Item → Bool)

structure Ranked : Prop where
  trans : ∀ low middle high, le low middle = true → le middle high = true → le low high = true
  total : ∀ left right, le left right = true ∨ le right left = true

structure Lists (items listing : List Item) : Prop where
  perm : listing.Perm items
  sorted : listing.Pairwise fun left right => le left right = true

/-- How many items come before the item, and how many come before or are tied
with it. -/
def before (items : List Item) (item : Item) : Nat :=
  items.countP fun other => !le item other

def upTo (items : List Item) (item : Item) : Nat :=
  items.countP fun other => le other item

def Together (size : Nat) (items : List Item) : Prop :=
  ∀ item ∈ items, before le items item / size = (upTo le items item - 1) / size

instance (size : Nat) (items : List Item) :
    Decidable (Together le size items) :=
  inferInstanceAs (Decidable (∀ item ∈ items, _ = _))

variable {le} {items listing : List Item}

theorem getElem_iff {holds : Item → Bool}
    (closed : ∀ low high, le low high = true → holds high = true → holds low = true)
    (sorted : listing.Pairwise fun left right => le left right = true)
    (position : Nat) (inside : position < listing.length) :
    holds listing[position] = true ↔ position < listing.countP holds := by
  induction listing generalizing position with
  | nil => cases inside
  | cons first rest induction =>
    obtain ⟨lowest, others⟩ := List.pairwise_cons.mp sorted
    rw [List.countP_cons]
    cases front : holds first with
    | true =>
      rw [if_pos rfl]
      cases position with
      | zero => simp [front]
      | succ position =>
        have shorter : position < rest.length :=
          Nat.lt_of_succ_lt_succ inside
        rw [List.getElem_cons_succ, induction others position shorter, Nat.succ_lt_succ_iff]
    | false =>
      rw [if_neg Bool.false_ne_true]
      have none_holds : ∀ item ∈ rest, ¬ holds item = true := by
        intro item member later
        rw [closed first item (lowest item member) later] at front
        cases front
      rw [List.countP_eq_zero.mpr none_holds]
      have fails : ¬ holds (first :: rest)[position] = true := by
        cases position with
        | zero => simp [front]
        | succ position =>
          rw [List.getElem_cons_succ]
          exact none_holds _ (List.getElem_mem _)
      simp [fails]

theorem le_refl (ranked : Ranked le) (item : Item) : le item item = true := by
  rcases ranked.total item item with same | same
  · exact same
  · exact same

theorem Lists.position (lists : Lists le items listing) (ranked : Ranked le)
    (place : Nat) (inside : place < listing.length) :
    before le items listing[place] ≤ place ∧ place < upTo le items listing[place] := by
  have reflexive := le_refl ranked listing[place]
  unfold before upTo
  rw [← lists.perm.countP_eq, ← lists.perm.countP_eq]
  constructor
  · apply Nat.le_of_not_lt
    rw [← getElem_iff ?_ lists.sorted place inside, reflexive]
    · exact Bool.false_ne_true
    · intro low high up later
      rw [Bool.not_eq_true'] at later ⊢
      cases turned : le listing[place] low with
      | false => rfl
      | true =>
        rw [ranked.trans _ _ _ turned up] at later
        cases later
  · rw [← getElem_iff ?_ lists.sorted place inside]
    · exact reflexive
    · intro low high up later
      exact ranked.trans _ _ _ up later

theorem Lists.take_perm (lists : Lists le items listing) (ranked : Ranked le)
    {size : Nat} (positive : 0 < size) (together : Together le size items)
    (number : Nat) :
    (listing.take (number * size)).Perm
      (items.filter fun item => upTo le items item ≤ number * size) := by
  have front : ∀ item ∈ listing.take (number * size),
      decide (upTo le items item ≤ number * size) = true := by
    intro item member
    obtain ⟨place, inside, rfl⟩ := List.mem_take_iff_getElem.mp member
    have within : place < listing.length := by omega
    obtain ⟨least, -⟩ := lists.position ranked place within
    have known := together _ (lists.perm.mem_iff.mp (List.getElem_mem within))
    have first : before le items listing[place] / size < number := by
      rw [Nat.div_lt_iff_lt_mul positive]
      omega
    rw [known, Nat.div_lt_iff_lt_mul positive] at first
    exact decide_eq_true (by omega)
  have back : ∀ item ∈ listing.drop (number * size),
      ¬ decide (upTo le items item ≤ number * size) = true := by
    intro item member
    obtain ⟨place, inside, rfl⟩ := List.mem_drop_iff_getElem.mp member
    have within : number * size + place < listing.length := by omega
    obtain ⟨-, most⟩ := lists.position ranked _ within
    rw [decide_eq_true_eq]
    omega
  have parted : listing.filter (fun item =>
      upTo le items item ≤ number * size) = listing.take (number * size) := by
    conv_lhs => rw [← List.take_append_drop (number * size) listing]
    rw [List.filter_append, List.filter_eq_self.mpr front,
      List.filter_eq_nil_iff.mpr back, List.append_nil]
  rw [← parted]
  exact lists.perm.filter _

theorem pages_perm (ranked : Ranked le) {size : Nat} (positive : 0 < size)
    (together : Together le size items) {listings : Nat → List Item}
    (lists : ∀ number, Lists le items (listings number)) (count : Nat) :
    ((List.range count).flatMap fun number =>
        page size (listings number) number).Perm
      (items.filter fun item => upTo le items item ≤ count * size) := by
  induction count with
  | zero =>
    have first := (lists 0).take_perm ranked positive together 0
    rw [Nat.zero_mul, List.take_zero] at first
    rw [Nat.zero_mul]
    exact first
  | succ count induction =>
    have here := (lists count).take_perm ranked positive together count
    have next := (lists count).take_perm ranked positive together (count + 1)
    rw [Nat.succ_mul, List.take_add] at next
    rw [List.range_succ, List.flatMap_append, List.flatMap_singleton, Nat.succ_mul]
    exact ((induction.trans here.symm).append_right _).trans next

theorem swap_sorted {front rest : List Item} {first second : Item}
    (tied : le second first = true)
    (sorted : (front ++ first :: second :: rest).Pairwise fun left right =>
      le left right = true) :
    (front ++ second :: first :: rest).Pairwise fun left right =>
      le left right = true := by
  rw [List.pairwise_append, List.pairwise_cons, List.pairwise_cons] at sorted ⊢
  obtain ⟨ahead, ⟨lowest, later, others⟩, across⟩ := sorted
  refine ⟨ahead, ⟨?_, ?_, others⟩, ?_⟩
  · intro item member
    rcases List.mem_cons.mp member with rfl | below
    · exact tied
    · exact later item below
  · intro item member
    exact lowest item (List.mem_cons_of_mem _ member)
  · intro item member other among
    apply across item member other
    rcases List.mem_cons.mp among with rfl | below
    · exact List.mem_cons_of_mem _ (.head _)
    · rcases List.mem_cons.mp below with rfl | below
      · exact .head _
      · exact List.mem_cons_of_mem _ (List.mem_cons_of_mem _ below)

theorem mem_page {size place number : Nat}
    (from_start : number * size ≤ place) (to_end : place < (number + 1) * size)
    (inside : place < listing.length) :
    listing[place] ∈ page size listing number := by
  rw [Nat.succ_mul] at to_end
  refine List.mem_take_iff_getElem.mpr ⟨place - number * size, ?_, ?_⟩
  · rw [List.length_drop]
    omega
  · rw [List.getElem_drop]
    congr 1
    omega

theorem together_of_nodup (ranked : Ranked le) {size : Nat}
    (positive : 0 < size) (lists : Lists le items listing) {count : Nat}
    (all : items.length ≤ count * size)
    (once : ∀ listings : Nat → List Item, (∀ number, Lists le items (listings number)) →
      ((List.range count).flatMap fun number =>
        page size (listings number) number).Nodup) :
    Together le size items := by
  intro item member
  obtain ⟨place, inside, rfl⟩ :=
    List.getElem_of_mem (lists.perm.mem_iff.mpr member)
  obtain ⟨least, most⟩ := lists.position ranked place inside
  have ordered : before le items listing[place] / size ≤
      (upTo le items listing[place] - 1) / size :=
    Nat.div_le_div_right (by omega)
  refine Nat.le_antisymm ordered (Nat.le_of_not_lt ?_)
  intro past
  generalize number : (upTo le items listing[place] - 1) / size = end_page at past
  -- The boundary before this page lies inside the tie.
  have low : before le items listing[place] < end_page * size := by
    rwa [Nat.div_lt_iff_lt_mul positive] at past
  have high : end_page * size < upTo le items listing[place] := by
    have bound := Nat.div_mul_le_self (upTo le items listing[place] - 1) size
    rw [number] at bound
    omega
  have whole : upTo le items listing[place] ≤ listing.length := by
    rw [lists.perm.length_eq]
    exact List.countP_le_length
  have bounded : end_page < count := by
    have fits : end_page * size < count * size := by
      rw [lists.perm.length_eq] at whole
      omega
    exact Nat.lt_of_mul_lt_mul_right fits
  obtain ⟨edge, same⟩ : ∃ edge, end_page * size = edge + 1 :=
    ⟨end_page * size - 1, by omega⟩
  rw [same] at low high
  have inner : edge + 1 < listing.length := by omega
  have tie : ∀ position (within : position < listing.length),
      before le items listing[place] ≤ position → position < upTo le items listing[place] →
          le listing[position] listing[place] = true ∧
            le listing[place] listing[position] = true := by
    intro position within above below
    unfold before at above
    unfold upTo at below
    rw [← lists.perm.countP_eq] at above below
    constructor
    · refine (getElem_iff ?_ lists.sorted position within).mpr below
      intro low high up later
      exact ranked.trans _ _ _ up later
    · have late := mt (@getElem_iff _ le listing
        (fun other => !le listing[place] other) ?_ lists.sorted
          position within).mp (Nat.not_lt.mpr above)
      · simpa using late
      · intro low high up later
        rw [Bool.not_eq_true'] at later ⊢
        cases turned : le listing[place] low with
        | false => rfl
        | true =>
          rw [ranked.trans _ _ _ turned up] at later
          cases later
  have tied : le listing[edge + 1] listing[edge] = true :=
    ranked.trans _ _ _ (tie (edge + 1) inner (by omega) high).1
      (tie edge (by omega) (by omega) (by omega)).2
  have parts : listing = listing.take edge ++
      listing[edge] :: listing[edge + 1] :: listing.drop (edge + 2) := by
    rw [List.getElem_cons_drop, List.getElem_cons_drop, List.take_append_drop]
  obtain ⟨swapped, swap⟩ : ∃ swapped, swapped = listing.take edge ++
    listing[edge + 1] :: listing[edge] :: listing.drop (edge + 2) := ⟨_, rfl⟩
  have other : Lists le items swapped := by
    refine ⟨?_, ?_⟩
    · refine List.Perm.trans ?_ lists.perm
      rw [swap]
      conv_rhs => rw [parts]
      exact (List.Perm.swap _ _ _).append_left _
    · rw [swap]
      apply swap_sorted tied
      rw [← parts]
      exact lists.sorted
  have length : swapped.length = listing.length :=
    other.perm.length_eq.trans lists.perm.length_eq.symm
  have again : edge + 1 < swapped.length := by omega
  have second_time : swapped[edge + 1] = listing[edge] := by
    subst swap
    have taken : (listing.take edge).length = edge := by
      rw [List.length_take]
      omega
    rw [List.getElem_append_right (by omega)]
    simp only [taken, Nat.add_sub_cancel_left, List.getElem_cons_succ, List.getElem_cons_zero]
  have repeated := once (fun number => if number = end_page then swapped else listing) (by
      intro number
      split
      · exact other
      · exact lists)
  obtain ⟨-, disjoint⟩ := List.nodup_flatMap.mp repeated
  have earlier_page : end_page - 1 < (List.range count).length := by
    rw [List.length_range]
    omega
  have this_page : end_page < (List.range count).length := by
    rw [List.length_range]
    exact bounded
  have nonzero : end_page ≠ 0 := by
    rintro rfl
    omega
  have apart := List.pairwise_iff_getElem.mp disjoint (end_page - 1) end_page
    earlier_page this_page (by omega)
  change List.Disjoint _ _ at apart
  rw [List.getElem_range, List.getElem_range] at apart
  dsimp only at apart
  rw [if_neg (by omega), if_pos rfl] at apart
  have back : (end_page - 1) * size + size = edge + 1 := by
    rw [← same, ← Nat.succ_mul]
    congr 1
    omega
  have first_listed : listing[edge] ∈ page size listing (end_page - 1) := by
    apply mem_page
    · omega
    · rw [Nat.succ_mul]
      omega
  have then_listed : swapped[edge + 1] ∈ page size swapped end_page := by
    apply mem_page
    · omega
    · rw [Nat.succ_mul]
      omega
  rw [second_time] at then_listed
  exact apart first_listed then_listed

theorem pages_perm_iff (ranked : Ranked le) {size : Nat} (positive : 0 < size)
    (lists : Lists le items listing) (distinct : items.Nodup) {count : Nat}
    (all : items.length ≤ count * size) :
    (∀ listings : Nat → List Item, (∀ number, Lists le items (listings number)) →
      ((List.range count).flatMap fun number =>
        page size (listings number) number).Perm items) ↔
      Together le size items := by
  constructor
  · intro once
    refine together_of_nodup ranked positive lists all ?_
    intro listings listed
    exact (once listings listed).nodup_iff.mpr distinct
  · intro together listings listed
    have whole : items.filter (fun item =>
        upTo le items item ≤ count * size) = items := by
      apply List.filter_eq_self.mpr
      intro item _
      have most : upTo le items item ≤ items.length := List.countP_le_length
      exact decide_eq_true (Nat.le_trans most all)
    have paged := pages_perm ranked positive together listed count
    rwa [whole] at paged

end TiedPages
