import Mathlib.Data.List.Sort

/-!
# Stable sorting by a key

Two lists are sorted into the same one just when, for every key, they hold the
same elements with that key in the same order.
-/

namespace StableSort

variable {α β κ : Type} [LinearOrder κ] (key : α → κ)

def sortBy (items : List α) : List α :=
  items.insertionSort fun left right => key left ≤ key right

def withKey (wanted : κ) (items : List α) : List α :=
  items.filter fun item => decide (key item = wanted)

def Agree (left right : List α) : Prop :=
  ∀ wanted, withKey key wanted left = withKey key wanted right

variable {key}

theorem withKey_orderedInsert (wanted : κ) (item : α) (items : List α) : withKey key wanted
        (items.orderedInsert (fun left right => key left ≤ key right) item) =
      withKey key wanted (item :: items) := by
  induction items with
  | nil => rfl
  | cons first rest induction =>
    by_cases before : key item ≤ key first
    · rw [List.orderedInsert_cons, if_pos before]
    · rw [List.orderedInsert_cons, if_neg before]
      unfold withKey at induction ⊢
      rw [List.filter_cons, induction]
      by_cases here : key item = wanted
      · have apart : key first ≠ wanted := by
          rintro rfl
          exact before here.le
        simp [here, apart]
      · simp [List.filter_cons, here]

theorem withKey_sortBy (wanted : κ) (items : List α) :
    withKey key wanted (sortBy key items) = withKey key wanted items := by
  induction items with
  | nil => rfl
  | cons item rest induction =>
    refine (withKey_orderedInsert wanted item (sortBy key rest)).trans ?_
    unfold withKey at induction ⊢
    rw [List.filter_cons, induction, List.filter_cons]

theorem sortBy_pairwise (items : List α) :
    (sortBy key items).Pairwise fun left right => key left ≤ key right := by
  have total : Std.Total fun left right => key left ≤ key right :=
    ⟨fun left right => le_total (key left) (key right)⟩
  have trans : IsTrans α fun left right => key left ≤ key right :=
    ⟨fun _ _ _ first second => first.trans second⟩
  exact List.pairwise_insertionSort _ items

theorem sortBy_perm (items : List α) : (sortBy key items).Perm items :=
  List.perm_insertionSort _ items

theorem Agree.head {item other : α} {rest others : List α}
    (agree : Agree key (item :: rest) (other :: others))
    (same : key item = key other) : item = other := by
  have here := agree (key item)
  simp [withKey, same] at here
  exact here.1

theorem Agree.tail {item : α} {rest others : List α}
    (agree : Agree key (item :: rest) (item :: others)) :
    Agree key rest others := by
  intro wanted
  have whole := agree wanted
  unfold withKey at whole ⊢
  by_cases wants : key item = wanted
  · simpa [List.filter_cons, wants] using whole
  · simpa [List.filter_cons, wants] using whole

variable {left right : List α}

theorem eq_of_pairwise (leftSorted : left.Pairwise fun one other => key one ≤ key other)
    (rightSorted : right.Pairwise fun one other => key one ≤ key other)
    (agree : Agree key left right) : left = right := by
  induction left generalizing right with
  | nil =>
    cases right with
    | nil => rfl
    | cons other others =>
      have impossible := agree (key other)
      simp [withKey] at impossible
  | cons item rest induction =>
    cases right with
    | nil =>
      have impossible := agree (key item)
      simp [withKey] at impossible
    | cons other others =>
      rw [List.pairwise_cons] at leftSorted rightSorted
      have here := agree (key item)
      have there := agree (key other)
      have inRight : item ∈ other :: others := by
        have member : item ∈ withKey key (key item) (item :: rest) := by
          simp [withKey]
        rw [here] at member
        exact List.mem_of_mem_filter member
      have inLeft : other ∈ item :: rest := by
        have member : other ∈ withKey key (key other) (other :: others) := by
          simp [withKey]
        rw [← there] at member
        exact List.mem_of_mem_filter member
      have same : key item = key other := by
        apply le_antisymm
        · rcases List.mem_cons.mp inLeft with rfl | later
          · exact le_rfl
          · exact leftSorted.1 other later
        · rcases List.mem_cons.mp inRight with rfl | later
          · exact le_rfl
          · exact rightSorted.1 item later
      have first := agree.head same
      subst first
      rw [induction leftSorted.2 rightSorted.2 agree.tail]

theorem sortBy_eq_iff : sortBy key left = sortBy key right ↔ Agree key left right := by
  constructor
  · intro same wanted
    rw [← withKey_sortBy, same, withKey_sortBy]
  · intro agree
    apply eq_of_pairwise (sortBy_pairwise left) (sortBy_pairwise right)
    intro wanted
    rw [withKey_sortBy, withKey_sortBy, agree wanted]

theorem sortBy_sortBy (items : List α) : sortBy key (sortBy key items) = sortBy key items := by
  rw [sortBy_eq_iff]
  intro wanted
  exact withKey_sortBy wanted items

theorem sortBy_of_pairwise {items : List α}
    (sorted : items.Pairwise fun left right => key left ≤ key right) :
    sortBy key items = items := by
  apply eq_of_pairwise (sortBy_pairwise items) sorted
  intro wanted
  exact withKey_sortBy wanted items

theorem eq_sortBy_iff : left = sortBy key right ↔
      (left.Pairwise fun item later => key item ≤ key later) ∧
        sortBy key right = sortBy key left := by
  constructor
  · rintro rfl
    exact ⟨sortBy_pairwise right, (sortBy_sortBy right).symm⟩
  · rintro ⟨sorted, same⟩
    rw [same, sortBy_of_pairwise sorted]

theorem eq_of_agree (keys : left.map key = right.map key)
    (agree : Agree key left right) : left = right := by
  induction left generalizing right with
  | nil =>
    cases right with
    | nil => rfl
    | cons other others => cases keys
  | cons item rest induction =>
    cases right with
    | nil => cases keys
    | cons other others =>
      rw [List.map_cons, List.map_cons, List.cons.injEq] at keys
      have first := agree.head keys.1
      subst first
      rw [induction keys.2 agree.tail]

theorem Agree.mem (agree : Agree key left right) {item : α}
    (member : item ∈ right) : item ∈ left := by
  have marked : item ∈ withKey key (key item) right := by
    simp [withKey, member]
  rw [← agree] at marked
  exact List.mem_of_mem_filter marked

theorem Agree.of_marks {μ : Type} [LinearOrder μ] {mark : α → μ} (agree : Agree key left right)
    (same : ∀ item ∈ left, ∀ other ∈ left, key item = key other ↔ mark item = mark other) :
    Agree mark left right := by
  intro wanted
  have marks : ∀ found ∈ left, mark found = wanted → ∀ items : List α,
      (∀ item ∈ items, item ∈ left) →
      withKey mark wanted items = withKey key (key found) items := by
    intro found inside marked items among
    unfold withKey
    apply List.filter_congr
    intro item member
    have tells := same item (among item member) found inside
    rw [marked] at tells
    exact decide_eq_decide.mpr tells.symm
  by_cases found : ∃ item ∈ left, mark item = wanted
  · obtain ⟨item, inside, marked⟩ := found
    rw [marks item inside marked left fun _ member => member,
      marks item inside marked right fun _ member => agree.mem member]
    exact agree (key item)
  · have none_here : ∀ items : List α, (∀ item ∈ items, item ∈ left) →
        withKey mark wanted items = [] := by
      intro items among
      unfold withKey
      rw [List.filter_eq_nil_iff]
      intro item member marked
      exact found ⟨item, among item member, of_decide_eq_true marked⟩
    rw [none_here left fun _ member => member, none_here right fun _ member => agree.mem member]

theorem map_sortBy (key : β → κ) (transform : α → β) (items : List α) :
    (sortBy (fun item => key (transform item)) items).map transform =
      sortBy key (items.map transform) := by
  unfold sortBy
  exact List.map_insertionSort _ _ _ _ (fun _ _ _ _ => Iff.rfl)

/-- Each element is matched with the first one that it finds and that was not
matched before; they fit, and none is left over. -/
def matchUp (finds fits : α → β → Bool) : List α → List β → Bool
  | [], others => others.isEmpty
  | item :: rest, others =>
    match others.find? (finds item) with
    | none => false
    | some other => fits item other && matchUp finds fits rest (others.eraseP (finds item))

theorem withKey_eraseP {finds : β → Bool} {found : β} {mark : κ}
    {other : β → α} {items : List β}
    (finding : ∀ item ∈ items, finds item = true ↔ key (other item) = mark)
    (first : items.find? finds = some found) (wanted : κ) :
    withKey key wanted (items.map other) = if wanted = mark then
        other found :: withKey key wanted ((items.eraseP finds).map other)
      else withKey key wanted ((items.eraseP finds).map other) := by
  induction items with
  | nil => cases first
  | cons item rest induction =>
    have finding_item := finding item List.mem_cons_self
    by_cases finds_item : finds item = true
    · rw [List.find?_cons_of_pos finds_item] at first
      have marked := finding_item.mp finds_item
      cases first
      rw [List.eraseP_cons_of_pos finds_item]
      by_cases wants : wanted = mark
      · simp [withKey, wants, marked]
      · have apart : ¬ mark = wanted := fun same => wants same.symm
        simp [withKey, wants, marked, apart]
    · rw [List.find?_cons_of_neg finds_item] at first
      have apart : key (other item) ≠ mark :=
        fun marked => finds_item (finding_item.mpr marked)
      have later := induction
        (fun next member => finding next (List.mem_cons_of_mem _ member)) first
      rw [List.eraseP_cons_of_neg finds_item]
      unfold withKey at later ⊢
      rw [List.map_cons, List.filter_cons, later, List.map_cons, List.filter_cons]
      by_cases here : key (other item) = wanted
      · have wants : wanted ≠ mark := by
          rintro rfl
          exact apart here
        simp [here, wants]
      · simp [here]

theorem agree_cons_iff {finds : β → Bool} {found : β} {item : α}
    {other : β → α} {rest : List α} {items : List β}
    (finding : ∀ y ∈ items, finds y = true ↔ key (other y) = key item)
    (first : items.find? finds = some found) :
    Agree key (item :: rest) (items.map other) ↔
      item = other found ∧ Agree key rest ((items.eraseP finds).map other) := by
  have erased := withKey_eraseP finding first
  constructor
  · intro agree
    have here := agree (key item)
    rw [erased, if_pos rfl] at here
    simp only [withKey, List.filter_cons, decide_true, if_true, List.cons.injEq] at here
    refine ⟨here.1, ?_⟩
    intro wanted
    by_cases wants : wanted = key item
    · rw [wants]
      exact here.2
    · have there := agree wanted
      rw [erased, if_neg wants] at there
      have apart : ¬ key item = wanted := fun same => wants same.symm
      simpa [withKey, apart] using there
  · rintro ⟨same, agree⟩ wanted
    rw [erased, ← agree wanted, ← same]
    by_cases wants : wanted = key item
    · simp [withKey, wants]
    · have apart : ¬ key item = wanted := fun same => wants same.symm
      simp [withKey, wants, apart]

theorem matchUp_iff {γ : Type} {finds fits : α → β → Bool} {key : γ → κ}
    {one : α → γ} {other : β → γ} {left : List α} {right : List β}
    (finding : ∀ item ∈ left, ∀ y ∈ right, finds item y = true ↔ key (other y) = key (one item))
    (fitting : ∀ item ∈ left, ∀ y ∈ right, finds item y = true →
      (fits item y = true ↔ one item = other y)) :
    matchUp finds fits left right = true ↔
      sortBy key (left.map one) = sortBy key (right.map other) := by
  rw [sortBy_eq_iff]
  induction left generalizing right with
  | nil =>
    cases right with
    | nil => exact iff_of_true rfl fun _ => rfl
    | cons first others =>
      apply iff_of_false (fun impossible => by cases impossible)
      intro agree
      have impossible := agree (key (other first))
      simp [withKey] at impossible
  | cons item rest induction =>
    have later := @induction (right.eraseP (finds item))
      (fun next member y left_over => finding next
        (List.mem_cons_of_mem _ member) y (List.mem_of_mem_eraseP left_over))
      (fun next member y left_over => fitting next
        (List.mem_cons_of_mem _ member) y (List.mem_of_mem_eraseP left_over))
    have finds_item := finding item List.mem_cons_self
    unfold matchUp
    cases first : right.find? (finds item) with
    | none =>
      apply iff_of_false (fun impossible => by cases impossible)
      intro agree
      have here := agree (key (one item))
      have member : one item ∈ withKey key (key (one item)) (right.map other) := by
        rw [← here]
        simp [withKey]
      obtain ⟨y, inRight, same⟩ :=
        List.mem_map.mp (List.mem_of_mem_filter member)
      have unfound := List.find?_eq_none.mp first y inRight
      exact unfound ((finds_item y inRight).mpr (by rw [same]))
    | some found =>
      have fits_item := fitting item List.mem_cons_self found
        (List.mem_of_find?_eq_some first) (List.find?_some first)
      rw [List.map_cons, agree_cons_iff finds_item first, ← later,
        ← fits_item, Bool.and_eq_true]

end StableSort
