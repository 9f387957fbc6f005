import Mathlib.Data.List.Basic
import Mathlib.Data.List.Pairwise
import Mathlib.Data.List.Perm.Basic

/-!
# Walking a sorted list page by page

A page holds the first items of those past a cut, and the cut of the next page
is made from its last item.  The walk lists everything once exactly when the
cut made at each page boundary separates what was listed from what was not.

Some items may be past no cut at all.
-/

namespace Keyset

variable {Item Cut : Type*}

structure Paging (Item Cut : Type*) where
  before : Item → Item → Bool
  past : Cut → Item → Bool
  /-- The cut of the page after one that ends with the item; nothing when no
  page is given for it. -/
  mark : Item → Option Cut

variable (paging : Paging Item Cut)

/-- A strict order, and cuts that are upward closed among the items that are
past some cut. -/
structure Paging.Lawful (items : List Item) : Prop where
  asymm : ∀ first second, paging.before first second = true → paging.before second first = false
  upward : ∀ cut other, ∀ first ∈ items, ∀ second ∈ items,
    paging.past cut first = true → paging.before first second = true →
    paging.past other second = true → paging.past cut second = true

def selected (items : List Item) : Option Cut → List Item
  | none => items
  | some cut => items.filter (paging.past cut)

/-- What a client lists from a cut until no page is left. -/
inductive Walk (limit : Nat) (items : List Item) :
    Option Cut → List Item → Prop where
  | last {cut : Option Cut}
      (few : (selected paging items cut).length ≤ limit) :
      Walk limit items cut (selected paging items cut)
  | next {cut : Option Cut} {item : Item} {following : Cut}
      {rest : List Item}
      (many : limit < (selected paging items cut).length)
      (ends : ((selected paging items cut).take limit).getLast? = some item)
      (marked : paging.mark item = some following)
      (walked : Walk limit items (some following) rest) :
      Walk limit items cut ((selected paging items cut).take limit ++ rest)

def rank (items : List Item) (item : Item) : Nat :=
  items.countP fun other => !paging.before item other

/-- The cut made from the item separates the items up to it from those after
it. -/
def Separates (items : List Item) (item : Item) : Prop :=
  ∃ cut, paging.mark item = some cut ∧
    ∀ other ∈ items, paging.past cut other = paging.before item other

variable {paging} {limit : Nat} {items : List Item}

abbrev Sorted (paging : Paging Item Cut) (items : List Item) : Prop :=
  items.Pairwise fun first second => paging.before first second = true

theorem Paging.Lawful.irrefl (lawful : paging.Lawful items) (item : Item) :
    paging.before item item = false := by
  cases same : paging.before item item with
  | false => rfl
  | true => exact same.symm.trans (lawful.asymm item item same)

theorem Paging.Lawful.tail {head : Item}
    (lawful : paging.Lawful (head :: items)) : paging.Lawful items where
  asymm := lawful.asymm
  upward := fun cut other first first_member second second_member =>
    lawful.upward cut other first (List.mem_cons_of_mem _ first_member) second
      (List.mem_cons_of_mem _ second_member)

variable {item : Item}

theorem filter_before (lawful : paging.Lawful items)
    (sorted : Sorted paging items) {index : Nat}
    (found : items[index]? = some item) :
    items.filter (paging.before item) = items.drop (index + 1) := by
  induction items generalizing index with
  | nil => simp at found
  | cons head rest induction =>
    obtain ⟨first, later⟩ := List.pairwise_cons.mp sorted
    cases index with
    | zero =>
      have same : head = item := by simpa using found
      subst same
      rw [List.filter_cons_of_neg (by simp [lawful.irrefl])]
      simpa using first
    | succ index =>
      have found' : rest[index]? = some item := by simpa using found
      have earlier : paging.before item head = false :=
        lawful.asymm head item (first item (List.mem_of_getElem? found'))
      rw [List.filter_cons_of_neg (by simp [earlier])]
      exact induction lawful.tail later found'

theorem rank_eq (lawful : paging.Lawful items) (sorted : Sorted paging items)
    {index : Nat} (found : items[index]? = some item) :
    rank paging items item = index + 1 := by
  have bound : index < items.length := (List.getElem?_eq_some_iff.mp found).1
  have parts : items.length = items.countP (paging.before item) +
      items.countP fun other => decide ¬paging.before item other = true :=
    List.length_eq_countP_add_countP (paging.before item)
  have after : items.countP (paging.before item) = items.length - (index + 1) := by
    rw [List.countP_eq_length_filter, filter_before lawful sorted found, List.length_drop]
  have turned : rank paging items item =
      items.countP fun other => decide ¬paging.before item other = true := by
    unfold rank
    congr 1
    funext other
    simp
  omega

theorem filter_past (lawful : paging.Lawful items) (sorted : Sorted paging items) {index : Nat}
    (found : items[index]? = some item) {cut : Cut}
    (separates : ∀ other ∈ items, paging.past cut other = paging.before item other) :
    items.filter (paging.past cut) = items.drop (index + 1) := by
  rw [← filter_before lawful sorted found]
  exact List.filter_congr separates

theorem separates_of_filter {cut : Cut} (marked : paging.mark item = some cut)
    (same : items.filter (paging.past cut) =
      items.filter (paging.before item)) : Separates paging items item := by
  refine ⟨cut, marked, ?_⟩
  intro other member
  have both : other ∈ items.filter (paging.past cut) ↔
      other ∈ items.filter (paging.before item) := by
    rw [same]
  simp only [List.mem_filter, member, true_and] at both
  exact Bool.eq_iff_iff.mpr both

theorem getLast?_page {start : Nat} (positive : 0 < limit)
    (many : limit < (items.drop start).length) :
    ((items.drop start).take limit).getLast? = items[start + limit - 1]? := by
  rw [List.length_drop] at many
  rw [List.getLast?_eq_getElem?, List.length_take, List.length_drop,
    Nat.min_eq_left (Nat.le_of_lt many), List.getElem?_take_of_lt (by omega),
    List.getElem?_drop]
  congr 1
  omega

theorem index_of_rank (lawful : paging.Lawful items)
    (sorted : Sorted paging items) (member : item ∈ items) {position : Nat}
    (ranked : rank paging items item = position) :
    items[position - 1]? = some item ∧ 0 < position := by
  obtain ⟨index, found⟩ := List.mem_iff_getElem?.mp member
  have counted := rank_eq lawful sorted found
  have same : position = index + 1 := ranked.symm.trans counted
  subst same
  exact ⟨found, Nat.succ_pos _⟩

theorem walk_of_separates (lawful : paging.Lawful items)
    (sorted : Sorted paging items) (positive : 0 < limit)
    (separates : ∀ item ∈ items, limit ∣ rank paging items item →
      rank paging items item < items.length → Separates paging items item)
    (left : Nat) : ∀ (pages : Nat) (cut : Option Cut),
    items.length - pages * limit ≤ left →
    selected paging items cut = items.drop (pages * limit) →
    Walk paging limit items cut (items.drop (pages * limit)) := by
  induction left with
  | zero =>
    intro pages cut bounded chosen
    rw [← chosen]
    apply Walk.last
    rw [chosen, List.length_drop]
    omega
  | succ left induction =>
    intro pages cut bounded chosen
    by_cases few : (items.drop (pages * limit)).length ≤ limit
    · rw [← chosen]
      apply Walk.last
      rw [chosen]
      exact few
    · have many : limit < (items.drop (pages * limit)).length := by omega
      have room := many
      rw [List.length_drop] at room
      have turned : (pages + 1) * limit = pages * limit + limit :=
        Nat.succ_mul pages limit
      have bound : (pages + 1) * limit - 1 < items.length := by omega
      have found : items[(pages + 1) * limit - 1]? = some items[(pages + 1) * limit - 1] :=
        List.getElem?_eq_getElem bound
      have ranked := rank_eq lawful sorted found
      rw [Nat.sub_add_cancel (by omega)] at ranked
      obtain ⟨following, marked, apart⟩ := by
        apply separates _ (List.getElem_mem bound)
        · rw [ranked]
          exact Nat.dvd_mul_left _ _
        · omega
      have past := filter_past lawful sorted found apart
      rw [Nat.sub_add_cancel (by omega)] at past
      have walked := induction (pages + 1) (some following) (by omega) past
      have parts : items.drop (pages * limit) = (selected paging items cut).take limit ++
            items.drop ((pages + 1) * limit) := by
        rw [chosen, turned, ← List.drop_drop, List.take_append_drop]
      rw [parts]
      apply Walk.next _ _ marked walked
      · rw [chosen]
        exact many
      · rw [chosen, getLast?_page positive many, ← turned]
        exact found

theorem Walk.eligible {cut : Option Cut} {listed : List Item}
    (walked : Walk paging limit items cut listed) :
    cut ≠ none → ∀ item ∈ listed, ∃ other, paging.past other item = true := by
  have chosen : ∀ {cut : Option Cut}, cut ≠ none → ∀ item ∈ selected paging items cut,
        ∃ other, paging.past other item = true := by
    intro cut some_cut item member
    cases cut with
    | none => exact absurd rfl some_cut
    | some cut => exact ⟨cut, (List.mem_filter.mp member).2⟩
  induction walked with
  | last few => exact chosen
  | next many ends marked walked induction =>
    intro some_cut item member
    rcases List.mem_append.mp member with first | later
    · exact chosen some_cut item (List.mem_of_mem_take first)
    · exact induction (by simp) item later

theorem Walk.head? {cut : Option Cut} {listed : List Item}
    (positive : 0 < limit) (walked : Walk paging limit items cut listed) :
    listed.head? = (selected paging items cut).head? := by
  cases walked with
  | last few => rfl
  | next many ends marked walked =>
    cases chosen : selected paging items cut with
    | nil => simp [chosen] at many
    | cons head rest =>
      obtain ⟨count, rfl⟩ := Nat.exists_eq_succ_of_ne_zero (Nat.pos_iff_ne_zero.mp positive)
      rfl

theorem Walk.selected_eq (lawful : paging.Lawful items)
    (sorted : Sorted paging items) (positive : 0 < limit) {cut : Cut}
    {start : Nat} (room : start < items.length)
    (walked : Walk paging limit items (some cut) (items.drop start)) :
    items.filter (paging.past cut) = items.drop start := by
  have eligible := walked.eligible (by simp)
  have heads := walked.head? positive
  rw [List.head?_drop, List.getElem?_eq_getElem room] at heads
  have first : items[start] ∈ items.filter (paging.past cut) :=
    List.mem_of_head? heads.symm
  have first_past := (List.mem_filter.mp first).2
  have later : ∀ other ∈ items.drop start, paging.past cut other = true := by
    intro other member
    rw [List.drop_eq_getElem_cons room] at member
    rcases List.mem_cons.mp member with rfl | behind
    · exact first_past
    · have after : paging.before items[start] other = true := by
        have found :=
          filter_before lawful sorted (List.getElem?_eq_getElem room)
        rw [← found] at behind
        exact (List.mem_filter.mp behind).2
      obtain ⟨some_cut, past⟩ := eligible other (by
        rw [List.drop_eq_getElem_cons room]
        exact List.mem_cons_of_mem _ behind)
      exact lawful.upward cut some_cut _ (List.getElem_mem room) other
        (List.mem_of_mem_drop behind) first_past after past
  have parted : items.filter (paging.past cut) =
      (items.take start).filter (paging.past cut) ++ items.drop start := by
    conv_lhs => rw [← List.take_append_drop start items]
    rw [List.filter_append, List.filter_eq_self.mpr later]
  cases earlier : (items.take start).filter (paging.past cut) with
  | nil => rw [parted, earlier, List.nil_append]
  | cons head rest =>
    -- the walk would start before the boundary
    exfalso
    have same : head = items[start] := by
      simp only [selected, parted, earlier] at heads
      simpa using heads.symm
    have member : head ∈ items.take start := by
      have listed : head ∈ (items.take start).filter (paging.past cut) := by
        rw [earlier]
        exact List.mem_cons_self
      exact List.mem_of_mem_filter listed
    have split := sorted
    rw [← List.take_append_drop start items] at split
    have before := (List.pairwise_append.mp split).2.2 head member items[start] (by
        rw [List.drop_eq_getElem_cons room]
        exact List.mem_cons_self)
    rw [same, lawful.irrefl] at before
    cases before

theorem Walk.separates (lawful : paging.Lawful items)
    (sorted : Sorted paging items) (positive : 0 < limit) {cut : Option Cut}
    {listed : List Item} (walked : Walk paging limit items cut listed) :
    ∀ pages, selected paging items cut = items.drop (pages * limit) →
      listed = items.drop (pages * limit) →
      ∀ item ∈ items, limit ∣ rank paging items item → pages * limit < rank paging items item →
        rank paging items item < items.length →
        Separates paging items item := by
  induction walked with
  | @last cut few =>
    intro pages chosen listed item member whole beyond room
    obtain ⟨count, ranked⟩ := whole
    rw [chosen, List.length_drop] at few
    rw [ranked, Nat.mul_comm limit] at beyond room
    have further : pages + 1 ≤ count :=
      Nat.lt_of_mul_lt_mul_right beyond
    have reached := Nat.mul_le_mul_right limit further
    rw [Nat.succ_mul] at reached
    omega
  | @next cut last following rest many ends marked walked induction =>
    intro pages chosen listed item member whole beyond room
    have turned : (pages + 1) * limit = pages * limit + limit :=
      Nat.succ_mul pages limit
    have many' := many
    rw [chosen, List.length_drop] at many'
    have remaining : rest = items.drop ((pages + 1) * limit) := by
      have parts := List.take_append_drop limit (items.drop (pages * limit))
      rw [List.drop_drop, ← turned] at parts
      rw [chosen] at listed
      exact List.append_cancel_left (listed.trans parts.symm)
    subst remaining
    have past := walked.selected_eq lawful sorted positive (by omega)
    by_cases here : rank paging items item = (pages + 1) * limit
    · have found := (index_of_rank lawful sorted member here).1
      rw [chosen, getLast?_page positive (by rw [List.length_drop]; omega),
        ← turned, found] at ends
      cases ends
      apply separates_of_filter marked
      rw [past, filter_before lawful sorted found, Nat.sub_add_cancel (by omega)]
    · apply induction (pages + 1) past rfl item member whole _ room
      obtain ⟨count, ranked⟩ := whole
      rw [ranked, Nat.mul_comm limit] at beyond here ⊢
      have further : pages + 1 ≤ count := Nat.lt_of_mul_lt_mul_right beyond
      have reached := Nat.mul_le_mul_right limit further
      omega

theorem walk_iff (lawful : paging.Lawful items) (sorted : Sorted paging items)
    (positive : 0 < limit) :
    Walk paging limit items none items ↔ ∀ item ∈ items, limit ∣ rank paging items item →
        rank paging items item < items.length → Separates paging items item := by
  constructor
  · intro walked item member whole room
    have counted := index_of_rank lawful sorted member rfl
    exact walked.separates lawful sorted positive 0 (by simp [selected])
      (by simp) item member whole (by omega) room
  · intro separates
    have walked := walk_of_separates lawful sorted positive separates
      items.length 0 none (by simp) (by simp [selected])
    simpa using walked

end Keyset
