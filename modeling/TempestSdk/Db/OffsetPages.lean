import Mathlib.Algebra.Order.Floor.Div
import TempestSdk.Db.CursorValues
import TempestSdk.Library.TiedPages

/-!
# Turning the pages

A client asks `paginate` for page 1, 2, …, `pages` of a table that does not
change.  Every page is a query of its own, and the database may return the rows
that the ORDER BY of the query leaves tied in another order each time.
-/

namespace TempestSdk.OffsetPages

open OwnedRows Tenancy CursorPages
open CursorValues (paint paints paints_ordered)

/-- The arguments of `paginate`, but for the page. -/
structure Request (Value : Type) where
  filters : Option (List (Tenancy.Filter Value))
  orderBy : Option String
  pageSize : Nat
  ascending : Bool
  clause : Option (WhereClause Value)

section

variable {Value : Type} [DecidableEq Value] (model : Model Value)
  (hooks : Hooks Value) (request : Request Value)

/-- What `paginate` answers, where the rows stand in the table as they come out
of an unordered query. -/
def page (rows : List (Row Value)) (number : Nat) : Except Error (Page Value) :=
  ((BaseRepository.paginate model hooks request.filters request.orderBy number
    request.pageSize request.ascending request.clause).run (schema model) rows).map Prod.fst

/-- The repository accepts the request: `query` is what it filters by, and
`order` what it orders by. -/
structure Accepted (query : Query Value) (order : Order Value) : Prop where
  size : BaseRepository.checkPageSize model request.pageSize = .ok ()
  positive : 0 < request.pageSize
  filters : ∃ filtered, BaseRepository.applyGiven hooks everything
      request.filters = .ok filtered ∧
    BaseRepository.applyWhere filtered request.clause = .ok query
  order : BaseRepository.pageOrder model request.orderBy request.ascending = .ok order

end

def listed {Value : Type} (order : Order Value) (left right : Row Value) : Bool :=
  if order.ascending then order.before left right else order.before right left

variable {Value : Type} [DecidableEq Value] {model : Model Value}
  {hooks : Hooks Value} {request : Request Value} {query : Query Value}
  {order : Order Value} {rows : List (Row Value)}

theorem page_eq (accepted : Accepted model hooks request query order) (number : Nat) :
    page model hooks request rows number = .ok {
      items := ((sorted (some order) (rows.filter query)).drop
        ((number - 1) * request.pageSize)).take request.pageSize
      total := (rows.filter query).length
      page := number
      pageSize := request.pageSize
      pages := (rows.filter query).length ⌈/⌉ request.pageSize } := by
  obtain ⟨filtered, given, narrowed⟩ := accepted.filters
  have some_rows : ¬ request.pageSize = 0 :=
    Nat.pos_iff_ne_zero.mp accepted.positive
  unfold page BaseRepository.paginate
  rw [accepted.size, given, accepted.order, Nat.ceilDiv_eq_add_pred_div]
  simp only [Program.ofExcept, Program.done_bind, narrowed, Program.query,
    Program.send_bind, Program.pure_eq, Program.run, Statement.perform,
    if_neg some_rows, Option.getD_some, Except.map]

omit [DecidableEq Value] in
theorem listed_ranked (ordered : LinearlyOrdered model)
    (ordering : BaseRepository.pageOrder model request.orderBy
      request.ascending = .ok order) : TiedPages.Ranked (listed order) := by
  obtain ⟨column, ascending, rfl⟩ : ∃ column ascending,
      order = BaseRepository.columnOrder model column ascending := by
    unfold BaseRepository.pageOrder at ordering
    split at ordering
    next => exact ⟨_, _, (Except.ok.inj ordering).symm⟩
    next column _ =>
      cases resolved : BaseRepository.resolveOrderColumn model column with
      | error error =>
        rw [resolved] at ordering
        cases ordering
      | ok resolved_column =>
        rw [resolved] at ordering
        exact ⟨_, _, (Except.ok.inj ordering).symm⟩
  have weak_trans : ∀ low middle high : Value,
      model.less middle low = false → model.less high middle = false →
        model.less high low = false := by
    intro low middle high first second
    cases turned : model.less high low with
    | false => rfl
    | true =>
      by_cases same : low = middle
      · rw [same, second] at turned
        cases turned
      · rcases ordered.total low middle same with up | down
        · rw [ordered.trans _ _ _ turned up] at second
          cases second
        · rw [down] at first
          cases first
  have weak_total : ∀ left right : Value,
      model.less right left = false ∨ model.less left right = false := by
    intro left right
    cases first : model.less right left with
    | false => exact .inl rfl
    | true =>
      cases second : model.less left right with
      | false => exact .inr rfl
      | true =>
        have same := ordered.trans _ _ _ first second
        rw [ordered.irrefl] at same
        cases same
  unfold listed BaseRepository.columnOrder
  constructor
  · intro low middle high first second
    cases ascending with
    | true =>
      simp only [if_true, Bool.not_eq_true'] at first second ⊢
      exact weak_trans _ _ _ first second
    | false =>
      simp only [Bool.false_eq_true, if_false, Bool.not_eq_true'] at first second ⊢
      exact weak_trans _ _ _ second first
  · intro left right
    cases ascending with
    | true =>
      simp only [if_true, Bool.not_eq_true']
      exact weak_total _ _
    | false =>
      simp only [Bool.false_eq_true, if_false, Bool.not_eq_true']
      exact weak_total _ _

omit [DecidableEq Value] in
theorem sorted_lists (ranked : TiedPages.Ranked (listed order))
    {chosen items : List (Row Value)} (same : chosen.Perm items) :
    TiedPages.Lists (listed order) items (sorted (some order) chosen) where
  perm := (List.mergeSort_perm _ _).trans same
  sorted := by
    apply List.pairwise_mergeSort
    · exact ranked.trans
    · intro left right
      rw [Bool.or_eq_true]
      exact ranked.total left right

omit [DecidableEq Value] in
theorem sorted_of_lists {items listing : List (Row Value)}
    (lists : TiedPages.Lists (listed order) items listing) :
    sorted (some order) listing = listing :=
  List.mergeSort_of_pairwise lists.sorted

/-- Every row that matches is on exactly one of the pages, whichever rows the
database returns first of those that are tied. -/
def Partitions (model : Model Value) (hooks : Hooks Value)
    (request : Request Value) (query : Query Value)
    (rows : List (Row Value)) : Prop :=
  ∀ tables : Nat → List (Row Value), (∀ number, (tables number).Perm rows) →
    ∃ answers : Nat → Page Value,
      (∀ number, 0 < number → page model hooks request (tables number) number =
          .ok (answers number) ∧
        (answers number).total = (rows.filter query).length ∧
        (answers number).pages = (rows.filter query).length ⌈/⌉ request.pageSize) ∧
      ((List.range (answers 1).pages).flatMap fun number =>
        (answers (number + 1)).items).Perm (rows.filter query)

/-- The pages partition the rows exactly when rows with the same value in the
ordering column always belong on the same page. -/
theorem pages_partition_iff (ordered : LinearlyOrdered model) (keyed : Keyed model rows)
    (accepted : Accepted model hooks request query order) :
    Partitions model hooks request query rows ↔
      TiedPages.Together (listed order) request.pageSize (rows.filter query) := by
  have ranked := listed_ranked ordered accepted.order
  have distinct : (rows.filter query).Nodup := by
    apply (keyed.filter query).distinct.imp
    rintro left right apart rfl
    exact apart rfl
  have all : (rows.filter query).length ≤
      ((rows.filter query).length ⌈/⌉ request.pageSize) * request.pageSize := by
    rw [Nat.mul_comm]
    exact le_smul_ceilDiv accepted.positive
  rw [← TiedPages.pages_perm_iff ranked accepted.positive
    (sorted_lists ranked (List.Perm.refl (rows.filter query))) distinct all]
  constructor
  · intro partitions listings lists
    -- The rows that match come first, in the order of the listing.
    have tables : ∀ number, (listings (number - 1) ++
        rows.filter fun row => !query row).Perm rows := by
      intro number
      exact ((lists (number - 1)).perm.append_right _).trans (List.filter_append_perm _ _)
    obtain ⟨answers, answered, whole⟩ := partitions _ tables
    have matching : ∀ number, (listings (number - 1) ++
        rows.filter fun row => !query row).filter query = listings (number - 1) := by
      intro number
      have chosen : ∀ row ∈ listings (number - 1), query row = true := by
        intro row member
        exact List.of_mem_filter ((lists (number - 1)).perm.mem_iff.mp member)
      rw [List.filter_append, List.filter_eq_self.mpr chosen, List.filter_filter]
      simp
    have items : ∀ number, (answers (number + 1)).items =
        TiedPages.page request.pageSize (listings number) number := by
      intro number
      have same := (answered (number + 1) (Nat.succ_pos number)).1
      rw [page_eq accepted, matching, Nat.add_sub_cancel] at same
      rw [← Except.ok.inj same, sorted_of_lists (lists number)]
      rfl
    rw [(answered 1 Nat.one_pos).2.2] at whole
    simp only [items] at whole
    exact whole
  · intro once tables same
    have counted : ∀ number, ((tables number).filter query).length =
        (rows.filter query).length :=
      fun number => ((same number).filter query).length_eq
    refine ⟨_, fun number _ => ⟨page_eq accepted number, counted number, ?_⟩, ?_⟩
    · rw [counted number]
    · dsimp only
      rw [counted 1]
      exact once (fun number => sorted (some order)
          ((tables (number + 1)).filter query)) fun number =>
        sorted_lists ranked ((same (number + 1)).filter query)

def byColor : Request (Option Nat) where
  filters := none
  orderBy := some "color"
  pageSize := 1
  ascending := true
  clause := none

def colorOrder : Order (Option Nat) :=
  BaseRepository.columnOrder paints "color" true

theorem byColor_accepted : Accepted paints plainHooks byColor everything colorOrder where
  size := rfl
  positive := by decide
  filters := ⟨everything, rfl, rfl⟩
  order := rfl

theorem paints_keyed (first second : Option Nat) :
    Keyed paints [paint 1 first, paint 2 second] where
  distinct := by
    refine .cons ?_ (List.pairwise_singleton _ _)
    intro other member same
    rw [List.mem_singleton.mp member] at same
    cases same
  not_null := by
    intro row member
    rcases List.mem_pair.mp member with rfl | rfl
    · rfl
    · rfl

theorem pages_partition_iff_colors : Partitions paints plainHooks byColor everything
      [paint 1 (some 7), paint 2 (some 8)] :=
  (pages_partition_iff paints_ordered (paints_keyed _ _) byColor_accepted).mpr (by decide)

theorem tied_paint_repeated : ¬ Partitions paints plainHooks byColor everything
      [paint 1 (some 7), paint 2 (some 7)] := by
  intro partitions
  obtain ⟨answers, answered, whole⟩ := partitions
    (fun number => if number = 1 then [paint 1 (some 7), paint 2 (some 7)]
      else [paint 2 (some 7), paint 1 (some 7)]) (by
        intro number
        split
        · exact List.Perm.refl _
        · exact List.Perm.swap _ _ _)
  have tied : ∀ left right : Nat,
      sorted (some colorOrder) [paint left (some 7), paint right (some 7)] =
        [paint left (some 7), paint right (some 7)] := by
    intro left right
    apply List.mergeSort_of_pairwise
    refine .cons ?_ (List.pairwise_singleton _ _)
    intro other member
    rw [List.mem_singleton.mp member]
    rfl
  have every : ∀ chosen : List (Row (Option Nat)), chosen.filter everything = chosen :=
    fun _ => List.filter_eq_self.mpr fun _ _ => rfl
  have first := (answered 1 Nat.one_pos).1
  have second := (answered 2 (by decide)).1
  rw [page_eq byColor_accepted, if_pos rfl, every, tied] at first
  rw [page_eq byColor_accepted, if_neg (by decide), every, tied] at second
  have pages := (answered 1 Nat.one_pos).2.2
  rw [every, Nat.ceilDiv_eq_add_pred_div] at pages
  rw [pages, every] at whole
  have keys := whole.map fun row : Row (Option Nat) => row "id"
  change List.Perm ((((answers 1).items ++ ((answers 2).items ++ []))).map
    fun row : Row (Option Nat) => row "id") [some 1, some 2] at keys
  rw [← Except.ok.inj first, ← Except.ok.inj second] at keys
  change List.Perm [some 1, some 1] [some 1, some 2] at keys
  exact absurd keys (by decide)

end TempestSdk.OffsetPages
