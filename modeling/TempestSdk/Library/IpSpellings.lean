import TempestSdk.Library.IpAddress

/-!
# Spellings of IP addresses

The texts of an address of version 6: digits in any case, with zeros in front,
one row of zeros left out and the end written like version 4.  All of them are
read as the address, and the canonical text is one of them.
-/

namespace IpAddress

open Numerals

/-- One to four hexadecimal digits in any case. -/
structure Group where
  digits : Text
  number : Nat
  nonempty : digits ≠ []
  few : digits.length ≤ 4
  spelled : read 16 digits = some number

def tailSize (tail : Option V4) : Nat := tail.elim 0 fun _ => 2

def tailParts (tail : Option V4) : List Text :=
  tail.elim [] fun address => [address.text]

def tailGroups (tail : Option V4) : List Nat := tail.elim [] V4.groups

inductive Spells : Text → List Nat → Prop where
  | whole (groups : List Group) (tail : Option V4)
      (eight : groups.length + tailSize tail = 8) :
      Spells (Joined.join ':' (groups.map Group.digits ++ tailParts tail))
        (groups.map Group.number ++ tailGroups tail)
  | short (front back : List Group) (tail : Option V4)
      (few : front.length + (back.length + tailSize tail) < 8) :
      Spells (Joined.join ':' (front.map Group.digits) ++ ':' :: ':' ::
          Joined.join ':' (back.map Group.digits ++ tailParts tail))
        (front.map Group.number ++ List.replicate
            (8 - (front.length + (back.length + tailSize tail))) 0 ++
          (back.map Group.number ++ tailGroups tail))

theorem readGroup_digits (group : Group) : readGroup group.digits = some group.number := by
  have few : ¬ 4 < group.digits.length := not_lt.mpr group.few
  unfold readGroup
  rw [if_neg (by simp [group.nonempty, few])]
  exact group.spelled

variable {char : Char}

theorem mem_digits {group : Group} (member : char ∈ group.digits) :
    ∃ value < 16, digitValue char = some value :=
  digits_of_read group.spelled char member

theorem digits_plain {group : Group} (other : digitValue char = none) :
    char ∉ group.digits := by
  intro member
  obtain ⟨value, _, known⟩ := mem_digits member
  rw [other] at known
  cases known

def canonical (number : Nat) (small : number < 65536) : Group where
  digits := hexadecimal number
  number := number
  nonempty := by
    intro empty
    have size := congrArg List.length empty
    simp [hexadecimal] at size
  few := by
    rw [hexadecimal, length_fixed]
    have bound : Nat.log 16 number < 4 :=
      Nat.log_lt_of_lt_pow' (by decide) (by simpa using small)
    omega
  spelled := read_fixed (by decide) (by decide)
    (Nat.lt_pow_succ_log_self (by decide) number)

variable {numbers : List Nat}

theorem exists_canonical (small : ∀ number ∈ numbers, number < 65536) :
    ∃ groups : List Group, groups.map Group.digits = numbers.map hexadecimal ∧
      groups.map Group.number = numbers := by
  induction numbers with
  | nil => exact ⟨[], rfl, rfl⟩
  | cons number numbers induction =>
    obtain ⟨groups, digits, same⟩ := induction fun other member =>
      small other (List.mem_cons_of_mem _ member)
    have first := small number List.mem_cons_self
    refine ⟨canonical number first :: groups, ?_, ?_⟩
    · rw [List.map_cons, List.map_cons, digits]
      rfl
    · rw [List.map_cons, same]
      rfl

theorem exists_tail (tail : Option V4) : ∃ groups : List Group, groups.length = tailSize tail ∧
      groups.map Group.number = tailGroups tail ∧
      (tail.elim [] fun address => address.groups.map hexadecimal) =
        groups.map Group.digits := by
  cases tail with
  | none => exact ⟨[], rfl, rfl, rfl⟩
  | some address =>
    obtain ⟨groups, digits, numbers⟩ := exists_canonical address.groups_small
    refine ⟨groups, ?_, numbers, digits.symm⟩
    have size := congrArg List.length numbers
    rw [List.length_map, address.groups_two] at size
    exact size

section

variable {front back groups : List Group} {tail : Option V4}

theorem mapM_digits (groups : List Group) : (groups.map Group.digits).mapM readGroup =
      some (groups.map Group.number) := by
  induction groups with
  | nil => rfl
  | cons group groups induction => simp [readGroup_digits group, induction]

def side (parts : List Text) : List Text := if parts = [] then [[]] else parts

theorem side_ne_nil (parts : List Text) : side parts ≠ [] := by
  unfold side
  split
  case isTrue => exact List.cons_ne_nil _ _
  case isFalse nonempty => exact nonempty

theorem join_side (parts : List Text) :
    Joined.join ':' (side parts) = Joined.join ':' parts := by
  unfold side
  split
  case isTrue empty =>
    rw [empty]
    rfl
  case isFalse => rfl

theorem splitOn_side {parts : List Text} (plain : ∀ part ∈ parts, ':' ∉ part) :
    (Joined.join ':' parts).splitOn ':' = side parts := by
  unfold side
  split
  case isTrue empty =>
    rw [empty]
    rfl
  case isFalse nonempty => exact splitOn_join plain nonempty

theorem groups_plain (groups : List Group) : ∀ part ∈ groups.map Group.digits, ':' ∉ part := by
  intro part member
  obtain ⟨group, _, rfl⟩ := List.mem_map.mp member
  exact digits_plain rfl

theorem tail_plain (tail : Option V4) : ∀ part ∈ tailParts tail, ':' ∉ part := by
  cases tail with
  | none => exact fun part member => by cases member
  | some address =>
    intro part member colon
    rw [List.mem_singleton.mp member] at colon
    rcases V4.chars_of_parse address.parse_text colon with same | ⟨value, _, known⟩
    · exact absurd same (by decide)
    · cases known

theorem parts_plain (groups : List Group) (tail : Option V4) :
    ∀ part ∈ groups.map Group.digits ++ tailParts tail, ':' ∉ part := by
  intro part member
  rcases List.mem_append.mp member with early | late
  · exact groups_plain groups part early
  · exact tail_plain tail part late

theorem nonempty_parts (groups : List Group) : [] ∉ groups.map Group.digits := by
  intro member
  obtain ⟨group, _, empty⟩ := List.mem_map.mp member
  exact group.nonempty empty

theorem expand_tail (lead : List Text) (address : V4) : expand (lead ++ [address.text]) =
      some (lead ++ address.groups.map hexadecimal) := by
  unfold expand
  rw [List.getLastD_concat, if_pos address.dot_mem, address.parse_text, List.dropLast_concat]
  rfl

theorem expand_plain {parts : List Text} (plain : ∀ part ∈ parts, '.' ∉ part) :
    expand parts = some parts := by
  have last : '.' ∉ parts.getLastD [] := by
    cases parts with
    | nil => exact List.not_mem_nil
    | cons part parts =>
      rw [List.getLastD_cons]
      exact plain _ List.getLastD_mem_cons
  unfold expand
  rw [if_neg last]

theorem groups_undotted (groups : List Group) :
    ∀ part ∈ groups.map Group.digits, '.' ∉ part := by
  intro part member
  obtain ⟨group, _, rfl⟩ := List.mem_map.mp member
  exact digits_plain rfl

theorem expand_groups {lead : List Text} (plain : ∀ part ∈ lead, '.' ∉ part)
    {tails : List Group}
    (expanded : (tail.elim [] fun address => address.groups.map hexadecimal) =
      tails.map Group.digits) :
    expand (lead ++ (groups.map Group.digits ++ tailParts tail)) =
      some (lead ++ (groups ++ tails).map Group.digits) := by
  rw [List.map_append, ← expanded]
  cases tail with
  | none =>
    apply expand_plain
    intro part member
    rcases List.mem_append.mp member with early | late
    · exact plain part early
    · rw [tailParts, Option.elim_none, List.append_nil] at late
      exact groups_undotted groups part late
  | some address =>
    rw [tailParts, Option.elim_some, ← List.append_assoc, expand_tail,
      List.append_assoc, Option.elim_some]

theorem expand_whole {tails : List Group}
    (expanded : (tail.elim [] fun address => address.groups.map hexadecimal) =
      tails.map Group.digits) :
    expand (groups.map Group.digits ++ tailParts tail) =
      some ((groups ++ tails).map Group.digits) :=
  @expand_groups groups tail [] (by simp) tails expanded

theorem readParts_whole (eight : groups.length = 8) :
    readParts (groups.map Group.digits) = some (groups.map Group.number) := by
  have size : (groups.map Group.digits).length = 8 := by simpa using eight
  have inner : [] ∉ (groups.map Group.digits).tail.dropLast := by
    intro member
    exact nonempty_parts groups (List.tail_subset _ (List.dropLast_subset _ member))
  unfold readParts
  rw [if_neg (by omega), List.splitOn_eq_singleton inner]
  dsimp only
  rw [if_pos size, mapM_digits]

theorem front_side (front : List Group) : frontParts ((side (front.map Group.digits)).headD [])
        (side (front.map Group.digits)).tail =
      some (front.map Group.digits) := by
  cases front with
  | nil => rfl
  | cons group groups =>
    have nonempty := group.nonempty
    simp [side, frontParts, nonempty]

theorem back_side (back : List Group) : backParts (side (back.map Group.digits)).dropLast
        ((side (back.map Group.digits)).getLastD []) =
      some (back.map Group.digits) := by
  rcases List.eq_nil_or_concat back with rfl | ⟨groups, group, rfl⟩
  · rfl
  · have nonempty := group.nonempty
    simp [side, backParts, nonempty]

theorem side_inner (groups : List Group) : [] ∉ (side (groups.map Group.digits)).tail ∧
      [] ∉ (side (groups.map Group.digits)).dropLast := by
  cases groups with
  | nil => simp [side]
  | cons group groups =>
    have absent := nonempty_parts (group :: groups)
    have same : side ((group :: groups).map Group.digits) =
        (group :: groups).map Group.digits := if_neg (by simp)
    rw [same]
    exact ⟨fun member => absent (List.tail_subset _ member),
      fun member => absent (List.dropLast_subset _ member)⟩

theorem length_side (groups : List Group) :
    (side (groups.map Group.digits)).length ≤ groups.length + 1 ∧
      groups.length ≤ (side (groups.map Group.digits)).length ∧
      (groups ≠ [] → (side (groups.map Group.digits)).length = groups.length) := by
  cases groups with
  | nil => simp [side]
  | cons group groups => simp [side]

theorem readParts_short (few : front.length + back.length < 8) :
    readParts (side (front.map Group.digits) ++ [] :: side (back.map Group.digits)) =
      some (front.map Group.number ++ List.replicate (8 - (front.length + back.length)) 0 ++
          back.map Group.number) := by
  have size : (side (front.map Group.digits) ++
      [] :: side (back.map Group.digits)).length ≤ 9 := by
    obtain ⟨front_most, _, front_same⟩ := length_side front
    obtain ⟨back_most, _, back_same⟩ := length_side back
    rw [List.length_append, List.length_cons]
    by_cases front_empty : front = []
    · by_cases back_empty : back = []
      · rw [front_empty, back_empty] at *
        simp [side]
      · have exact_size := back_same back_empty
        omega
    · have exact_size := front_same front_empty
      omega
  obtain ⟨first, rest, front_cons⟩ :=
    List.exists_cons_of_ne_nil (side_ne_nil (front.map Group.digits))
  have inner : (side (front.map Group.digits) ++
      [] :: side (back.map Group.digits)).tail.dropLast =
        (side (front.map Group.digits)).tail ++
          [] :: (side (back.map Group.digits)).dropLast := by
    rw [front_cons, List.cons_append, List.tail_cons, List.tail_cons,
      List.dropLast_append_of_ne_nil (List.cons_ne_nil _ _),
      List.dropLast_cons_of_ne_nil (side_ne_nil _)]
  have head : (side (front.map Group.digits) ++ [] :: side (back.map Group.digits)).headD [] =
        (side (front.map Group.digits)).headD [] := by
    rw [front_cons]
    rfl
  have last : (side (front.map Group.digits) ++
      [] :: side (back.map Group.digits)).getLastD [] =
        (side (back.map Group.digits)).getLastD [] := by
    obtain ⟨others, final, back_concat⟩ :=
      List.eq_nil_or_concat (side (back.map Group.digits)) |>.resolve_left (side_ne_nil _)
    rw [back_concat, List.concat_eq_append, ← List.cons_append,
      ← List.append_assoc, List.getLastD_concat, List.getLastD_concat]
  unfold readParts
  rw [if_neg (by omega), inner,
    List.splitOn_append_cons_self_of_not_mem (side_inner front).1,
    List.splitOn_eq_singleton (side_inner back).2]
  dsimp only
  rw [head, last, front_side, Option.bind_some, back_side, Option.bind_some]
  unfold fill
  rw [if_pos (by simpa using few), mapM_digits, mapM_digits]
  simp

theorem side_undotted (groups : List Group) :
    ∀ part ∈ side (groups.map Group.digits), '.' ∉ part := by
  unfold side
  split
  case isTrue =>
    intro part member
    rw [List.mem_singleton.mp member]
    exact List.not_mem_nil
  case isFalse => exact groups_undotted groups

theorem expand_short {tails : List Group}
    (expanded : (tail.elim [] fun address => address.groups.map hexadecimal) =
      tails.map Group.digits) :
    expand (side (front.map Group.digits) ++
        [] :: side (back.map Group.digits ++ tailParts tail)) =
      some (side (front.map Group.digits) ++
        [] :: side ((back ++ tails).map Group.digits)) := by
  have lead_plain : ∀ part ∈ side (front.map Group.digits) ++ [[]], '.' ∉ part := by
    intro part member
    rcases List.mem_append.mp member with early | late
    · exact side_undotted front part early
    · rw [List.mem_singleton.mp late]
      exact List.not_mem_nil
  cases tail with
  | none =>
    have no_tails : tails = [] := by
      rw [Option.elim_none] at expanded
      exact List.map_eq_nil_iff.mp expanded.symm
    rw [no_tails, List.append_nil, tailParts, Option.elim_none, List.append_nil]
    apply expand_plain
    intro part member
    rcases List.mem_append.mp member with early | late
    · exact side_undotted front part early
    · rcases List.mem_cons.mp late with rfl | last
      · exact List.not_mem_nil
      · exact side_undotted back part last
  | some address =>
    have whole := @expand_groups back (some address)
      (side (front.map Group.digits) ++ [[]]) lead_plain tails expanded
    have nonempty : (back ++ tails).map Group.digits ≠ [] := by
      rw [List.map_append, ← expanded, Option.elim_some]
      intro empty
      have nothing := List.map_eq_nil_iff.mp (List.append_eq_nil_iff.mp empty).2
      have two := address.groups_two
      rw [nothing] at two
      cases two
    have back_side : side (back.map Group.digits ++ tailParts (some address)) =
        back.map Group.digits ++ tailParts (some address) :=
      if_neg (by simp [tailParts])
    have tails_side : side ((back ++ tails).map Group.digits) =
        (back ++ tails).map Group.digits := if_neg nonempty
    rw [back_side, tails_side]
    simpa using whole

theorem V6.parse_of_spells {address : V6} {text : Text}
    (spells : Spells text address.groups) : V6.parse text = some address := by
  have given : V6.ofGroups address.groups = some address := by
    unfold V6.ofGroups
    rw [dif_pos ⟨address.eight, address.small⟩]
  generalize address.groups = numbers at spells given
  cases spells with
  | whole groups tail eight =>
    obtain ⟨tails, size, numbers, expanded⟩ := exists_tail tail
    have nonempty : groups.map Group.digits ++ tailParts tail ≠ [] := by
      intro empty
      obtain ⟨no_groups, no_tail⟩ := List.append_eq_nil_iff.mp empty
      rw [List.map_eq_nil_iff.mp no_groups] at eight
      cases tail with
      | none => cases eight
      | some address => cases no_tail
    have enough : ¬ (groups.map Group.digits ++ tailParts tail).length < 3 := by
      cases tail <;> simp [tailSize, tailParts] at eight ⊢ <;> omega
    have total : (groups ++ tails).length = 8 := by
      rw [List.length_append, size, eight]
    unfold V6.parse
    dsimp only
    rw [splitOn_join (parts_plain groups tail) nonempty, if_neg enough,
      expand_whole expanded, Option.bind_some, readParts_whole total,
      Option.bind_some, List.map_append, numbers]
    exact given
  | short front back tail few =>
    obtain ⟨tails, size, numbers, expanded⟩ := exists_tail tail
    have split : (Joined.join ':' (front.map Group.digits) ++ ':' :: ':' ::
        Joined.join ':' (back.map Group.digits ++ tailParts tail)).splitOn ':' =
          side (front.map Group.digits) ++
            [] :: side (back.map Group.digits ++ tailParts tail) := by
      have inner := @List.splitOn_append_cons_self _ _ _ ':' []
        (Joined.join ':' (back.map Group.digits ++ tailParts tail))
      rw [List.nil_append] at inner
      rw [List.splitOn_append_cons_self, inner, splitOn_side (groups_plain front),
        splitOn_side (parts_plain back tail)]
      rfl
    have enough : ¬ (side (front.map Group.digits) ++
        [] :: side (back.map Group.digits ++ tailParts tail)).length < 3 := by
      have first := List.length_pos_iff.mpr (side_ne_nil (front.map Group.digits))
      have last := List.length_pos_iff.mpr
        (side_ne_nil (back.map Group.digits ++ tailParts tail))
      rw [List.length_append, List.length_cons]
      omega
    have total : front.length + (back ++ tails).length < 8 := by
      rw [List.length_append, size]
      exact few
    unfold V6.parse
    dsimp only
    rw [split, if_neg enough, expand_short expanded, Option.bind_some,
      readParts_short total, Option.bind_some, List.length_append, size,
      List.map_append, numbers]
    exact given

end

structure Rows.Sound (rows : Rows) (done : List Nat) : Prop where
  best : ∃ front back, done = front ++ List.replicate rows.bestLength 0 ++ back ∧
      (0 < rows.bestLength → front.length = rows.bestStart)
  going : ∃ front, done = front ++ List.replicate rows.length 0 ∧
    (0 < rows.length → front.length = rows.start)

theorem Rows.Sound.next {rows : Rows} {done : List Nat} (sound : rows.Sound done)
    (group : Nat) : (rows.next done.length group).Sound (done ++ [group]) := by
  obtain ⟨⟨front, back, whole, starts⟩, ⟨before, rest, here⟩⟩ := sound
  have best_kept : ∃ front back, done ++ [group] =
      front ++ List.replicate rows.bestLength 0 ++ back ∧
        (0 < rows.bestLength → front.length = rows.bestStart) := by
    refine ⟨front, back ++ [group], ?_, starts⟩
    rw [← List.append_assoc, ← whole]
  unfold Rows.next
  split
  case isTrue zero =>
    have longer : done ++ [group] = before ++ List.replicate (rows.length + 1) 0 := by
      rw [List.replicate_succ', ← List.append_assoc, ← rest, zero]
    have started : before.length = if rows.length = 0 then done.length else rows.start := by
      split
      case isTrue none_yet =>
        rw [rest, none_yet]
        simp
      case isFalse some_yet => exact here (by omega)
    dsimp only
    split
    case isTrue =>
      refine ⟨⟨before, [], ?_, fun _ => started⟩, before, longer, fun _ => started⟩
      rw [List.append_nil]
      exact longer
    case isFalse => exact ⟨best_kept, before, longer, fun _ => started⟩
  case isFalse =>
    refine ⟨best_kept, done ++ [group], ?_, ?_⟩
    · simp
    · intro positive
      cases positive

theorem Rows.Sound.run {rows : Rows} {done : List Nat} (sound : rows.Sound done)
    (groups : List Nat) :
    (rowsFrom rows done.length groups).Sound (done ++ groups) := by
  induction groups generalizing rows done with
  | nil =>
    rw [List.append_nil]
    exact sound
  | cons group groups induction =>
    have later := induction (sound.next group)
    rw [List.length_append, List.length_singleton, List.append_assoc] at later
    exact later

theorem longestRow_sound (groups : List Nat) : (longestRow groups).Sound groups := by
  have start : Rows.Sound ⟨0, 0, 0, 0⟩ [] :=
    ⟨⟨[], [], rfl, fun _ => rfl⟩, [], rfl, fun _ => rfl⟩
  exact start.run groups

theorem join_append {separator : Char} {front back : List Text}
    (front_some : front ≠ []) (back_some : back ≠ []) :
    Joined.join separator (front ++ back) =
      Joined.join separator front ++ separator :: Joined.join separator back := by
  induction front with
  | nil => exact (front_some rfl).elim
  | cons part front induction =>
    cases front with
    | nil => simp [Joined.join, List.intercalate_cons_of_ne_nil back_some]
    | cons next front =>
      have later := induction (List.cons_ne_nil _ _)
      unfold Joined.join at later ⊢
      rw [List.cons_append, List.intercalate_cons_of_ne_nil (by simp), later,
        List.intercalate_cons_of_ne_nil (List.cons_ne_nil next front)]
      simp

theorem join_sides (front back : List Text) : Joined.join ':' (side front ++ [] :: side back) =
      Joined.join ':' front ++ ':' :: ':' :: Joined.join ':' back := by
  have inner : Joined.join ':' ([] :: side back) = ':' :: Joined.join ':' back := by
    have cut := @join_append ':' [[]] (side back) (List.cons_ne_nil _ _) (side_ne_nil back)
    rw [join_side] at cut
    exact cut
  rw [join_append (side_ne_nil front) (List.cons_ne_nil _ _), inner, join_side]

theorem compress_eq (groups : List Nat) :
    (∃ front row back, groups = front ++ List.replicate row 0 ++ back ∧ 1 < row ∧
      compress groups = side (front.map hexadecimal) ++ [] :: side (back.map hexadecimal)) ∨
      compress groups = groups.map hexadecimal := by
  by_cases long : 1 < (longestRow groups).bestLength
  · left
    obtain ⟨front, back, whole, starts⟩ := (longestRow_sound groups).best
    have start := starts (by omega)
    refine ⟨front, _, back, whole, long, ?_⟩
    have taken : (groups.map hexadecimal).take front.length = front.map hexadecimal := by
      rw [whole, List.append_assoc, List.map_append]
      exact List.take_left' (List.length_map _)
    have dropped : (groups.map hexadecimal).drop
        (front.length + (longestRow groups).bestLength) = back.map hexadecimal := by
      have cut : groups.map hexadecimal =
          (front ++ List.replicate (longestRow groups).bestLength 0).map
            hexadecimal ++ back.map hexadecimal := by
        rw [← List.map_append, ← whole]
      rw [cut]
      exact List.drop_left' (by simp)
    have finish : front.length + (longestRow groups).bestLength =
        groups.length ↔ back = [] := by
      have size := congrArg List.length whole
      rw [List.length_append, List.length_append, List.length_replicate] at size
      rw [← List.length_eq_zero_iff]
      omega
    unfold compress
    dsimp only
    rw [if_pos long, ← start, taken, dropped]
    unfold side
    by_cases front_empty : front = []
    · by_cases back_empty : back = []
      · rw [if_pos (finish.mpr back_empty)]
        simp [front_empty, back_empty]
      · rw [if_neg fun same => back_empty (finish.mp same)]
        simp [front_empty, back_empty]
    · have some_front : front.length ≠ 0 := by simpa using front_empty
      by_cases back_empty : back = []
      · rw [if_pos (finish.mpr back_empty)]
        simp [front_empty, back_empty]
      · rw [if_neg fun same => back_empty (finish.mp same)]
        simp [front_empty, back_empty]
  · right
    unfold compress
    dsimp only
    rw [if_neg long]

namespace V6

variable {address : V6}

theorem spells_text (address : V6) : Spells address.text address.groups := by
  rcases compress_eq address.groups with ⟨front, row, back, whole, long, cut⟩ | plain
  · have small := address.small
    rw [whole] at small
    obtain ⟨fronts, front_digits, front_numbers⟩ := @exists_canonical front
      fun number member => small number (by simp [member])
    obtain ⟨backs, back_digits, back_numbers⟩ := @exists_canonical back
      fun number member => small number (by simp [member])
    have size := address.eight
    rw [whole, List.length_append, List.length_append, List.length_replicate] at size
    have front_size := congrArg List.length front_numbers
    have back_size := congrArg List.length back_numbers
    rw [List.length_map] at front_size back_size
    have few : fronts.length + (backs.length + tailSize none) < 8 := by
      simp only [tailSize, Option.elim_none]
      omega
    have zeros : 8 - (fronts.length + (backs.length + tailSize none)) = row := by
      simp only [tailSize, Option.elim_none]
      omega
    have spelled := Spells.short fronts backs none few
    rw [zeros, front_digits, back_digits, front_numbers, back_numbers] at spelled
    simp only [tailParts, tailGroups, Option.elim_none, List.append_nil] at spelled
    unfold V6.text
    rw [cut, join_sides, whole]
    exact spelled
  · obtain ⟨groups, digits, numbers⟩ := exists_canonical address.small
    have size := congrArg List.length numbers
    rw [List.length_map] at size
    have eight : groups.length + tailSize none = 8 := by
      simp only [tailSize, Option.elim_none]
      rw [size, address.eight]
    have spelled := Spells.whole groups none eight
    rw [digits, numbers] at spelled
    simp only [tailParts, tailGroups, Option.elim_none, List.append_nil] at spelled
    unfold V6.text
    rw [plain]
    exact spelled

/-- `::ffff:` in front of an address of version 4. -/
def mappedText (inner : V4) : Text :=
  [':', ':', 'f', 'f', 'f', 'f', ':'] ++ inner.text

theorem groups_of_mapped {inner : V4} (mapped : address.ipv4Mapped = some inner) :
    address.groups = List.replicate 5 0 ++ (0xffff :: inner.groups) := by
  unfold ipv4Mapped at mapped
  split at mapped
  case h_2 => cases mapped
  case h_1 high low whole =>
    unfold V4.ofOctets at mapped
    split at mapped
    case isFalse => cases mapped
    case isTrue given =>
      cases mapped
      rw [whole]
      have high_same := Nat.div_add_mod high 256
      have low_same := Nat.div_add_mod low 256
      simp [V4.groups, high_same, low_same]

theorem spells_mapped {inner : V4} (mapped : address.ipv4Mapped = some inner) :
    Spells (mappedText inner) address.groups := by
  have spelled := Spells.short [] [canonical 0xffff (by decide)] (some inner)
    (by simp [tailSize])
  rw [groups_of_mapped mapped]
  have digits : hexadecimal 0xffff = ['f', 'f', 'f', 'f'] := by decide
  simpa [canonical, digits, tailParts, tailGroups, tailSize, mappedText,
    Joined.join, List.intercalate] using spelled

theorem chars_of_text {char : Char} (member : char ∈ address.text) :
    char = ':' ∨ ∃ value < 16, char = digit value := by
  have hexes : ∀ numbers : List Nat, ∀ part ∈ numbers.map hexadecimal,
      ∀ char ∈ part, ∃ value < 16, char = digit value := by
    intro numbers part known char inside
    obtain ⟨number, _, rfl⟩ := List.mem_map.mp known
    exact mem_fixed (by decide) inside
  have sides : ∀ numbers : List Nat, ∀ part ∈ side (numbers.map hexadecimal),
      ∀ char ∈ part, ∃ value < 16, char = digit value := by
    intro numbers part known
    unfold side at known
    split at known
    case isTrue =>
      rw [List.mem_singleton.mp known]
      exact fun char inside => by cases inside
    case isFalse => exact hexes numbers part known
  unfold V6.text Joined.join at member
  rcases PyStrings.mem_intercalate member with same | ⟨part, known, inside⟩
  · exact .inl same
  · right
    rcases compress_eq address.groups with ⟨front, row, back, _, _, cut⟩ | plain
    · rw [cut] at known
      rcases List.mem_append.mp known with early | late
      · exact sides front part early char inside
      · rcases List.mem_cons.mp late with rfl | last
        · cases inside
        · exact sides back part last char inside
    · rw [plain] at known
      exact hexes _ part known char inside

end V6

theorem V4.chars_of_text {address : V4} (member : char ∈ address.text) :
    char = '.' ∨ ∃ value < 10, char = digit value := by
  unfold V4.text Joined.join at member
  rcases PyStrings.mem_intercalate member with same | ⟨part, known, inside⟩
  · exact .inl same
  · right
    obtain ⟨octet, _, rfl⟩ := List.mem_map.mp known
    exact mem_fixed (by decide) inside

theorem head_of_readParts {parts : List Text} (read : readParts parts = some numbers) :
    parts.headD [] = [] ∨ (readGroup (parts.headD [])).isSome = true := by
  unfold readParts at read
  split at read
  case isTrue => cases read
  case isFalse =>
    dsimp only at read
    split at read
    case h_1 =>
      split at read
      case isFalse => cases read
      case isTrue eight =>
        cases parts with
        | nil => exact .inl rfl
        | cons part parts => exact .inr (read_of_mapM read part List.mem_cons_self)
    case h_2 before after =>
      obtain ⟨front, front_cut, rest⟩ := Option.bind_eq_some_iff.mp read
      obtain ⟨back, _, filled⟩ := Option.bind_eq_some_iff.mp rest
      unfold frontParts at front_cut
      split at front_cut
      case isTrue empty => exact .inl empty
      case isFalse =>
        right
        cases front_cut
        unfold fill at filled
        split at filled
        case isFalse => cases filled
        case isTrue =>
          obtain ⟨high, high_read, _⟩ := Option.bind_eq_some_iff.mp filled
          exact read_of_mapM high_read _ List.mem_cons_self
    case h_3 => cases read

theorem headD_expand {parts expanded : List Text} (long : ¬ parts.length < 3)
    (done : expand parts = some expanded) :
    expanded.headD [] = parts.headD [] := by
  unfold expand at done
  split at done
  case isTrue =>
    obtain ⟨address, _, same⟩ := Option.map_eq_some_iff.mp done
    cases parts with
    | nil => exact (long (by simp)).elim
    | cons first parts =>
      cases parts with
      | nil => exact (long (by simp)).elim
      | cons second parts =>
        rw [← same]
        simp
  case isFalse =>
    cases done
    rfl

theorem V6.parse_eq_none (other : digitValue char = none)
    (no_colon : char ≠ ':') (rest : Text) : V6.parse (char :: rest) = none := by
  unfold V6.parse
  dsimp only
  split
  case isTrue => rfl
  case isFalse long =>
    cases expanded : expand ((char :: rest).splitOn ':') with
    | none => rfl
    | some parts =>
      cases read : readParts parts with
      | none =>
        rw [Option.bind_some, read]
        rfl
      | some numbers =>
        have head : ∃ more, parts.headD [] = char :: more := by
          rw [headD_expand long expanded, List.splitOn_cons_eq_if_modifyHead,
            if_neg (by simpa using no_colon)]
          cases cut : rest.splitOn ':' with
          | nil => exact (List.splitOn_ne_nil ':' rest cut).elim
          | cons first others => exact ⟨first, rfl⟩
        obtain ⟨more, first⟩ := head
        rcases head_of_readParts read with empty | grouped
        · rw [first] at empty
          cases empty
        · rw [first] at grouped
          obtain ⟨number, known⟩ := Option.isSome_iff_exists.mp grouped
          unfold readGroup at known
          split at known
          case isTrue => cases known
          case isFalse =>
            obtain ⟨value, _, digit⟩ :=
              digits_of_read known char List.mem_cons_self
            rw [other] at digit
            cases digit

theorem chars_of_join {parts : List Text} (inside : ∀ part ∈ parts, ∀ char ∈ part,
      char = '.' ∨ ∃ value < 16, digitValue char = some value)
    (member : char ∈ Joined.join ':' parts) :
    char = ':' ∨ char = '.' ∨ ∃ value < 16, digitValue char = some value := by
  rcases PyStrings.mem_intercalate member with same | ⟨part, known, here⟩
  · exact .inl same
  · exact .inr (inside part known char here)

theorem chars_of_parts (groups : List Group) (tail : Option V4) :
    ∀ part ∈ groups.map Group.digits ++ tailParts tail, ∀ char ∈ part,
      char = '.' ∨ ∃ value < 16, digitValue char = some value := by
  intro part member char here
  rcases List.mem_append.mp member with early | late
  · obtain ⟨group, _, rfl⟩ := List.mem_map.mp early
    exact .inr (mem_digits here)
  · cases tail with
    | none => cases late
    | some address =>
      rw [tailParts, Option.elim_some, List.mem_singleton] at late
      rw [late] at here
      rcases V4.chars_of_parse address.parse_text here with dot | ⟨value, small, known⟩
      · exact .inl dot
      · exact .inr ⟨value, by omega, known⟩

theorem Spells.chars {text : Text} (spells : Spells text numbers) (member : char ∈ text) :
    char = ':' ∨ char = '.' ∨ ∃ value < 16, digitValue char = some value := by
  cases spells with
  | whole groups tail => exact chars_of_join (chars_of_parts groups tail) member
  | short front back tail =>
    rcases List.mem_append.mp member with early | late
    · have parts := chars_of_parts front none
      rw [tailParts, Option.elim_none, List.append_nil] at parts
      exact chars_of_join parts early
    · rcases List.mem_cons.mp late with same | later
      · exact .inl same
      · rcases List.mem_cons.mp later with same | last
        · exact .inl same
        · exact chars_of_join (chars_of_parts back tail) last

theorem Spells.colon_mem {text : Text} (spells : Spells text numbers) : ':' ∈ text := by
  cases spells with
  | whole groups tail eight =>
    have long : 2 ≤ (groups.map Group.digits ++ tailParts tail).length := by
      cases tail <;> simp [tailSize, tailParts] at eight ⊢ <;> omega
    match parts : groups.map Group.digits ++ tailParts tail, long with
    | first :: second :: rest, _ =>
      unfold Joined.join
      rw [List.intercalate_cons_of_ne_nil (List.cons_ne_nil _ _)]
      simp
  | short front back tail few => simp

end IpAddress
