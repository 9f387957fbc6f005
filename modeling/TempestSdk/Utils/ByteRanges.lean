import TempestSdk.Library.PyStrings

/-!
# Byte ranges

The `Range` header field with one range of bytes, against a representation of
some size.  The numbers are read by `int`, which refuses a text of too many
digits.
-/

namespace TempestSdk.ByteRanges

open PyDecimal (isSpace strip)
open PyStrings

structure ByteRange where
  start : Int
  finish : Int
  size : Int
deriving DecidableEq

inductive RangeError where
  /-- `RangeNotSatisfiableError`. -/
  | notSatisfiable (size : Int)
  /-- `ValueError`. -/
  | value
deriving DecidableEq

/-- `str.lower`; no character outside ASCII lowers to a letter of `bytes`. -/
def lower (text : Text) : Text := text.map Char.toLower

def isDigit (char : Char) : Bool := '0' ≤ char && char ≤ '9'

def isDigits (value : Text) (allowEmpty : Bool) : Bool :=
  if value = [] then allowEmpty else value.all isDigit

/-- The most digits that `int` reads. -/
def maxStrDigits : Nat := 4300

def number (digits : Text) : Nat :=
  digits.foldl (fun value digit => 10 * value + (digit.toNat - '0'.toNat)) 0

/-- `int` of digits. -/
def int (digits : Text) : Except RangeError Int :=
  if maxStrDigits < digits.length then .error .value
  else .ok (number digits)

/-- What stands before and after the dash of a single range, if the rest of the
field is as it should be. -/
def fields (header : Text) : Option (Text × Text) :=
  let cut := partition '=' (strip header)
  if lower (strip cut.before) ≠ ['b', 'y', 't', 'e', 's'] ∨ cut.after = [] then
    none
  else if ',' ∈ cut.after then none
  else
    let range := partition '-' (strip cut.after)
    let first := strip range.before
    let last := strip range.after
    if range.found = false ∨ isDigits first true = false then none
    else if isDigits last true = false then none
    else some (first, last)

/-- `int(last) if last else size - 1`. -/
def lastByte (last : Text) (size : Int) : Except RangeError Int :=
  if last = [] then .ok (size - 1) else int last

def resolveFields (first last : Text) (size : Int) : Except RangeError (Option ByteRange) := do
  if first = [] then
    if last = [] then
      return none
    let suffix ← int last
    if suffix = 0 ∨ size = 0 then
      throw (.notSatisfiable size)
    return some ⟨max (size - suffix) 0, size - 1, size⟩
  let start ← int first
  let finish ← lastByte last size
  if last ≠ [] ∧ finish < start then
    return none
  if start ≥ size then
    throw (.notSatisfiable size)
  return some ⟨start, min finish (size - 1), size⟩

def resolveByteRange (header : Option Text) (size : Int) :
    Except RangeError (Option ByteRange) :=
  match header.bind fields with
  | none => .ok none
  | some (first, last) => resolveFields first last size

inductive Requested where
  | between (first last : Nat)
  | startingAt (first : Nat)
  | suffix (length : Nat)
deriving DecidableEq

def Requested.Covers (size : Int) : Requested → Int → Prop
  | between first last, offset => first ≤ offset ∧ offset ≤ last
  | startingAt first, offset => first ≤ offset
  | suffix length, offset => size - length ≤ offset

/-- How a request is written before and after the dash. -/
inductive Requested.Spelled : Requested → Text → Text → Prop where
  | between {first last : Text} (first_some : first ≠ [])
      (last_some : last ≠ []) (ordered : number first ≤ number last) :
      Spelled (.between (number first) (number last)) first last
  | startingAt {first : Text} (first_some : first ≠ []) :
      Spelled (.startingAt (number first)) first []
  | suffix {last : Text} (last_some : last ≠ []) :
      Spelled (.suffix (number last)) [] last

/-- The field has one range of bytes, with these digits before and after the
dash. -/
def Written (header : Option Text) (first last : Text) : Prop :=
  ∃ unit before after, header = some (unit ++ '=' :: (before ++ '-' :: after)) ∧
    lower (strip unit) = ['b', 'y', 't', 'e', 's'] ∧
    strip before = first ∧ strip after = last ∧
    first.all isDigit = true ∧ last.all isDigit = true

def Asks (header : Option Text) (requested : Requested) : Prop :=
  ∃ first last, Written header first last ∧ requested.Spelled first last

def Resolved (header : Option Text) (size : Int) : Except RangeError (Option ByteRange) → Prop
  | .ok none => ¬ ∃ requested, Asks header requested
  | .ok (some range) =>
    0 ≤ range.start ∧ range.start ≤ range.finish ∧ range.finish < size ∧
      range.size = size ∧ ∃ requested, Asks header requested ∧
        ∀ offset, range.start ≤ offset ∧ offset ≤ range.finish ↔
          requested.Covers size offset ∧ 0 ≤ offset ∧ offset < size
  | .error (.notSatisfiable told) =>
    told = size ∧ ∃ requested, Asks header requested ∧
      ¬ ∃ offset, requested.Covers size offset ∧ 0 ≤ offset ∧ offset < size
  | .error .value => False

/-- A number of the field has more digits than `int` reads. -/
def TooLong (header : Option Text) : Prop :=
  ∃ first last, Written header first last ∧
    (maxStrDigits < first.length ∨ maxStrDigits < last.length)

section

variable {header unit before after first last : Text} {size : Int}

theorem isDigits_iff {value : Text} :
    isDigits value true = true ↔ value.all isDigit = true := by
  unfold isDigits
  split
  case isTrue blank => simp [blank]
  case isFalse => rfl

theorem plain_of_digits {char : Char} {value : Text} (digits : (strip value).all isDigit = true)
    (visible : isSpace char = false) (other : isDigit char = false) :
    char ∉ value := by
  intro member
  have kept := List.all_eq_true.mp digits char (mem_strip member visible)
  rw [other] at kept
  cases kept

theorem plain_of_bytes
    (bytes : lower (strip unit) = ['b', 'y', 't', 'e', 's']) : '=' ∉ unit := by
  intro member
  have kept : '='.toLower ∈ lower (strip unit) :=
    List.mem_map_of_mem (mem_strip member rfl)
  rw [bytes] at kept
  exact absurd kept (by decide)

theorem fields_of_written (written : Written (some header) first last) :
    fields header = some (first, last) := by
  obtain ⟨unit, before, after, whole, bytes, rfl, rfl, first_digits, last_digits⟩ := written
  obtain rfl := Option.some.inj whole
  have dash : '-' ∉ before.dropWhile isSpace := fun member =>
    plain_of_digits first_digits rfl rfl ((List.dropWhile_sublist _).subset member)
  have equals : '=' ∉ unit.dropWhile isSpace := fun member =>
    plain_of_bytes bytes ((List.dropWhile_sublist _).subset member)
  have comma : ',' ∉ before ++ '-' :: after.rdropWhile isSpace := by
    have first_plain : ',' ∉ before := plain_of_digits first_digits rfl rfl
    have last_plain : ',' ∉ after := plain_of_digits last_digits rfl rfl
    have prefixed := List.rdropWhile_prefix isSpace after
    simp only [List.mem_append, List.mem_cons, not_or]
    exact ⟨first_plain, by decide, fun member =>
      last_plain (prefixed.subset member)⟩
  have cut : partition '=' (strip (unit ++ '=' :: (before ++ '-' :: after))) =
      ⟨unit.dropWhile isSpace, true, before ++ '-' :: after.rdropWhile isSpace⟩ := by
    rw [strip_around rfl, rdropWhile_around rfl]
    exact partition_cut equals
  have range : partition '-' (strip (before ++ '-' :: after.rdropWhile isSpace)) =
      ⟨before.dropWhile isSpace, true, (after.rdropWhile isSpace).rdropWhile isSpace⟩ := by
    rw [strip_around rfl]
    exact partition_cut dash
  have first_read : isDigits (strip before) true = true :=
    (isDigits_iff).mpr first_digits
  have last_read : isDigits (strip after) true = true :=
    (isDigits_iff).mpr last_digits
  unfold fields
  simp only [cut, range, strip_dropWhile, strip_rdropWhile, bytes, comma, first_read, last_read]
  simp

theorem written_of_cuts (bytes : lower (strip (partition '=' (strip header)).before) =
      ['b', 'y', 't', 'e', 's'])
    (nonempty : (partition '=' (strip header)).after ≠ [])
    (found : (partition '-' (strip (partition '=' (strip header)).after)).found = true)
    (first_digits : (strip (partition '-'
      (strip (partition '=' (strip header)).after)).before).all isDigit = true)
    (last_digits : (strip (partition '-'
      (strip (partition '=' (strip header)).after)).after).all isDigit = true) :
    Written (some header)
      (strip (partition '-' (strip (partition '=' (strip header)).after)).before)
      (strip (partition '-' (strip (partition '=' (strip header)).after)).after) := by
  have equals : (partition '=' (strip header)).found = true := by
    apply decide_eq_true
    by_contra absent
    rw [partition_absent absent] at nonempty
    exact nonempty rfl
  obtain ⟨outer, _⟩ := partition_found equals
  obtain ⟨inner, _⟩ := partition_found found
  obtain ⟨lead, trail, front, back, whole⟩ := exists_strip header
  obtain ⟨left, right, left_spaces, right_spaces, spec⟩ :=
    exists_strip (partition '=' (strip header)).after
  generalize (partition '=' (strip header)).before = unit at *
  generalize (partition '=' (strip header)).after = ranges at *
  generalize (partition '-' (strip ranges)).before = before at *
  generalize (partition '-' (strip ranges)).after = after at *
  refine ⟨lead ++ unit, left ++ before, after ++ (right ++ trail), ?_, ?_, ?_,
    ?_, first_digits, last_digits⟩
  · rw [whole, outer, spec, inner]
    simp
  · have same := @strip_append lead unit [] front (by simp)
    rw [List.append_nil] at same
    rw [same, bytes]
  · have same := @strip_append left before [] left_spaces (by simp)
    rwa [List.append_nil] at same
  · have spaces : ∀ char ∈ right ++ trail, isSpace char = true := by
      intro char member
      rcases List.mem_append.mp member with inside | outside
      · exact right_spaces char inside
      · exact back char outside
    exact @strip_append [] after (right ++ trail) (by simp) spaces

theorem written_of_fields (read : fields header = some (first, last)) :
    Written (some header) first last := by
  unfold fields at read
  dsimp only at read
  split at read
  case isTrue => cases read
  case isFalse named =>
    split at read
    case isTrue => cases read
    case isFalse =>
      split at read
      case isTrue => cases read
      case isFalse digits =>
        split at read
        case isTrue => cases read
        case isFalse last_digits =>
          rw [not_or, not_not] at named
          rw [not_or, Bool.not_eq_false, Bool.not_eq_false] at digits
          rw [Bool.not_eq_false] at last_digits
          have same := Option.some.inj read
          rw [Prod.mk.injEq] at same
          obtain ⟨rfl, rfl⟩ := same
          exact written_of_cuts named.1 named.2 digits.1
            ((isDigits_iff).mp digits.2) ((isDigits_iff).mp last_digits)

theorem fields_iff : fields header = some (first, last) ↔ Written (some header) first last :=
  ⟨written_of_fields, fields_of_written⟩

variable {field : Option Text}

theorem written_iff : Written field first last ↔ field.bind fields = some (first, last) := by
  cases field with
  | none =>
    constructor
    · rintro ⟨_, _, _, absent, _⟩
      cases absent
    · intro read
      cases read
  | some header => exact (fields_iff).symm

theorem asks_iff (written : Written field first last) {requested : Requested} :
    Asks field requested ↔ requested.Spelled first last := by
  constructor
  · rintro ⟨other_first, other_last, other, spelled⟩
    have same := ((written_iff).mp written).symm.trans ((written_iff).mp other)
    cases same
    exact spelled
  · intro spelled
    exact ⟨first, last, written, spelled⟩

theorem tooLong_iff (written : Written field first last) : TooLong field ↔
      maxStrDigits < first.length ∨ maxStrDigits < last.length := by
  constructor
  · rintro ⟨other_first, other_last, other, long⟩
    have same := ((written_iff).mp written).symm.trans ((written_iff).mp other)
    cases same
    exact long
  · intro long
    exact ⟨first, last, written, long⟩

theorem int_long {digits : Text} (long : maxStrDigits < digits.length) :
    int digits = .error .value := if_pos long

theorem int_short {digits : Text} (short : ¬ maxStrDigits < digits.length) :
    int digits = .ok (number digits) := if_neg short

theorem resolveFields_long (long : maxStrDigits < first.length ∨ maxStrDigits < last.length) :
    resolveFields first last size = .error .value := by
  have nonempty : ∀ {digits : Text}, maxStrDigits < digits.length → digits ≠ [] := by
    rintro digits long rfl
    cases long
  unfold resolveFields
  by_cases first_long : maxStrDigits < first.length
  · rw [if_neg (nonempty first_long), int_long first_long]
    rfl
  · have last_long := long.resolve_left first_long
    have some_last := nonempty last_long
    by_cases blank : first = []
    · rw [if_pos blank, int_long last_long, if_neg some_last]
      rfl
    · rw [if_neg blank, int_short first_long, lastByte, if_neg some_last, int_long last_long]
      rfl

theorem resolveFields_suffix (short : ¬ maxStrDigits < last.length) (some_last : last ≠ []) :
    resolveFields [] last size =
      if (number last : Int) = 0 ∨ size = 0 then .error (.notSatisfiable size)
      else .ok (some ⟨max (size - number last) 0, size - 1, size⟩) := by
  unfold resolveFields
  rw [if_pos rfl, if_neg some_last, int_short short]
  change (if _ then _ else _ : Except RangeError (Option ByteRange)) = _
  rfl

theorem resolveFields_from (short : ¬ maxStrDigits < first.length) (some_first : first ≠ []) :
    resolveFields first [] size =
      if (number first : Int) ≥ size then .error (.notSatisfiable size)
      else .ok (some ⟨number first, min (size - 1) (size - 1), size⟩) := by
  unfold resolveFields
  rw [if_neg some_first, int_short short]
  rfl

theorem resolveFields_between (first_short : ¬ maxStrDigits < first.length)
    (last_short : ¬ maxStrDigits < last.length) (some_first : first ≠ [])
    (some_last : last ≠ []) :
    resolveFields first last size = if (number last : Int) < number first then .ok none
      else if (number first : Int) ≥ size then .error (.notSatisfiable size)
      else .ok (some ⟨number first, min (number last) (size - 1), size⟩) := by
  unfold resolveFields
  rw [if_neg some_first, int_short first_short, lastByte, if_neg some_last,
    int_short last_short]
  simp only [ne_eq, some_last, not_false_eq_true, true_and]
  rfl

theorem resolved_of_short {size : Nat} (written : Written field first last)
    (first_short : ¬ maxStrDigits < first.length)
    (last_short : ¬ maxStrDigits < last.length) :
    Resolved field size (resolveFields first last size) := by
  have asks : ∀ {requested : Requested}, requested.Spelled first last →
      Asks field requested := fun spelled => (asks_iff written).mpr spelled
  by_cases some_first : first = []
  · subst some_first
    by_cases some_last : last = []
    · subst some_last
      rintro ⟨requested, asked⟩
      have spelled := (asks_iff written).mp asked
      cases spelled with
      | between first_some => exact first_some rfl
      | startingAt first_some => exact first_some rfl
      | suffix last_some => exact last_some rfl
    · rw [resolveFields_suffix last_short some_last]
      have asked := asks (.suffix some_last)
      split
      case isTrue nothing =>
        refine ⟨rfl, _, asked, ?_⟩
        rintro ⟨offset, covered, _, _⟩
        unfold Requested.Covers at covered
        omega
      case isFalse some_bytes =>
        refine ⟨?_, ?_, ?_, rfl, _, asked, ?_⟩
        · exact le_max_right _ _
        · dsimp only
          omega
        · dsimp only
          omega
        · intro offset
          unfold Requested.Covers
          dsimp only
          omega
  · by_cases some_last : last = []
    · subst some_last
      rw [resolveFields_from first_short some_first]
      have asked := asks (.startingAt some_first)
      split
      case isTrue behind =>
        refine ⟨rfl, _, asked, ?_⟩
        rintro ⟨offset, covered, _, _⟩
        unfold Requested.Covers at covered
        omega
      case isFalse inside =>
        refine ⟨Int.natCast_nonneg _, ?_, ?_, rfl, _, asked, ?_⟩
        · dsimp only
          omega
        · dsimp only
          omega
        · intro offset
          unfold Requested.Covers
          dsimp only
          omega
    · rw [resolveFields_between first_short last_short some_first some_last]
      split
      case isTrue backwards =>
        rintro ⟨requested, asked⟩
        have spelled := (asks_iff written).mp asked
        cases spelled with
        | between _ _ ordered => omega
        | startingAt => exact some_last rfl
        | suffix => exact some_first rfl
      case isFalse ordered =>
        have asked := asks (.between some_first some_last (by omega))
        split
        case isTrue behind =>
          refine ⟨rfl, _, asked, ?_⟩
          rintro ⟨offset, covered, _, _⟩
          unfold Requested.Covers at covered
          omega
        case isFalse inside =>
          refine ⟨Int.natCast_nonneg _, ?_, ?_, rfl, _, asked, ?_⟩
          · dsimp only
            omega
          · dsimp only
            omega
          · intro offset
            unfold Requested.Covers
            dsimp only
            omega

end

/-- The function keeps its promise unless a number is too long for `int`. -/
theorem resolveByteRange_iff (header : Option Text) (size : Nat) :
    Resolved header size (resolveByteRange header size) ↔ ¬ TooLong header := by
  unfold resolveByteRange
  cases read : header.bind fields with
  | none =>
    have unwritten : ∀ first last, ¬ Written header first last := by
      intro first last written
      rw [(written_iff).mp written] at read
      cases read
    apply iff_of_true
    · rintro ⟨requested, first, last, written, _⟩
      exact unwritten first last written
    · rintro ⟨first, last, written, _⟩
      exact unwritten first last written
  | some parts =>
    have written : Written header parts.1 parts.2 := (written_iff).mpr read
    rw [tooLong_iff written]
    constructor
    · intro resolved long
      dsimp only at resolved
      rw [resolveFields_long long] at resolved
      exact resolved
    · intro short
      rw [not_or] at short
      exact resolved_of_short written short.1 short.2

def onesRange (count : Nat) : Text :=
  ['b', 'y', 't', 'e', 's'] ++ '=' :: (List.replicate count '1' ++ '-' :: [])

theorem onesRange_written (count : Nat) :
    Written (some (onesRange count)) (List.replicate count '1') [] := by
  refine ⟨['b', 'y', 't', 'e', 's'], List.replicate count '1', [], rfl,
    by decide, ?_, rfl, ?_, rfl⟩
  · apply strip_eq_self
    · intro char first
      rw [List.eq_of_mem_replicate (List.mem_of_mem_head? first)]
      rfl
    · intro char last
      rw [List.eq_of_mem_replicate (List.mem_of_getLast? last)]
      rfl
  · apply List.all_eq_true.mpr
    intro char member
    rw [List.eq_of_mem_replicate member]
    rfl

theorem onesRange_raises {count : Nat} (long : maxStrDigits < count) (size : Nat) :
    resolveByteRange (some (onesRange count)) size = .error .value := by
  have read : (some (onesRange count)).bind fields = some (List.replicate count '1', []) :=
    (written_iff).mp (onesRange_written count)
  have digits : maxStrDigits < (List.replicate count '1').length := by
    rwa [List.length_replicate]
  unfold resolveByteRange
  rw [read]
  exact resolveFields_long (.inl digits)

theorem long_range_raises : ∃ (header : Option Text) (size : Nat),
      resolveByteRange header size = .error .value ∧
        ¬ Resolved header size (resolveByteRange header size) := by
  have long : maxStrDigits < 4301 := by decide
  have raised := onesRange_raises long 0
  refine ⟨some (onesRange 4301), 0, raised, ?_⟩
  rw [raised]
  exact id

end TempestSdk.ByteRanges
