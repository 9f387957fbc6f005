import Mathlib.Data.List.DropRight
import Mathlib.Tactic.IntervalCases

/-!
# Base64 for URLs

Bytes are written three at a time as four digits of six bits, and the rest is
padded with equality signs.  Without the padding the text still tells the bytes.
-/

namespace Base64

def digit (value : Nat) : Char :=
  if value < 26 then Char.ofNat (65 + value)
  else if value < 52 then Char.ofNat (71 + value)
  else if value < 62 then Char.ofNat (value - 4)
  else if value = 62 then '-'
  else '_'

def urlsafeB64encode : List UInt8 → List Char
  | [] => []
  | [first] => [digit (first.toNat / 4), digit (first.toNat % 4 * 16), '=', '=']
  | [first, second] =>
    [digit (first.toNat / 4), digit (first.toNat % 4 * 16 + second.toNat / 16),
      digit (second.toNat % 16 * 4), '=']
  | first :: second :: third :: rest =>
    digit (first.toNat / 4) :: digit (first.toNat % 4 * 16 + second.toNat / 16) ::
      digit (second.toNat % 16 * 4 + third.toNat / 64) ::
      digit (third.toNat % 64) :: urlsafeB64encode rest

def unpadded (bytes : List UInt8) : List Char :=
  (urlsafeB64encode bytes).rdropWhile fun char => char == '='

theorem digit_inj {value other : Nat} (small : value < 64)
    (other_small : other < 64) (same : digit value = digit other) :
    value = other := by
  have codes := congrArg Char.toNat same
  have code : ∀ value, value < 64 → (digit value).toNat =
      if value < 26 then 65 + value else if value < 52 then 71 + value
      else if value < 62 then value - 4 else if value = 62 then 45 else 95 := by
    decide
  rw [code value small, code other other_small] at codes
  split_ifs at codes <;> omega

theorem digit_ne_pad (value : Nat) : digit value ≠ '=' := by
  by_cases small : value < 64
  · have plain : ∀ value, value < 64 → digit value ≠ '=' := by decide
    exact plain value small
  · unfold digit
    rw [if_neg (by omega), if_neg (by omega), if_neg (by omega),
      if_neg (by omega)]
    decide

def digits : List UInt8 → List Char
  | [] => []
  | [first] => [digit (first.toNat / 4), digit (first.toNat % 4 * 16)]
  | [first, second] =>
    [digit (first.toNat / 4), digit (first.toNat % 4 * 16 + second.toNat / 16),
      digit (second.toNat % 16 * 4)]
  | first :: second :: third :: rest =>
    digit (first.toNat / 4) :: digit (first.toNat % 4 * 16 + second.toNat / 16) ::
      digit (second.toNat % 16 * 4 + third.toNat / 64) ::
      digit (third.toNat % 64) :: digits rest

theorem mem_digits {bytes : List UInt8} {char : Char}
    (member : char ∈ digits bytes) : ∃ value, char = digit value := by
  induction bytes using digits.induct with
  | case1 => cases member
  | case2 first =>
    simp only [digits, List.mem_cons, List.not_mem_nil, or_false] at member
    rcases member with rfl | rfl
    · exact ⟨_, rfl⟩
    · exact ⟨_, rfl⟩
  | case3 first second =>
    simp only [digits, List.mem_cons, List.not_mem_nil, or_false] at member
    rcases member with rfl | rfl | rfl
    · exact ⟨_, rfl⟩
    · exact ⟨_, rfl⟩
    · exact ⟨_, rfl⟩
  | case4 first second third rest induction =>
    simp only [digits, List.mem_cons] at member
    rcases member with rfl | rfl | rfl | rfl | later
    · exact ⟨_, rfl⟩
    · exact ⟨_, rfl⟩
    · exact ⟨_, rfl⟩
    · exact ⟨_, rfl⟩
    · exact induction later

theorem encode_eq (bytes : List UInt8) :
    ∃ pads, urlsafeB64encode bytes = digits bytes ++ List.replicate pads '=' := by
  induction bytes using digits.induct with
  | case1 => exact ⟨0, rfl⟩
  | case2 first => exact ⟨2, rfl⟩
  | case3 first second => exact ⟨1, rfl⟩
  | case4 first second third rest induction =>
    obtain ⟨pads, same⟩ := induction
    refine ⟨pads, ?_⟩
    simp only [urlsafeB64encode, digits, same, List.cons_append]

theorem unpadded_eq (bytes : List UInt8) : unpadded bytes = digits bytes := by
  obtain ⟨pads, same⟩ := encode_eq bytes
  have dropped : ∀ pads, (digits bytes ++ List.replicate pads '=').rdropWhile
      (fun char => char == '=') = digits bytes := by
    intro pads
    induction pads with
    | zero =>
      rw [List.replicate_zero, List.append_nil]
      apply List.rdropWhile_eq_self_iff.mpr
      intro nonempty
      obtain ⟨value, last⟩ := mem_digits (List.getLast_mem nonempty)
      rw [last]
      simpa using digit_ne_pad value
    | succ pads induction =>
      rw [List.replicate_succ', ← List.append_assoc, List.rdropWhile_concat_pos _ _ _ (by rfl)]
      exact induction
  unfold unpadded
  rw [same]
  exact dropped pads

theorem first_byte {first other : UInt8} {second fourth : Nat}
    (small : second < 16) (other_small : fourth < 16)
    (high : digit (first.toNat / 4) = digit (other.toNat / 4))
    (low : digit (first.toNat % 4 * 16 + second) = digit (other.toNat % 4 * 16 + fourth)) :
    first = other ∧ second = fourth := by
  have bound := first.toNat_lt
  have other_bound := other.toNat_lt
  have quotients := digit_inj (by omega) (by omega) high
  have rests := digit_inj (by omega) (by omega) low
  exact ⟨UInt8.toNat_inj.mp (by omega), by omega⟩

theorem second_byte {second other : UInt8} {third fourth : Nat}
    (small : third < 4) (other_small : fourth < 4)
    (high : second.toNat / 16 = other.toNat / 16)
    (low : digit (second.toNat % 16 * 4 + third) = digit (other.toNat % 16 * 4 + fourth)) :
    second = other ∧ third = fourth := by
  have rests := digit_inj (by omega) (by omega) low
  exact ⟨UInt8.toNat_inj.mp (by omega), by omega⟩

theorem digits_inj {bytes others : List UInt8}
    (same : digits bytes = digits others) : bytes = others := by
  induction bytes using digits.induct generalizing others with
  | case1 =>
    cases others using digits.fun_cases with
    | case1 => rfl
    | case2 first => cases same
    | case3 first second => cases same
    | case4 first second third rest => cases same
  | case2 first =>
    cases others using digits.fun_cases with
    | case1 => cases same
    | case2 other =>
      simp only [digits, List.cons.injEq, and_true] at same
      obtain ⟨bytes, _⟩ := @first_byte first other 0 0 (by decide)
        (by decide) same.1 same.2
      rw [bytes]
    | case3 other another => simp [digits] at same
    | case4 other another third rest => simp [digits] at same
  | case3 first second =>
    have bound := second.toNat_lt
    cases others using digits.fun_cases with
    | case1 => cases same
    | case2 other => simp [digits] at same
    | case3 other another =>
      have other_bound := another.toNat_lt
      simp only [digits, List.cons.injEq, and_true] at same
      obtain ⟨firsts, high⟩ := first_byte (by omega) (by omega) same.1
        same.2.1
      obtain ⟨seconds, _⟩ := @second_byte second another 0 0 (by decide)
        (by decide) high same.2.2
      rw [firsts, seconds]
    | case4 other another third rest => simp [digits] at same
  | case4 first second third rest induction =>
    have bound := second.toNat_lt
    have third_bound := third.toNat_lt
    cases others using digits.fun_cases with
    | case1 => cases same
    | case2 other => simp [digits] at same
    | case3 other another => simp [digits] at same
    | case4 other another last others =>
      have other_bound := another.toNat_lt
      have last_bound := last.toNat_lt
      simp only [digits, List.cons.injEq] at same
      obtain ⟨high, middle, low, final, behind⟩ := same
      obtain ⟨firsts, seconds_high⟩ := first_byte (by omega) (by omega)
        high middle
      obtain ⟨seconds, thirds_high⟩ := second_byte (by omega) (by omega)
        seconds_high low
      have thirds_low := digit_inj (by omega) (by omega) final
      have thirds : third = last := UInt8.toNat_inj.mp (by omega)
      rw [firsts, seconds, thirds, induction behind]

theorem unpadded_injective : Function.Injective unpadded := by
  intro bytes others same
  rw [unpadded_eq, unpadded_eq] at same
  exact digits_inj same

end Base64
