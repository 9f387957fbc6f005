import Mathlib.Data.Int.Log
import Mathlib.Data.Rat.Floor
import TempestSdk.Library.PyDecimal

/-!
# The format `g` of Python

A positive number is rounded to six significant digits, halves to even, and
written without the zeros at its end: in fixed notation when its exponent is
between -4 and 5, and in scientific notation otherwise.  The text tells the
rounded number, and nothing else of the number.
-/

namespace PyFormat

open PyText Numerals PyDecimal

def significant (number : ℚ) : Nat × Int :=
  let exponent := Int.log 10 number
  let scaled := number / 10 ^ (exponent - 5)
  let digits := halfEven scaled.num.natAbs scaled.den
  if digits = 10 ^ 6 then (10 ^ 5, exponent + 1) else (digits, exponent)

def rounded (number : ℚ) : ℚ :=
  (significant number).1 * 10 ^ ((significant number).2 - 5)

def shortest (digits : Nat) : List Char :=
  (natural digits).rdropWhile fun char => char == '0'

def exponentText (exponent : Int) : List Char :=
  'e' :: (if exponent < 0 then '-' else '+') ::
    (if exponent.natAbs < 10 then '0' :: natural exponent.natAbs else natural exponent.natAbs)

def generalText (number : ℚ) : List Char :=
  let digits := shortest (significant number).1
  let exponent := (significant number).2
  if -4 ≤ exponent ∧ exponent < 6 then Decimal.mantissa digits (exponent + 1)
  else Decimal.mantissa digits 1 ++ exponentText exponent

/-- `format(number, "g")`. -/
def general (number : ℚ) : String := String.ofList (generalText number)

theorem halfEven_between {number divisor low high : Nat}
    (positive : 0 < divisor) (least : low * divisor ≤ number)
    (most : number < high * divisor) :
    low ≤ halfEven number divisor ∧ halfEven number divisor ≤ high := by
  have split := Nat.div_add_mod number divisor
  have below : low ≤ number / divisor :=
    (Nat.le_div_iff_mul_le positive).mpr least
  have above : number / divisor < high :=
    (Nat.div_lt_iff_lt_mul positive).mpr most
  have parity := Nat.mod_lt (number / divisor) (show 0 < 2 by decide)
  unfold halfEven
  dsimp only
  split_ifs
  · omega
  · omega
  · omega

theorem scaled_bounds {number : ℚ} (positive : 0 < number) :
    (10 : ℚ) ^ 5 ≤ number / 10 ^ (Int.log 10 number - 5) ∧
      number / 10 ^ (Int.log 10 number - 5) < (10 : ℚ) ^ 6 := by
  have low := @Int.zpow_log_le_self ℚ _ _ _ _ 10 number (by decide) positive
  have high := @Int.lt_zpow_succ_log_self ℚ _ _ _ _ 10 (by decide) number
  push_cast at low high
  have unit := ten_pos (Int.log 10 number - 5)
  constructor
  · apply (le_div_iff₀ unit).mpr
    rw [← zpow_natCast, ← zpow_add₀ (by norm_num)]
    simpa using low
  · apply (div_lt_iff₀ unit).mpr
    rw [← zpow_natCast, ← zpow_add₀ (by norm_num)]
    have same : ((6 : Nat) : Int) + (Int.log 10 number - 5) = Int.log 10 number + 1 := by
      push_cast
      ring
    rw [same]
    exact high

theorem significant_bounds {number : ℚ} (positive : 0 < number) :
    10 ^ 5 ≤ (significant number).1 ∧ (significant number).1 < 10 ^ 6 := by
  obtain ⟨low, high⟩ := scaled_bounds positive
  generalize scaled_eq : number / 10 ^ (Int.log 10 number - 5) = scaled at low high
  have den_pos : (0 : ℚ) < scaled.den := by exact_mod_cast scaled.den_pos
  have num_nonneg : 0 ≤ scaled.num := by
    apply Rat.num_nonneg.mpr
    linarith
  have value : (scaled.num.natAbs : ℚ) = scaled * scaled.den := by
    rw [Rat.mul_den_eq_num, ← Int.cast_natCast, Int.natAbs_of_nonneg num_nonneg]
  have least : 10 ^ 5 * scaled.den ≤ scaled.num.natAbs := by
    have bound := mul_le_mul_of_nonneg_right low den_pos.le
    rw [← value] at bound
    exact_mod_cast bound
  have most : scaled.num.natAbs < 10 ^ 6 * scaled.den := by
    have bound := mul_lt_mul_of_pos_right high den_pos
    rw [← value] at bound
    exact_mod_cast bound
  obtain ⟨below, above⟩ := halfEven_between scaled.den_pos least most
  unfold significant
  dsimp only
  rw [scaled_eq]
  split
  · omega
  · omega

theorem significant_of_value {digits others : Nat} {exponent other : Int}
    (low : 10 ^ 5 ≤ digits) (high : digits < 10 ^ 6)
    (other_low : 10 ^ 5 ≤ others) (other_high : others < 10 ^ 6)
    (same : (digits : ℚ) * 10 ^ (exponent - 5) = others * 10 ^ (other - 5)) :
    digits = others ∧ exponent = other := by
  have log_of : ∀ (digits : Nat) (exponent : Int), 10 ^ 5 ≤ digits → digits < 10 ^ 6 →
        Int.log 10 ((digits : ℚ) * 10 ^ (exponent - 5)) = exponent := by
    intro digits exponent low high
    have unit := ten_pos (exponent - 5)
    have positive : (0 : ℚ) < digits * 10 ^ (exponent - 5) := by
      apply mul_pos _ unit
      have nonzero : 0 < digits := by omega
      exact_mod_cast nonzero
    apply le_antisymm
    · apply Int.lt_add_one_iff.mp
      apply (Int.lt_zpow_iff_log_lt (by decide) positive).mp
      have bound : (digits : ℚ) < 10 ^ 6 := by exact_mod_cast high
      have scaled := mul_lt_mul_of_pos_right bound unit
      rw [← zpow_natCast, ← zpow_add₀ (by norm_num)] at scaled
      have whole : ((6 : Nat) : Int) + (exponent - 5) = exponent + 1 := by
        push_cast
        ring
      rw [whole] at scaled
      exact_mod_cast scaled
    · apply (Int.zpow_le_iff_le_log (by decide) positive).mp
      have bound : (10 : ℚ) ^ 5 ≤ digits := by exact_mod_cast low
      have scaled := mul_le_mul_of_nonneg_right bound unit.le
      rw [← zpow_natCast, ← zpow_add₀ (by norm_num)] at scaled
      have whole : ((5 : Nat) : Int) + (exponent - 5) = exponent := by
        push_cast
        ring
      rw [whole] at scaled
      exact_mod_cast scaled
  have exponents := congrArg (Int.log 10) same
  rw [log_of digits exponent low high, log_of others other other_low other_high] at exponents
  subst exponents
  have numbers := mul_right_cancel₀ (ten_pos (exponent - 5)).ne' same
  exact ⟨by exact_mod_cast numbers, rfl⟩

theorem foldlM_zeros (zeros number : Nat) :
    (List.replicate zeros '0').foldlM (push 10) number = some (number * 10 ^ zeros) := by
  induction zeros generalizing number with
  | zero => simp
  | succ zeros induction =>
    have shifted : push 10 number '0' = some (number * 10) := rfl
    rw [List.replicate_succ, List.foldlM_cons, shifted]
    change (List.replicate zeros '0').foldlM (push 10) (number * 10) = _
    rw [induction, Nat.mul_assoc, ← Nat.pow_succ']

theorem read_padded {chars : List Char} {number : Nat}
    (reads : read 10 chars = some number) (zeros : Nat) :
    read 10 (chars ++ List.replicate zeros '0') = some (number * 10 ^ zeros) := by
  unfold Numerals.read at reads ⊢
  rw [List.foldlM_append, reads]
  exact foldlM_zeros zeros number

theorem digit_zeros {zeros : Nat} {char : Char} (member : char ∈ List.replicate zeros '0') :
    Decimal.isDigit char = true := by
  rw [List.eq_of_mem_replicate member]
  rfl

theorem mantissa_value {chars : List Char} {number : Nat}
    (digits : ∀ char ∈ chars, Decimal.isDigit char = true)
    (reads : read 10 chars = some number) (some_digit : chars ≠ [])
    (dotplace : Int) :
    ∃ decimal, Decimal.parseUnsigned false (Decimal.mantissa chars dotplace) = some decimal ∧
      toRat decimal = number * 10 ^ (dotplace - chars.length) := by
  have bare : Decimal.suffix 0 = [] := rfl
  unfold Decimal.mantissa
  split
  case isTrue low =>
    have front : ∀ char ∈ ['0'], Decimal.isDigit char = true := by
      intro char member
      rw [List.mem_singleton.mp member]
      rfl
    have part : ∀ char ∈ List.replicate dotplace.natAbs '0' ++ chars,
        Decimal.isDigit char = true := by
      intro char member
      rcases List.mem_append.mp member with zero | digit
      · exact digit_zeros zero
      · exact digits char digit
    have padded : read 10 (['0'] ++
        (List.replicate dotplace.natAbs '0' ++ chars)) = some number :=
      (read_zeros (dotplace.natAbs + 1) chars).trans reads
    have parsed := Decimal.parse_point false 0 front part padded (by simp)
    rw [bare, List.append_nil] at parsed
    refine ⟨_, parsed, ?_⟩
    have place : (0 : Int) - (List.replicate dotplace.natAbs '0' ++ chars).length =
          dotplace - chars.length := by
      rw [List.length_append, List.length_replicate]
      omega
    rw [place]
    rfl
  case isFalse high =>
    split
    case isTrue short =>
      have all : ∀ char ∈ chars ++ List.replicate (dotplace - chars.length).toNat '0',
            Decimal.isDigit char = true := by
        intro char member
        rcases List.mem_append.mp member with digit | zero
        · exact digits char digit
        · exact digit_zeros zero
      have parsed := Decimal.parse_whole false 0 all (read_padded reads _)
        (by simp [some_digit])
      rw [bare, List.append_nil] at parsed
      refine ⟨_, parsed, ?_⟩
      have zeros : ((dotplace - chars.length).toNat : Int) =
          dotplace - chars.length := Int.toNat_of_nonneg (by omega)
      have value : ((number * 10 ^ (dotplace - chars.length).toNat : Nat) : ℚ) *
          10 ^ (0 : Int) = number * 10 ^ (dotplace - chars.length) := by
        rw [← zeros]
        simp
      exact value
    case isFalse long =>
      have both : read 10 (chars.take dotplace.toNat ++
          chars.drop dotplace.toNat) = some number := by
        rw [List.take_append_drop]
        exact reads
      have parsed := Decimal.parse_point false 0
        (fun char member => digits char (List.mem_of_mem_take member))
        (fun char member => digits char (List.mem_of_mem_drop member))
        both (by rw [List.take_append_drop]; exact some_digit)
      rw [bare, List.append_nil] at parsed
      refine ⟨_, parsed, ?_⟩
      have place : (0 : Int) - (chars.drop dotplace.toNat).length =
          dotplace - chars.length := by
        rw [List.length_drop]
        omega
      rw [place]
      rfl

theorem shortest_spec {digits : Nat} (low : 10 ^ 5 ≤ digits) (high : digits < 10 ^ 6) :
    ∃ number, read 10 (shortest digits) = some number ∧ shortest digits ≠ [] ∧
      (∀ char ∈ shortest digits, Decimal.isDigit char = true) ∧
      ∀ place : Int, (number : ℚ) *
        10 ^ (place - (shortest digits).length) = digits * 10 ^ (place - 6) := by
  have length : (natural digits).length = 6 := by
    unfold natural
    rw [length_fixed]
    have log := (Nat.log_eq_iff (.inl (by decide))).mpr
      ⟨low, high⟩
    rw [log]
  obtain ⟨zeros, parts⟩ : ∃ zeros,
      natural digits = shortest digits ++ List.replicate zeros '0' := by
    have zeros : (natural digits).rtakeWhile (fun char => char == '0') =
        List.replicate ((natural digits).rtakeWhile fun char =>
          char == '0').length '0' := by
      apply List.eq_replicate_of_mem
      intro char member
      simpa using List.mem_rtakeWhile_imp member
    refine ⟨((natural digits).rtakeWhile fun char => char == '0').length, ?_⟩
    rw [← zeros]
    exact List.rdropWhile_append_rtakeWhile.symm
  have whole := read_natural digits
  rw [parts] at whole
  unfold Numerals.read at whole
  rw [List.foldlM_append] at whole
  obtain ⟨number, reads, padded⟩ := Option.bind_eq_some_iff.mp whole
  rw [foldlM_zeros, Option.some.injEq] at padded
  have some_digit : shortest digits ≠ [] := by
    intro none_left
    rw [none_left] at reads
    cases reads
    omega
  refine ⟨number, reads, some_digit, ?_, ?_⟩
  · intro char member
    apply @Decimal.isDigit_natural digits
    rw [parts]
    exact List.mem_append_left _ member
  · intro place
    rw [parts, List.length_append, List.length_replicate] at length
    have split : place - (shortest digits).length = zeros + (place - 6) := by
      omega
    rw [split, zpow_add₀ (by norm_num), zpow_natCast, ← mul_assoc, ← padded]
    push_cast
    rfl

theorem mantissa_char {chars : List Char} {dotplace : Int} {char : Char}
    (digits : ∀ char ∈ chars, Decimal.isDigit char = true)
    (member : char ∈ Decimal.mantissa chars dotplace) :
    char = '.' ∨ Decimal.isDigit char = true := by
  unfold Decimal.mantissa at member
  split at member
  · simp only [List.cons_append, List.nil_append, List.mem_cons, List.mem_append] at member
    rcases member with rfl | rfl | zero | digit
    · exact .inr rfl
    · exact .inl rfl
    · exact .inr (digit_zeros zero)
    · exact .inr (digits char digit)
  · split at member
    · rcases List.mem_append.mp member with digit | zero
      · exact .inr (digits char digit)
      · exact .inr (digit_zeros zero)
    · rcases List.mem_append.mp member with digit | behind
      · exact .inr (digits char (List.mem_of_mem_take digit))
      · rcases List.mem_cons.mp behind with rfl | digit
        · exact .inl rfl
        · exact .inr (digits char (List.mem_of_mem_drop digit))

theorem parseSigned_exponentText (exponent : Int) :
    Decimal.parseSigned (exponentText exponent).tail = some exponent := by
  have digits : Numerals.read 10 (if exponent.natAbs < 10 then
      '0' :: natural exponent.natAbs else natural exponent.natAbs) = some exponent.natAbs := by
    split
    · exact (read_zeros 1 _).trans (read_natural _)
    · exact read_natural _
  unfold exponentText
  rw [List.tail_cons]
  split
  case isTrue negative =>
    change (Numerals.read 10 _).map (fun value : Nat => -(value : Int)) = _
    rw [digits, Option.map_some, Option.some.injEq]
    omega
  case isFalse positive =>
    change (Numerals.read 10 _).map Int.ofNat = _
    rw [digits, Option.map_some, Option.some.injEq, Int.ofNat_eq_natCast]
    omega

def read (text : List Char) : Option ℚ :=
  let front := text.takeWhile fun char => char ≠ 'e'
  match text.dropWhile fun char => char ≠ 'e' with
  | [] => (Decimal.parseUnsigned false front).map toRat
  | _ :: rest =>
    (Decimal.parseUnsigned false front).bind fun decimal =>
      (Decimal.parseSigned rest).map fun exponent =>
        toRat decimal * 10 ^ exponent

theorem read_generalText {number : ℚ} (positive : 0 < number) :
    read (generalText number) = some (rounded number) := by
  obtain ⟨low, high⟩ := significant_bounds positive
  obtain ⟨shown, reads, some_digit, digits, value⟩ := shortest_spec low high
  have plain : ∀ dotplace, ∀ char ∈ Decimal.mantissa (shortest (significant number).1) dotplace,
        decide (char ≠ 'e') = true := by
    intro dotplace char member
    apply decide_eq_true
    rintro rfl
    rcases mantissa_char digits member with point | digit
    · cases point
    · cases digit
  unfold generalText rounded
  dsimp only
  split
  case isTrue fixed =>
    obtain ⟨decimal, parsed, shows⟩ := mantissa_value digits reads some_digit
      ((significant number).2 + 1)
    unfold read
    dsimp only
    rw [List.takeWhile_eq_self_iff.mpr (plain _), List.dropWhile_eq_nil_iff.mpr (plain _)]
    dsimp only
    rw [parsed, Option.map_some, shows, value]
    have place : (significant number).2 + 1 - 6 = (significant number).2 - 5 := by
      ring
    rw [place]
  case isFalse scientific =>
    obtain ⟨decimal, parsed, shows⟩ := mantissa_value digits reads some_digit 1
    unfold read
    dsimp only
    have stops : decide (('e' : Char) ≠ 'e') = false := rfl
    have front : (Decimal.mantissa (shortest (significant number).1) 1 ++
        exponentText (significant number).2).takeWhile (fun char => decide (char ≠ 'e')) =
            Decimal.mantissa (shortest (significant number).1) 1 := by
      rw [List.takeWhile_append_of_pos (plain 1)]
      exact List.append_nil _
    have back : (Decimal.mantissa (shortest (significant number).1) 1 ++
        exponentText (significant number).2).dropWhile (fun char => decide (char ≠ 'e')) =
            'e' :: (exponentText (significant number).2).tail := by
      rw [List.dropWhile_append_of_pos (plain 1)]
      rfl
    rw [front, back]
    dsimp only
    rw [parsed, Option.bind_some, parseSigned_exponentText, Option.map_some,
      shows, value, mul_assoc, ← zpow_add₀ (by norm_num)]
    have place : (1 : Int) - 6 + (significant number).2 = (significant number).2 - 5 := by
      ring
    rw [place]

theorem general_eq_iff {number other : ℚ} (positive : 0 < number) (other_positive : 0 < other) :
    general number = general other ↔ rounded number = rounded other := by
  constructor
  · intro same
    have texts : generalText number = generalText other :=
      String.ofList_injective same
    have shown := read_generalText positive
    rw [texts, read_generalText other_positive] at shown
    exact (Option.some.inj shown).symm
  · intro same
    obtain ⟨low, high⟩ := significant_bounds positive
    obtain ⟨other_low, other_high⟩ := significant_bounds other_positive
    obtain ⟨digits, exponents⟩ := significant_of_value low high other_low other_high same
    have whole : significant number = significant other :=
      Prod.ext digits exponents
    unfold general generalText
    rw [whole]

theorem generalText_char {number : ℚ} (positive : 0 < number) {char : Char}
    (member : char ∈ generalText number) :
    char ∈ ['.', 'e', '+', '-'] ∨ Decimal.isDigit char = true := by
  obtain ⟨low, high⟩ := significant_bounds positive
  obtain ⟨shown, reads, some_digit, digits, value⟩ := shortest_spec low high
  unfold generalText at member
  dsimp only at member
  split at member
  · rcases mantissa_char digits member with rfl | digit
    · exact .inl (by decide)
    · exact .inr digit
  · rcases List.mem_append.mp member with front | back
    · rcases mantissa_char digits front with rfl | digit
      · exact .inl (by decide)
      · exact .inr digit
    · unfold exponentText at back
      rcases List.mem_cons.mp back with rfl | behind
      · exact .inl (by decide)
      · rcases List.mem_cons.mp behind with sign | exponent
        · rw [sign]
          split
          · exact .inl (by decide)
          · exact .inl (by decide)
        · split at exponent
          · rcases List.mem_cons.mp exponent with rfl | digit
            · exact .inr rfl
            · exact .inr (Decimal.isDigit_natural digit)
          · exact .inr (Decimal.isDigit_natural exponent)

example : general 1000000 = general 1000001 := by with_unfolding_all decide

end PyFormat
