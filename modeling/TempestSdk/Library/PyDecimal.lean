import Mathlib.Algebra.Field.Rat
import Mathlib.Data.List.DropRight
import Mathlib.Data.Rat.Cast.Order
import Mathlib.Tactic.FieldSimp
import Mathlib.Tactic.Linarith
import Mathlib.Tactic.Positivity
import Mathlib.Tactic.Ring
import TempestSdk.Library.PyJson
import TempestSdk.Library.PyText

/-!
# Decimal arithmetic of Python

Numbers that `Decimal` makes of a text or of a triple, comparisons, rounding to
an integer and multiplication in a context.  Numbers are made exactly.  Products
are rounded half to even when they have too many digits.  A value of JSON is
read as `Decimal` reads it, and a float as its `repr`.
-/

namespace PyDecimal

open PyText Numerals

inductive Number where
  | finite (decimal : Decimal)
  | infinite (negative : Bool)
  | nan
deriving DecidableEq

def isSpace (char : Char) : Bool :=
  (9 ≤ char.toNat && char.toNat ≤ 13) || (28 ≤ char.toNat && char.toNat ≤ 32) ||
    (8192 ≤ char.toNat && char.toNat ≤ 8202) ||
    char.toNat ∈ [133, 160, 5760, 8232, 8233, 8239, 8287, 12288]

def zeros : List Nat :=
  [0x660, 0x6f0, 0x7c0, 0x966, 0x9e6, 0xa66, 0xae6, 0xb66, 0xbe6, 0xc66, 0xce6,
    0xd66, 0xde6, 0xe50, 0xed0, 0xf20, 0x1040, 0x1090, 0x17e0, 0x1810, 0x1946,
    0x19d0, 0x1a80, 0x1a90, 0x1b50, 0x1bb0, 0x1c40, 0x1c50, 0xa620, 0xa8d0,
    0xa900, 0xa9d0, 0xa9f0, 0xaa50, 0xabf0, 0xff10, 0x104a0, 0x10d30, 0x11066,
    0x110f0, 0x11136, 0x111d0, 0x112f0, 0x11450, 0x114d0, 0x11650, 0x116c0,
    0x11730, 0x118e0, 0x11950, 0x11c50, 0x11d50, 0x11da0, 0x11f50, 0x16a60,
    0x16ac0, 0x16b50, 0x1d7ce, 0x1d7d8, 0x1d7e2, 0x1d7ec, 0x1d7f6, 0x1e140,
    0x1e2f0, 0x1e4f0, 0x1e950, 0x1fbf0]

def toDecimal (char : Char) : Option Nat :=
  (zeros.find? fun first => first ≤ char.toNat && char.toNat < first + 10).map
    fun first => char.toNat - first

def asciiOf (char : Char) : Option Char :=
  if 0 < char.toNat ∧ char.toNat ≤ 127 then some char
  else if isSpace char then some ' '
  else (toDecimal char).map digit

def strip (text : List Char) : List Char :=
  (text.dropWhile isSpace).rdropWhile isSpace

theorem strip_strip (text : List Char) : strip (strip text) = strip text := by
  have front : (strip text).dropWhile isSpace = strip text := by
    cases stripped : strip text with
    | nil => rfl
    | cons first rest =>
      have inside : strip text <+: text.dropWhile isSpace :=
        List.rdropWhile_prefix isSpace _
      rw [stripped] at inside
      obtain ⟨more, whole⟩ := inside
      have kept := List.head_dropWhile_not isSpace (l := text)
        (by rw [← whole]; exact List.cons_ne_nil _ _)
      simp only [← whole, List.cons_append, List.head_cons] at kept
      exact List.dropWhile_cons_of_neg (by simp [kept])
  rw [strip, front]
  exact List.rdropWhile_idempotent isSpace _

/-- `numeric_as_ascii`: no spaces around it and no underscores. -/
def numericAsAscii (text : List Char) : Option (List Char) :=
  ((strip text).filter fun char => char ≠ '_').mapM asciiOf

def isDigits (chars : List Char) : Bool := chars.all Decimal.isDigit

def readDigits (chars : List Char) : Option Nat :=
  if chars ≠ [] ∧ isDigits chars then read 10 chars else none

def readSigned : List Char → Option Int
  | '+' :: digits => (readDigits digits).map Int.ofNat
  | '-' :: digits => (readDigits digits).map fun number : Nat => -(number : Int)
  | digits => (readDigits digits).map Int.ofNat

def readExponent : List Char → Option Int
  | [] => some 0
  | mark :: rest => if mark = 'e' ∨ mark = 'E' then readSigned rest else none

def maxEmax : Int := 999999999999999999

/-- Python's `len(str(coefficient))`. -/
def width (coefficient : Nat) : Nat := Nat.log 10 coefficient + 1

def adjusted (decimal : Decimal) : Int :=
  decimal.exponent + width decimal.coefficient - 1

def exactly (decimal : Decimal) : Option Number :=
  if adjusted decimal ≤ maxEmax ∧ -2 * maxEmax + 1 ≤ decimal.exponent ∧
      (width decimal.coefficient : Int) ≤ maxEmax then some (.finite decimal)
  else none

def readUnsigned (negative : Bool) (chars : List Char) : Option Number :=
  let whole := chars.takeWhile Decimal.isDigit
  let (part, rest) := Decimal.fractional (chars.dropWhile Decimal.isDigit)
  (readDigits (whole ++ part)).bind fun coefficient =>
    (readExponent rest).bind fun exponent =>
      exactly ⟨negative, coefficient, exponent - part.length⟩

def readSpecial (negative : Bool) (chars : List Char) : Option Number :=
  let lower := chars.map Char.toLower
  if lower = ['i', 'n', 'f'] ∨ lower = ['i', 'n', 'f', 'i', 'n', 'i', 't', 'y'] then
    some (.infinite negative)
  else if lower.take 3 = ['n', 'a', 'n'] ∧ isDigits (lower.drop 3) then
    some .nan
  else if lower.take 4 = ['s', 'n', 'a', 'n'] ∧ isDigits (lower.drop 4) then
    some .nan
  else none

def readNumber (negative : Bool) (chars : List Char) : Option Number :=
  (readSpecial negative chars).or (readUnsigned negative chars)

def readSign : List Char → Option Number
  | '-' :: chars => readNumber true chars
  | '+' :: chars => readNumber false chars
  | chars => readNumber false chars

/-- `Decimal(text)`. -/
def ofText (text : List Char) : Option Number :=
  (numericAsAscii text).bind readSign

/-- `Decimal(number)` of an `int`. -/
def ofInt (number : Int) : Decimal := ⟨number < 0, number.natAbs, 0⟩

open PyJson

variable {floats : FloatTexts}

/-- An `int` between the bounds; a `bool` is one. -/
def smallInt (bound : Nat) : Json floats → Option Nat
  | .bool truth => if truth.toNat ≤ bound then some truth.toNat else none
  | .int number => if 0 ≤ number ∧ number ≤ bound then some number.natAbs else none
  | _ => none

def itemsList : Items floats → List (Json floats)
  | .nil => []
  | .cons item rest => item :: itemsList rest

def ofDigits : Json floats → Option Nat
  | .list items => (itemsList items).foldlM
      (fun number item =>
        (smallInt 9 item).map fun value => number * 10 + value) 0
  | _ => none

/-- `Decimal((sign, digits, exponent))`. -/
def ofTriple (sign digits exponent : Json floats) : Option Number :=
  (smallInt 1 sign).bind fun sign =>
    (ofDigits digits).bind fun coefficient =>
      match exponent with
      | .str ['F'] => some (.infinite (sign = 1))
      | .str ['n'] | .str ['N'] => some .nan
      | .int exponent => exactly ⟨sign = 1, coefficient, exponent⟩
      | .bool truth => exactly ⟨sign = 1, coefficient, truth.toNat⟩
      | _ => none

/-- `Decimal(repr(value))` of a float and `Decimal(value)` of the others. -/
def ofJson : Json floats → Option Number
  | .bool truth => some (.finite (ofInt truth.toNat))
  | .int number => some (.finite (ofInt number))
  | .float number => ofText number.text
  | .str text => ofText text
  | .list (.cons sign (.cons digits (.cons exponent .nil))) => ofTriple sign digits exponent
  | _ => none

def signed (negative : Bool) (magnitude : ℚ) : ℚ :=
  if negative then -magnitude else magnitude

def toRat (decimal : Decimal) : ℚ :=
  signed decimal.negative (decimal.coefficient * 10 ^ decimal.exponent)

def halfEven (number divisor : Nat) : Nat :=
  let quotient := number / divisor
  let remainder := number % divisor
  if 2 * remainder < divisor then quotient
  else if divisor < 2 * remainder then quotient + 1
  else quotient + quotient % 2

def toIntegralValue (decimal : Decimal) : Decimal :=
  if 0 ≤ decimal.exponent then decimal
  else ⟨decimal.negative, halfEven decimal.coefficient (10 ^ decimal.exponent.natAbs), 0⟩

def signedInt (negative : Bool) (magnitude : Nat) : Int :=
  if negative then -(magnitude : Int) else magnitude

/-- `int(decimal)`, which drops the fraction. -/
def toInt (decimal : Decimal) : Int :=
  signedInt decimal.negative (if 0 ≤ decimal.exponent then
      decimal.coefficient * 10 ^ decimal.exponent.natAbs
    else decimal.coefficient / 10 ^ decimal.exponent.natAbs)

/-- The number is `to_integral_value()` of it. -/
def Whole (decimal : Decimal) : Prop :=
  toRat decimal = toRat (toIntegralValue decimal)

instance (decimal : Decimal) : Decidable (Whole decimal) :=
  inferInstanceAs (Decidable (_ = _))

theorem ten_pos (exponent : Int) : (0 : ℚ) < 10 ^ exponent :=
  zpow_pos (by norm_num) exponent

theorem grid (coefficient : Nat) {fine exponent : Int} (finer : fine ≤ exponent) :
    (coefficient : ℚ) * 10 ^ exponent =
      ((coefficient * 10 ^ (exponent - fine).natAbs : Nat) : ℚ) * 10 ^ fine := by
  have apart : exponent = ((exponent - fine).natAbs : Int) + fine := by omega
  have split : (10 : ℚ) ^ exponent = 10 ^ (exponent - fine).natAbs * 10 ^ fine := by
    rw [← zpow_natCast, ← zpow_add₀ (by norm_num), ← apart]
  rw [split]
  push_cast
  ring

theorem signed_inj {negative : Bool} {left right : ℚ} :
    signed negative left = signed negative right ↔ left = right := by
  cases negative with
  | false => exact Iff.rfl
  | true => exact neg_inj

theorem cast_signedInt (negative : Bool) (magnitude : Nat) :
    ((signedInt negative magnitude : Int) : ℚ) = signed negative magnitude := by
  cases negative with
  | false => simp [signedInt, signed]
  | true => simp [signedInt, signed]

theorem abs_toRat (decimal : Decimal) :
    |toRat decimal| = decimal.coefficient * 10 ^ decimal.exponent := by
  have magnitude : (0 : ℚ) ≤ decimal.coefficient * 10 ^ decimal.exponent :=
    mul_nonneg (Nat.cast_nonneg _) (ten_pos _).le
  unfold toRat signed
  split
  · rw [abs_neg, abs_of_nonneg magnitude]
  · exact abs_of_nonneg magnitude

theorem halfEven_mul (quotient : Nat) {divisor : Nat} (positive : 0 < divisor) :
    halfEven (quotient * divisor) divisor = quotient := by
  simp [halfEven, Nat.mul_div_cancel _ positive, Nat.mul_mod_left, positive]

theorem halfEven_exact {number divisor : Nat} (positive : 0 < divisor) :
    halfEven number divisor * divisor = number ↔ divisor ∣ number := by
  constructor
  · intro multiple
    exact ⟨halfEven number divisor, by rw [Nat.mul_comm, multiple]⟩
  · rintro ⟨quotient, rfl⟩
    rw [Nat.mul_comm divisor, halfEven_mul quotient positive]

theorem toRat_ofInt (number : Int) : toRat (ofInt number) = number := by
  have value : (signedInt (decide (number < 0)) number.natAbs : Int) = number := by
    unfold signedInt
    by_cases negative : number < 0
    · rw [if_pos (decide_eq_true negative)]
      omega
    · rw [if_neg (by simpa using negative)]
      omega
  have cast := cast_signedInt (decide (number < 0)) number.natAbs
  rw [value] at cast
  simpa [toRat, ofInt] using cast.symm

theorem whole_small {decimal : Decimal} (small : ¬ 0 ≤ decimal.exponent) :
    Whole decimal ↔ 10 ^ decimal.exponent.natAbs ∣ decimal.coefficient := by
  have positive : 0 < 10 ^ decimal.exponent.natAbs := by positivity
  have finer := grid (halfEven decimal.coefficient (10 ^ decimal.exponent.natAbs))
      (Int.le_of_lt (Int.not_le.mp small))
  rw [zero_sub, Int.natAbs_neg] at finer
  rw [Whole, toIntegralValue, if_neg small, toRat, toRat, signed_inj, finer,
    mul_left_inj' (ten_pos _).ne', Nat.cast_inj, eq_comm]
  exact halfEven_exact positive

theorem toInt_whole {decimal : Decimal} (whole : Whole decimal) :
    (toInt decimal : ℚ) = toRat decimal := by
  rw [toInt, cast_signedInt, toRat, signed_inj]
  by_cases large : 0 ≤ decimal.exponent
  · have finer := grid decimal.coefficient large
    simpa [large] using finer.symm
  · obtain ⟨quotient, product⟩ := (whole_small large).mp whole
    have finer := grid quotient (Int.le_of_lt (Int.not_le.mp large))
    rw [zero_sub, Int.natAbs_neg, zpow_zero, mul_one] at finer
    rw [if_neg large, product, Nat.mul_div_cancel_left quotient (by positivity),
      finer, Nat.mul_comm]

theorem whole_of_int {decimal : Decimal} {number : Int}
    (value : toRat decimal = number) : Whole decimal := by
  by_cases large : 0 ≤ decimal.exponent
  · simp [Whole, toIntegralValue, large]
  · rw [whole_small large]
    have magnitude := abs_toRat decimal
    have finer := grid number.natAbs (Int.le_of_lt (Int.not_le.mp large))
    rw [zero_sub, Int.natAbs_neg, zpow_zero, mul_one, Nat.cast_natAbs, Int.cast_abs] at finer
    rw [value, finer, mul_left_inj' (ten_pos _).ne', Nat.cast_inj] at magnitude
    exact ⟨number.natAbs, by rw [← magnitude, Nat.mul_comm]⟩

theorem whole_ofInt (number : Int) : Whole (ofInt number) := by
  simp [Whole, toIntegralValue, ofInt]

structure Context where
  prec : Nat
  emin : Int
  emax : Int

def defaultContext : Context := ⟨28, -999999, 999999⟩

namespace Context

variable (context : Context)

def etiny : Int := context.emin - context.prec + 1

def least (decimal : Decimal) : Int :=
  max (decimal.exponent + width decimal.coefficient - context.prec) context.etiny

def rounded (decimal : Decimal) : Decimal :=
  if context.least decimal ≤ decimal.exponent then decimal
  else ⟨decimal.negative, halfEven decimal.coefficient
      (10 ^ (context.least decimal - decimal.exponent).natAbs),
    context.least decimal⟩

/-- Rounding to the context, which raises `Overflow`. -/
def fix (decimal : Decimal) : Option Decimal :=
  if decimal.coefficient ≠ 0 ∧ context.emax < adjusted (context.rounded decimal) then none
  else some (context.rounded decimal)

def exactProduct (left right : Decimal) : Decimal :=
  ⟨left.negative ^^ right.negative, left.coefficient * right.coefficient,
    left.exponent + right.exponent⟩

/-- `left * right`. -/
def mul (left right : Decimal) : Option Decimal :=
  context.fix (exactProduct left right)

def Fits (value : ℚ) : Prop :=
  ∃ coefficient : Nat, ∃ exponent : Int, coefficient < 10 ^ context.prec ∧
    context.etiny ≤ exponent ∧ |value| = coefficient * 10 ^ exponent

theorem lt_width (coefficient : Nat) : coefficient < 10 ^ width coefficient :=
  Nat.lt_pow_succ_log_self (by decide) coefficient

theorem rounded_kept {decimal : Decimal} (small : ¬ context.least decimal ≤ decimal.exponent) :
    toRat (context.rounded decimal) = toRat decimal ↔
      10 ^ (context.least decimal - decimal.exponent).natAbs ∣ decimal.coefficient := by
  have positive : 0 < 10 ^ (context.least decimal - decimal.exponent).natAbs := by
    positivity
  have finer := grid (halfEven decimal.coefficient
    (10 ^ (context.least decimal - decimal.exponent).natAbs))
      (Int.le_of_lt (Int.not_le.mp small))
  rw [rounded, if_neg small, toRat, toRat, signed_inj, finer,
    mul_left_inj' (ten_pos _).ne', Nat.cast_inj]
  exact halfEven_exact positive

theorem least_bounds (decimal : Decimal) : context.etiny ≤ context.least decimal ∧
      decimal.exponent + width decimal.coefficient - context.prec ≤ context.least decimal :=
  ⟨le_max_right _ _, le_max_left _ _⟩

theorem fits_of_rounded {decimal : Decimal}
    (kept : toRat (context.rounded decimal) = toRat decimal) :
    context.Fits (toRat decimal) := by
  obtain ⟨tiny, wide⟩ := context.least_bounds decimal
  have digits := lt_width decimal.coefficient
  by_cases large : context.least decimal ≤ decimal.exponent
  · refine ⟨decimal.coefficient, decimal.exponent, ?_, by omega,
      abs_toRat decimal⟩
    exact Nat.lt_of_lt_of_le digits (Nat.pow_le_pow_right (by decide) (by omega))
  · obtain ⟨quotient, product⟩ := (context.rounded_kept large).mp kept
    refine ⟨quotient, context.least decimal, ?_, tiny, ?_⟩
    · have bound : 10 ^ width decimal.coefficient ≤
          10 ^ (context.least decimal - decimal.exponent).natAbs * 10 ^ context.prec := by
        rw [← Nat.pow_add]
        exact Nat.pow_le_pow_right (by decide) (by omega)
      rw [product] at digits bound
      exact Nat.lt_of_mul_lt_mul_left (Nat.lt_of_lt_of_le digits bound)
    · rw [abs_toRat, grid quotient (Int.le_of_lt (Int.not_le.mp large)), product, Nat.mul_comm]

theorem rounded_of_fits {decimal : Decimal} (fits : context.Fits (toRat decimal)) :
    toRat (context.rounded decimal) = toRat decimal := by
  obtain ⟨coefficient, exponent, digits, tiny, value⟩ := fits
  rw [abs_toRat] at value
  by_cases large : context.least decimal ≤ decimal.exponent
  · rw [rounded, if_pos large]
  rw [context.rounded_kept large]
  by_cases zero : decimal.coefficient = 0
  · rw [zero]
    exact Nat.dvd_zero _
  -- A coarser value is the multiple; a finer one has too few digits.
  by_cases coarse : context.least decimal ≤ exponent
  · have above : decimal.exponent ≤ exponent := by omega
    rw [grid coefficient above, mul_left_inj' (ten_pos _).ne', Nat.cast_inj] at value
    rw [value]
    exact (Nat.pow_dvd_pow 10 (by omega)).mul_left coefficient
  · have leading : 10 ^ (width decimal.coefficient - 1) ≤
        decimal.coefficient := Nat.pow_log_le_self 10 zero
    have least : context.least decimal =
        decimal.exponent + width decimal.coefficient - context.prec := by
      unfold Context.least at coarse ⊢
      omega
    have wide : 1 ≤ width decimal.coefficient := Nat.le_add_left _ _
    have low : (10 : ℚ) ^ (exponent + context.prec) ≤
        decimal.coefficient * 10 ^ decimal.exponent := by
      calc (10 : ℚ) ^ (exponent + context.prec)
          ≤ 10 ^ (((width decimal.coefficient - 1 : Nat) : Int) + decimal.exponent) :=
            zpow_le_zpow_right₀ (by norm_num) (by omega)
        _ = ((10 ^ (width decimal.coefficient - 1) : Nat) : ℚ) * 10 ^ decimal.exponent := by
            rw [zpow_add₀ (by norm_num), zpow_natCast]
            push_cast
            rfl
        _ ≤ decimal.coefficient * 10 ^ decimal.exponent := by
            have cast : ((10 ^ (width decimal.coefficient - 1) : Nat) : ℚ) ≤
              decimal.coefficient := Nat.cast_le.mpr leading
            exact mul_le_mul_of_nonneg_right cast (ten_pos _).le
    have high : (coefficient : ℚ) * 10 ^ exponent < 10 ^ (exponent + context.prec) := by
      have cast : (coefficient : ℚ) < 10 ^ context.prec := by
        exact_mod_cast digits
      rw [zpow_add₀ (by norm_num), zpow_natCast, mul_comm]
      exact mul_lt_mul_of_pos_left cast (ten_pos _)
    rw [value] at low
    exact absurd low (not_le.mpr high)

theorem toRat_product (left right : Decimal) :
    toRat (exactProduct left right) = toRat left * toRat right := by
  have power : (10 : ℚ) ^ (left.exponent + right.exponent) =
      10 ^ left.exponent * 10 ^ right.exponent := zpow_add₀ (by norm_num) _ _
  unfold toRat signed exactProduct
  rw [power]
  push_cast
  cases left.negative <;> cases right.negative <;> simp <;> ring

theorem mul_exact {left right product : Decimal}
    (multiplied : context.mul left right = some product) :
    toRat product = toRat left * toRat right ↔ context.Fits (toRat left * toRat right) := by
  unfold mul fix at multiplied
  split at multiplied
  next => cases multiplied
  next =>
    cases multiplied
    rw [← toRat_product]
    exact ⟨context.fits_of_rounded, context.rounded_of_fits⟩

end Context

end PyDecimal
