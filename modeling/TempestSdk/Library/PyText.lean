import TempestSdk.Library.Numerals

/-!
# Texts of Python's standard types

`str` of dates, times, UUIDs and decimals, and the functions that read those
texts back.  Values carry their own bounds, so what is read is always a value.
Texts that `str` never makes and Python reads all the same, such as the basic
ISO formats, are not read here.  A datetime with a zone is kept in UTC.
-/

namespace PyText

open Numerals

def isLeap (year : Nat) : Bool :=
  year % 4 = 0 && (year % 100 ≠ 0 || year % 400 = 0)

def daysInMonth (year : Nat) : Nat → Nat
  | 2 => if isLeap year then 29 else 28
  | 4 | 6 | 9 | 11 => 30
  | _ => 31

structure Date where
  year : Nat
  month : Nat
  day : Nat
  in_year : 1 ≤ year ∧ year ≤ 9999
  in_month : 1 ≤ month ∧ month ≤ 12
  in_day : 1 ≤ day ∧ day ≤ daysInMonth year month
deriving DecidableEq

/-- `datetime.time`, without a zone. -/
structure Time where
  hour : Nat
  minute : Nat
  second : Nat
  microsecond : Nat
  in_day : hour < 24
  in_hour : minute < 60
  in_minute : second < 60
  in_second : microsecond < 1000000
deriving DecidableEq

structure Datetime where
  date : Date
  time : Time
  aware : Bool
deriving DecidableEq

abbrev Uuid := Fin (16 ^ 32)

/-- `decimal.Decimal`, when it is finite. -/
structure Decimal where
  negative : Bool
  coefficient : Nat
  exponent : Int
deriving DecidableEq

namespace Date

def isoformat (date : Date) : List Char :=
  fixed 10 4 date.year ++ '-' :: fixed 10 2 date.month ++ '-' :: fixed 10 2 date.day

def ofNumbers (year month day : Nat) : Option Date :=
  if given : (1 ≤ year ∧ year ≤ 9999) ∧ (1 ≤ month ∧ month ≤ 12) ∧
      1 ≤ day ∧ day ≤ daysInMonth year month then
    some ⟨year, month, day, given.1, given.2.1, given.2.2⟩
  else none

def fromisoformat : List Char → Option Date
  | [y₁, y₂, y₃, y₄, '-', m₁, m₂, '-', d₁, d₂] =>
    (read 10 [y₁, y₂, y₃, y₄]).bind fun year =>
      (read 10 [m₁, m₂]).bind fun month =>
        (read 10 [d₁, d₂]).bind (ofNumbers year month)
  | _ => none

end Date

namespace Time

def isoformat (time : Time) : List Char :=
  fixed 10 2 time.hour ++ ':' :: fixed 10 2 time.minute ++ ':' :: fixed 10 2 time.second ++
      if time.microsecond = 0 then [] else '.' :: fixed 10 6 time.microsecond

def ofNumbers (hour minute second microsecond : Nat) : Option Time :=
  if given : (hour < 24 ∧ minute < 60) ∧ second < 60 ∧ microsecond < 1000000 then
    some ⟨hour, minute, second, microsecond, given.1.1, given.1.2, given.2.1, given.2.2⟩
  else none

def fraction : List Char → Option Nat
  | [] => some 0
  | ['.', u₁, u₂, u₃, u₄, u₅, u₆] => read 10 [u₁, u₂, u₃, u₄, u₅, u₆]
  | _ => none

def fromisoformat : List Char → Option Time
  | h₁ :: h₂ :: ':' :: m₁ :: m₂ :: ':' :: s₁ :: s₂ :: rest =>
    (read 10 [h₁, h₂]).bind fun hour =>
      (read 10 [m₁, m₂]).bind fun minute =>
        (read 10 [s₁, s₂]).bind fun second =>
          (fraction rest).bind (ofNumbers hour minute second)
  | _ => none

end Time

namespace Datetime

def utcOffset : List Char := ['+', '0', '0', ':', '0', '0']

/-- `str`, which has a space between the date and the time. -/
def isoformat (datetime : Datetime) : List Char :=
  datetime.date.isoformat ++ ' ' :: datetime.time.isoformat ++
    if datetime.aware then utcOffset else []

def zoned (date : Date) (chars : List Char) : Option Datetime :=
  if chars.drop (chars.length - 6) = utcOffset then
    (Time.fromisoformat (chars.take (chars.length - 6))).map fun time =>
      ⟨date, time, true⟩
  else (Time.fromisoformat chars).map fun time => ⟨date, time, false⟩

def fromisoformat (chars : List Char) : Option Datetime :=
  (Date.fromisoformat (chars.take 10)).bind fun date =>
    zoned date (chars.drop 11)

/-- `to_utc`: a datetime without a zone is in UTC. -/
def toUtc (datetime : Datetime) : Datetime := { datetime with aware := true }

/-- `replace(tzinfo=None)`. -/
def naive (datetime : Datetime) : Datetime := { datetime with aware := false }

end Datetime

namespace Uuid

/-- `str`: groups of the 32 hexadecimal digits. -/
def str (uuid : Uuid) : List Char :=
  let digits := fixed 16 32 uuid.val
  digits.take 8 ++ '-' :: (digits.drop 8).take 4 ++
    '-' :: (digits.drop 12).take 4 ++ '-' :: (digits.drop 16).take 4 ++ '-' :: digits.drop 20

/-- `UUID(text)`, which does not look at the hyphens. -/
def parse (chars : List Char) : Option Uuid :=
  let digits := chars.filter fun char => char ≠ '-'
  if digits.length = 32 then
    (read 16 digits).bind fun number =>
      if small : number < 16 ^ 32 then some ⟨number, small⟩ else none
  else none

end Uuid

namespace Decimal

/-- `%+d`. -/
def signed (number : Int) : List Char :=
  (if number < 0 then '-' else '+') :: natural number.natAbs

def suffix (exponent : Int) : List Char :=
  if exponent = 0 then [] else 'E' :: signed exponent

def mantissa (digits : List Char) (dotplace : Int) : List Char :=
  if dotplace ≤ 0 then
    ['0'] ++ '.' :: (List.replicate dotplace.natAbs '0' ++ digits)
  else if digits.length ≤ dotplace then
    digits ++ List.replicate (dotplace - digits.length).toNat '0'
  else digits.take dotplace.toNat ++ '.' :: digits.drop dotplace.toNat

def leftdigits (decimal : Decimal) : Int :=
  decimal.exponent + (natural decimal.coefficient).length

def dotplace (decimal : Decimal) : Int :=
  if decimal.exponent ≤ 0 ∧ -6 < decimal.leftdigits then decimal.leftdigits
  else 1

/-- `to-scientific-string`. -/
def str (decimal : Decimal) : List Char :=
  (if decimal.negative then ['-'] else []) ++
    (mantissa (natural decimal.coefficient) decimal.dotplace ++
      suffix (decimal.leftdigits - decimal.dotplace))

def isDigit (char : Char) : Bool := (push 10 0 char).isSome

/-- `int` of the digits after a sign. -/
def parseSigned : List Char → Option Int
  | '+' :: digits => (read 10 digits).map Int.ofNat
  | '-' :: digits => (read 10 digits).map fun number : Nat => -(number : Int)
  | _ => none

def parseExponent : List Char → Option Int
  | [] => some 0
  | 'E' :: rest => parseSigned rest
  | _ => none

/-- The digits after the point, if there is one, and what follows. -/
def fractional : List Char → List Char × List Char
  | '.' :: rest => (rest.takeWhile isDigit, rest.dropWhile isDigit)
  | rest => ([], rest)

/-- `Decimal(text)` without its sign. -/
def parseUnsigned (negative : Bool) (chars : List Char) : Option Decimal :=
  let whole := chars.takeWhile isDigit
  let (part, rest) := fractional (chars.dropWhile isDigit)
  if whole ++ part = [] then none
  else (read 10 (whole ++ part)).bind fun coefficient =>
    (parseExponent rest).map fun exponent =>
      ⟨negative, coefficient, exponent - part.length⟩

def parse : List Char → Option Decimal
  | '-' :: chars => parseUnsigned true chars
  | chars => parseUnsigned false chars

theorem isDigit_natural {number : Nat} {char : Char}
    (member : char ∈ natural number) : isDigit char = true := by
  obtain ⟨value, small, rfl⟩ := mem_fixed (by decide) member
  simp [isDigit, push_digit (by decide) small]

theorem parseSigned_signed (number : Int) : parseSigned (signed number) = some number := by
  unfold signed
  split
  next negative =>
      change (read 10 (natural number.natAbs)).map
        (fun value : Nat => -(value : Int)) = some number
      rw [read_natural, Option.map_some, Option.some.injEq]
      omega
  next positive =>
      change (read 10 (natural number.natAbs)).map Int.ofNat = some number
      rw [read_natural, Option.map_some, Option.some.injEq, Int.ofNat_eq_natCast]
      omega

theorem parseExponent_suffix (exponent : Int) :
    parseExponent (suffix exponent) = some exponent := by
  unfold suffix
  split
  next zero => rw [zero]; rfl
  · exact parseSigned_signed exponent

theorem while_suffix (exponent : Int) : (suffix exponent).takeWhile isDigit = [] ∧
      (suffix exponent).dropWhile isDigit = suffix exponent := by
  unfold suffix
  split
  · exact ⟨rfl, rfl⟩
  · exact ⟨rfl, rfl⟩

theorem fractional_suffix (exponent : Int) :
    fractional (suffix exponent) = ([], suffix exponent) := by
  unfold suffix
  split <;> rfl

theorem parse_whole (negative : Bool) {digits : List Char} {coefficient : Nat} (exponent : Int)
    (all : ∀ char ∈ digits, isDigit char = true)
    (number : read 10 digits = some coefficient) (some_digit : digits ≠ []) :
    parseUnsigned negative (digits ++ suffix exponent) =
      some ⟨negative, coefficient, exponent⟩ := by
  obtain ⟨none_taken, all_left⟩ := while_suffix exponent
  simp only [parseUnsigned, List.takeWhile_append_of_pos all,
    List.dropWhile_append_of_pos all, none_taken, all_left, fractional_suffix,
    List.append_nil, some_digit, if_false, number, Option.bind_some,
    parseExponent_suffix, Option.map_some, List.length_nil]
  simp

theorem parse_point (negative : Bool) {whole part : List Char}
    {coefficient : Nat} (exponent : Int)
    (whole_digits : ∀ char ∈ whole, isDigit char = true)
    (part_digits : ∀ char ∈ part, isDigit char = true)
    (number : read 10 (whole ++ part) = some coefficient)
    (some_digit : whole ++ part ≠ []) :
    parseUnsigned negative (whole ++ '.' :: part ++ suffix exponent) =
      some ⟨negative, coefficient, exponent - part.length⟩ := by
  obtain ⟨none_taken, all_left⟩ := while_suffix exponent
  have point : isDigit '.' = false := by decide
  have parted : fractional ('.' :: (part ++ suffix exponent)) = (part, suffix exponent) := by
    simp only [fractional, List.takeWhile_append_of_pos part_digits,
      List.dropWhile_append_of_pos part_digits, none_taken, all_left,
      List.append_nil]
  simp only [parseUnsigned, List.append_assoc, List.cons_append,
    List.takeWhile_append_of_pos whole_digits,
    List.dropWhile_append_of_pos whole_digits, List.takeWhile_cons,
    List.dropWhile_cons, point, Bool.false_eq_true, if_false, List.append_nil,
    parted, some_digit, number, Option.bind_some, parseExponent_suffix,
    Option.map_some]

example : parse "-0.00120".toList = some ⟨true, 120, -5⟩ := by decide

end Decimal

end PyText
