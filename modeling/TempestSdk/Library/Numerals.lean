import Mathlib.Data.Nat.Log
import Mathlib.Tactic.IntervalCases

/-!
# Numerals of a fixed width

Numbers are written in a base of at most sixteen with a given number of digits,
and read back digit by digit.
-/

namespace Numerals

def digit (value : Nat) : Char :=
  if value < 10 then Char.ofNat (48 + value) else Char.ofNat (87 + value)

def digitValue (char : Char) : Option Nat :=
  if 48 ≤ char.toNat ∧ char.toNat ≤ 57 then some (char.toNat - 48)
  else if 97 ≤ char.toNat ∧ char.toNat ≤ 102 then some (char.toNat - 87)
  else if 65 ≤ char.toNat ∧ char.toNat ≤ 70 then some (char.toNat - 55)
  else none

def fixed (base : Nat) : Nat → Nat → List Char
  | 0, _ => []
  | width + 1, number => fixed base width (number / base) ++ [digit (number % base)]

def push (base number : Nat) (char : Char) : Option Nat :=
  (digitValue char).bind fun value =>
    if value < base then some (number * base + value) else none

def read (base : Nat) (chars : List Char) : Option Nat :=
  chars.foldlM (push base) 0

def natural (number : Nat) : List Char :=
  fixed 10 (Nat.log 10 number + 1) number

theorem digitValue_digit {value : Nat} (small : value < 16) :
    digitValue (digit value) = some value := by
  interval_cases value <;> rfl

theorem push_digit {base number value : Nat} (least : base ≤ 16) (small : value < base) :
    push base number (digit value) = some (number * base + value) := by
  simp [push, digitValue_digit (Nat.lt_of_lt_of_le small least), small]

@[simp] theorem length_fixed (base width number : Nat) :
    (fixed base width number).length = width := by
  induction width generalizing number with
  | zero => rfl
  | succ width induction => simp [fixed, induction]

theorem mem_fixed {base width number : Nat} {char : Char}
    (positive : 0 < base) (member : char ∈ fixed base width number) :
    ∃ value < base, char = digit value := by
  induction width generalizing number with
  | zero => cases member
  | succ width induction =>
    rcases List.mem_append.mp member with earlier | last
    · exact induction earlier
    · exact ⟨number % base, Nat.mod_lt _ positive, List.mem_singleton.mp last⟩

theorem foldlM_fixed {base : Nat} (least : base ≤ 16) (positive : 0 < base)
    (width number start : Nat) :
    (fixed base width number).foldlM (push base) start =
      some (start * base ^ width + number % base ^ width) := by
  induction width generalizing number with
  | zero => simp [fixed, Nat.mod_one]
  | succ width induction =>
    simp only [fixed, List.foldlM_append, induction, Option.bind_eq_bind,
      Option.bind_some, List.foldlM_cons, List.foldlM_nil]
    rw [push_digit least (Nat.mod_lt _ positive)]
    simp only [Option.bind_some, Option.pure_def, Option.some.injEq]
    have digits : number % base ^ (width + 1) =
        number / base % base ^ width * base + number % base := by
      rw [Nat.pow_succ, Nat.mul_comm, Nat.mod_mul, Nat.mul_comm, Nat.add_comm]
    rw [digits, Nat.pow_succ, Nat.add_mul, Nat.mul_assoc, Nat.add_assoc]

theorem read_fixed {base width number : Nat} (least : base ≤ 16)
    (positive : 0 < base) (small : number < base ^ width) :
    read base (fixed base width number) = some number := by
  rw [read, foldlM_fixed least positive, Nat.mod_eq_of_lt small]
  simp

theorem natural_small (number : Nat) : number < 10 ^ (Nat.log 10 number + 1) :=
  Nat.lt_pow_succ_log_self (by decide) number

theorem read_natural (number : Nat) : read 10 (natural number) = some number :=
  read_fixed (by decide) (by decide) (natural_small number)

theorem read_zeros (zeros : Nat) (chars : List Char) :
    read 10 (List.replicate zeros '0' ++ chars) = read 10 chars := by
  induction zeros with
  | zero => rfl
  | succ zeros induction =>
    rw [List.replicate_succ, List.cons_append]
    exact induction

end Numerals
