import Mathlib.Data.Int.Basic
import Mathlib.Tactic.Ring

/-!
# Signed numbers in chunks of bits

A signed number is folded onto the natural ones, the sign in the lowest bit.  A
natural number is read back from chunks of bits, the lowest first, by an
accumulator that each chunk is put above.
-/

namespace Zigzag

def fold (value : Int) : Nat :=
  if 2 * value < 0 then (-(2 * value) - 1).toNat else (2 * value).toNat

def unfold (folded : Nat) : Int :=
  if folded % 2 = 1 then -((folded / 2 : Nat) : Int) - 1 else (folded / 2 : Nat)

theorem unfold_fold (value : Int) : unfold (fold value) = value := by
  unfold Zigzag.fold Zigzag.unfold
  split
  · split
    · omega
    · omega
  · split
    · omega
    · omega

theorem or_shiftLeft {accumulator shift : Nat} (below : accumulator < 2 ^ shift) (chunk : Nat) :
    accumulator ||| (chunk <<< shift) = accumulator + chunk * 2 ^ shift := by
  rw [Nat.or_comm, Nat.shiftLeft_eq, Nat.mul_comm chunk, ← Nat.two_pow_add_eq_or_of_lt below]
  exact Nat.add_comm _ _

theorem add_chunk_lt {accumulator shift chunk width : Nat}
    (below : accumulator < 2 ^ shift) (narrow : chunk < 2 ^ width) :
    accumulator + chunk * 2 ^ shift < 2 ^ (shift + width) := by
  have room : (chunk + 1) * 2 ^ shift ≤ 2 ^ width * 2 ^ shift :=
    Nat.mul_le_mul_right _ narrow
  calc accumulator + chunk * 2 ^ shift
      < 2 ^ shift + chunk * 2 ^ shift := Nat.add_lt_add_right below _
    _ = (chunk + 1) * 2 ^ shift := by ring
    _ ≤ 2 ^ width * 2 ^ shift := room
    _ = 2 ^ (shift + width) := by rw [Nat.pow_add, Nat.mul_comm]

theorem chunk_add_rest (accumulator value shift width : Nat) :
    accumulator + value % 2 ^ width * 2 ^ shift + value / 2 ^ width * 2 ^ (shift + width) =
      accumulator + value * 2 ^ shift := by
  have parts := Nat.mod_add_div value (2 ^ width)
  calc accumulator + value % 2 ^ width * 2 ^ shift +
        value / 2 ^ width * 2 ^ (shift + width)
      = accumulator + (value % 2 ^ width + 2 ^ width * (value / 2 ^ width)) *
            2 ^ shift := by rw [Nat.pow_add]; ring
    _ = accumulator + value * 2 ^ shift := by rw [parts]

end Zigzag
