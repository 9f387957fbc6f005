import Mathlib.Algebra.GroupWithZero.Nat
import Mathlib.Data.Nat.Log

/-!
# Parts behind their lengths

Each part follows its length in eight bytes, the highest first.  The parts are
read back from what they make together.
-/

namespace Framed

/-- `length.to_bytes(8, "big")`. -/
def lengthPrefix (length : Nat) : List UInt8 :=
  [length / 2 ^ 56, length / 2 ^ 48, length / 2 ^ 40, length / 2 ^ 32,
    length / 2 ^ 24, length / 2 ^ 16, length / 2 ^ 8, length].map UInt8.ofNat

def framed (parts : List (List UInt8)) : List UInt8 :=
  parts.flatMap fun part => lengthPrefix part.length ++ part

theorem framed_cons (part : List UInt8) (rest : List (List UInt8)) :
    framed (part :: rest) = lengthPrefix part.length ++ (part ++ framed rest) := by
  rw [framed, List.flatMap_cons, List.append_assoc]
  rfl

theorem toNat_congr {first second : Nat} (same : UInt8.ofNat first = UInt8.ofNat second) :
    first % 2 ^ 8 = second % 2 ^ 8 := by
  have values := congrArg UInt8.toNat same
  rwa [UInt8.toNat_ofNat', UInt8.toNat_ofNat'] at values

theorem lengthPrefix_injective {first second : Nat} (low : first < 2 ^ 64)
    (short : second < 2 ^ 64)
    (same : lengthPrefix first = lengthPrefix second) : first = second := by
  simp only [lengthPrefix, List.map_cons, List.map_nil, List.cons.injEq, and_true] at same
  obtain ⟨b7, b6, b5, b4, b3, b2, b1, b0⟩ := same
  have h7 := toNat_congr b7
  have h6 := toNat_congr b6
  have h5 := toNat_congr b5
  have h4 := toNat_congr b4
  have h3 := toNat_congr b3
  have h2 := toNat_congr b2
  have h1 := toNat_congr b1
  have h0 := toNat_congr b0
  omega

theorem framed_injective {first second : List (List UInt8)}
    (low : ∀ part ∈ first, part.length < 2 ^ 64)
    (short : ∀ part ∈ second, part.length < 2 ^ 64)
    (same : framed first = framed second) : first = second := by
  induction first generalizing second with
  | nil =>
    cases second with
    | nil => rfl
    | cons part rest =>
      rw [framed_cons] at same
      cases same
  | cons part rest induction =>
    cases second with
    | nil =>
      rw [framed_cons] at same
      cases same
    | cons other others =>
      rw [framed_cons, framed_cons] at same
      obtain ⟨lengths, remaining⟩ := List.append_inj same rfl
      have length := lengthPrefix_injective (low part List.mem_cons_self)
        (short other List.mem_cons_self) lengths
      obtain ⟨rfl, tails⟩ := List.append_inj remaining length
      rw [induction (fun part member =>
          low part (List.mem_cons_of_mem _ member))
        (fun part member => short part (List.mem_cons_of_mem _ member))
        tails]

end Framed
