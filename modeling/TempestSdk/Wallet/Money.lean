import Mathlib.Algebra.Order.BigOperators.Group.List
import Mathlib.Data.Rat.Floor
import Mathlib.Tactic.Linarith
import TempestSdk.Library.PyDict

/-!
# Splits of a total

`split_net`: the platform takes its part of the total and the gateway its fee,
every payee takes basis points of the net, rounded down, and one payee takes
the rest.
-/

namespace TempestSdk.Wallet

def basisPointsPerUnit : Int := 10000

/-- A dictionary from payees to their basis points. -/
structure SharesBps where
  entries : List (String × Int)
  distinct : (entries.map Prod.fst).Nodup

def SharesBps.empty : SharesBps := ⟨[], List.nodup_nil⟩

structure NetSplit where
  total_cents : Int
  platform_cents : Int
  gateway_fee_cents : Int
  net_cents : Int
  shares : List (String × Int)
deriving DecidableEq

/-- What `split_net` refuses. -/
inductive SplitError where
  | negativeAmount
  | basisPointsOutOfRange
  | sharesAboveWhole
  | residualAmongShares
deriving DecidableEq

/-- The text of the `ValueError`. -/
def SplitError.message : SplitError → String
  | .negativeAmount => "amounts must not be negative"
  | .basisPointsOutOfRange => "basis points must be within 0..10000"
  | .sharesAboveWhole => "shares_bps add up to more than 10000"
  | .residualAmongShares => "residual_recipient must not appear in shares_bps"

/-- `amount * bps // BASIS_POINTS_PER_UNIT`. -/
def partOf (amount bps : Int) : Int := amount * bps / basisPointsPerUnit

def total (shares : List (String × Int)) : Int := (shares.map Prod.snd).sum

def splitNet (total_cents platform_bps gateway_fee_cents : Int)
    (residual_recipient : String) (shares_bps : Option SharesBps) :
    Except SplitError NetSplit :=
  let others := shares_bps.getD .empty
  if total_cents < 0 ∨ gateway_fee_cents < 0 then .error .negativeAmount
  else if ∃ value ∈ platform_bps :: others.entries.map Prod.snd,
      ¬ (0 ≤ value ∧ value ≤ basisPointsPerUnit) then
    .error .basisPointsOutOfRange
  else if basisPointsPerUnit < total others.entries then
    .error .sharesAboveWhole
  else if residual_recipient ∈ others.entries.map Prod.fst then
    .error .residualAmongShares
  else
    let platform_cents := partOf total_cents platform_bps
    let net_cents := max (total_cents - platform_cents - gateway_fee_cents) 0
    let shares := others.entries.map fun entry =>
      (entry.1, partOf net_cents entry.2)
    .ok {
      total_cents
      platform_cents
      gateway_fee_cents
      net_cents
      shares := PyDict.set shares residual_recipient (net_cents - total shares) }

theorem partOf_eq_floor (amount bps : Int) :
    partOf amount bps = ⌊(amount * bps / 10000 : ℚ)⌋ := by
  have exact := Rat.floor_intCast_div_natCast (amount * bps) 10000
  push_cast at exact
  exact exact.symm

theorem partOf_nonneg {amount bps : Int} (paid : 0 ≤ amount)
    (taken : 0 ≤ bps) : 0 ≤ partOf amount bps :=
  Int.ediv_nonneg (Int.mul_nonneg paid taken) (by decide)

theorem total_cons (share : String × Int) (shares : List (String × Int)) :
    total (share :: shares) = share.2 + total shares := by
  simp [total]

theorem total_append (first second : List (String × Int)) :
    total (first ++ second) = total first + total second := by
  simp [total]

theorem total_parts_le (net : Int) (entries : List (String × Int)) : basisPointsPerUnit *
        total (entries.map fun entry => (entry.1, partOf net entry.2)) ≤
      net * total entries := by
  induction entries with
  | nil => simp [total]
  | cons entry rest induction =>
    have down : basisPointsPerUnit * partOf net entry.2 ≤ net * entry.2 :=
      Int.mul_ediv_self_le (by decide)
    rw [List.map_cons, total_cons, total_cons, Int.mul_add, Int.mul_add]
    exact add_le_add down induction

theorem le_total_parts (net : Int) (entries : List (String × Int)) :
    net * total entries ≤ basisPointsPerUnit *
        total (entries.map fun entry => (entry.1, partOf net entry.2)) +
      (basisPointsPerUnit - 1) * entries.length := by
  induction entries with
  | nil => simp [total]
  | cons entry rest induction =>
    have up : net * entry.2 ≤
        basisPointsPerUnit * partOf net entry.2 + (basisPointsPerUnit - 1) := by
      have cut : net * entry.2 < basisPointsPerUnit * partOf net entry.2 + basisPointsPerUnit :=
        Int.lt_mul_ediv_self_add (by decide)
      omega
    rw [List.map_cons, total_cons, total_cons, Int.mul_add, Int.mul_add,
      List.length_cons, Nat.cast_add, Nat.cast_one, Int.mul_add, mul_one]
    linarith

theorem splitNet_ok {total_cents platform_bps gateway_fee_cents : Int}
    {residual_recipient : String} {shares_bps : Option SharesBps}
    {split : NetSplit}
    (accepted : splitNet total_cents platform_bps gateway_fee_cents
      residual_recipient shares_bps = .ok split) :
    (∀ bps ∈ (shares_bps.getD .empty).entries.map Prod.snd, 0 ≤ bps) ∧
      total (shares_bps.getD .empty).entries ≤ basisPointsPerUnit ∧
      residual_recipient ∉ (shares_bps.getD .empty).entries.map Prod.fst ∧
      split.net_cents = max (split.total_cents - split.platform_cents -
        split.gateway_fee_cents) 0 ∧
      split.shares = ((shares_bps.getD .empty).entries.map fun entry =>
          (entry.1, partOf split.net_cents entry.2)) ++
        [(residual_recipient, split.net_cents -
          total ((shares_bps.getD .empty).entries.map fun entry =>
            (entry.1, partOf split.net_cents entry.2)))] := by
  unfold splitNet at accepted
  dsimp only at accepted
  split at accepted
  next => cases accepted
  next =>
    split at accepted
    next => cases accepted
    next ranged =>
      split at accepted
      next => cases accepted
      next whole =>
        split at accepted
        next => cases accepted
        next apart =>
          cases accepted
          refine ⟨?_, not_lt.mp whole, apart, rfl, ?_⟩
          · intro bps member
            by_contra negative
            exact ranged ⟨bps, List.mem_cons_of_mem _ member, fun within => negative within.1⟩
          · apply if_neg
            rw [List.map_map]
            exact apart

def third : SharesBps := ⟨[("guide", 3333)], List.pairwise_singleton _ _⟩

end TempestSdk.Wallet
