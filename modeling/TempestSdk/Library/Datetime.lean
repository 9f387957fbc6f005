import Mathlib.Data.Int.Basic

/-!
# Python's datetime arithmetic

Instants are microseconds from the epoch, and durations are microseconds.  A
duration beyond `timedelta` and an instant beyond `datetime` raise an
`OverflowError`.
-/

namespace PyDatetime

/-- `timedelta.min`. -/
def timedeltaMin : Int := -86399999913600000000

/-- `timedelta.max`. -/
def timedeltaMax : Int := 86399999999999999999

/-- `datetime.min`. -/
def datetimeMin : Int := -62135596800000000

/-- `datetime.max`. -/
def datetimeMax : Int := 253402300799999999

/-- `now + timedelta(microseconds=delay)`; `none` is an `OverflowError`. -/
def shift (now delay : Int) : Option Int :=
  if timedeltaMin ≤ delay ∧ delay ≤ timedeltaMax ∧
      datetimeMin ≤ now + delay ∧ now + delay ≤ datetimeMax then
    some (now + delay)
  else none

end PyDatetime
