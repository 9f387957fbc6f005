import TempestSdk.Library.Zigzag
import Mathlib.Algebra.Order.Floor.Ring
import Mathlib.Data.Rat.Floor
import Mathlib.Tactic.Linarith
import Mathlib.Tactic.FieldSimp
import Mathlib.Tactic.NormNum

/-!
# Encoded polylines

The codec of `encode_polyline` and `decode_polyline`.  Degrees are rational
numbers and `round` takes a half to the even neighbour, so what the floating
point adds is left out; `decodePolyline` is `none` where the source raises: at
the end of the text inside a number, and for a coordinate out of range.
-/

namespace TempestSdk.Polyline

structure Coordinate where
  latitude : ℚ
  longitude : ℚ
  latitude_bounds : -90 ≤ latitude ∧ latitude ≤ 90
  longitude_bounds : -180 ≤ longitude ∧ longitude ≤ 180

def round (value : ℚ) : Int :=
  let below := ⌊value⌋
  if value - below < 1 / 2 then below
  else if 1 / 2 < value - below then below + 1
  else if below % 2 = 0 then below
  else below + 1

/-- The chunks of `_encode_signed`. -/
def chunks (value : Nat) : List Char :=
  if 0x20 ≤ value then
    Char.ofNat ((0x20 ||| (value &&& 0x1F)) + 63) :: chunks (value >>> 5)
  else [Char.ofNat (value + 63)]
termination_by value
decreasing_by
  rw [Nat.shiftRight_eq_div_pow]
  omega

def encodeSigned (value : Int) : List Char :=
  chunks (Zigzag.fold value)

def encodeFrom (factor : Nat) (prevLat prevLon : Int) : List Coordinate → List Char
  | [] => []
  | point :: points =>
    let lat := round (point.latitude * factor)
    let lon := round (point.longitude * factor)
    encodeSigned (lat - prevLat) ++ encodeSigned (lon - prevLon) ++
      encodeFrom factor lat lon points

def encodePolyline (points : List Coordinate) (precision : Nat) : List Char :=
  encodeFrom (10 ^ precision) 0 0 points

/-- The inner loop of `decode_polyline`: one number. -/
def decodeSigned (shift result : Nat) : List Char → Option (Int × List Char)
  | [] => none
  | char :: encoded =>
    let byte : Int := char.toNat - 63
    let result := result ||| ((byte % 0x20).toNat <<< shift)
    if byte < 0x20 then some (Zigzag.unfold result, encoded)
    else decodeSigned (shift + 5) result encoded

theorem decodeSigned_shortens {encoded rest : List Char} {shift result : Nat} {delta : Int}
    (decoded : decodeSigned shift result encoded = some (delta, rest)) :
    rest.length < encoded.length := by
  induction encoded generalizing shift result with
  | nil => cases decoded
  | cons char encoded induction =>
    unfold decodeSigned at decoded
    simp only at decoded
    split at decoded
    · cases decoded
      exact Nat.lt_succ_self _
    · have shorter := induction decoded
      exact Nat.lt_succ_of_lt shorter

def Coordinate.validate (latitude longitude : ℚ) : Option Coordinate :=
  if within : (-90 ≤ latitude ∧ latitude ≤ 90) ∧ (-180 ≤ longitude ∧ longitude ≤ 180) then
    some ⟨latitude, longitude, within.1, within.2⟩
  else none

def decodeFrom (factor : Nat) (lat lon : Int) (encoded : List Char) :
    Option (List Coordinate) :=
  if encoded = [] then some []
  else
    match _first : decodeSigned 0 0 encoded with
    | none => none
    | some (latDelta, middle) =>
      match _second : decodeSigned 0 0 middle with
      | none => none
      | some (lonDelta, rest) =>
        (Coordinate.validate ((lat + latDelta : Int) / factor)
          ((lon + lonDelta : Int) / factor)).bind fun point =>
            (decodeFrom factor (lat + latDelta) (lon + lonDelta) rest).map
              fun points => point :: points
termination_by encoded.length
decreasing_by
  have := decodeSigned_shortens _first
  have := decodeSigned_shortens _second
  omega

def decodePolyline (encoded : List Char) (precision : Nat) : Option (List Coordinate) :=
  decodeFrom (10 ^ precision) 0 0 encoded

theorem round_le {value : ℚ} {bound : Int} (le : value ≤ bound) : round value ≤ bound := by
  have floor_le : ⌊value⌋ ≤ bound := by
    have mono := Int.floor_mono le
    rwa [Int.floor_intCast] at mono
  rcases floor_le.lt_or_eq with less | same
  · unfold round
    simp only
    split
    · exact floor_le
    · split
      · exact less
      · split
        · exact floor_le
        · exact less
  · have whole : value - ⌊value⌋ < 1 / 2 := by
      rw [same]
      linarith
    unfold round
    simp only
    rw [if_pos whole]
    exact floor_le

theorem le_round {value : ℚ} {bound : Int} (le : (bound : ℚ) ≤ value) :
    bound ≤ round value := by
  have le_floor : bound ≤ ⌊value⌋ := Int.le_floor.mpr le
  unfold round
  simp only
  split
  · exact le_floor
  · split
    · omega
    · split
      · exact le_floor
      · omega

theorem quantised_bounds {value : ℚ} {limit factor : Nat} (positive : 0 < factor)
    (within : -(limit : ℚ) ≤ value ∧ value ≤ limit) :
    -(limit : ℚ) ≤ (round (value * factor) : ℚ) / factor ∧
      (round (value * factor) : ℚ) / factor ≤ limit := by
  have room : (0 : ℚ) < factor := by exact_mod_cast positive
  have upper : round (value * factor) ≤ (limit * factor : Nat) := by
    apply round_le
    push_cast
    exact mul_le_mul_of_nonneg_right within.2 room.le
  have lower : -((limit * factor : Nat) : Int) ≤ round (value * factor) := by
    apply le_round
    push_cast
    rw [← neg_mul]
    exact mul_le_mul_of_nonneg_right within.1 room.le
  have upper_rat : (round (value * factor) : ℚ) ≤ limit * factor := by
    exact_mod_cast upper
  have lower_rat : -((limit : ℚ) * factor) ≤ (round (value * factor) : ℚ) := by
    exact_mod_cast lower
  refine ⟨?_, ?_⟩
  · rw [le_div_iff₀ room, neg_mul]
    exact lower_rat
  · rw [div_le_iff₀ room]
    exact upper_rat

theorem factor_positive (precision : Nat) : 0 < 10 ^ precision :=
  Nat.pow_pos (by decide)

def quantised (precision : Nat) (point : Coordinate) : Coordinate where
  latitude := (round (point.latitude * (10 ^ precision : Nat)) : ℚ) / (10 ^ precision : Nat)
  longitude := (round (point.longitude * (10 ^ precision : Nat)) : ℚ) / (10 ^ precision : Nat)
  latitude_bounds :=
    @quantised_bounds _ 90 _ (factor_positive precision) point.latitude_bounds
  longitude_bounds :=
    @quantised_bounds _ 180 _ (factor_positive precision) point.longitude_bounds

theorem toNat_ofNat {code : Nat} (small : code < 0x80) : (Char.ofNat code).toNat = code := by
  have valid : code.isValidChar := .inl (by omega)
  rw [Char.ofNat, dif_pos valid]
  rfl

theorem decodeSigned_chunks (value shift result : Nat) (rest : List Char)
    (below : result < 2 ^ shift) :
    decodeSigned shift result (chunks value ++ rest) =
      some (Zigzag.unfold (result + value * 2 ^ shift), rest) := by
  induction value using Nat.strongRecOn generalizing shift result with
  | ind value induction =>
    rw [chunks]
    split
    case isTrue large =>
      have low : value &&& 0x1F = value % 0x20 :=
        Nat.and_two_pow_sub_one_eq_mod value 5
      have flagged : 0x20 ||| (value % 0x20) = 0x20 + value % 0x20 := by
        have chunk_lt : value % 2 ^ 5 < 2 ^ 5 := Nat.mod_lt _ (by decide)
        exact (Nat.two_pow_add_eq_or_of_lt chunk_lt 1).symm
      have code : (Char.ofNat ((0x20 ||| (value &&& 0x1F)) + 63)).toNat =
          0x20 + value % 0x20 + 63 := by
        rw [low, flagged]
        exact toNat_ofNat (by omega)
      have byte : ((0x20 + value % 0x20 + 63 : Nat) : Int) - 63 =
          ((0x20 + value % 0x20 : Nat) : Int) := by omega
      have chunk : (((0x20 + value % 0x20 : Nat) : Int) % 0x20).toNat =
          value % 2 ^ 5 := by omega
      have continues : ¬ ((0x20 + value % 0x20 : Nat) : Int) < 0x20 := by
        omega
      have smaller : value >>> 5 < value := by
        rw [Nat.shiftRight_eq_div_pow]
        omega
      rw [List.cons_append, decodeSigned]
      simp only [code, byte, chunk]
      rw [if_neg continues, Zigzag.or_shiftLeft below]
      rw [induction _ smaller (shift + 5) _ (Zigzag.add_chunk_lt below
        (Nat.mod_lt _ (by decide)))]
      rw [Nat.shiftRight_eq_div_pow, Zigzag.chunk_add_rest]
    case isFalse small =>
      have code : (Char.ofNat (value + 63)).toNat = value + 63 :=
        toNat_ofNat (by omega)
      have byte : ((value + 63 : Nat) : Int) - 63 = (value : Int) := by omega
      have chunk : ((value : Int) % 0x20).toNat = value := by omega
      have ends : (value : Int) < 0x20 := by omega
      rw [List.cons_append, List.nil_append, decodeSigned]
      simp only [code, byte, chunk]
      rw [if_pos ends, Zigzag.or_shiftLeft below]

theorem decodeSigned_encodeSigned (value : Int) (rest : List Char) :
    decodeSigned 0 0 (encodeSigned value ++ rest) = some (value, rest) := by
  unfold encodeSigned
  rw [decodeSigned_chunks _ 0 0 rest (by decide)]
  rw [Nat.zero_add, Nat.pow_zero, Nat.mul_one, Zigzag.unfold_fold]

theorem encodeSigned_ne_nil (value : Int) (rest : List Char) :
    encodeSigned value ++ rest ≠ [] := by
  unfold encodeSigned
  rw [chunks]
  split
  · exact List.cons_ne_nil _ _
  · exact List.cons_ne_nil _ _

theorem validate_quantised (precision : Nat) (point : Coordinate) :
    Coordinate.validate (quantised precision point).latitude
        (quantised precision point).longitude =
      some (quantised precision point) := by
  unfold Coordinate.validate
  rw [dif_pos ⟨(quantised precision point).latitude_bounds,
    (quantised precision point).longitude_bounds⟩]

theorem decodeFrom_turn {factor : Nat} {lat lon latDelta lonDelta : Int}
    {encoded middle rest : List Char} (some_left : encoded ≠ [])
    (first : decodeSigned 0 0 encoded = some (latDelta, middle))
    (second : decodeSigned 0 0 middle = some (lonDelta, rest)) :
    decodeFrom factor lat lon encoded = ((Coordinate.validate ((lat + latDelta : Int) / factor)
        ((lon + lonDelta : Int) / factor)).bind fun point =>
          (decodeFrom factor (lat + latDelta) (lon + lonDelta) rest).map
            fun points => point :: points) := by
  rw [decodeFrom, if_neg some_left]
  split
  case h_1 found =>
    rw [first] at found
    cases found
  case h_2 found =>
    rw [first] at found
    cases found
    split
    case h_1 found =>
      rw [second] at found
      cases found
    case h_2 found =>
      rw [second] at found
      cases found
      rfl

theorem decodeFrom_encodeFrom (precision : Nat) (points : List Coordinate) (lat lon : Int) :
    decodeFrom (10 ^ precision) lat lon (encodeFrom (10 ^ precision) lat lon points) =
      some (points.map (quantised precision)) := by
  induction points generalizing lat lon with
  | nil =>
    rw [encodeFrom, decodeFrom]
    rfl
  | cons point points induction =>
    have valid := validate_quantised precision point
    unfold quantised at valid
    rw [encodeFrom, List.append_assoc, decodeFrom_turn (encodeSigned_ne_nil _ _)
        (decodeSigned_encodeSigned _ _) (decodeSigned_encodeSigned _ _)]
    rw [add_sub_cancel, add_sub_cancel, induction, valid]
    rfl

/-- What is encoded is decoded to the points on the grid of the precision, and
a number is read from the front of any text it was written to. -/
theorem decode_encode (points : List Coordinate) (precision : Nat) :
    decodePolyline (encodePolyline points precision) precision =
        some (points.map (quantised precision)) ∧
      ∀ (first second : Int) (rest : List Char),
        decodeSigned 0 0 (encodeSigned first ++ (encodeSigned second ++ rest)) =
            some (first, encodeSigned second ++ rest) ∧
          decodeSigned 0 0 (encodeSigned second ++ rest) = some (second, rest) := by
  refine ⟨decodeFrom_encodeFrom precision points 0 0, ?_⟩
  intro first second rest
  exact ⟨decodeSigned_encodeSigned first _, decodeSigned_encodeSigned second _⟩

theorem round_grid (whole : Int) {factor : Nat} (positive : 0 < factor) :
    round ((whole : ℚ) / factor * factor) = whole := by
  have room : (factor : ℚ) ≠ 0 := Nat.cast_ne_zero.mpr positive.ne'
  rw [div_mul_cancel₀ _ room]
  exact le_antisymm (round_le le_rfl) (le_round le_rfl)

theorem encodeFrom_quantised (precision : Nat) (points : List Coordinate) (lat lon : Int) :
    encodeFrom (10 ^ precision) lat lon (points.map (quantised precision)) =
      encodeFrom (10 ^ precision) lat lon points := by
  induction points generalizing lat lon with
  | nil => rfl
  | cons point points induction =>
    have latitude : round ((quantised precision point).latitude * (10 ^ precision : Nat)) =
        round (point.latitude * (10 ^ precision : Nat)) :=
      round_grid _ (factor_positive precision)
    have longitude : round ((quantised precision point).longitude * (10 ^ precision : Nat)) =
        round (point.longitude * (10 ^ precision : Nat)) :=
      round_grid _ (factor_positive precision)
    rw [List.map_cons, encodeFrom, encodeFrom, latitude, longitude, induction]

end TempestSdk.Polyline
