import Mathlib.Algebra.Order.Ring.Rat

/-!
# Values and checks of the common library

`common/`: the error codes, the validation predicates and the tariff.

A C++ `int` is `Int32`, with its wrap-around. A `double` is its exact value,
or one of the values that are no number (`Double`); every comparison with
one of those is false, as in the code. Sums, distances and conversions of
doubles are not computed here: they belong to `Server.Platform`.
-/

namespace SharedBike.Common

/-! ## Doubles -/

inductive Double where
  | nan
  | inf (negative : Bool)
  | fin (q : ℚ)
  deriving DecidableEq

namespace Double

/-- `<=` of the language. -/
def le : Double → Double → Bool
  | .nan, _ => false
  | _, .nan => false
  | .inf true, _ => true
  | _, .inf true => false
  | _, .inf false => true
  | .inf false, .fin _ => false
  | .fin a, .fin b => decide (a ≤ b)

/-- `<` of the language. -/
def lt (a b : Double) : Bool := a.le b && !b.le a

/-- To the nearest integer, and to the even one from half way. -/
def roundHalfEven (q : ℚ) : Int :=
  let below := q.floor
  let rest := q - below
  if rest < 1 / 2 then below
  else if 1 / 2 < rest then below + 1
  else if below % 2 = 0 then below else below + 1

theorem roundHalfEven_bounds (q : ℚ) :
    q.floor ≤ roundHalfEven q ∧ roundHalfEven q ≤ q.floor + 1 := by
  unfold roundHalfEven
  dsimp only
  split
  · omega
  · split
    · omega
    · split <;> omega

/-- What `%.7f` writes, in units of the seventh decimal. The texts `nan` and
`inf` are no SQL literals. -/
def dec7 : Double → Option Int
  | .fin q => some (roundHalfEven (q * 10000000))
  | _ => none

end Double

/-! ## `bike/errors.hpp` -/

inductive ErrCode where
  | ok
  | invalidMsg
  | unauthorized
  | invalidData
  | methodNotAllowed
  | processFailed
  | bikeIsTook
  | bikeIsRunning
  | bikeIsDamaged
  | unknown
  deriving DecidableEq

namespace ErrCode

def code : ErrCode → Int32
  | .ok => 200
  | .invalidMsg => 400
  | .unauthorized => 401
  | .invalidData => 404
  | .methodNotAllowed => 405
  | .processFailed => 406
  | .bikeIsTook => 407
  | .bikeIsRunning => 408
  | .bikeIsDamaged => 409
  | .unknown => 0xFF

def toText : ErrCode → String
  | .ok => "ok"
  | .invalidMsg => "invalid message"
  | .unauthorized => "unauthorized (session expired)"
  | .invalidData => "invalid data"
  | .methodNotAllowed => "method not allowed"
  | .processFailed => "process failed"
  | .bikeIsTook => "bike is took"
  | .bikeIsRunning => "bike is running"
  | .bikeIsDamaged => "bike is damaged"
  | .unknown => "unknown"

end ErrCode

/-! ## `bike/validation.hpp` -/

/-- The length is counted in bytes. -/
def validBikeNo (s : String) : Bool := s.utf8ByteSize != 0 && s.utf8ByteSize ≤ 32

def validLat (lat : Double) : Bool := Double.le (.fin (-90)) lat && lat.le (.fin 90)

def validLng (lng : Double) : Bool := Double.le (.fin (-180)) lng && lng.le (.fin 180)

/-- A radius that is no number passes every test and comes back as it is. -/
def clampRadius (r : Double) : Double :=
  if r.le (.fin 0) then .fin 500
  else if r.lt (.fin 50) then .fin 50
  else if Double.lt (.fin 2000) r then .fin 2000
  else r

def clampLimit (n : Int32) : Int32 :=
  if n = 0 then 20
  else if n < 1 then 1
  else if n > 100 then 100
  else n

theorem clampLimit_bounds (n : Int32) :
    1 ≤ (clampLimit n).toInt ∧ (clampLimit n).toInt ≤ 100 := by
  unfold clampLimit
  split
  · decide
  · split
    · decide
    next hge =>
      split
      · decide
      next hle =>
        rw [Int32.lt_iff_toInt_lt] at hge
        rw [gt_iff_lt, Int32.lt_iff_toInt_lt] at hle
        exact ⟨Int.not_lt.mp hge, Int.not_lt.mp hle⟩

/-! ## `bike/pricing.hpp` -/

/-- The fee in cents; the error is the exception's text. -/
def computeFee (durationSec : Int32) : Except String Int32 :=
  if durationSec < 0 then .error "negative duration"
  else
    let baseSec : Int32 := 15 * 60
    let stepSec : Int32 := 15 * 60
    let fee : Int32 := 100
    if durationSec ≤ baseSec then .ok fee
    else
      let extraSec := durationSec - baseSec
      let extraChunks := (extraSec + stepSec - 1) / stepSec
      .ok (fee + extraChunks * 50)

/-- Small sums of `int`s do not wrap. -/
theorem toInt_add_of_range {a b : Int32} (hlo : -2 ^ 31 ≤ a.toInt + b.toInt)
    (hhi : a.toInt + b.toInt < 2 ^ 31) : (a + b).toInt = a.toInt + b.toInt := by
  rw [Int32.toInt_add]
  exact Int.bmod_eq_of_le (by omega) (by omega)

theorem toInt_sub_of_range {a b : Int32} (hlo : -2 ^ 31 ≤ a.toInt - b.toInt)
    (hhi : a.toInt - b.toInt < 2 ^ 31) : (a - b).toInt = a.toInt - b.toInt := by
  rw [Int32.toInt_sub]
  exact Int.bmod_eq_of_le (by omega) (by omega)

theorem toInt_neg_of_range {a : Int32} (h : -2 ^ 31 < a.toInt) : (-a).toInt = -a.toInt := by
  have := a.toInt_lt
  rw [Int32.toInt_neg]
  exact Int.bmod_eq_of_le (by omega) (by omega)

/-! The steps of `compute_fee` past the base time, over the integers: none of
them wraps. -/

section FeeSteps

variable {d : Int32}

theorem toInt_base : ((15 : Int32) * 60).toInt = 900 := by decide

theorem toInt_extraSec (hd : 900 < d.toInt) : (d - 15 * 60).toInt = d.toInt - 900 := by
  have hhi := d.toInt_lt
  rw [toInt_sub_of_range] <;> rw [toInt_base] <;> omega

theorem toInt_extraSec_add (hd : 900 < d.toInt) :
    (d - 15 * 60 + 15 * 60).toInt = d.toInt := by
  have hhi := d.toInt_lt
  rw [toInt_add_of_range] <;> rw [toInt_extraSec hd, toInt_base] <;> omega

theorem toInt_rounded (hd : 900 < d.toInt) :
    (d - 15 * 60 + 15 * 60 - 1).toInt = d.toInt - 1 := by
  have hhi := d.toInt_lt
  rw [toInt_sub_of_range] <;> rw [toInt_extraSec_add hd] <;> simp <;> omega

theorem toInt_extraChunks (hd : 900 < d.toInt) :
    ((d - 15 * 60 + 15 * 60 - 1) / (15 * 60)).toInt = (d.toInt - 1) / 900 := by
  have hhi := d.toInt_lt
  rw [Int32.toInt_div, toInt_rounded hd, toInt_base, Int.tdiv_eq_ediv_of_nonneg (by omega)]
  exact Int.bmod_eq_of_le (by omega) (by omega)

theorem toInt_surcharge (hd : 900 < d.toInt) :
    ((d - 15 * 60 + 15 * 60 - 1) / (15 * 60) * 50).toInt = (d.toInt - 1) / 900 * 50 := by
  have hhi := d.toInt_lt
  have hfifty : (50 : Int32).toInt = 50 := by decide
  rw [Int32.toInt_mul, toInt_extraChunks hd, hfifty]
  exact Int.bmod_eq_of_le (by omega) (by omega)

end FeeSteps

/-- The tariff over the integers; only a negative duration throws. -/
theorem computeFee_eq {d : Int32} (hd : 0 ≤ d.toInt) :
    ∃ fee, computeFee d = .ok fee ∧
      fee.toInt = if d.toInt ≤ 900 then 100 else 100 + (d.toInt - 1) / 900 * 50 := by
  have hneg : ¬ d < 0 := by
    rw [Int32.lt_iff_toInt_lt]
    exact not_lt.mpr hd
  unfold computeFee
  rw [if_neg hneg]
  by_cases hle : d ≤ 15 * 60
  · refine ⟨100, by simp only [hle, if_true], ?_⟩
    rw [Int32.le_iff_toInt_le, toInt_base] at hle
    rw [if_pos hle]
    decide
  · refine ⟨100 + (d - 15 * 60 + 15 * 60 - 1) / (15 * 60) * 50, by simp only [hle, if_false], ?_⟩
    have hhi := d.toInt_lt
    rw [Int32.le_iff_toInt_le, toInt_base] at hle
    rw [if_neg hle]
    have hhundred : (100 : Int32).toInt = 100 := by decide
    rw [toInt_add_of_range] <;> rw [toInt_surcharge (by omega), hhundred] <;> omega

/-- Every fee is at least the base fee, and far from the end of the range. -/
theorem computeFee_range {d fee : Int32} (h : computeFee d = .ok fee) :
    100 ≤ fee.toInt ∧ fee.toInt < 2 ^ 30 := by
  have hd : 0 ≤ d.toInt := by
    by_contra hneg
    have : d < 0 := by
      rw [Int32.lt_iff_toInt_lt]
      exact not_le.mp hneg
    simp [computeFee, this] at h
  obtain ⟨fee', hfee, heq⟩ := computeFee_eq hd
  rw [h] at hfee
  cases hfee
  have := d.toInt_lt
  split at heq <;> omega

/-- A fee is positive, so what is added to the balance is negative. -/
theorem neg_fee_neg {d fee : Int32} (h : computeFee d = .ok fee) : -fee < 0 := by
  obtain ⟨hlo, hhi⟩ := computeFee_range h
  rw [Int32.lt_iff_toInt_lt, toInt_neg_of_range (by omega)]
  change -fee.toInt < 0
  omega

end SharedBike.Common
